import PluginChain.Proofs.Registry
import PluginChain.Proofs.Service.Traffic

/-!
# When the store and the registry agree

The store and the registry agree on a name if the registry has a plugin of this name just when the store
has a record of it that compiles, and if the plugin then has the digest and the description of the record
(`Service.AgreesOn`).

The registry is changed last in a call, at a moment when the store may already hold something else: only
the calls that register a plugin keep others of their kind away.  What decides is the file that the last
change was drawn from.  Store and registry agree on a name just when the store still holds under this
name what that file held when the call was there (`Traffic.agreesOn_iff`).
-/

set_option autoImplicit false

namespace PluginChain

open Operation

/-! ## What store and registry have under a name -/

/-- What the registry and the store both tell of a plugin. -/
structure PluginView where
  digest : String
  description : String
  deriving Repr, DecidableEq

def CompiledPlugin.view (p : CompiledPlugin) : PluginView := ⟨p.digest, p.description⟩

def PluginRecord.view (r : PluginRecord) : PluginView := ⟨Digest.ofText r.source, r.description⟩

/-- What a file tells of the plugin of a name: nothing, unless it holds a record of that name which
compiles. -/
def viewIn (limits : Limits) (files : FileTree) (file : Place) (name : String) : Option PluginView :=
  match StoreM.recordAt? PluginRecord.codec files file with
  | some r =>
    if Text.trim r.name = Text.trim name ∧ compiles limits r.source then some r.view else none
  | none => none

namespace Service

def limits (s : Service) : Limits := s.engine.registry.limits

/-- What the registry tells of the plugin of a name. -/
def live (s : Service) (name : String) : Option PluginView :=
  (s.engine.registry.get? name).map CompiledPlugin.view

/-- The store has a file that tells this of the plugin of a name. -/
def Keeps (s : Service) (name : String) (v : PluginView) : Prop :=
  ∃ n, FileTree.suffix? n = some "json" ∧ viewIn s.limits s.files (s.store.plugins ++ [n]) name = some v

/-- The registry has what the store has, and nothing else. -/
def AgreesOn (s : Service) (name : String) : Prop := ∀ v, s.live name = some v ↔ s.Keeps name v

end Service

variable {limits : Limits} {files : FileTree} {file : Place} {name other : String}

theorem viewIn_congr (h : Text.trim name = Text.trim other) :
    viewIn limits files file name = viewIn limits files file other := by
  rw [viewIn, viewIn, h]

theorem viewIn_of_lookup_eq_none (h : files.lookup file = none) :
    viewIn limits files file name = none := by
  rw [viewIn, StoreM.recordAt?, h]

theorem viewIn_of_record (limits : Limits) {r : PluginRecord}
    (h : StoreM.recordAt? PluginRecord.codec files file = some r) :
    viewIn limits files file r.name = if compiles limits r.source then some r.view else none := by
  rw [viewIn, h]
  simp only [true_and]

theorem live_congr {s : Service} (h : Text.trim name = Text.trim other) : s.live name = s.live other := by
  rw [Service.live, Service.live, Registry.get?, Registry.get?, h]

/-! ## Plugins in the registry -/

namespace Registry

variable {r r' : Registry} {now : Instant} {given description source : String}

/-- A plugin that is registered compiles, and is found under its name. -/
theorem register_eq_ok {p : CompiledPlugin} (h : r.register now given description source = .ok (p, r')) :
    compiles r.limits source = true ∧ p.view = ⟨Digest.ofText source, description⟩ ∧
      p.name = Text.trim given ∧ r' = r.insert p := by
  rw [register] at h
  cases hname : nameOf given with
  | error e =>
    rw [hname] at h
    cases h
  | ok name =>
    rw [hname] at h
    cases hc : r.compile name source with
    | error e =>
      simp only [bind, Except.bind, hc] at h
      cases h
    | ok c =>
      obtain ⟨rfl, -, hself⟩ := nameOf_eq_ok hname
      obtain ⟨hcompiles, hdigest⟩ := compile_eq_ok hc
      simp only [bind, Except.bind, hc, install_of_nameOf hself] at h
      cases h
      refine ⟨hcompiles, ?_, rfl, rfl⟩
      rw [CompiledPlugin.view, hdigest]

end Registry

namespace Service

/-- The service with a plugin put into the registry. -/
theorem live_insert (s : Service) (p : CompiledPlugin) (n : String) :
    live { s with engine := { s.engine with registry := s.engine.registry.insert p } } n =
      if p.name = Text.trim n then some p.view else s.live n := by
  rw [live, Registry.get?_insert]
  split
  · rfl
  · rfl

theorem evict_of_none {given : String} {s : Service} (h : s.engine.registry.get? given = none) :
    evict given s = .ok false s := by
  simp only [evict, Registry.remove_of_none h]

/-- An eviction takes a plugin out of the registry, or there is none. -/
theorem evict_cases (given : String) (s : Service) :
    (∃ registry, s.engine.registry.remove given = .ok registry ∧
      evict given s = .ok true { s with engine := { s.engine with registry } }) ∨
    s.engine.registry.get? given = none ∧ evict given s = .ok false s := by
  rcases s.engine.registry.remove_cases given with ⟨registry, hremove, -⟩ | ⟨hnone, -⟩
  · exact Or.inl ⟨registry, hremove, by simp only [evict, hremove]⟩
  · exact Or.inr ⟨hnone, evict_of_none hnone⟩

/-- After an eviction there is nothing under the name, whether there was something or not. -/
theorem exists_evict (given : String) (s : Service) : ∃ found s', evict given s = .ok found s' ∧
    s'.limits = s.limits ∧ s'.store = s.store ∧
      ∀ n, s'.live n = if Text.trim given = Text.trim n then none else s.live n := by
  rcases evict_cases given s with ⟨registry, hremove, hevict⟩ | ⟨hnone, hevict⟩
  · refine ⟨true, _, hevict, Registry.limits_remove hremove, rfl, fun n => ?_⟩
    rw [live, Registry.get?_remove hremove]
    split
    · rfl
    · rfl
  · have hlive : s.live given = none := by
      rw [live, hnone]
      rfl
    refine ⟨false, s, hevict, rfl, rfl, fun n => ?_⟩
    split
    · next hn => rw [live_congr hn.symm, hlive]
    · rfl

end Service

/-! ## What the stages of a call know -/

/-- The plugin compiled under its own name. -/
structure Registration.Sound (r : Registration) (limits : Limits) : Prop where
  clock : r.now.Representable
  name : Registry.nameOf r.name = .ok r.name
  compiles : compiles limits r.source = true
  digest : r.compiled.digest = Digest.ofText r.source

def Registration.view (r : Registration) : PluginView := ⟨Digest.ofText r.source, r.description⟩

/-- The file held the record when it was read. -/
def Sighting.Sound (f : Sighting) : Prop :=
  StoreM.recordAt? PluginRecord.codec f.moment f.file = some f.record

def PluginCall.Fits : PluginCall → Prop
  | .register now _ _ _ => now.Representable
  | .remove _ | .load _ => True

/-- What a call knows about the files it was at. -/
def Stage.Sound (limits : Limits) (store : Store) : Stage → Prop
  | ready call => call.Fits
  | waiting r | admitted r => r.Sound limits
  | drafted r record => r.Sound limits ∧ record.name = r.name ∧ record.view = r.view ∧
      record.source = r.source ∧ record.createdAt.Representable ∧ record.updatedAt.Representable
  | kept r moment => r.Sound limits ∧
      viewIn limits moment (store.pluginFile r.name) r.name = some r.view
  | deleted given _ moment => viewIn limits moment (store.pluginFile given) given = none
  | reading _ _ found => ∀ f ∈ found, f.Sound
  | loading _ left _ => ∀ f ∈ left, f.Sound
  | returned _ => True

/-- What a step does: the registry under a name becomes what the call has drawn there. -/
structure Stage.Stepped (stage : Stage) (s : Service) (next : Stage) (s' : Service) : Prop where
  sound : next.Sound s.limits s.store
  limits : s'.limits = s.limits
  store : s'.store = s.store
  live : ∀ n, s'.live n =
    match stage.draws s with
    | none => s.live n
    | some (name, file, moment) =>
      if Text.trim n = Text.trim name then viewIn s.limits moment file n else s.live n

namespace Stage

variable {stage next : Stage} {s s' : Service}

theorem proceed_of_ok (h : stage.advance s = .ok next s') : stage.proceed s = (next, s') := by
  rw [proceed, h]

theorem proceed_of_error {e : ChainError} (h : stage.advance s = .error e s') :
    stage.proceed s = (returned (.error e), s') := by
  rw [proceed, h]

/-! ### What the steps of a registration come to -/

/-- A registration is refused before the store has a say, or its plugin is compiled. -/
theorem proceed_register (s : Service) (now : Instant) (given description source : String) :
    let stage := ready (.register now given description source)
    (∃ e, stage.proceed s = (returned (.error e), s)) ∨
      ∃ name c, Registry.nameOf given = .ok name ∧ s.engine.registry.compile name source = .ok c ∧
        stage.proceed s = (waiting ⟨now, name, description, source, c⟩, s) := by
  intro stage
  cases hname : Registry.nameOf given with
  | error e =>
    have hadvance : stage.advance s = .error e s := by
      simp only [stage, advance, hname]
      rfl
    exact Or.inl ⟨e, proceed_of_error hadvance⟩
  | ok name =>
    have hadvance : stage.advance s = ((do
        let compiled ← ofExcept (s.engine.registry.compile name source)
        return waiting ⟨now, name, description, source, compiled⟩) : ServiceM Stage) s := by
      simp only [stage, advance, hname]
      rfl
    cases hc : s.engine.registry.compile name source with
    | error e =>
      rw [hc] at hadvance
      exact Or.inl ⟨e, proceed_of_error hadvance⟩
    | ok c =>
      rw [hc] at hadvance
      exact Or.inr ⟨name, c, rfl, hc, proceed_of_ok hadvance⟩

/-- The store refuses to look at the old record, or there is a record to be kept. -/
theorem proceed_admitted (s : Service) (r : Registration) :
    (∃ e files, s.store.draftPlugin r.now r.record s.files = .error e files ∧
      (admitted r).proceed s = (returned (.error (.store e)), { s with files })) ∨
      ∃ record files, s.store.draftPlugin r.now r.record s.files = .ok record files ∧
        (admitted r).proceed s = (drafted r record, { s with files }) := by
  cases hdraft : s.store.draftPlugin r.now r.record s.files with
  | error e files =>
    exact Or.inl ⟨e, files, rfl, proceed_of_error <| bind_of_error
      (Service.onStore_of_error (f := fun store => store.draftPlugin r.now r.record) hdraft _) _⟩
  | ok record files =>
    exact Or.inr ⟨record, files, rfl, proceed_of_ok <| bind_of_ok
      (Service.onStore_of_ok (f := fun store => store.draftPlugin r.now r.record) hdraft _) _⟩

/-- The store refuses to keep the record, or it is kept. -/
theorem proceed_drafted (s : Service) (r : Registration) (record : PluginRecord) :
    (∃ e files, s.store.keepPlugin record s.files = .error e files ∧
      (drafted r record).proceed s = (returned (.error (.store e)), { s with files })) ∨
      ∃ files, s.store.keepPlugin record s.files = .ok () files ∧
        (drafted r record).proceed s = (kept r files, { s with files }) := by
  cases hkeep : s.store.keepPlugin record s.files with
  | error e files =>
    exact Or.inl ⟨e, files, rfl, proceed_of_error <| bind_of_error
      (Service.onStore_of_error (f := fun store => store.keepPlugin record) hkeep _) _⟩
  | ok u files =>
    exact Or.inr ⟨files, rfl, proceed_of_ok <| bind_of_ok
      (Service.onStore_of_ok (f := fun store => store.keepPlugin record) hkeep _) _⟩

/-- A plugin that is kept under its own name is installed. -/
theorem proceed_kept {r : Registration} (hname : Registry.nameOf r.name = .ok r.name) (s : Service)
    (moment : FileTree) :
    let plugin : CompiledPlugin := ⟨r.compiled, r.name, r.description, r.now⟩
    (kept r moment).proceed s = (returned (.ok (.info plugin.info)),
      { s with engine := { s.engine with registry := s.engine.registry.insert plugin } }) := by
  intro plugin
  refine proceed_of_ok (bind_of_ok (a := plugin) ?_ _)
  simp only [Service.onRegistry, Registry.install_of_nameOf hname]
  rfl

/-! ### What a step does -/

/-- A step that leaves the engine alone, in a stage that draws nothing. -/
theorem stepped_of_engine_eq (hdraws : stage.draws s = none) (hengine : s'.engine = s.engine)
    (hstore : s'.store = s.store) (hnext : next.Sound s.limits s.store) : stage.Stepped s next s' := by
  refine ⟨hnext, ?_, hstore, fun n => ?_⟩
  · rw [Service.limits, hengine]
    rfl
  · rw [hdraws, Service.live, hengine]
    rfl

/-- A step that puts into the registry, under one name, what the call has drawn there. -/
theorem stepped_of_drawn {name : String} {file : Place} {moment : FileTree}
    (hdraws : stage.draws s = some (name, file, moment)) (hlimits : s'.limits = s.limits)
    (hstore : s'.store = s.store) (hnext : next.Sound s.limits s.store)
    (hlive : ∀ n, s'.live n =
      if Text.trim name = Text.trim n then viewIn s.limits moment file name else s.live n) :
    stage.Stepped s next s' := by
  refine ⟨hnext, hlimits, hstore, fun n => ?_⟩
  rw [hlive, hdraws]
  by_cases hn : Text.trim n = Text.trim name
  · simp only [hn, if_true, viewIn_congr hn]
  · rw [if_neg fun h => hn h.symm]
    simp only [hn, if_false]

theorem stepped_register {now : Instant} {given description source : String}
    (h : now.Representable) :
    let stage := ready (.register now given description source)
    stage.Stepped s (stage.proceed s).1 (stage.proceed s).2 := by
  intro stage
  rcases proceed_register s now given description source with ⟨e, hproceed⟩ | ⟨name, c, hname, hc, hproceed⟩
  · rw [show stage.proceed s = _ from hproceed]
    exact stepped_of_engine_eq rfl rfl rfl trivial
  · obtain ⟨-, -, hself⟩ := Registry.nameOf_eq_ok hname
    obtain ⟨hcompiles, hdigest⟩ := Registry.compile_eq_ok hc
    rw [show stage.proceed s = _ from hproceed]
    exact stepped_of_engine_eq rfl rfl rfl ⟨h, hself, hcompiles, hdigest⟩

theorem stepped_admitted {r : Registration} (h : r.Sound s.limits) :
    (admitted r).Stepped s ((admitted r).proceed s).1 ((admitted r).proceed s).2 := by
  rcases proceed_admitted s r with ⟨e, files, -, hproceed⟩ | ⟨draft, files, hdraft, hproceed⟩
  · rw [hproceed]
    exact stepped_of_engine_eq rfl rfl rfl trivial
  · obtain ⟨hname, hdescription, hsource, hcreated, hupdated⟩ :=
      Store.draftPlugin_eq_ok hdraft h.clock h.clock
    rw [hproceed]
    refine stepped_of_engine_eq rfl rfl rfl ⟨h, hname, ?_, hsource, hcreated, hupdated⟩
    rw [PluginRecord.view, hsource, hdescription]
    rfl

theorem stepped_drafted {r : Registration} {record : PluginRecord}
    (h : (drafted r record).Sound s.limits s.store) :
    (drafted r record).Stepped s ((drafted r record).proceed s).1 ((drafted r record).proceed s).2 := by
  obtain ⟨hr, hname, hview, hsource, hcreated, hupdated⟩ := h
  rcases proceed_drafted s r record with ⟨e, files, -, hproceed⟩ | ⟨files, hkeep, hproceed⟩
  · rw [hproceed]
    exact stepped_of_engine_eq rfl rfl rfl trivial
  · have hrecord := Store.recordAt?_keepPlugin hkeep hcreated hupdated
    have hin := viewIn_of_record s.limits hrecord
    rw [hname, hsource, hr.compiles, if_pos rfl, hview] at hin
    rw [hproceed]
    exact stepped_of_engine_eq rfl rfl rfl ⟨hr, hin⟩

theorem stepped_kept {r : Registration} {moment : FileTree}
    (h : (kept r moment).Sound s.limits s.store) :
    (kept r moment).Stepped s ((kept r moment).proceed s).1 ((kept r moment).proceed s).2 := by
  obtain ⟨hr, hmoment⟩ := h
  obtain ⟨-, htrim, -⟩ := Registry.nameOf_eq_ok hr.name
  rw [proceed_kept hr.name]
  refine stepped_of_drawn rfl rfl rfl trivial fun n => ?_
  rw [Service.live_insert, hmoment, htrim, CompiledPlugin.view, Registration.view, ← hr.digest]

theorem stepped_remove {given : String} :
    (ready (.remove given)).Stepped s ((ready (.remove given)).proceed s).1
      ((ready (.remove given)).proceed s).2 := by
  rcases s.store.deletePlugin_cases given s.files with ⟨files, hdelete, hnone⟩ | ⟨hdelete, hnone⟩ |
    ⟨e, hnot, hdelete⟩
  · have hstored : Service.deleteStored given s = .ok true { s with files } := by
      simp only [Service.deleteStored, hdelete]
    have hadvance : (ready (.remove given)).advance s = .ok (deleted given true files) { s with files } :=
      bind_of_ok hstored _
    rw [proceed_of_ok hadvance]
    exact stepped_of_engine_eq rfl rfl rfl (viewIn_of_lookup_eq_none hnone)
  · have hstored : Service.deleteStored given s = .ok false s := by
      simp only [Service.deleteStored, hdelete]
      rfl
    have hadvance : (ready (.remove given)).advance s = .ok (deleted given false s.files) s :=
      bind_of_ok hstored _
    rw [proceed_of_ok hadvance]
    exact stepped_of_engine_eq rfl rfl rfl (viewIn_of_lookup_eq_none hnone)
  · have hstored : Service.deleteStored given s = .error (.store e) s := by
      simp only [Service.deleteStored, hdelete, hnot]
      rfl
    have hadvance : (ready (.remove given)).advance s = .error (.store e) s := bind_of_error hstored _
    rw [proceed_of_error hadvance]
    exact stepped_of_engine_eq rfl rfl rfl trivial

theorem stepped_deleted {given : String} {stored : Bool} {moment : FileTree}
    (h : (deleted given stored moment).Sound s.limits s.store) :
    (deleted given stored moment).Stepped s ((deleted given stored moment).proceed s).1
      ((deleted given stored moment).proceed s).2 := by
  obtain ⟨found, s', hevict, hlimits, hstore, hlive⟩ := Service.exists_evict given s
  have hproceed : ∃ r, (deleted given stored moment).proceed s = (returned r, s') := by
    have hadvance := bind_of_ok hevict fun evicted => do
      unless stored || evicted do throw (.pluginNotFound (Text.trim given))
      return returned (.ok .done)
    cases hany : stored || found with
    | true =>
      simp only [hany] at hadvance
      exact ⟨_, proceed_of_ok hadvance⟩
    | false =>
      simp only [hany] at hadvance
      exact ⟨_, proceed_of_error hadvance⟩
  obtain ⟨r, hr⟩ := hproceed
  rw [hr]
  refine stepped_of_drawn rfl hlimits hstore trivial fun n => ?_
  rw [hlive, show viewIn s.limits moment (s.store.pluginFile given) given = none from h]

theorem stepped_load {now : Instant} :
    (ready (.load now)).Stepped s ((ready (.load now)).proceed s).1 ((ready (.load now)).proceed s).2 := by
  cases hnames : StoreM.recordNames s.files s.store.plugins with
  | ok names =>
    have hadvance : (ready (.load now)).advance s = .ok (reading now names []) s :=
      bind_of_ok (Service.onStore_look_of_ok
        (f := fun store t => StoreM.recordNames t store.plugins) hnames _) _
    rw [proceed_of_ok hadvance]
    exact stepped_of_engine_eq rfl rfl rfl fun f hf => absurd hf List.not_mem_nil
  | error e =>
    have hadvance : (ready (.load now)).advance s = .error (.store (.file e)) s :=
      bind_of_error (Service.onStore_look_of_error
        (f := fun store t => StoreM.recordNames t store.plugins) hnames _) _
    rw [proceed_of_error hadvance]
    exact stepped_of_engine_eq rfl rfl rfl trivial

theorem stepped_reading {now : Instant} {left : List String} {found : List Sighting}
    (h : ∀ f ∈ found, f.Sound) :
    (reading now left found).Stepped s ((reading now left found).proceed s).1
      ((reading now left found).proceed s).2 := by
  cases left with
  | nil => exact stepped_of_engine_eq rfl rfl rfl h
  | cons name left =>
    cases hread : s.files.read (s.store.plugins ++ [name]) with
    | error e =>
      have hadvance : (reading now (name :: left) found).advance s = .error (.store (.file e)) s :=
        bind_of_error (Service.onStore_look_of_error (f := fun _ => _) hread _) _
      rw [proceed_of_error hadvance]
      exact stepped_of_engine_eq rfl rfl rfl trivial
    | ok text =>
      have hlook := Service.onStore_look_of_ok (s := s)
        (f := fun _ t => t.read (s.store.plugins ++ [name])) hread .store
      cases hrecord : PluginRecord.codec.ofJson text with
      | error why =>
        have hadvance : (reading now (name :: left) found).advance s = .ok (reading now left found) s := by
          refine (bind_of_ok hlook _).trans ?_
          simp only [hrecord]
          rfl
        rw [proceed_of_ok hadvance]
        exact stepped_of_engine_eq rfl rfl rfl h
      | ok record =>
        have hadvance : (reading now (name :: left) found).advance s = .ok (reading now left
            (found ++ [⟨record, s.store.plugins ++ [name], s.files⟩])) s := by
          refine (bind_of_ok hlook _).trans ?_
          simp only [hrecord]
          rfl
        rw [proceed_of_ok hadvance]
        have hsight : Sighting.Sound ⟨record, s.store.plugins ++ [name], s.files⟩ :=
          StoreM.recordAt?_eq_some_iff.2 ⟨text, FileTree.lookup_of_read hread, hrecord⟩
        refine stepped_of_engine_eq rfl rfl rfl fun f hf => ?_
        rcases List.mem_append.1 hf with hf | hf
        · exact h f hf
        · rw [List.mem_singleton.1 hf]
          exact hsight

theorem stepped_loading {now : Instant} {left : List Sighting} {report : LoadReport}
    (h : ∀ f ∈ left, f.Sound) :
    (loading now left report).Stepped s ((loading now left report).proceed s).1
      ((loading now left report).proceed s).2 := by
  cases left with
  | nil => exact stepped_of_engine_eq rfl rfl rfl trivial
  | cons f left =>
    have hleft : ∀ g ∈ left, g.Sound := fun g hg => h g (List.mem_cons_of_mem _ hg)
    cases hregister : s.engine.registry.register now f.record.name f.record.description
        f.record.source with
    | error e =>
      have hadvance : (loading now (f :: left) report).advance s = .ok (loading now left
          { report with skipped := report.skipped ++ [f.record.name] }) s := by
        simp only [advance, hregister]
      have hdraws : (loading now (f :: left) report).draws s = none := by
        simp only [draws, hregister]
      rw [proceed_of_ok hadvance]
      exact stepped_of_engine_eq hdraws rfl rfl hleft
    | ok installed =>
      obtain ⟨p, registry⟩ := installed
      obtain ⟨hcompiles, hview, hname, rfl⟩ := Registry.register_eq_ok hregister
      have hadvance : (loading now (f :: left) report).advance s = .ok (loading now left
          { report with loaded := report.loaded + 1 })
          { s with engine := { s.engine with registry := s.engine.registry.insert p } } := by
        simp only [advance, hregister]
      have hdraws : (loading now (f :: left) report).draws s =
          some (f.record.name, f.file, f.moment) := by
        simp only [draws, hregister]
      have hin := viewIn_of_record s.limits (h f List.mem_cons_self)
      rw [Service.limits, hcompiles, if_pos rfl] at hin
      rw [proceed_of_ok hadvance]
      refine stepped_of_drawn hdraws rfl rfl hleft fun n => ?_
      rw [Service.live_insert, hname, Service.limits, hin, hview]
      rfl

/-- **What a step does**, in a stage that knows what it knows. -/
theorem Sound.stepped (h : stage.Sound s.limits s.store) :
    stage.Stepped s (stage.proceed s).1 (stage.proceed s).2 := by
  cases stage with
  | ready call =>
    cases call with
    | register now given description source => exact stepped_register h
    | remove given => exact stepped_remove
    | load now => exact stepped_load
  | waiting r => exact stepped_of_engine_eq rfl rfl rfl h
  | admitted r => exact stepped_admitted h
  | drafted r record => exact stepped_drafted h
  | kept r moment => exact stepped_kept h
  | deleted given stored moment => exact stepped_deleted h
  | reading now left found => exact stepped_reading h
  | loading now left report => exact stepped_loading h
  | returned r => exact stepped_of_engine_eq rfl rfl rfl trivial

end Stage

/-! ## What the registry was drawn from -/

namespace Traffic

variable {s₀ : Service} {t t' : Traffic}

/-- The file that the registry under a name was drawn from last held this of the plugin, when the call
that did so was at that file.  Before there was such a call it is the store at the start. -/
def Drew (t : Traffic) (s₀ : Service) (name : String) (v : PluginView) : Prop :=
  match t.basis name with
  | none => s₀.Keeps name v
  | some (file, moment) => viewIn s₀.limits moment file name = some v

/-- What is true of calls that began in a service, however far they got. -/
structure Sound (s₀ : Service) (t : Traffic) : Prop where
  limits : t.service.limits = s₀.limits
  store : t.service.store = s₀.store
  stages : ∀ stage ∈ t.stages, stage.Sound s₀.limits s₀.store
  live : ∀ n v, t.service.live n = some v ↔ t.Drew s₀ n v

theorem sound_begin {calls : List PluginCall} (hfits : ∀ call ∈ calls, call.Fits)
    (hstart : ∀ n, s₀.AgreesOn n) : Sound s₀ (begin_ s₀ calls) := by
  refine ⟨rfl, rfl, fun stage hstage => ?_, hstart⟩
  obtain ⟨call, hcall, rfl⟩ := List.mem_map.1 hstage
  exact hfits call hcall

/-- A move is the step of a call that has not returned. -/
theorem exists_stage_of_move {i : Nat} (h : t.move i = some t') :
    ∃ stage ∈ t.stages, t'.service = (stage.proceed t.service).2 ∧
      t'.stages = t.stages.set i (stage.proceed t.service).1 ∧
      t'.basis = match stage.draws t.service with
        | some (name, drawn) => fun n => if Text.trim n = Text.trim name then some drawn else t.basis n
        | none => t.basis := by
  rw [move] at h
  split at h
  · cases h
  · cases h
  · next stage _ hstage =>
    split at h
    · cases h
    · cases h
      exact ⟨stage, List.mem_of_getElem? hstage, rfl, rfl, rfl⟩

theorem Sound.move {i : Nat} (h : t.Sound s₀) (hmove : t.move i = some t') : t'.Sound s₀ := by
  obtain ⟨stage, hmem, hservice, hstages, hbasis⟩ := exists_stage_of_move hmove
  have hsound : stage.Sound t.service.limits t.service.store := by
    rw [h.limits, h.store]
    exact h.stages stage hmem
  obtain ⟨hnext, hlimits, hstore, hlive⟩ := hsound.stepped
  refine ⟨?_, ?_, ?_, fun n v => ?_⟩
  · rw [hservice, hlimits, h.limits]
  · rw [hservice, hstore, h.store]
  · intro other hother
    rw [hstages] at hother
    rcases List.mem_or_eq_of_mem_set hother with hother | rfl
    · exact h.stages other hother
    · rw [← h.limits, ← h.store]
      exact hnext
  · rw [hservice, hlive, Drew, hbasis]
    cases hdraws : stage.draws t.service with
    | none => exact h.live n v
    | some drawn =>
      obtain ⟨name, file, moment⟩ := drawn
      by_cases hn : Text.trim n = Text.trim name
      · simp only [hn, if_true, h.limits]
      · simp only [hn, if_false]
        exact h.live n v

theorem Sound.after {turns : List Nat} (h : t.Sound s₀) (hafter : t.after turns = some t') :
    t'.Sound s₀ :=
  foldlM_keeps (fun h hmove => h.move hmove) h hafter

/-- **When store and registry agree.**  Calls begin in a service whose store and registry agree, and move
in any order.  Then store and registry agree on a name just when the store holds under this name what was
in the file that the registry was drawn from last, when the call that did so was at that file. -/
theorem agreesOn_iff {calls : List PluginCall} (hfits : ∀ call ∈ calls, call.Fits)
    (hstart : ∀ n, s₀.AgreesOn n) {turns : List Nat} (hafter : (begin_ s₀ calls).after turns = some t)
    (name : String) :
    t.service.AgreesOn name ↔ ∀ v, t.service.Keeps name v ↔ t.Drew s₀ name v := by
  have hsound := (sound_begin hfits hstart).after hafter
  constructor
  · exact fun h v => (h v).symm.trans (hsound.live name v)
  · exact fun h v => (hsound.live name v).trans (h v).symm

/-- A service with nothing kept and nothing installed. -/
def bare : Service := ⟨⟨{}, {}, 1, {}⟩, ⟨[]⟩, ⟨[(["plugins"], .directory)]⟩⟩

theorem agreesOn_bare (name : String) : bare.AgreesOn name := by
  intro v
  refine ⟨nofun, ?_⟩
  rintro ⟨n, -, hn⟩
  rw [viewIn_of_lookup_eq_none (by simp [bare, FileTree.lookup, Store.plugins])] at hn
  cases hn

/-- While a plugin is removed another call can register it: the plugin that is kept then is not installed. -/
theorem overtaken : ∃ t, (begin_ bare [.register ⟨0, 0⟩ "p" "" "", .remove "p"]).after [1, 0, 0, 0, 0, 0, 1] =
    some t ∧ t.Finished ∧ ¬ t.service.AgreesOn "p" := by
  let v : PluginView := ⟨"e3b0c44298fc1c14", ""⟩
  have hrun : ((begin_ bare [.register ⟨0, 0⟩ "p" "" "", .remove "p"]).after [1, 0, 0, 0, 0, 0, 1]).map
      (fun t => (t.stages.all Stage.isReturned,
        viewIn t.service.limits t.service.files (t.service.store.pluginFile "p") "p",
        (t.basis "p").map fun (file, moment) => viewIn bare.limits moment file "p")) =
      some (true, some v, some none) := by decide +kernel
  obtain ⟨t, hafter, ht⟩ := Option.map_eq_some_iff.1 hrun
  obtain ⟨hdone, hkept, hbasis⟩ : t.stages.all Stage.isReturned = true ∧
      viewIn t.service.limits t.service.files (t.service.store.pluginFile "p") "p" = some v ∧
      (t.basis "p").map (fun (file, moment) => viewIn bare.limits moment file "p") = some none := by
    simpa only [Prod.mk.injEq] using ht
  refine ⟨t, hafter, List.all_eq_true.1 hdone, ?_⟩
  have hfits : ∀ call ∈ [PluginCall.register ⟨0, 0⟩ "p" "" "", .remove "p"], call.Fits := by
    simpa [PluginCall.Fits] using Instant.representable_epoch
  rw [agreesOn_iff hfits agreesOn_bare hafter]
  intro h
  obtain ⟨⟨file, moment⟩, hdrawn, hnone⟩ := Option.map_eq_some_iff.1 hbasis
  have hdrew := (h v).1 ⟨_, Store.suffix?_pluginName "p", hkept⟩
  rw [Drew, hdrawn] at hdrew
  cases hnone.symm.trans hdrew

end Traffic

end PluginChain
