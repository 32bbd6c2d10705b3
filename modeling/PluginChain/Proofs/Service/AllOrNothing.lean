import PluginChain.Proofs.Service.Restart
import PluginChain.Proofs.Store.Unread

/-!
# Plugins are changed in store and registry, or in neither

To register a plugin takes several steps in the store and one in the registry, and each of them may fail.
`RegisterEnds` and `RemoveEnds` are the ways in which the operations can end: as the state of the service
has it, or on a disk that fails at one of the changes for reasons of its own.

* `RegisterEnds.cases`: a registration that fails, at whatever stage, is not seen to have begun
  (`RegisterFault.unchanged`), and one that succeeds has put its plugin into the store and into the registry.
  What comes behind the store cannot fail, for a trimmed name stays the same when it is trimmed again
  (`Registry.exists_install`).
* `RemoveEnds.cases`: a removal that fails changes nothing at all, and after one that succeeds neither side
  has the plugin.

A plugin is in the store where there is a file for the digest of its trimmed name (`Lacks`).  Other names of
the same digest have the same file, so that what was kept under one of them can be removed under
another (`remove_of_key_eq`).
-/

set_option autoImplicit false

namespace PluginChain

open Operation

namespace Service

variable {s s' : Service} {now : Instant} {given name description source : String} {c : CompiledSource}
  {files : FileTree}

/-! ## Services between which there is no difference -/

/-- Nothing that can be asked of the first service is answered in another way by the second one. -/
structure Unchanged (s s' : Service) : Prop where
  engine : s'.engine = s.engine
  store : s'.store = s.store
  pluginSource : ∀ name, FindsSame (Service.pluginSource name) s s'
  listPlugins : FindsSame Service.listPlugins s s'
  getJob : ∀ id, FindsSame (Service.getJob id) s s'
  jobInput : ∀ id wrap, FindsSame (onStore (fun store => store.jobInput id) wrap) s s'
  listJobs : FindsSame Service.listJobs s s'
  /-- The plugins that were there still run, and give what they gave. -/
  execute : ∀ name p, s.engine.registry.get? name = some p → ∀ input params,
    answerOf (Service.execute name input params s') =
      ((s.engine.evaluator none p input params).mapError ExecutionError.toFailure).mapError
        ChainError.ofFailure

theorem findsSame_onStore {α : Type} {f : Store → StoreM α} (h : FindsSame (f s.store) s.files files)
    (wrap : StoreError → ChainError) : FindsSame (onStore f wrap) s { s with files } := by
  rcases h with ⟨a, ha, ha'⟩ | ⟨e, he, he'⟩
  · exact Or.inl ⟨a, onStore_of_ok ha wrap, onStore_of_ok (s := { s with files }) ha' wrap⟩
  · exact Or.inr ⟨wrap e, onStore_of_error he wrap, onStore_of_error (s := { s with files }) he' wrap⟩

theorem answerOf_execute {p : CompiledPlugin} (hp : s.engine.registry.get? name = some p)
    (input params : Data) :
    answerOf (execute name input params s) =
      ((s.engine.evaluator none p input params).mapError ExecutionError.toFailure).mapError
        ChainError.ofFailure := by
  have hrun : (s.engine.executePlugin name input params none).1 =
      ((s.engine.evaluator none p input params).mapError ExecutionError.toFailure).mapError
        ChainError.ofFailure := by
    rw [Engine.executePlugin, Engine.runPlugin, Engine.start, hp]
  rw [execute, bind_of_ok (onEngine_of_fst (f := fun e => e.executePlugin name input params none) hrun)]
  cases s.engine.evaluator none p input params <;> rfl

theorem unchanged_of_sameRead (h : s.store.SameRead s.files files) : Unchanged s { s with files } where
  engine := rfl
  store := rfl
  pluginSource name := findsSame_onStore (f := fun store => store.pluginSource name) (h.pluginSource name) _
  listPlugins := (findsSame_onStore (f := Store.listPlugins) h.listPlugins _).bind fun _ => findsSame_pure _
  getJob id := findsSame_onStore (f := fun store => store.getJob id) (h.getJob id) _
  jobInput id wrap := findsSame_onStore (f := fun store => store.jobInput id) (h.jobInput id) wrap
  listJobs := findsSame_onStore (f := Store.listJobs) h.listJobs _
  execute _ _ hp input params := answerOf_execute (s := { s with files }) hp input params

theorem Unchanged.refl (s : Service) : Unchanged s s := unchanged_of_sameRead (.refl s.store s.files)

/-! ## How registrations end -/

/-- The ways in which a registration ends. -/
inductive RegisterEnds (now : Instant) (given description source : String) (s : Service) :
    Except ChainError PluginInfo → Service → Prop
  /-- As the state of the service has it. -/
  | told {r : Except ChainError PluginInfo} {s' : Service}
      (hr : answerOf (register now given description source s) = r)
      (hs : stateOf (register now given description source s) = s') :
      RegisterEnds now given description source s r s'
  /-- The disk fails, at any of the changes. -/
  | broken {name : String} {c : CompiledSource} {files : FileTree} (why : FileError)
      (hname : Registry.nameOf given = .ok name) (hc : s.engine.registry.compile name source = .ok c)
      (hfails : FailsAt ((Store.DiskRequest.savePlugin now (.fresh now name description source)).changes
        s.store s.files) s.files files) :
      RegisterEnds now given description source s (.error (.store (.file why))) { s with files }

/-- Store and registry have the plugin that was registered, as it was given. -/
structure Registered (now : Instant) (given description source : String) (s s' : Service) (info : PluginInfo) :
    Prop where
  live : ∃ c, s.engine.registry.compile (Text.trim given) source = .ok c ∧
    s'.engine.registry.get? given = some ⟨c, Text.trim given, description, now⟩ ∧
    info = CompiledPlugin.info ⟨c, Text.trim given, description, now⟩
  stored : ∃ record, StoreM.recordAt? PluginRecord.codec s'.files (s'.store.pluginFile given) = some record ∧
    record.name = Text.trim given ∧ record.description = description ∧ record.source = source
  source : Service.pluginSource given s' = .ok source s'

/-- The stages at which a registration can fail, before the store has a say and while it has. -/
inductive RegisterFault (given : String) (s s' : Service) : ChainError → Prop
  | name (hblank : Text.trim given = "") (hs : s' = s) : RegisterFault given s s' (.invalidName given)
  | compile (why : String) (hs : s' = s) : RegisterFault given s s' (.compile (Text.trim given) why)
  | store (why : StoreError) (hs : s.store.SameRead s.files s'.files) (hengine : s'.engine = s.engine)
      (hstore : s'.store = s.store) : RegisterFault given s s' (.store why)

theorem RegisterFault.unchanged {e : ChainError} (h : RegisterFault given s s' e) : Unchanged s s' := by
  cases h with
  | name _ hs => exact hs ▸ .refl s
  | compile _ hs => exact hs ▸ .refl s
  | store why hs hengine hstore =>
    obtain ⟨engine, store, files⟩ := s'
    obtain rfl : engine = s.engine := hengine
    obtain rfl : store = s.store := hstore
    exact unchanged_of_sameRead hs

theorem registered_of_save (hnow : now.Representable) (hname : Registry.nameOf given = .ok name)
    (hc : s.engine.registry.compile name source = .ok c)
    (hsave : s.store.savePlugin now (.fresh now name description source) s.files = .ok () files) :
    let plugin : CompiledPlugin := ⟨c, name, description, now⟩
    Registered now given description source s
      { s with files, engine := { s.engine with registry := s.engine.registry.insert plugin } } plugin.info := by
  intro plugin
  obtain ⟨rfl, htrim, -⟩ := Registry.nameOf_eq_ok hname
  have hfile : s.store.pluginFile (Text.trim given) = s.store.pluginFile given := by
    rw [Store.pluginFile, Store.pluginFile, htrim]
  obtain ⟨record, t₁, hdraft, hkeep⟩ := bind_eq_ok hsave
  obtain ⟨hn, hd, hsource, hcreated, hupdated⟩ := Store.draftPlugin_eq_ok hdraft hnow hnow
  have hrecord := Store.recordAt?_keepPlugin hkeep hcreated hupdated
  rw [hn] at hrecord
  have hrecord : StoreM.recordAt? PluginRecord.codec files (s.store.pluginFile given) = some record :=
    hfile ▸ hrecord
  refine ⟨⟨c, hc, ?_, rfl⟩, ⟨record, hrecord, hn, hd, hsource⟩, ?_⟩
  · rw [Registry.get?_insert]
    exact if_pos rfl
  · refine onStore_of_ok (f := fun store => store.pluginSource given)
      (s := { s with files, engine := { s.engine with registry := s.engine.registry.insert plugin } }) ?_ _
    rw [Store.pluginSource, bind_of_ok (StoreM.readRecord_of_recordAt? hrecord _)]
    exact congrArg (EStateM.Result.ok · files) hsource

/-- **A registration fails or not as a whole.** -/
theorem RegisterEnds.cases {r : Except ChainError PluginInfo} (hnow : now.Representable)
    (h : RegisterEnds now given description source s r s') :
    (∃ e, r = .error e ∧ RegisterFault given s s' e) ∨
      ∃ info, r = .ok info ∧ Registered now given description source s s' info := by
  cases h with
  | broken why hname hc hfails =>
    exact Or.inl ⟨_, rfl, .store _ (Store.sameRead_of_failsAt_savePlugin hfails) rfl rfl⟩
  | told hr hs =>
    cases hname : Registry.nameOf given with
    | error e =>
      obtain ⟨hblank, rfl⟩ := Registry.nameOf_eq_error hname
      rw [register_of_nameOf hname] at hr hs
      cases hr
      cases hs
      exact Or.inl ⟨_, rfl, .name hblank rfl⟩
    | ok name =>
      cases hc : s.engine.registry.compile name source with
      | error e =>
        obtain ⟨why, -, rfl⟩ := Registry.compile_eq_error_iff.1 hc
        obtain ⟨rfl, -, -⟩ := Registry.nameOf_eq_ok hname
        rw [register_of_compile hname hc] at hr hs
        cases hr
        cases hs
        exact Or.inl ⟨_, rfl, .compile why.message rfl⟩
      | ok c =>
        cases hsave : s.store.savePlugin now (.fresh now name description source) s.files with
        | error e files =>
          rw [register_of_save_error hname hc hsave] at hr hs
          cases hr
          cases hs
          exact Or.inl ⟨_, rfl, .store _ (Store.sameRead_of_savePlugin hsave) rfl rfl⟩
        | ok u files =>
          rw [register_of_save hname hc hsave] at hr hs
          cases hr
          cases hs
          exact Or.inr ⟨_, rfl, registered_of_save hnow hname hc hsave⟩

/-! ## How removals end -/

/-- The store has no file for the name. -/
def Lacks (s : Service) (name : String) : Prop :=
  s.files.read (s.store.pluginFile name) = .error .missing

/-- The ways in which a removal ends. -/
inductive RemoveEnds (name : String) (s : Service) : Except ChainError Unit → Service → Prop
  /-- As the state of the service has it. -/
  | told {r : Except ChainError Unit} {s' : Service} (hr : answerOf (remove name s) = r)
      (hs : stateOf (remove name s) = s') : RemoveEnds name s r s'
  /-- The disk fails. -/
  | broken {files : FileTree} (why : FileError)
      (hfails : FailsAt ((Store.DiskRequest.deletePlugin name).changes s.store s.files) s.files files) :
      RemoveEnds name s (.error (.store (.file why))) { s with files }

/-- Neither the store nor the registry has the plugin. -/
structure Removed (name : String) (s' : Service) : Prop where
  live : s'.engine.registry.get? name = none
  stored : s'.files.lookup (s'.store.pluginFile name) = none

/-- Why a removal fails. -/
inductive RemoveFault (name : String) (s : Service) : ChainError → Prop
  | notFound (hstored : Lacks s name) (hlive : s.engine.registry.get? name = none) :
      RemoveFault name s (.pluginNotFound (Text.trim name))
  | store (why : StoreError) (hstored : ¬ Lacks s name) : RemoveFault name s (.store why)

/-- A plugin that only the store has is removed with its file. -/
theorem remove_of_deleted (h : deleteStored name s = .ok true { s with files })
    (hlive : s.engine.registry.get? name = none) : remove name s = .ok () { s with files } := by
  rw [remove, bind_of_ok h, bind_of_ok (evict_of_none (s := { s with files }) hlive)]
  rfl

/-- A plugin whose file was deleted is removed, and so is one that only the registry has. -/
theorem remove_of_ok {stored : Bool} (h : deleteStored name s = .ok stored { s with files })
    (hfound : stored = true ∨ s.engine.registry.get? name ≠ none)
    (hgone : files.lookup (s.store.pluginFile name) = none) :
    ∃ s', remove name s = .ok () s' ∧ Removed name s' := by
  rcases evict_cases name { s with files } with ⟨registry, hremove, hevict⟩ | ⟨hlive, -⟩
  · refine ⟨{ s with files, engine := { s.engine with registry } }, ?_, ?_, hgone⟩
    · rw [remove, bind_of_ok h, bind_of_ok hevict, Bool.or_true]
      rfl
    · rw [Registry.get?_remove hremove]
      exact if_pos rfl
  · obtain rfl := hfound.resolve_right (not_not_intro hlive)
    exact ⟨{ s with files }, remove_of_deleted h hlive, hlive, hgone⟩

theorem remove_of_notFound (h : deleteStored name s = .ok false s)
    (hlive : s.engine.registry.get? name = none) :
    remove name s = .error (.pluginNotFound (Text.trim name)) s := by
  rw [remove, bind_of_ok h, bind_of_ok (evict_of_none hlive)]
  rfl

theorem deleteStored_of_lacks (h : Lacks s name) : deleteStored name s = .ok false s := by
  simp only [deleteStored, Store.deletePlugin_of_missing h]
  rfl

/-- **A removal fails or not as a whole**, and a plugin is not found just if neither side has it. -/
theorem RemoveEnds.cases {r : Except ChainError Unit} (h : RemoveEnds name s r s') :
    (∃ e, r = .error e ∧ s' = s ∧ RemoveFault name s e) ∨
      r = .ok () ∧ Removed name s' ∧ ¬ (Lacks s name ∧ s.engine.registry.get? name = none) := by
  cases h with
  | broken why hfails =>
    rw [Store.DiskRequest.changes] at hfails
    split at hfails
    · cases hfails
    · next hread =>
      cases hfails with
      | refused => exact Or.inl ⟨_, rfl, rfl, .store _ hread⟩
      | later _ hnil => cases hnil
  | told hr hs =>
    by_cases hlacks : Lacks s name
    · have hdelete := deleteStored_of_lacks hlacks
      by_cases hlive : s.engine.registry.get? name = none
      · rw [remove_of_notFound hdelete hlive] at hr hs
        cases hr
        cases hs
        exact Or.inl ⟨_, rfl, rfl, .notFound hlacks hlive⟩
      · obtain ⟨s₁, hremove, hremoved⟩ :=
          remove_of_ok hdelete (Or.inr hlive) (FileTree.lookup_of_read_missing hlacks)
        rw [hremove] at hr hs
        cases hr
        cases hs
        exact Or.inr ⟨rfl, hremoved, fun hboth => hlive hboth.2⟩
    · rcases s.store.deletePlugin_cases name s.files with ⟨files, hok, hgone⟩ | ⟨hmissing, -⟩ | ⟨e, he, herror⟩
      · have hdelete : deleteStored name s = .ok true { s with files } := by simp only [deleteStored, hok]
        obtain ⟨s₁, hremove, hremoved⟩ := remove_of_ok hdelete (Or.inl rfl) hgone
        rw [hremove] at hr hs
        cases hr
        cases hs
        exact Or.inr ⟨rfl, hremoved, fun hboth => hlacks hboth.1⟩
      · rw [Store.deletePlugin_of_ne_missing hlacks] at hmissing
        cases happly : (Change.remove (s.store.pluginFile name)).apply s.files with
        | ok t =>
          rw [StoreM.perform_cons_of_ok happly] at hmissing
          cases hmissing
        | error why =>
          rw [StoreM.perform_cons_of_error happly] at hmissing
          cases hmissing
      · have hdelete : deleteStored name s = .error (.store e) s := by
          simp only [deleteStored, herror, he, Bool.false_eq_true, if_false]
        rw [remove, bind_of_error hdelete] at hr hs
        cases hr
        cases hs
        exact Or.inl ⟨_, rfl, rfl, .store e hlacks⟩

/-- With the directories of the store in place, a file is lacking where nothing stands. -/
theorem lacks_iff (h : ∀ p, p <+: s.store.plugins → s.files.lookup p = some .directory) :
    Lacks s name ↔ s.files.lookup (s.store.pluginFile name) = none := by
  refine ⟨FileTree.lookup_of_read_missing, fun hnone => ?_⟩
  rw [Lacks, FileTree.read, hnone]
  refine congrArg Except.error (FileTree.absence_eq_missing fun n hn => h _ ?_)
  rw [Store.pluginFile, List.length_append, List.length_singleton] at hn
  rw [Store.pluginFile, List.take_append_of_le_length (Nat.le_of_lt_succ hn)]
  exact List.take_prefix n _

/-! ## What comes of a change -/

/-- **A change of a plugin is made in store and registry, or in neither.**  Wherever a registration fails,
at a blank name, a source that does not compile, or any step of the store, nothing is seen to have
changed, and the plugins that were there still run; where it does not fail, both sides have what was
registered.  A removal that fails changes nothing, and one that does not leaves the plugin on neither side;
it tells that there is no such plugin just if the store has no file for the name and the registry has
nothing under it.  A name that passed at the start of a registration is not refused at its end. -/
theorem changed_or_unchanged (s : Service) :
    (∀ now given description source r s', now.Representable →
      RegisterEnds now given description source s r s' →
      (∀ e, r = .error e → RegisterFault given s s' e ∧ Unchanged s s') ∧
      ∀ info, r = .ok info → Registered now given description source s s' info) ∧
    (∀ name r s', RemoveEnds name s r s' →
      (∀ e, r = .error e → s' = s ∧ Unchanged s s') ∧
      (r = .ok () → Removed name s') ∧
      ((∃ told, r = .error (.pluginNotFound told)) ↔ Lacks s name ∧ s.engine.registry.get? name = none) ∧
      ((∀ p, p <+: s.store.plugins → s.files.lookup p = some .directory) →
        (Lacks s name ↔ s.files.lookup (s.store.pluginFile name) = none))) ∧
    ∀ given name, Registry.nameOf given = .ok name → ∀ (registry : Registry) now description c,
      ∃ p registry', registry.install now name description c = .ok (p, registry') := by
  refine ⟨fun now given description source r s' hnow hends => ?_, fun name r s' hends => ?_,
    fun given name hname registry now description c => registry.exists_install hname now description c⟩
  · rcases hends.cases hnow with ⟨e, rfl, hfault⟩ | ⟨info, rfl, hregistered⟩
    · refine ⟨fun e' he => ?_, fun info hinfo => (by cases hinfo)⟩
      cases he
      exact ⟨hfault, hfault.unchanged⟩
    · refine ⟨fun e he => (by cases he), fun info' hinfo => ?_⟩
      cases hinfo
      exact hregistered
  · rcases hends.cases with ⟨e, rfl, rfl, hfault⟩ | ⟨rfl, hremoved, hnot⟩
    · refine ⟨fun _ _ => ⟨rfl, .refl s'⟩, fun hok => (by cases hok), ?_, lacks_iff⟩
      cases hfault with
      | notFound hstored hlive => exact ⟨fun _ => ⟨hstored, hlive⟩, fun _ => ⟨_, rfl⟩⟩
      | store why hstored => exact ⟨fun ⟨_, htold⟩ => (by cases htold), fun hboth => absurd hboth.1 hstored⟩
    · exact ⟨fun e he => (by cases he), fun _ => hremoved,
        ⟨fun ⟨_, htold⟩ => (by cases htold), fun hboth => absurd hboth hnot⟩, lacks_iff⟩

/-- A registration that fails behind the lock, one that succeeds, and a removal of what is not there. -/
theorem changed_or_unchanged_on_blank :
    let files := Store.vacant.set [".lock"] (.file "")
    Unchanged blank { blank with files } ∧
      (∃ info, answerOf (register ⟨0, 0⟩ " p " "" "" blank) = .ok info ∧
        Registered ⟨0, 0⟩ " p " "" "" blank (stateOf (register ⟨0, 0⟩ " p " "" "" blank)) info) ∧
      ∃ told, answerOf (remove "q" blank) = .error (.pluginNotFound told) := by
  intro files
  have hname : Registry.nameOf " p " = .ok "p" := by
    rw [Registry.nameOf_eq_ok_iff]
    decide +kernel
  obtain ⟨c, hc⟩ : ∃ c, blank.engine.registry.compile "p" "" = .ok c :=
    Registry.exists_compile_iff.2 (by decide +kernel)
  have hepoch := Instant.representable_epoch
  obtain ⟨hregister, hremove, -⟩ := changed_or_unchanged blank
  refine ⟨?_, ?_, ?_⟩
  · obtain ⟨t, hdraft, -⟩ := Store.standsIn_vacant.draftPlugin ⟨0, 0⟩ (.fresh ⟨0, 0⟩ "p" "" "")
    have hlock : blank.store.lock.apply blank.files = .ok files := rfl
    have hfails : FailsAt ((Store.DiskRequest.savePlugin ⟨0, 0⟩ (.fresh ⟨0, 0⟩ "p" "" "")).changes
        blank.store blank.files) blank.files files := by
      rw [Store.DiskRequest.changes, show blank.store.draftPlugin _ _ blank.files = _ from hdraft]
      exact .later hlock (.refused _ _ files)
    exact ((hregister _ _ _ _ _ _ hepoch (.broken .isDirectory hname hc hfails)).1 _ rfl).2
  · obtain ⟨files', hsave⟩ : ∃ files', blank.store.savePlugin ⟨0, 0⟩ (.fresh ⟨0, 0⟩ "p" "" "") blank.files =
        .ok () files' := (Store.standsIn_vacant.savePlugin hepoch hepoch).imp fun _ => And.left
    exact ⟨_, congrArg answerOf (register_of_save hname hc hsave),
      (hregister _ _ _ _ _ _ hepoch (.told rfl rfl)).2 _ (congrArg answerOf (register_of_save hname hc hsave))⟩
  · obtain ⟨-, -, hnotFound, hlacks⟩ := hremove "q" _ _ (.told rfl rfl)
    have hstored : blank.files.lookup (blank.store.pluginFile "q") = none :=
      Store.isEmpty_vacant.inside _ _ List.mem_cons_self
    exact hnotFound.2 ⟨(hlacks fun p hp => Store.standsIn_vacant.plugins.around p hp).2 hstored, rfl⟩

/-- What is listed of a catalogue that stands in the files. -/
theorem exists_listPlugins {m : Catalogue} (h : m.StandsIn s.store s.files) :
    ∃ records, listPlugins s = .ok (records.map PluginRecord.info) s ∧ Lists m.plugins records := by
  obtain ⟨records, hrecords, hlists⟩ := h.listPlugins
  exact ⟨records, bind_of_ok (onStore_of_ok hrecords _) _, hlists⟩

/-- Where a plugin is the only one, it can be removed under any name that has its digest, whether or not a
plugin was ever registered under that. -/
theorem remove_of_key_eq {other : String} (h : Catalogue.empty.StandsIn s.store s.files)
    (hnow : now.Representable) (hname : Registry.nameOf given = .ok given)
    (hc : s.engine.registry.compile given source = .ok c) (hother : Text.trim given ≠ Text.trim other)
    (hkey : Store.key other = Store.key given) (hlive : s.engine.registry.get? other = none) :
    let s₁ := stateOf (register now given description source s)
    let s₂ := stateOf (remove other s₁)
    s₁.engine.registry.get? other = none ∧
      (∃ info, answerOf (listPlugins s₁) = .ok [info] ∧ info.name = given) ∧
      answerOf (remove other s₁) = .ok () ∧ answerOf (listPlugins s₂) = .ok [] := by
  intro s₁ s₂
  have htrim : Text.trim given = given := (Registry.nameOf_eq_ok hname).2.1
  let plugin : CompiledPlugin := ⟨c, given, description, now⟩
  let record : PluginRecord := .fresh now given description source
  obtain ⟨files, hsave, hfiles⟩ : ∃ files, s.store.savePlugin now record s.files = .ok () files ∧
      (Catalogue.empty.next (.savePlugin now record)).StandsIn s.store files := h.savePlugin hnow hnow
  have hs₁ : s₁ = { s with files, engine := { s.engine with registry := s.engine.registry.insert plugin } } :=
    congrArg stateOf (register_of_save hname hc hsave)
  have hs₂ : s₂ = stateOf (remove other s₁) := rfl
  clear_value s₂ s₁
  have hkept : (Catalogue.empty.next (.savePlugin now record)).plugins =
      Function.update (fun _ => none) (Store.key given) (some (Catalogue.empty.kept now record)) :=
    Catalogue.plugins_next_savePlugin ..
  have hlive₁ : s₁.engine.registry.get? other = none := by
    rw [hs₁, Registry.get?_insert, if_neg (fun heq => hother (htrim.trans heq)), hlive]
  have hplugin : (Catalogue.empty.next (.savePlugin now record)).plugin other =
      .ok (Catalogue.empty.kept now record) := by
    rw [Catalogue.plugin, hkept, hkey, Function.update_self]
  have hstands : (Catalogue.empty.next (.savePlugin now record)).StandsIn s₁.store s₁.files := hs₁ ▸ hfiles
  obtain ⟨records, hlist, hlists⟩ := exists_listPlugins hstands
  rw [hkept] at hlists
  obtain rfl := hlists.eq_singleton
  obtain ⟨files₂, hdelete, hfiles₂⟩ := hstands.deletePlugin other
  rw [hplugin] at hdelete
  have hdeleted : deleteStored other s₁ = .ok true { s₁ with files := files₂ } := by
    rw [deleteStored, hdelete]
    rfl
  have hremove := remove_of_deleted hdeleted hlive₁
  rw [hs₂, hremove]
  have hgone : ((Catalogue.empty.next (.savePlugin now record)).next (.deletePlugin other)).plugins =
      fun _ => none := by
    change Function.update (Catalogue.empty.next (.savePlugin now record)).plugins _ none = _
    rw [hkept, hkey, Function.update_idem, Function.update_eq_self_iff]
  obtain ⟨records₂, hlist₂, hlists₂⟩ := exists_listPlugins (s := { s₁ with files := files₂ }) hfiles₂
  rw [hgone] at hlists₂
  obtain rfl := hlists₂.eq_nil
  exact ⟨hlive₁, ⟨_, congrArg answerOf hlist, rfl⟩, rfl, congrArg answerOf hlist₂⟩

/-- A plugin that was never registered is removed, and takes another one with it. -/
theorem remove_of_shared_key :
    let s := stateOf (register ⟨0, 0⟩ "6a22137b458388c8" "" "2" blank)
    let s' := stateOf (remove "d16d7d2bde305b8c" s)
    s.engine.registry.get? "d16d7d2bde305b8c" = none ∧
      (∃ info, answerOf (listPlugins s) = .ok [info] ∧ info.name = "6a22137b458388c8") ∧
      answerOf (remove "d16d7d2bde305b8c" s) = .ok () ∧ answerOf (listPlugins s') = .ok [] := by
  have hname : Registry.nameOf "6a22137b458388c8" = .ok "6a22137b458388c8" := by
    rw [Registry.nameOf_eq_ok_iff]
    decide +kernel
  obtain ⟨c, hc⟩ : ∃ c, blank.engine.registry.compile "6a22137b458388c8" "2" = .ok c :=
    Registry.exists_compile_iff.2 (by decide +kernel)
  exact remove_of_key_eq Store.standsIn_vacant Instant.representable_epoch hname hc Store.shared_key.1.symm
    Store.shared_key.2 rfl

end Service

end PluginChain
