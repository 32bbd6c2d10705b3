import PluginChain.Proofs.Service.Agreement
import PluginChain.Proofs.Store.Catalogue

/-!
# Plugins after a restart

A service that starts has nothing in its registry and loads what the store has.  The file of a record is
named for the digest of the record's own trimmed name, also where records are kept that the service has
not seen (`Catalogue.Named`).  So no two records of a store have one trimmed name, and it does not matter
in which order they are loaded: each is installed that has a name and compiles, and the others are
reported (`Service.Restored`).

Where plugins are changed through a service only, and no two of the names have one digest, what is live in
the registry is what the store has (`Service.Matched`).  A service that starts on this store takes up just
what the old one had (`Service.restart`).
-/

set_option autoImplicit false

namespace PluginChain

open Operation

/-! ## Records that can be loaded -/

/-- What is told of a plugin wherever plugins are listed. -/
def PluginInfo.told (i : PluginInfo) : String × String × Option String :=
  (i.name, i.description, i.sourceHash)

namespace PluginRecord

/-- The record has a name, and its scripts can run. -/
def loads (limits : Limits) (r : PluginRecord) : Bool := Text.trim r.name ≠ "" && compiles limits r.source

/-- What is told of the plugin that a record is loaded as. -/
def installed (r : PluginRecord) : String × String × Option String :=
  (Text.trim r.name, r.description, some (Digest.ofText r.source))

end PluginRecord

namespace Registry

variable {r : Registry} {record : PluginRecord} {p : CompiledPlugin} {given name source : String}

/-- A record is registered if it has a name and compiles. -/
theorem register_of_loads (now : Instant) (h : record.loads r.limits = true) :
    ∃ p, r.register now record.name record.description record.source = .ok (p, r.insert p) ∧
      p.name = Text.trim record.name ∧ p.view = record.view := by
  obtain ⟨hname, hcompiles⟩ := Bool.and_eq_true_iff.1 h
  have hok : nameOf record.name = .ok (Text.trim record.name) :=
    nameOf_eq_ok_iff.2 ⟨of_decide_eq_true hname, rfl⟩
  obtain ⟨c, hc⟩ := exists_compile_iff.2 hcompiles
  have hregister : r.register now record.name record.description record.source =
      r.install now (Text.trim record.name) record.description c := by
    rw [register, hok]
    change r.compile (Text.trim record.name) record.source >>= _ = _
    rw [hc]
    exact pure_bind c _
  rw [install_of_nameOf (nameOf_eq_ok hok).2.2] at hregister
  obtain ⟨-, hview, hname, -⟩ := register_eq_ok hregister
  exact ⟨_, hregister, hname, hview⟩

/-- What is registered has a name and compiles. -/
theorem loads_of_register {now : Instant} {installed : CompiledPlugin × Registry}
    (h : r.register now record.name record.description record.source = .ok installed) :
    record.loads r.limits = true := by
  obtain ⟨p, r'⟩ := installed
  obtain ⟨hcompiles, -⟩ := register_eq_ok h
  rw [register] at h
  cases hname : nameOf record.name with
  | error e =>
    rw [hname] at h
    cases h
  | ok name => exact Bool.and_eq_true_iff.2 ⟨decide_eq_true (nameOf_eq_ok_iff.1 hname).1, hcompiles⟩

theorem register_of_not_loads (now : Instant) (h : record.loads r.limits = false) :
    ∃ e, r.register now record.name record.description record.source = .error e := by
  cases hregister : r.register now record.name record.description record.source with
  | error e => exact ⟨e, rfl⟩
  | ok installed => exact absurd (loads_of_register hregister) (Bool.eq_false_iff.1 h)

/-- What is told of a registry, but for the instants. -/
def told (r : Registry) : List (String × String × Option String) := r.list.map PluginInfo.told

theorem mem_told {x : String × String × Option String} :
    x ∈ r.told ↔ ∃ e ∈ r.plugins, x = (e.2.name, e.2.description, some e.2.digest) := by
  simp only [told, list, List.map_map, List.mem_map, Function.comp]
  exact exists_congr fun e => and_congr_right fun _ => eq_comm

theorem Whole.nodup_told (h : r.Whole) : r.told.Nodup := by
  have hnames : (r.told.map (·.1)).Nodup := by
    have heq : r.told.map (·.1) = Entries.names r.plugins := by
      rw [told, list, List.map_map, List.map_map, Entries.names]
      exact List.map_congr_left fun e he => (h.named e he).1
    rw [heq]
    exact h.sorted.nodup_names
  exact hnames.of_map _

/-- What is told are the plugins that are found under their own names. -/
theorem Whole.mem_told_iff (h : r.Whole) {x : String × String × Option String} :
    x ∈ r.told ↔ Text.trim x.1 = x.1 ∧
      ∃ v : PluginView, (r.get? x.1).map CompiledPlugin.view = some v ∧
        x.2 = (v.description, some v.digest) := by
  rw [mem_told]
  constructor
  · rintro ⟨e, he, rfl⟩
    obtain ⟨hname, htrim⟩ := h.named e he
    refine ⟨hname ▸ htrim, e.2.view, ?_, rfl⟩
    rw [hname, get?, htrim, h.sorted.get?_of_mem he]
    rfl
  · rintro ⟨htrim, v, hget, hv⟩
    obtain ⟨p, hp, rfl⟩ := Option.map_eq_some_iff.1 hget
    rw [get?, htrim] at hp
    have hmem := Entries.mem_of_get? hp
    refine ⟨_, hmem, ?_⟩
    rw [(h.named _ hmem).1]
    exact Prod.ext rfl hv

end Registry

/-! ## Loading -/

namespace Service

variable {s s' : Service} {limits : Limits} {records : List PluginRecord} {report : LoadReport}
  {name : String}

/-- The service has loaded these records, and this is what it reports. -/
structure Restored (s : Service) (limits : Limits) (records : List PluginRecord) (report : LoadReport) :
    Prop where
  live : ∀ name v, s.live name = some v ↔
    ∃ r ∈ records, r.loads limits = true ∧ Text.trim r.name = Text.trim name ∧ r.view = v
  told : s.engine.registry.told.Perm ((records.filter fun r => r.loads limits).map PluginRecord.installed)
  skipped : report.skipped = (records.filter fun r => !r.loads limits).map (·.name)
  all : report.loaded + report.skipped.length = records.length

/-- The record that a name is loaded from. -/
def loadedFrom (limits : Limits) (name : String) (records : List PluginRecord) : Option PluginRecord :=
  records.find? fun r => r.loads limits && Text.trim r.name = Text.trim name

/-- Records of which no two have one trimmed name. -/
def NamedApart (records : List PluginRecord) : Prop := (records.map fun r => Text.trim r.name).Nodup

theorem loadedFrom_eq_some_iff (h : NamedApart records) {r : PluginRecord} :
    loadedFrom limits name records = some r ↔
      r ∈ records ∧ r.loads limits = true ∧ Text.trim r.name = Text.trim name := by
  constructor
  · intro hfound
    have hr := List.find?_some hfound
    rw [Bool.and_eq_true_iff] at hr
    exact ⟨List.mem_of_find?_eq_some hfound, hr.1, of_decide_eq_true hr.2⟩
  · rintro ⟨hmem, hloads, hname⟩
    cases hfound : loadedFrom limits name records with
    | none =>
      have hnot := List.find?_eq_none.1 hfound r hmem
      rw [Bool.and_eq_true_iff] at hnot
      exact absurd ⟨hloads, decide_eq_true hname⟩ hnot
    | some r' =>
      have hr' := List.find?_some hfound
      rw [Bool.and_eq_true_iff] at hr'
      have htrim : Text.trim r'.name = Text.trim r.name := (of_decide_eq_true hr'.2).trans hname.symm
      rw [List.inj_on_of_nodup_map h (List.mem_of_find?_eq_some hfound) hmem htrim]

theorem installAll_of_loads {now : Instant} {record : PluginRecord} {p : CompiledPlugin}
    (h : s.engine.registry.register now record.name record.description record.source =
      .ok (p, s.engine.registry.insert p))
    (hrest : installAll now records
      { s with engine := { s.engine with registry := s.engine.registry.insert p } } = .ok report s') :
    installAll now (record :: records) s = .ok { report with loaded := report.loaded + 1 } s' := by
  simp only [installAll, h]
  exact bind_of_ok hrest _

theorem installAll_of_error {now : Instant} {record : PluginRecord} {e : ChainError}
    (h : s.engine.registry.register now record.name record.description record.source = .error e)
    (hrest : installAll now records s = .ok report s') :
    installAll now (record :: records) s =
      .ok { report with skipped := record.name :: report.skipped } s' := by
  simp only [installAll, h]
  exact bind_of_ok hrest _

theorem loadedFrom_concat (limits : Limits) (name : String) (records : List PluginRecord) (record : PluginRecord) :
    loadedFrom limits name (records ++ [record]) = (loadedFrom limits name records).or
      (if record.loads limits = true ∧ Text.trim record.name = Text.trim name then some record else none) := by
  simp only [loadedFrom, List.find?_append, List.find?_singleton, Bool.and_eq_true, decide_eq_true_eq]

/-- What loading does to what was live before, and what it reports.  Of several records with one trimmed name
the last that can be loaded stays. -/
theorem exists_installAll (now : Instant) (records : List PluginRecord) (s : Service) :
    ∃ report s', installAll now records s = .ok report s' ∧
      (s.engine.registry.Whole → s'.engine.registry.Whole) ∧
      (∀ name, s'.live name =
        ((loadedFrom s.limits name records.reverse).map PluginRecord.view).or (s.live name)) ∧
      report.loaded = (records.filter fun r => r.loads s.limits).length ∧
      report.skipped = (records.filter fun r => !r.loads s.limits).map (·.name) := by
  induction records generalizing s with
  | nil => exact ⟨_, s, rfl, id, fun name => rfl, rfl, rfl⟩
  | cons record rest ih =>
    cases hloads : record.loads s.limits with
    | false =>
      obtain ⟨e, he⟩ := Registry.register_of_not_loads now hloads
      obtain ⟨report, s', hall, hwhole, hlive, hloaded, hskipped⟩ := ih s
      refine ⟨_, s', installAll_of_error he hall, hwhole, fun name => ?_, ?_, ?_⟩
      · rw [hlive, List.reverse_cons, loadedFrom_concat, hloads, if_neg (fun h => Bool.false_ne_true h.1),
          Option.or_none]
      · rw [List.filter_cons, hloads]
        exact hloaded
      · rw [List.filter_cons, hloads]
        exact congrArg _ hskipped
    | true =>
      obtain ⟨p, hregister, hname, hview⟩ := Registry.register_of_loads now hloads
      let s₁ : Service := { s with engine := { s.engine with registry := s.engine.registry.insert p } }
      obtain ⟨report, s', hall, hwhole, hlive, hloaded, hskipped⟩ := ih s₁
      have hloaded : report.loaded = (rest.filter fun r => r.loads s.limits).length := hloaded
      refine ⟨_, s', installAll_of_loads hregister hall,
        fun h => hwhole (h.insert (by rw [hname, Text.trim_trim])), fun name => ?_, ?_, ?_⟩
      · rw [hlive, live_insert, hname, hview, List.reverse_cons, loadedFrom_concat, hloads, Option.map_or,
          Option.or_assoc]
        refine congrArg (((loadedFrom s.limits name rest.reverse).map PluginRecord.view).or ·) ?_
        by_cases htrim : Text.trim record.name = Text.trim name
        · rw [if_pos htrim, if_pos ⟨rfl, htrim⟩]
          rfl
        · rw [if_neg htrim, if_neg (fun h => htrim h.2)]
          rfl
      · rw [List.filter_cons, hloads, hloaded]
        rfl
      · rw [List.filter_cons, hloads]
        exact hskipped

/-- What is told of a registry in which just these records are live. -/
theorem told_perm (hwhole : s.engine.registry.Whole) (hapart : NamedApart records)
    (hlive : ∀ name v, s.live name = some v ↔
      ∃ r ∈ records, Text.trim r.name = Text.trim name ∧ r.view = v) :
    s.engine.registry.told.Perm (records.map PluginRecord.installed) := by
  have hnodup : (records.map PluginRecord.installed).Nodup := by
    refine List.Nodup.of_map Prod.fst ?_
    rw [List.map_map]
    exact hapart
  refine (List.perm_ext_iff_of_nodup hwhole.nodup_told hnodup).2 fun x => ?_
  rw [hwhole.mem_told_iff, List.mem_map]
  constructor
  · rintro ⟨htrim, v, hv, hx⟩
    obtain ⟨r, hr, hname, rfl⟩ := (hlive x.1 v).1 hv
    exact ⟨r, hr, Prod.ext (hname.trans htrim) hx.symm⟩
  · rintro ⟨r, hr, rfl⟩
    have htrim : Text.trim r.installed.1 = r.installed.1 := Text.trim_trim r.name
    exact ⟨htrim, r.view, (hlive _ _).2 ⟨r, hr, htrim.symm, rfl⟩, rfl⟩

/-- **A service that starts with nothing in its registry** has what it loads, in whatever order. -/
theorem exists_restored (now : Instant) (s : Service) (hregistry : s.engine.registry.plugins = [])
    (hapart : NamedApart records) :
    ∃ report s', installAll now records s = .ok report s' ∧ s'.Restored s.limits records report := by
  obtain ⟨report, s', hall, hwhole, hlive, hloaded, hskipped⟩ :=
    exists_installAll now records s
  have hreverse : NamedApart records.reverse := by
    rw [NamedApart, List.map_reverse]
    exact List.nodup_reverse.2 hapart
  have hnothing : ∀ name, s.live name = none := by
    intro name
    rw [live, Registry.get?, hregistry]
    rfl
  have hlive : ∀ name v, s'.live name = some v ↔
      ∃ r ∈ records, r.loads s.limits = true ∧ Text.trim r.name = Text.trim name ∧ r.view = v := by
    intro name v
    rw [hlive, hnothing, Option.or_none, Option.map_eq_some_iff]
    simp only [loadedFrom_eq_some_iff hreverse, List.mem_reverse, and_assoc]
  have hwhole : s'.engine.registry.Whole := hwhole (Registry.whole_of_eq_nil hregistry)
  refine ⟨report, s', hall, hlive, told_perm hwhole (hapart.sublist (List.filter_sublist.map _)) ?_, hskipped,
    ?_⟩
  · intro name v
    rw [hlive]
    simp only [List.mem_filter, and_assoc]
  · rw [hloaded, hskipped, List.length_map]
    exact (List.length_eq_length_filter_add _).symm

end Service

/-! ## Changes of the plugins -/

/-- A call that changes plugins. -/
inductive PluginEdit
  | register (now : Instant) (given description source : String)
  | remove (given : String)
  /-- The store keeps a record, and no service hears of it. -/
  | save (now : Instant) (record : PluginRecord)

namespace PluginEdit

def run : PluginEdit → ServiceM Unit
  | register now given description source => (fun _ => ()) <$> Service.register now given description source
  | remove given => Service.remove given
  | save now record => Service.onStore fun store => store.savePlugin now record

/-- The readings of the clock can be written. -/
def Fits : PluginEdit → Prop
  | register now _ _ _ => now.Representable
  | remove _ => True
  | save now record => now.Representable ∧ record.createdAt.Representable

/-- The name that the call comes with. -/
def name : PluginEdit → String
  | register _ given _ _ | remove given => given
  | save _ record => record.name

/-- The call is one of the service. -/
def IsOfService : PluginEdit → Prop
  | register _ _ _ _ | remove _ => True
  | save _ _ => False

end PluginEdit

/-- The service after a call, whether it succeeded or failed. -/
def Service.edit (s : Service) (e : PluginEdit) : Service := stateOf (e.run s)

def Service.edited (s : Service) (edits : List PluginEdit) : Service := edits.foldl Service.edit s

namespace Catalogue

variable {m : Catalogue} {limits : Limits}

/-- What a call makes of what is kept.  A plugin that has no name or does not compile is not kept. -/
def edit (limits : Limits) (m : Catalogue) : PluginEdit → Catalogue
  | .register now given description source =>
    match Registry.nameOf given with
    | .ok name =>
      if compiles limits source then m.next (.savePlugin now (.fresh now name description source)) else m
    | .error _ => m
  | .remove given => m.next (.deletePlugin given)
  | .save now record => m.next (.savePlugin now record)

def edited (limits : Limits) (m : Catalogue) (edits : List PluginEdit) : Catalogue :=
  edits.foldl (edit limits) m

/-- Each record is under the key of its own name. -/
def Named (m : Catalogue) : Prop := ∀ k r, m.plugins k = some r → Store.key r.name = k

theorem named_empty : empty.Named := nofun

theorem Named.savePlugin (h : m.Named) (now : Instant) (record : PluginRecord) :
    (m.next (.savePlugin now record)).Named := by
  intro k r hr
  rw [plugins_next_savePlugin, Function.update_apply] at hr
  split at hr
  · next hk =>
    cases hr
    exact hk.symm
  · exact h k r hr

theorem Named.deletePlugin (h : m.Named) (name : String) : (m.next (.deletePlugin name)).Named := by
  intro k r hr
  rw [next] at hr
  have hr : Function.update m.plugins (Store.key name) none k = some r := hr
  rw [Function.update_apply] at hr
  split at hr
  · cases hr
  · exact h k r hr

theorem Named.edit (h : m.Named) (e : PluginEdit) : (m.edit limits e).Named := by
  cases e with
  | register now given description source =>
    rw [Catalogue.edit]
    split
    · split
      · exact h.savePlugin _ _
      · exact h
    · exact h
  | remove given => exact h.deletePlugin given
  | save now record => exact h.savePlugin now record

theorem Named.edited (h : m.Named) (edits : List PluginEdit) : (m.edited limits edits).Named := by
  induction edits generalizing m with
  | nil => exact h
  | cons e edits ih => exact ih (h.edit e)

end Catalogue

/-- No two records have one trimmed name, because no two have one file. -/
theorem Catalogue.Named.namedApart {m : Catalogue} (h : m.Named) {records : List PluginRecord}
    (hlists : Lists m.plugins records) : Service.NamedApart records := by
  obtain ⟨keys, hnodup, -, hperm⟩ := hlists
  have hnames : ((keys.filterMap m.plugins).map fun r => Text.trim r.name).Nodup := by
    rw [List.map_filterMap]
    refine hnodup.filterMap fun k k' name hk hk' => ?_
    obtain ⟨r, hr, rfl⟩ := Option.map_eq_some_iff.1 hk
    obtain ⟨r', hr', hname⟩ := Option.map_eq_some_iff.1 hk'
    rw [← h k r hr, ← h k' r' hr']
    exact Store.key_congr hname.symm
  exact (hperm.map _).nodup_iff.2 hnames

namespace Service

variable {s s' : Service} {m : Catalogue} {given : String}

/-! ## What a call does -/

/-- What an eviction leaves, of which only the registry may be another. -/
theorem exists_registry_of_evict {found : Bool} (h : evict given s = .ok found s') :
    ∃ registry, s' = { s with engine := { s.engine with registry } } ∧
      (s.engine.registry.Whole → registry.Whole) := by
  rcases evict_cases given s with ⟨registry, hremove, hevict⟩ | ⟨-, hevict⟩
  · cases hevict.symm.trans h
    exact ⟨registry, rfl, fun hwhole => hwhole.remove hremove⟩
  · cases hevict.symm.trans h
    exact ⟨s.engine.registry, rfl, id⟩

/-- After a removal neither the store nor the registry has the plugin. -/
theorem exists_remove (h : m.StandsIn s.store s.files) (given : String) :
    ∃ files registry, s.edit (.remove given) = { s with files, engine := { s.engine with registry } } ∧
      (m.next (.deletePlugin given)).StandsIn s.store files ∧
      (s.edit (.remove given)).limits = s.limits ∧ (s.engine.registry.Whole → registry.Whole) ∧
      ∀ n, (s.edit (.remove given)).live n = if Text.trim given = Text.trim n then none else s.live n := by
  obtain ⟨files, hdelete, hfiles⟩ := h.deletePlugin given
  obtain ⟨stored, hstored⟩ : ∃ stored, deleteStored given s = .ok stored { s with files } := by
    rw [deleteStored, hdelete, Catalogue.plugin]
    cases m.plugins (Store.key given) with
    | some r => exact ⟨true, rfl⟩
    | none => exact ⟨false, rfl⟩
  obtain ⟨found, s', hevict, hlimits, -, hlive⟩ := exists_evict given { s with files }
  obtain ⟨registry, rfl, hwhole⟩ := exists_registry_of_evict hevict
  have hedit : s.edit (.remove given) = { s with files, engine := { s.engine with registry } } := by
    have hremove : remove given s = _ := (bind_of_ok hstored _).trans (bind_of_ok hevict _)
    rw [edit, PluginEdit.run, hremove]
    cases stored || found <;> rfl
  refine ⟨files, registry, hedit, hfiles, ?_, hwhole, ?_⟩
  · rw [hedit]
    exact hlimits
  · rw [hedit]
    exact hlive

section Register

variable {now : Instant} {name description source : String} {c : CompiledSource} {files : FileTree}

theorem register_of_nameOf {e : ChainError} (h : Registry.nameOf given = .error e) :
    register now given description source s = .error e s := by
  rw [register, h]
  rfl

theorem register_of_name (h : Registry.nameOf given = .ok name) :
    register now given description source s =
      (do
        let compiled ← ofExcept (s.engine.registry.compile name source)
        onStore fun store => store.savePlugin now (.fresh now name description source)
        let plugin ← onRegistry fun r => r.install now name description compiled
        return plugin.info : ServiceM PluginInfo) s := by
  rw [register, h]
  rfl

theorem register_of_compile {e : ChainError} (hname : Registry.nameOf given = .ok name)
    (hc : s.engine.registry.compile name source = .error e) :
    register now given description source s = .error e s := by
  rw [register_of_name hname, hc]
  rfl

theorem register_of_save_error {e : StoreError} (hname : Registry.nameOf given = .ok name)
    (hc : s.engine.registry.compile name source = .ok c)
    (hsave : s.store.savePlugin now (.fresh now name description source) s.files = .error e files) :
    register now given description source s = .error (.store e) { s with files } := by
  rw [register_of_name hname, hc]
  exact bind_of_error (onStore_of_error (f := fun store => store.savePlugin now _) hsave _) _

/-- Once the plugin is kept, nothing can go wrong with its installation. -/
theorem register_of_save (hname : Registry.nameOf given = .ok name)
    (hc : s.engine.registry.compile name source = .ok c)
    (hsave : s.store.savePlugin now (.fresh now name description source) s.files = .ok () files) :
    let plugin : CompiledPlugin := ⟨c, name, description, now⟩
    register now given description source s = .ok plugin.info
      { s with files, engine := { s.engine with registry := s.engine.registry.insert plugin } } := by
  intro plugin
  rw [register_of_name hname, hc]
  refine (bind_of_ok (onStore_of_ok (f := fun store => store.savePlugin now _) hsave _) _).trans
    (bind_of_ok (a := plugin) ?_ _)
  simp only [onRegistry, Registry.install_of_nameOf (Registry.nameOf_eq_ok hname).2.2]
  rfl

end Register

/-- A registration fails and changes nothing, or the plugin is kept and installed. -/
theorem register_cases (h : m.StandsIn s.store s.files) {now : Instant} (hnow : now.Representable)
    (given description source : String) :
    let e : PluginEdit := .register now given description source
    (s.edit e = s ∧ m.edit s.limits e = m) ∨
      ∃ files p,
        s.edit e = { s with files, engine := { s.engine with registry := s.engine.registry.insert p } } ∧
        m.edit s.limits e = m.next (.savePlugin now (.fresh now (Text.trim given) description source)) ∧
        (m.edit s.limits e).StandsIn s.store files ∧ Text.trim given ≠ "" ∧ compiles s.limits source = true ∧
        p.name = Text.trim given ∧ p.view = ⟨Digest.ofText source, description⟩ := by
  intro e
  have hedit : s.edit e = stateOf (register now given description source s) := stateOf_map ..
  cases hname : Registry.nameOf given with
  | error why =>
    refine Or.inl ⟨?_, ?_⟩
    · rw [hedit, register_of_nameOf hname]
      rfl
    · simp only [e, Catalogue.edit, hname]
  | ok name =>
    obtain ⟨hne, rfl⟩ := Registry.nameOf_eq_ok_iff.1 hname
    cases hc : s.engine.registry.compile (Text.trim given) source with
    | error why =>
      refine Or.inl ⟨?_, ?_⟩
      · rw [hedit, register_of_compile hname hc]
        rfl
      · have hnot : compiles s.limits source = false := Registry.compiles_of_compile_eq_error hc
        simp only [e, Catalogue.edit, hname, hnot, Bool.false_eq_true, if_false]
    | ok c =>
      obtain ⟨hcompiles, hdigest⟩ := Registry.compile_eq_ok hc
      have hcompiles : compiles s.limits source = true := hcompiles
      have hkept : m.edit s.limits e =
          m.next (.savePlugin now (.fresh now (Text.trim given) description source)) := by
        simp only [e, Catalogue.edit, hname, hcompiles, if_true]
      let record : PluginRecord := .fresh now (Text.trim given) description source
      obtain ⟨files, hsave, hfiles⟩ : ∃ files, s.store.savePlugin now record s.files = .ok () files ∧
        (m.next (.savePlugin now record)).StandsIn s.store files := h.savePlugin hnow hnow
      let p : CompiledPlugin := ⟨c, Text.trim given, description, now⟩
      refine Or.inr ⟨files, p, ?_, hkept, hkept ▸ hfiles, hne, hcompiles, rfl, ?_⟩
      · rw [hedit, register_of_save hname hc hsave]
        rfl
      · rw [CompiledPlugin.view, ← hdigest]

/-- A call leaves in the store what the catalogue says. -/
theorem standsIn_edit (h : m.StandsIn s.store s.files) {e : PluginEdit} (he : e.Fits) :
    (m.edit s.limits e).StandsIn (s.edit e).store (s.edit e).files ∧ (s.edit e).store = s.store ∧
      (s.edit e).limits = s.limits := by
  cases e with
  | register now given description source =>
    rcases register_cases h he given description source with ⟨hs, hm⟩ | ⟨files, p, hs, -, hfiles, -⟩
    · rw [hs, hm]
      exact ⟨h, rfl, rfl⟩
    · rw [hs]
      exact ⟨hfiles, rfl, rfl⟩
  | remove given =>
    obtain ⟨files, registry, hs, hfiles, hlimits, -⟩ := exists_remove h given
    rw [hs] at hlimits ⊢
    exact ⟨hfiles, rfl, hlimits⟩
  | save now record =>
    obtain ⟨files, hsave, hfiles⟩ := h.savePlugin he.1 he.2
    have hs : s.edit (.save now record) = { s with files } := by
      rw [edit, PluginEdit.run, onStore_of_ok (f := fun store => store.savePlugin now record) hsave]
      rfl
    rw [hs]
    exact ⟨hfiles, rfl, rfl⟩

theorem standsIn_edited (h : m.StandsIn s.store s.files) {edits : List PluginEdit}
    (hfits : ∀ e ∈ edits, e.Fits) :
    (m.edited s.limits edits).StandsIn s.store (s.edited edits).files ∧ (s.edited edits).store = s.store ∧
      (s.edited edits).limits = s.limits := by
  induction edits generalizing s m with
  | nil => exact ⟨h, rfl, rfl⟩
  | cons e edits ih =>
    obtain ⟨hfiles, hstore, hlimits⟩ := standsIn_edit h (hfits e List.mem_cons_self)
    have hrest := ih hfiles fun e he => hfits e (List.mem_cons_of_mem _ he)
    rw [hstore, hlimits] at hrest
    exact hrest

/-! ## Plugins that are changed through the service only -/

/-- No two of the names have one digest, unless they are one name. -/
def DigestsApart (names : List String) : Prop :=
  ∀ a ∈ names, ∀ b ∈ names, Store.key a = Store.key b → Text.trim a = Text.trim b

/-- What is live in the registry is what is kept, and all of it can be loaded.  The names are those that
plugins were given. -/
structure Matched (s : Service) (names : List String) (m : Catalogue) : Prop where
  whole : s.engine.registry.Whole
  named : m.Named
  kept : ∀ k r, m.plugins k = some r →
    Text.trim r.name = r.name ∧ r.loads s.limits = true ∧ ∃ a ∈ names, Text.trim a = r.name
  live : ∀ n v, s.live n = some v ↔
    ∃ r, m.plugins (Store.key n) = some r ∧ Text.trim r.name = Text.trim n ∧ r.view = v

variable {m' : Catalogue} {names : List String}

theorem matched_of_eq_nil (h : s.engine.registry.plugins = []) : s.Matched names .empty := by
  refine ⟨Registry.whole_of_eq_nil h, Catalogue.named_empty, fun k r hr => ?_, fun n v => ?_⟩
  · cases hr
  · simp [live, Registry.get?, h, Catalogue.empty, Entries.get?]

/-- What is kept under the digest of one of the names is the plugin of that name. -/
theorem Matched.name_of_key (h : s.Matched names m) (hapart : DigestsApart names) (hgiven : given ∈ names)
    {r : PluginRecord} (hr : m.plugins (Store.key given) = some r) : Text.trim r.name = Text.trim given := by
  obtain ⟨htrim, -, a, ha, haname⟩ := h.kept _ r hr
  have hkey : Store.key a = Store.key given := by
    rw [← h.named _ r hr]
    refine Store.key_congr ?_
    rw [htrim, haname]
  rw [htrim, ← haname]
  exact hapart a ha given hgiven hkey

/-- Under one name the registry and the store get the same plugin, or lose it. -/
theorem Matched.update (h : s.Matched names m) (hapart : DigestsApart names) (hgiven : given ∈ names)
    {value : Option PluginRecord} (hplugins : m'.plugins = Function.update m.plugins (Store.key given) value)
    (hvalue : ∀ r, value = some r → r.name = Text.trim given ∧ r.loads s.limits = true)
    (hlimits : s'.limits = s.limits) (hwhole : s'.engine.registry.Whole)
    (hlive : ∀ n, s'.live n =
      if Text.trim given = Text.trim n then value.map PluginRecord.view else s.live n) :
    s'.Matched names m' := by
  have hcases : ∀ k r, m'.plugins k = some r →
      (k = Store.key given ∧ value = some r) ∨ m.plugins k = some r := by
    intro k r hr
    rw [hplugins, Function.update_apply] at hr
    split at hr
    · next hk => exact Or.inl ⟨hk, hr⟩
    · exact Or.inr hr
  refine ⟨hwhole, fun k r hr => ?_, fun k r hr => ?_, fun n v => ?_⟩
  · rcases hcases k r hr with ⟨rfl, hnew⟩ | hold
    · refine Store.key_congr ?_
      rw [(hvalue r hnew).1, Text.trim_trim]
    · exact h.named k r hold
  · rcases hcases k r hr with ⟨rfl, hnew⟩ | hold
    · obtain ⟨hname, hloads⟩ := hvalue r hnew
      rw [hlimits, hname, Text.trim_trim]
      exact ⟨rfl, hloads, given, hgiven, rfl⟩
    · rw [hlimits]
      exact h.kept k r hold
  · rw [hlive, hplugins, Function.update_apply]
    by_cases hn : Text.trim given = Text.trim n
    · rw [if_pos hn, if_pos (Store.key_congr hn.symm), Option.map_eq_some_iff]
      refine exists_congr fun r => and_congr_right fun hr => ?_
      rw [(hvalue r hr).1, Text.trim_trim]
      exact (and_iff_right hn).symm
    · rw [if_neg hn]
      split
      · next hkey =>
        -- Neither the old plugin nor the new one of this key has the name.
        constructor
        · intro hv
          obtain ⟨r, hr, hname, -⟩ := (h.live n v).1 hv
          exact absurd ((h.name_of_key hapart hgiven (hkey ▸ hr)).symm.trans hname) hn
        · rintro ⟨r, hr, hname, -⟩
          rw [(hvalue r hr).1, Text.trim_trim] at hname
          exact absurd hname hn
      · exact h.live n v

theorem Matched.edit (h : s.Matched names m) (hapart : DigestsApart names)
    (hfiles : m.StandsIn s.store s.files) {e : PluginEdit} (he : e.Fits) (hservice : e.IsOfService) (hname : e.name ∈ names) :
    (s.edit e).Matched names (m.edit s.limits e) := by
  cases e with
  | register now given description source =>
    rcases register_cases hfiles he given description source with
      ⟨hs, hm⟩ | ⟨files, p, hs, hm, -, hne, hcompiles, hpname, hview⟩
    · rw [hs, hm]
      exact h
    · rw [hs, hm]
      let record : PluginRecord := .fresh now (Text.trim given) description source
      have hplugins := Catalogue.plugins_next_savePlugin m now record
      have htrim : Text.trim record.name = Text.trim given := Text.trim_trim given
      rw [Store.key_congr htrim] at hplugins
      refine h.update hapart hname hplugins (fun r hr => ?_) rfl (h.whole.insert ?_) fun n => ?_
      · cases hr
        refine ⟨rfl, Bool.and_eq_true_iff.2 ⟨decide_eq_true ?_, hcompiles⟩⟩
        change Text.trim (Text.trim given) ≠ ""
        rwa [Text.trim_trim]
      · rw [hpname, Text.trim_trim]
      · refine (live_insert { s with files } p n).trans ?_
        rw [hpname, hview]
        rfl
  | remove given =>
    obtain ⟨files, registry, hs, -, hlimits, hwhole, hlive⟩ := exists_remove hfiles given
    have hplugins : (m.next (.deletePlugin given)).plugins =
        Function.update m.plugins (Store.key given) none := rfl
    refine h.update hapart hname hplugins nofun hlimits ?_ hlive
    rw [hs]
    exact hwhole h.whole
  | save now record => exact absurd hservice id

theorem Matched.edited (h : s.Matched names m) (hapart : DigestsApart names)
    (hfiles : m.StandsIn s.store s.files) {edits : List PluginEdit} (hfits : ∀ e ∈ edits, e.Fits)
    (hservice : ∀ e ∈ edits, e.IsOfService) (hnames : ∀ e ∈ edits, e.name ∈ names) : (s.edited edits).Matched names (m.edited s.limits edits) := by
  induction edits generalizing s m with
  | nil => exact h
  | cons e edits ih =>
    have hmem : ∀ {e'}, e' ∈ edits → e' ∈ e :: edits := List.mem_cons_of_mem _
    obtain ⟨hfiles', -, hlimits⟩ := standsIn_edit hfiles (hfits e List.mem_cons_self)
    have hmatched := h.edit hapart hfiles (hfits e List.mem_cons_self) (hservice e List.mem_cons_self)
      (hnames e List.mem_cons_self)
    have hrest := ih hmatched hfiles' (fun e he => hfits e (hmem he)) (fun e he => hservice e (hmem he))
      fun e he => hnames e (hmem he)
    rw [hlimits] at hrest
    exact hrest

/-- What is listed of a store that matches the registry is what the registry has. -/
theorem Matched.told_perm (h : s.Matched names m) {records : List PluginRecord}
    (hlists : Lists m.plugins records) :
    s.engine.registry.told.Perm (records.map PluginRecord.installed) := by
  refine Service.told_perm h.whole (h.named.namedApart hlists) fun n v => ?_
  rw [h.live]
  constructor
  · rintro ⟨r, hr, hname⟩
    exact ⟨r, (hlists.mem_iff r).2 ⟨_, hr⟩, hname⟩
  · rintro ⟨r, hmem, hname⟩
    obtain ⟨k, hr⟩ := (hlists.mem_iff r).1 hmem
    refine ⟨r, ?_, hname⟩
    rw [← Store.key_congr hname.1, h.named k r hr]
    exact hr

/-! ## Restarts -/

/-- **Restart.**  Plugins are registered and removed in any order, and records are kept that no service has
heard of, all on a store that was empty.  A service that starts on this store takes up every record that
has a name and compiles and reports the others, and does so in whatever order the records come.  If the
plugins were changed through the service only, and no two of their names have one digest, then nothing is
reported, and the new registry has what the old one has and what the store lists. -/
theorem restart {s : Service} (hempty : Catalogue.empty.StandsIn s.store s.files) {edits : List PluginEdit}
    (hfits : ∀ e ∈ edits, e.Fits) (now : Instant) {engine : Engine} (hengine : engine.registry.plugins = []) :
    let old := s.edited edits
    let fresh : Service := ⟨engine, s.store, old.files⟩
    ∃ records, s.store.listPlugins old.files = .ok records old.files ∧
      Lists (Catalogue.empty.edited s.limits edits).plugins records ∧
      load now fresh = installAll now records fresh ∧
      (∀ order, order.Perm records →
        ∃ report new, installAll now order fresh = .ok report new ∧ new.Restored fresh.limits order report) ∧
      (s.engine.registry.plugins = [] → (∀ e ∈ edits, e.IsOfService) → DigestsApart (edits.map (·.name)) →
        fresh.limits = s.limits →
        (∀ order, order.Perm records → ∃ report new, installAll now order fresh = .ok report new ∧
          report.skipped = [] ∧ new.engine.registry.told.Perm old.engine.registry.told) ∧
        ∃ infos, listPlugins old = .ok infos old ∧
          (infos.map PluginInfo.told).Perm old.engine.registry.told) := by
  intro old fresh
  obtain ⟨hfiles, hstore, hlimits⟩ := standsIn_edited hempty hfits
  obtain ⟨records, hlist, hlists⟩ := hfiles.listPlugins
  have hnamed : (Catalogue.empty.edited s.limits edits).Named := Catalogue.named_empty.edited edits
  have hrestored : ∀ order, order.Perm records →
      ∃ report new, installAll now order fresh = .ok report new ∧ new.Restored fresh.limits order report :=
    fun order hperm => exists_restored now fresh hengine (hnamed.namedApart (hlists.perm hperm))
  refine ⟨records, hlist, hlists, bind_of_ok (onStore_of_ok (s := fresh) (f := Store.listPlugins) hlist _) _,
    hrestored, fun hregistry hservice hapart hsame => ?_⟩
  have hmatched : old.Matched (edits.map (·.name)) _ :=
    (matched_of_eq_nil hregistry).edited hapart hempty hfits hservice fun e he => List.mem_map_of_mem he
  have hall : ∀ r ∈ records, Text.trim r.name = r.name ∧ r.loads s.limits = true := by
    intro r hr
    obtain ⟨k, hk⟩ := (hlists.mem_iff r).1 hr
    obtain ⟨htrim, hloads, -⟩ := hmatched.kept k r hk
    exact ⟨htrim, hlimits ▸ hloads⟩
  constructor
  · intro order hperm
    obtain ⟨report, new, hinstall, -, htold, hskipped, -⟩ := hrestored order hperm
    have hloads : ∀ r ∈ order, r.loads fresh.limits = true := fun r hr => hsame ▸ (hall r (hperm.subset hr)).2
    rw [List.filter_eq_self.2 hloads] at htold
    refine ⟨report, new, hinstall, ?_, htold.trans (hmatched.told_perm (hlists.perm hperm)).symm⟩
    rw [hskipped, List.filter_eq_nil_iff.2 fun r hr => by simp [hloads r hr], List.map_nil]
  · refine ⟨records.map PluginRecord.info, ?_, ?_⟩
    · have hlist : old.store.listPlugins old.files = .ok records old.files := hstore ▸ hlist
      exact bind_of_ok (onStore_of_ok (f := Store.listPlugins) hlist _) _
    · have htold :
          (records.map PluginRecord.info).map PluginInfo.told = records.map PluginRecord.installed := by
        rw [List.map_map]
        refine List.map_congr_left fun r hr => ?_
        rw [PluginRecord.installed, (hall r hr).1]
        rfl
      rw [htold]
      exact (hmatched.told_perm hlists).symm

/-- A service with nothing in its store and nothing in its registry. -/
def blank : Service := ⟨⟨{}, {}, 1, {}⟩, ⟨[]⟩, Store.vacant⟩

/-- A plugin that was registered is there after a restart, under its trimmed name. -/
theorem restart_registered :
    let old := blank.edited [.register ⟨0, 0⟩ " p " "" "", .remove "q"]
    let fresh : Service := ⟨blank.engine, blank.store, old.files⟩
    ∃ report new, load ⟨0, 0⟩ fresh = .ok report new ∧ report.skipped = [] ∧
      new.engine.registry.told.Perm [("p", "", some "e3b0c44298fc1c14")] := by
  intro old fresh
  have hfits : ∀ e ∈ [PluginEdit.register ⟨0, 0⟩ " p " "" "", .remove "q"], e.Fits := by
    simp [PluginEdit.Fits, Instant.representable_epoch]
  have hservice : ∀ e ∈ [PluginEdit.register ⟨0, 0⟩ " p " "" "", .remove "q"], e.IsOfService := by
    simp [PluginEdit.IsOfService]
  have hapart : DigestsApart [" p ", "q"] := by
    unfold DigestsApart
    decide +kernel
  have hempty : Catalogue.empty.StandsIn blank.store blank.files := Store.standsIn_vacant
  have hengine : blank.engine.registry.plugins = [] := rfl
  obtain ⟨records, -, -, hload, -, hsame⟩ := restart hempty hfits ⟨0, 0⟩ hengine
  obtain ⟨report, new, hinstall, hskipped, htold⟩ := (hsame rfl hservice hapart rfl).1 records (.refl _)
  have hold : old.engine.registry.told = [("p", "", some "e3b0c44298fc1c14")] := by decide +kernel
  exact ⟨report, new, hload.trans hinstall, hskipped, htold.trans (.of_eq hold)⟩

end Service

end PluginChain
