import Mathlib.Logic.Relation
import PluginChain.Proofs.Service.Agreement
import PluginChain.Proofs.Service.PluginsKept
import PluginChain.Proofs.Service.TrimmedNames

/-!
# One plugin for each trimmed name

`Traffic.Becomes` is all that can happen around a service with calls under way: another call comes in, a call
does its next step, another program keeps a record in the store or deletes one, somebody installs a plugin in
the registry or takes one out, the service starts anew with an empty registry, and anything at all that leaves
the plugins alone.  A history is any number of these, one after the other.

A service is `Service.Orderly` if each live plugin stands under its own trimmed name and each record of a plugin
is in the file of its name.  A service with no plugins is, and whatever happens keeps it so
(`Traffic.Orderly.becomes`).  So there are never two plugins in the registry, nor two records in the store, whose
names differ only in white space (`Service.PluginsApart`).
-/

set_option autoImplicit false

namespace PluginChain

open Operation FileTree

/-! ## Records in the files of their names -/

/-- Each record of a plugin is in the file of its name. -/
def Store.Filed (s : Store) (t : FileTree) : Prop :=
  ∀ name record, suffix? name = some "json" →
    StoreM.recordAt? PluginRecord.codec t (s.plugins ++ [name]) = some record →
      s.plugins ++ [name] = s.pluginFile record.name

/-- If the records were in their files, they are afterwards. -/
def Store.StaysFiled (s : Store) (t t' : FileTree) : Prop := s.Filed t → s.Filed t'

namespace Store

variable {s : Store} {t t' : FileTree}

theorem PluginsKept.staysFiled (h : s.PluginsKept t t') : s.StaysFiled t t' :=
  fun hfiled name record hname hrecord => hfiled name record hname ((h name hname).symm.trans hrecord)

theorem keeps_draftPlugin (s : Store) (now : Instant) (record : PluginRecord) :
    Keeps s.StaysFiled (s.draftPlugin now record) :=
  (s.spares_draftPlugin now record).mono fun _ _ h =>
    (s.pluginsKept_of_recordsKept h fun _ => List.not_mem_nil).staysFiled

/-- A record that is kept goes into the file of its name, if its instants can be read back. -/
theorem keeps_keepPlugin (s : Store) {record : PluginRecord} (hcreated : record.createdAt.Representable)
    (hupdated : record.updatedAt.Representable) : Keeps s.StaysFiled (s.keepPlugin record) := by
  intro t
  cases hkeep : s.keepPlugin record t with
  | error e t' =>
    have hkept : RecordsKept [] t t' := StoreM.keepsFailing_writeRecord _ _ _ _ _ _ _ hkeep
    exact (s.pluginsKept_of_recordsKept hkept fun _ => List.not_mem_nil).staysFiled
  | ok u t' =>
    intro hfiled name found hname hfound
    change StoreM.recordAt? PluginRecord.codec t' _ = _ at hfound
    by_cases hfile : s.plugins ++ [name] = s.pluginFile record.name
    · rw [hfile, recordAt?_keepPlugin hkeep hcreated hupdated] at hfound
      cases hfound
      exact hfile
    · have hkept : RecordsKept [s.pluginFile record.name] t t' := StoreM.recordsKept_of_writeRecord hkeep
      rw [hkept.recordAt?_eq hname fun h => hfile (List.mem_singleton.1 h)] at hfound
      exact hfiled name found hname hfound

theorem keeps_deletePlugin (s : Store) (given : String) : Keeps s.StaysFiled (s.deletePlugin given) := by
  intro t
  by_cases hmissing : t.read (s.pluginFile given) = .error .missing
  · rw [deletePlugin_of_missing hmissing]
    exact id
  rw [deletePlugin_of_ne_missing hmissing]
  cases hremove : (Change.remove (s.pluginFile given)).apply t with
  | error e =>
    rw [StoreM.perform_cons_of_error hremove]
    exact id
  | ok t' =>
    rw [StoreM.perform_cons_of_ok hremove]
    intro hfiled name found hname hfound
    refine hfiled name found hname ?_
    obtain ⟨text, htext, hread⟩ := StoreM.recordAt?_eq_some_iff.1 hfound
    change t'.lookup _ = _ at htext
    rw [(lookup_of_remove hremove).2.2] at htext
    split at htext
    · cases htext
    · exact StoreM.recordAt?_eq_some_iff.2 ⟨text, htext, hread⟩

end Store

/-! ## Plugins under their names -/

namespace Registry

variable {r r' : Registry} {p : CompiledPlugin} {now : Instant} {given description source : String}

/-- A plugin is installed under a trimmed name. -/
theorem install_eq_ok {c : CompiledSource} (h : r.install now given description c = .ok (p, r')) :
    Text.trim p.name = p.name ∧ r' = r.insert p := by
  cases hname : nameOf given with
  | error e =>
    rw [install, hname] at h
    cases h
  | ok name =>
    rw [install_of_nameOf hname] at h
    cases h
    exact ⟨(nameOf_eq_ok hname).2.1, rfl⟩

theorem Whole.register (h : r.Whole) (hregister : r.register now given description source = .ok (p, r')) :
    r'.Whole := by
  obtain ⟨-, -, hname, rfl⟩ := register_eq_ok hregister
  exact h.insert (by rw [hname, Text.trim_trim])

/-- **No two live plugins have one trimmed name.** -/
theorem Whole.nodup_trimmed (h : r.Whole) : (r.plugins.map fun x => Text.trim x.2.name).Nodup := by
  have hnames : r.plugins.map (fun x => Text.trim x.2.name) = Entries.names r.plugins := by
    refine List.map_congr_left fun x hx => ?_
    obtain ⟨hname, htrim⟩ := h.named x hx
    rw [hname, htrim]
  rw [hnames]
  exact h.sorted.nodup_names

end Registry

namespace Service

variable {α β : Type} {s s' : Service}

/-- Each live plugin stands under its own trimmed name, and each record of a plugin is in the file of its
name. -/
structure Orderly (s : Service) : Prop where
  whole : s.engine.registry.Whole
  filed : s.store.Filed s.files

/-- No two plugins in the registry, and no two records of plugins in the store, have one trimmed name. -/
structure PluginsApart (s : Service) : Prop where
  live : (s.engine.registry.plugins.map fun x => Text.trim x.2.name).Nodup
  stored : ∀ name name' record record', suffix? name = some "json" → suffix? name' = some "json" →
    StoreM.recordAt? PluginRecord.codec s.files (s.store.plugins ++ [name]) = some record →
    StoreM.recordAt? PluginRecord.codec s.files (s.store.plugins ++ [name']) = some record' →
    Text.trim record.name = Text.trim record'.name → name = name'

theorem orderly_of_nothing (hlive : s.engine.registry.plugins = [])
    (hstored : ∀ name, StoreM.recordAt? PluginRecord.codec s.files (s.store.plugins ++ [name]) = none) :
    s.Orderly :=
  ⟨Registry.whole_of_eq_nil hlive, fun name record _ hrecord => by
    rw [hstored] at hrecord
    cases hrecord⟩

theorem Orderly.pluginsApart (h : s.Orderly) : s.PluginsApart where
  live := h.whole.nodup_trimmed
  stored name name' record record' hname hname' hrecord hrecord' htrim := by
    have hfile := h.filed name record hname hrecord
    rw [s.store.pluginFile_congr htrim, ← h.filed name' record' hname' hrecord'] at hfile
    exact (append_singleton_inj.1 hfile).2

/-- If the service was orderly, it is afterwards. -/
def StaysOrderly (s s' : Service) : Prop := s.Orderly → s'.Orderly

theorem StaysOrderly.refl (s : Service) : s.StaysOrderly s := id

theorem StaysOrderly.trans {s'' : Service} (h : s.StaysOrderly s') (h' : s'.StaysOrderly s'') :
    s.StaysOrderly s'' := h' ∘ h

abbrev KeepsOrder (f : ServiceM α) : Prop := Operation.Keeps StaysOrderly f

theorem PluginsKept.staysOrderly (h : s.PluginsKept s') : s.StaysOrderly s' := fun hs =>
  ⟨by rw [h.registry]; exact hs.whole, by rw [h.store]; exact h.records.staysFiled hs.filed⟩

theorem keepsOrder_pure (a : α) : KeepsOrder (pure a) := keeps_pure .refl a

theorem keepsOrder_of_looksOnly {f : ServiceM α} (h : LooksOnly f) : KeepsOrder f := h.keeps .refl

theorem keepsOrder_bind {f : ServiceM α} {g : α → ServiceM β} (hf : KeepsOrder f)
    (hg : ∀ a, KeepsOrder (g a)) : KeepsOrder (f >>= g) :=
  hf.bind (fun _ _ _ => .trans) hg

theorem keepsOrder_onStore {f : Store → StoreM α}
    (h : ∀ store, Operation.Keeps (Store.StaysFiled store) (f store)) (wrap : StoreError → ChainError) :
    KeepsOrder (onStore f wrap) := by
  intro s hs
  have hfiles := h s.store s.files hs.filed
  cases hf : f s.store s.files with
  | ok a files =>
    rw [hf] at hfiles
    rw [onStore_of_ok hf]
    exact ⟨hs.whole, hfiles⟩
  | error e files =>
    rw [hf] at hfiles
    rw [onStore_of_error hf]
    exact ⟨hs.whole, hfiles⟩

theorem keepsOrder_install (now : Instant) (given description : String) (c : CompiledSource) :
    KeepsOrder (onRegistry fun r => r.install now given description c) := by
  intro s hs
  rw [onRegistry]
  cases hinstall : s.engine.registry.install now given description c with
  | ok installed =>
    obtain ⟨p, registry⟩ := installed
    obtain ⟨hname, rfl⟩ := Registry.install_eq_ok hinstall
    exact ⟨hs.whole.insert hname, hs.filed⟩
  | error e => exact hs

theorem keepsOrder_deleteStored (given : String) : KeepsOrder (deleteStored given) := by
  intro s hs
  have hfiles := s.store.keeps_deletePlugin given s.files hs.filed
  rw [deleteStored]
  cases hdelete : s.store.deletePlugin given s.files with
  | ok u files =>
    rw [hdelete] at hfiles
    exact ⟨hs.whole, hfiles⟩
  | error e files =>
    rw [hdelete] at hfiles
    cases hmissing : e.isNotFound <;> simp only [hmissing] <;> exact ⟨hs.whole, hfiles⟩

theorem keepsOrder_evict (given : String) : KeepsOrder (evict given) := by
  intro s hs
  rw [evict]
  cases hremove : s.engine.registry.remove given with
  | ok registry => exact ⟨hs.whole.remove hremove, hs.filed⟩
  | error e => exact hs

end Service

/-! ## Steps of calls -/

open Service

/-- **No step of a call gives two plugins one trimmed name.** -/
theorem Stage.Sound.keepsOrder {stage : Stage} {limits : Limits} {store : Store} (h : stage.Sound limits store) :
    Service.KeepsOrder stage.advance := by
  have hget : ∀ {α : Type} {f : Service → ServiceM α}, (∀ s, LooksOnly (f s)) → LooksOnly (get >>= f) :=
    fun hf => LooksOnly.bind (fun _ => rfl) hf
  cases stage with
  | ready call =>
    cases call with
    | register now given description source =>
      exact keepsOrder_of_looksOnly <| (looksOnly_ofExcept _).bind fun _ => hget fun _ =>
        (looksOnly_ofExcept _).bind fun _ => looksOnly_pure _
    | remove given =>
      exact keepsOrder_bind (keepsOrder_deleteStored given) fun _ =>
        keepsOrder_of_looksOnly (hget fun _ => looksOnly_pure _)
    | load now =>
      exact keepsOrder_of_looksOnly <| (looksOnly_onStore (fun _ => StoreM.looksOnly_look _) _).bind fun _ =>
        looksOnly_pure _
  | waiting r => exact keepsOrder_pure _
  | admitted r =>
    exact keepsOrder_bind (keepsOrder_onStore (fun store => store.keeps_draftPlugin r.now r.record) _)
      fun _ => keepsOrder_pure _
  | drafted r record =>
    obtain ⟨-, -, -, -, hcreated, hupdated⟩ := h
    exact keepsOrder_bind (keepsOrder_onStore (fun store => store.keeps_keepPlugin hcreated hupdated) _)
      fun _ => keepsOrder_of_looksOnly (hget fun _ => looksOnly_pure _)
  | kept r moment =>
    exact keepsOrder_bind (keepsOrder_install r.now r.name r.description r.compiled) fun _ => keepsOrder_pure _
  | deleted given stored moment =>
    refine keepsOrder_bind (keepsOrder_evict given) fun installed => keepsOrder_of_looksOnly ?_
    cases stored || installed
    · exact looksOnly_throw _
    · exact looksOnly_pure _
  | reading now left found =>
    cases left with
    | nil => exact keepsOrder_pure _
    | cons name left =>
      refine keepsOrder_of_looksOnly <| hget fun _ =>
        (looksOnly_onStore (fun _ => StoreM.looksOnly_look _) _).bind fun text => ?_
      cases PluginRecord.codec.ofJson text with
      | ok record => exact hget fun _ => looksOnly_pure _
      | error why => exact looksOnly_pure _
  | loading now left report =>
    cases left with
    | nil => exact keepsOrder_pure _
    | cons f left =>
      intro s hs
      cases hregister : s.engine.registry.register now f.record.name f.record.description f.record.source with
      | ok installed =>
        obtain ⟨p, registry⟩ := installed
        simp only [Stage.advance, hregister]
        exact ⟨hs.whole.register hregister, hs.filed⟩
      | error e =>
        simp only [Stage.advance, hregister]
        exact hs
  | returned r => exact keepsOrder_pure _

theorem Stage.Sound.orderly_proceed {stage : Stage} {limits : Limits} {store : Store} {s : Service}
    (h : stage.Sound limits store) (hs : s.Orderly) : (stage.proceed s).2.Orderly := by
  rw [Stage.snd_proceed]
  exact h.keepsOrder s hs

/-! ## Histories -/

namespace Traffic

variable {s : Service} {t t' : Traffic}

/-- What may happen next. -/
inductive Becomes (t : Traffic) : Traffic → Prop
  /-- Another call comes in. -/
  | call {c : PluginCall} (hc : c.Fits) : Becomes t { t with stages := t.stages ++ [.ready c] }
  | move {t' : Traffic} (i : Nat) (h : t.move i = some t') : Becomes t t'
  /-- Something is done that leaves the plugins alone. -/
  | aside {s' : Service} (h : t.service.PluginsKept s') : Becomes t { t with service := s' }
  /-- Another program keeps a record in the store. -/
  | kept {record : PluginRecord} {files : FileTree} (hcreated : record.createdAt.Representable)
      (hupdated : record.updatedAt.Representable)
      (h : t.service.store.keepPlugin record t.service.files = .ok () files) :
      Becomes t { t with service := { t.service with files } }
  /-- Another program deletes a record. -/
  | deleted {given : String} {files : FileTree}
      (h : t.service.store.deletePlugin given t.service.files = .ok () files) :
      Becomes t { t with service := { t.service with files } }
  /-- Somebody installs a plugin in the registry and nowhere else. -/
  | installed {now : Instant} {given description : String} {c : CompiledSource} {p : CompiledPlugin}
      {registry : Registry} (h : t.service.engine.registry.install now given description c = .ok (p, registry)) :
      Becomes t { t with service := { t.service with engine := { t.service.engine with registry } } }
  | removed {given : String} {registry : Registry} (h : t.service.engine.registry.remove given = .ok registry) :
      Becomes t { t with service := { t.service with engine := { t.service.engine with registry } } }
  /-- The service starts anew on its store, where all calls that were under way are forgotten. -/
  | restart {engine : Engine} (h : engine.registry.plugins = []) :
      Becomes t (begin_ { t.service with engine } [])

/-- Any number of things happen, one after the other. -/
abbrev Leads : Traffic → Traffic → Prop := Relation.ReflTransGen Becomes

/-- Calls that move in an order make a history. -/
theorem leads_of_after {turns : List Nat} (h : t.after turns = some t') : t.Leads t' :=
  foldlM_keeps (fun hleads hmove => hleads.tail (.move _ hmove)) .refl h

/-- The service is orderly, and its calls know what they know. -/
structure Orderly (t : Traffic) : Prop where
  service : t.service.Orderly
  stages : ∀ stage ∈ t.stages, stage.Sound t.service.limits t.service.store

theorem orderly_begin (h : s.Orderly) : (begin_ s []).Orderly := ⟨h, fun _ hstage => absurd hstage List.not_mem_nil⟩

/-- **Whatever happens keeps a service orderly.** -/
theorem Orderly.becomes (h : t.Orderly) (hnext : t.Becomes t') : t'.Orderly := by
  cases hnext with
  | @call c hc =>
    refine ⟨h.service, fun stage hstage => ?_⟩
    rcases List.mem_append.1 hstage with hstage | hstage
    · exact h.stages stage hstage
    · rw [List.mem_singleton.1 hstage]
      exact hc
  | move i hmove =>
    obtain ⟨stage, hmem, hservice, hstages, -⟩ := exists_stage_of_move hmove
    have hsound : stage.Sound t.service.limits t.service.store := h.stages stage hmem
    obtain ⟨hnext, hlimits, hstore, -⟩ := hsound.stepped
    refine ⟨?_, fun other hother => ?_⟩
    · rw [hservice]
      exact hsound.orderly_proceed h.service
    · rw [hservice, hlimits, hstore]
      rw [hstages] at hother
      rcases List.mem_or_eq_of_mem_set hother with hother | rfl
      · exact h.stages other hother
      · exact hnext
  | @aside s' hkept =>
    refine ⟨hkept.staysOrderly h.service, fun stage hstage => ?_⟩
    rw [Service.limits, hkept.registry, hkept.store]
    exact h.stages stage hstage
  | kept hcreated hupdated hkeep =>
    have hfiled := t.service.store.keeps_keepPlugin hcreated hupdated t.service.files h.service.filed
    rw [hkeep] at hfiled
    exact ⟨⟨h.service.whole, hfiled⟩, h.stages⟩
  | @deleted given files hdelete =>
    have hfiled := t.service.store.keeps_deletePlugin given t.service.files h.service.filed
    rw [hdelete] at hfiled
    exact ⟨⟨h.service.whole, hfiled⟩, h.stages⟩
  | installed hinstall =>
    obtain ⟨hname, rfl⟩ := Registry.install_eq_ok hinstall
    exact ⟨⟨h.service.whole.insert hname, h.service.filed⟩, h.stages⟩
  | @removed given registry hremove =>
    refine ⟨⟨h.service.whole.remove hremove, h.service.filed⟩, fun stage hstage => ?_⟩
    change stage.Sound registry.limits _
    rw [Registry.limits_remove hremove]
    exact h.stages stage hstage
  | restart hempty => exact orderly_begin ⟨Registry.whole_of_eq_nil hempty, h.service.filed⟩

theorem Orderly.leads (h : t.Orderly) (hleads : t.Leads t') : t'.Orderly := by
  induction hleads with
  | refl => exact h
  | tail _ hnext ih => exact ih.becomes hnext

end Traffic

/-- The text of a record is written beside its file.  A program that ends while it keeps a record has left the
plugins alone, or has kept the record. -/
theorem Store.pluginsKept_or_of_cutOff (s : Store) {record : PluginRecord} {t t' : FileTree}
    (hcut : CutOff (StoreM.recordChanges (s.pluginFile record.name) (PluginRecord.codec.toJson record)) t t') :
    s.PluginsKept t t' ∨ s.keepPlugin record t = .ok () t' := by
  refine (hcut.sameRecords_or (wholeLast_recordChanges s.plugins _ _)).imp_left fun hsame => ?_
  exact s.pluginsKept_of_recordsKept hsame.recordsKept fun _ => List.not_mem_nil

/-! ## White space -/

/-- **White space around the name of a plugin never matters.**  Of two names with one trimmed name, one can be
given in place of the other to every operation of the registry and of the service, and the operation is the
same function of the registry or of the service: with the same readings of the clock all that it comes to and
all that it leaves is the same.  Only what is left of a name must not be blank where a plugin is registered.
The same holds of the names in the calls on a job, and of those in the steps of a task, but that the copy of a
task which is submitted has its text; with other ids and at another time the jobs of two such tasks are the
same up to these.

A service without plugins is orderly, and no history that begins in an orderly service comes to two live
plugins, or two records of plugins, that have one trimmed name.  What is done aside in a history may be any of
the other operations, any step of a request about jobs, and what a program has done that ends while it keeps a
record. -/
theorem Service.white_space_around_names :
    (∀ a b : String, Text.trim a = Text.trim b →
      (∀ r : Registry, r.lookup a = r.lookup b ∧ r.contains a = r.contains b ∧ r.remove a = r.remove b ∧
        (Text.trim a ≠ "" → ∀ now description,
          (∀ c, r.install now a description c = r.install now b description c) ∧
          ∀ source, r.register now a description source = r.register now b description source)) ∧
      (Text.trim a ≠ "" → ∀ now description source,
        register now a description source = register now b description source) ∧
      pluginSource a = pluginSource b ∧ remove a = remove b ∧
      ∀ input params, execute a input params = execute b input params) ∧
    (∀ calls calls' : List Invocation, calls.map Invocation.trimmed = calls'.map Invocation.trimmed →
      ∀ now id, process now id calls = process now id calls') ∧
    (∀ task task' : Task, task.SamePlugins task' →
      (∀ input, runTask task input = runTask task' input) ∧
      (∀ s now taskId jobId given, observed withoutCopies (submit now taskId jobId task given s) =
        observed withoutCopies (submit now taskId jobId task' given s)) ∧
      (∀ eval changes turns now taskId jobId given,
        Alike withoutCopies (submitBy (.onSchedule eval changes turns) now taskId jobId task given)
          (submitBy (.onSchedule eval changes turns) now taskId jobId task' given)) ∧
      ∀ eval changes turns (s : Service), s.store.Ready s.files →
        ∀ now now' taskId taskId' jobId jobId' given, SameFate s taskId taskId' task task' jobId jobId'
          (submitBy (.onSchedule eval changes turns) now taskId jobId task given s)
          (submitBy (.onSchedule eval changes turns) now' taskId' jobId' task' given s)) ∧
    (∀ s : Service, s.engine.registry.plugins = [] →
      (∀ name, StoreM.recordAt? PluginRecord.codec s.files (s.store.plugins ++ [name]) = none) → s.Orderly) ∧
    (∀ (s : Service) (t : Traffic), s.Orderly → (Traffic.begin_ s []).Leads t → t.service.PluginsApart) ∧
    (∀ c : OtherCall, KeepsPlugins c.run) ∧
    (∀ (stage : JobStage) (e : Engine) (s : Service), s.PluginsKept (stage.proceed (.ofEngine e) s).2) ∧
    ∀ (s : Store) (record : PluginRecord) (t t' : FileTree),
      CutOff (StoreM.recordChanges (s.pluginFile record.name) (PluginRecord.codec.toJson record)) t t' →
        s.PluginsKept t t' ∨ s.keepPlugin record t = .ok () t' := by
  refine ⟨fun a b h => ⟨fun r => ?_, register_congr h, pluginSource_congr h, remove_congr h, execute_congr h⟩,
    fun calls calls' => process_congr, fun task task' h => ?_, fun s => orderly_of_nothing,
    fun s t hs hleads => ((Traffic.orderly_begin hs).leads hleads).service.pluginsApart,
    OtherCall.keepsPlugins, fun stage e => stage.pluginsKept_proceed (Runner.keepsPlugins_ofEngine e),
    fun s record t t' => s.pluginsKept_or_of_cutOff⟩
  · exact ⟨r.lookup_congr h, r.contains_congr h, r.remove_congr h, fun hne now description =>
      ⟨r.install_congr h hne now description, r.register_congr h hne now description⟩⟩
  · have hrun : ∀ eval changes turns, (Runner.onSchedule eval changes turns).RunsAlike task task' :=
      fun eval changes turns =>
        h.runsAlike (Runner.overlooks_onSchedule Step.unnoticed_trimmed eval changes turns)
    exact ⟨runTask_congr h, fun s now taskId jobId given => observed_submit_congr h now taskId jobId given s,
      fun eval changes turns => alike_submitBy_of_runsAlike (hrun eval changes turns),
      fun eval changes turns s hready => sameFate_submitBy_of_runsAlike (hrun eval changes turns) hready⟩

/-- A plugin that is registered twice, once with white space around its name. -/
theorem Service.white_space_around_names_padded :
    let padded := " p\t"
    let step : Step := { plugin := "p" }
    let task : Task := ⟨"t", "", [step], true⟩
    let other : Task := ⟨"t", "", [{ step with plugin := padded }], true⟩
    let calls : List PluginCall := [.register ⟨0, 0⟩ padded "" "", .register ⟨0, 0⟩ "p" "again" ""]
    Text.trim padded = "p" ∧
      register ⟨0, 0⟩ padded "" "" = register ⟨0, 0⟩ "p" "" "" ∧
      process ⟨0, 0⟩ ⟨1⟩ [⟨padded, []⟩] = process ⟨0, 0⟩ ⟨1⟩ [⟨"p", []⟩] ∧
      runTask task .null = runTask other .null ∧
      SameFate (fresh default) ⟨1⟩ ⟨3⟩ task other ⟨2⟩ ⟨4⟩
        (submitBy (.onSchedule (fun _ _ _ _ => .ok .null) (fun _ r => r) []) ⟨0, 0⟩ ⟨1⟩ ⟨2⟩ task none (fresh default))
        (submitBy (.onSchedule (fun _ _ _ _ => .ok .null) (fun _ r => r) []) ⟨5, 0⟩ ⟨3⟩ ⟨4⟩ other none
          (fresh default)) ∧
      ∃ t, (Traffic.begin_ Traffic.bare calls).after [0, 0, 0, 0, 0, 1, 1, 1, 1, 1] = some t ∧
        t.service.engine.registry.list.map PluginInfo.description = ["again"] ∧ t.service.PluginsApart := by
  intro padded step task other calls
  obtain ⟨hname, hcalls, htasks, hnothing, hapart, -⟩ := white_space_around_names
  have htrim : Text.trim padded = Text.trim "p" := by decide
  obtain ⟨-, hregister, -⟩ := hname padded "p" htrim
  have hcall : [(⟨padded, []⟩ : Invocation)].map Invocation.trimmed = [⟨"p", []⟩].map Invocation.trimmed := by
    simp only [List.map, Invocation.trimmed, htrim]
  have hsame : task.SamePlugins other := by
    simp only [Task.SamePlugins, Task.mapSteps, task, other, step, List.map, Step.trimmed, Option.map, htrim]
  obtain ⟨hrun, -, -, hstamps⟩ := htasks task other hsame
  have hbare : Traffic.bare.Orderly := by
    refine hnothing _ rfl fun name => ?_
    simp [StoreM.recordAt?, Traffic.bare, FileTree.lookup, Store.plugins]
  have hfits : ∀ call ∈ calls, call.Fits := by
    simpa [calls, PluginCall.Fits] using Instant.representable_epoch
  have hcome : (Traffic.begin_ Traffic.bare []).Leads (Traffic.begin_ Traffic.bare calls) :=
    (Relation.ReflTransGen.single (.call (hfits _ List.mem_cons_self))).tail
      (.call (hfits _ (List.mem_cons_of_mem _ List.mem_cons_self)))
  have hend : ((Traffic.begin_ Traffic.bare calls).after [0, 0, 0, 0, 0, 1, 1, 1, 1, 1]).map
      (fun t => t.service.engine.registry.list.map PluginInfo.description) = some ["again"] := by decide +kernel
  obtain ⟨t, ht, hlist⟩ := Option.map_eq_some_iff.1 hend
  exact ⟨by decide, hregister (by decide) _ _ _, hcalls _ _ hcall _ _, hrun _,
    hstamps _ _ _ _ (ready_fresh default) _ _ _ _ _ _ _, t, ht, hlist,
    hapart _ _ hbare (hcome.trans (Traffic.leads_of_after ht))⟩

end PluginChain
