import PluginChain.Proofs.Service.Jobs
import PluginChain.Proofs.Store.Shelf

/-!
# A store as two tables

What a store holds is a `Catalogue`: a table of plugins and a table of jobs.  The catalogue says how every
request is answered (`Catalogue.Answers`) and what the store holds after it (`Catalogue.next`), without a
word about files.

A plugin is found by the digest of its trimmed name (`Store.key`).  Names whose digests are the same stand
for one plugin, and the digest has 64 bits only: there are such names (`Store.shared_key`).  A job is found
by its id.  It is given as it can be read from its document, which is the job itself unless its data is
nested too deep.

`Catalogue.StandsIn` relates a catalogue to the files of a store.  It is kept by every request
(`Catalogue.StandsIn.serve`), and so `Store.serves_catalogue` says of any number of requests that the store
answers them as the catalogue does.
-/

set_option autoImplicit false

namespace PluginChain

open Operation FileTree

/-! ## The tables -/

/-- What the names of a plugin are told apart by.  Nothing but `Store.shared_key` looks into a digest. -/
@[irreducible] def Store.key (name : String) : String := Digest.ofText (Text.trim name)

/-- What a store holds. -/
structure Catalogue where
  plugins : String → Option PluginRecord
  jobs : Uuid → Option Job

/-- A job with the outcomes of a run in place of those it had.  One that failed has an error. -/
def Job.entered (job : Job) (now : Instant) (results : Results) (status : RunStatus) : Job :=
  { job with
    status := .ofRun status
    runStatus := some status
    results
    updatedAt := now
    error := if status = .failed then some (job.error.getD "run failed") else job.error }

namespace Catalogue

open Store (DiskRequest Reply)

def empty : Catalogue := ⟨fun _ => none, fun _ => none⟩

def plugin (m : Catalogue) (name : String) : Except StoreError PluginRecord :=
  match m.plugins (Store.key name) with
  | some r => .ok r
  | none => .error (.notFound .plugin name)

/-- A job as it can be read. -/
def job (m : Catalogue) (id : Uuid) : Except StoreError Job :=
  match m.jobs id with
  | some job => (Job.codec.reread job).mapError .unreadable
  | none => .error (.notFound .job id.toText)

/-- The jobs that can be read. -/
def readable (m : Catalogue) (id : Uuid) : Option Job := (m.job id).toOption

/-- The record of a plugin as it is kept: one that takes the place of another keeps the instant that the
other was made. -/
def kept (m : Catalogue) (now : Instant) (record : PluginRecord) : PluginRecord :=
  { record with
    createdAt := ((m.plugins (Store.key record.name)).map (·.createdAt)).getD record.createdAt
    updatedAt := now }

/-- What the store holds after a request. -/
def next (m : Catalogue) : DiskRequest → Catalogue
  | .savePlugin now record =>
    { m with plugins := Function.update m.plugins (Store.key record.name) (some (m.kept now record)) }
  | .deletePlugin name => { m with plugins := Function.update m.plugins (Store.key name) none }
  | .saveJob job => { m with jobs := Function.update m.jobs job.id (some job) }
  | .updateJob now id results status =>
    match m.job id with
    | .ok job => { m with jobs := Function.update m.jobs id (some (job.entered now results status)) }
    | .error _ => m
  | .pluginSource _ | .listPlugins | .getJob _ | .jobInput _ | .listJobs | .saveTask _ _ => m

/-- How a request is answered. -/
def Answers (m : Catalogue) : DiskRequest → Except StoreError Reply → Prop
  | .savePlugin _ _, reply | .saveJob _, reply | .saveTask _ _, reply => reply = .ok .done
  | .pluginSource name, reply => reply = (m.plugin name).map fun r => .source r.source
  | .deletePlugin name, reply => reply = (m.plugin name).map fun _ => .done
  | .listPlugins, reply => ∃ records, reply = .ok (.plugins records) ∧ Lists m.plugins records
  | .getJob id, reply => reply = (m.job id).map .job
  | .jobInput id, reply => reply = (m.job id).map fun job => .input job.input
  | .updateJob _ id _ _, reply => reply = (m.job id).map fun _ => .done
  | .listJobs, reply => ∃ jobs, reply = .ok (.jobs jobs) ∧ Lists m.readable jobs ∧
      jobs.Pairwise fun a b => (b.createdAt.compare a.createdAt).isLE

def after (m : Catalogue) (requests : List DiskRequest) : Catalogue := requests.foldl next m

/-- How requests are answered that come one after the other. -/
def AnswersAll (m : Catalogue) : List DiskRequest → List (Except StoreError Reply) → Prop
  | [], replies => replies = []
  | r :: rest, replies =>
    ∃ reply more, replies = reply :: more ∧ m.Answers r reply ∧ (m.next r).AnswersAll rest more

/-! ## The files of a catalogue -/

/-- The id that a job has its file under. -/
def idOf? (stem : String) : Option Uuid :=
  match Uuid.parse stem with
  | .ok id => if id.toText = stem then some id else none
  | .error _ => none

/-- The table of the jobs by their files. -/
def byFile (jobs : Uuid → Option Job) (stem : String) : Option Job := (idOf? stem).bind jobs

/-- The files of a store hold a catalogue. -/
structure StandsIn (m : Catalogue) (s : Store) (t : FileTree) : Prop where
  plugins : Shelf PluginRecord.codec t s.plugins m.plugins
  jobs : Shelf Job.codec t s.jobs (byFile m.jobs)
  tasks : t.lookup s.tasks = some .directory
  taskFile : ∀ id, t.lookup (s.taskFile id) ≠ some .directory
  lock : t.lookup (s.root ++ [".lock"]) ≠ some .directory
  proper : t.Proper
  instants : ∀ key r, m.plugins key = some r → r.createdAt.Representable ∧ r.updatedAt.Representable
  ids : ∀ id, m.jobs id ≠ none → id.value < 2 ^ 128

variable {m m' : Catalogue} {s : Store} {t t' : FileTree} {id : Uuid} {stem : String}

theorem idOf?_eq_some_iff : idOf? stem = some id ↔ id.value < 2 ^ 128 ∧ id.toText = stem := by
  rw [idOf?]
  constructor
  · intro h
    split at h
    · next id' hparse =>
      split at h
      · next htext =>
        cases h
        exact ⟨Uuid.value_lt_of_parse hparse, htext⟩
      · cases h
    · cases h
  · rintro ⟨hid, rfl⟩
    rw [Uuid.parse_toText hid]
    exact if_pos rfl

theorem idOf?_toText (hid : id.value < 2 ^ 128) : idOf? id.toText = some id := idOf?_eq_some_iff.2 ⟨hid, rfl⟩

theorem byFile_toText (jobs : Uuid → Option Job) (hid : id.value < 2 ^ 128) :
    byFile jobs id.toText = jobs id := by
  rw [byFile, idOf?_toText hid, Option.bind_some]

theorem byFile_update (jobs : Uuid → Option Job) (hid : id.value < 2 ^ 128) (job : Option Job) :
    byFile (Function.update jobs id job) = Function.update (byFile jobs) id.toText job := by
  funext stem
  rw [Function.update_apply]
  split
  · next h =>
    subst h
    rw [byFile_toText _ hid, Function.update_self]
  · next h =>
    rw [byFile, byFile]
    cases hstem : idOf? stem with
    | none => rfl
    | some id' =>
      have hne : id' ≠ id := by
        rintro rfl
        exact h (idOf?_eq_some_iff.1 hstem).2.symm
      rw [Option.bind_some, Option.bind_some, Function.update_of_ne hne]

theorem key_ne_empty (name : String) : Store.key name ≠ "" := by
  rw [Store.key]
  exact Digest.ofText_ne_empty _

theorem plugins_next_savePlugin (m : Catalogue) (now : Instant) (record : PluginRecord) :
    (m.next (.savePlugin now record)).plugins =
      Function.update m.plugins (Store.key record.name) (some (m.kept now record)) := by
  rw [next]

/-- The specification of an update is what the store does. -/
theorem withRun_eq_entered (job : Job) (now : Instant) (results : Results) (status : RunStatus) :
    Store.withRun job now results status = job.entered now results status := by
  cases status <;> rfl

end Catalogue

namespace Store

variable {α : Type} {s : Store} {r : DiskRequest} {t t' : FileTree}

theorem pluginFile_eq (s : Store) (name : String) : s.pluginFile name = s.plugins ++ [key name ++ ".json"] := by
  rw [pluginFile, key]

/-- What has one trimmed name has one key. -/
theorem key_congr {a b : String} (h : Text.trim a = Text.trim b) : key a = key b := by
  rw [key, key, h]

theorem lock_ne_plugins_append (s : Store) (name : String) : s.root ++ [".lock"] ≠ s.plugins ++ [name] := by
  intro h
  have hlen := congrArg List.length h
  simp [plugins] at hlen

theorem plugins_ne_jobs (s : Store) : s.plugins ≠ s.jobs := fun h =>
  absurd (append_singleton_inj.1 h).2 (by decide)

theorem tasks_ne_plugins (s : Store) : s.tasks ≠ s.plugins := fun h =>
  absurd (append_singleton_inj.1 h).2 (by decide)

/-- What is made of an answer. -/
theorem map_of_ofExcept {β : Type} {f : StoreM α} {x : Except StoreError α}
    (hf : f t = (ofExcept x : StoreM α) t') (g : α → β) :
    (g <$> f) t = (ofExcept (x.map g) : StoreM β) t' := by
  rw [map_eq_pure_bind]
  cases x with
  | ok a => exact bind_of_ok (show f t = .ok a t' from hf) _
  | error e => exact bind_of_error (show f t = .error e t' from hf) _

/-- The reply that is made of what an operation gives. -/
theorem serve_of_run {f : StoreM α} {x : Except StoreError α} {g : α → Reply} (hrun : r.run s = g <$> f)
    (hf : f t = (ofExcept x : StoreM α) t') : s.serve r t = (x.map g, t') := by
  have hreply : r.run s t = (ofExcept (x.map g) : StoreM Reply) t' := by
    rw [hrun]
    exact map_of_ofExcept hf g
  cases x with
  | ok a => exact serve_of_ok hreply
  | error e => exact serve_of_error hreply

end Store

/-- Nothing is in the directories of the store, and there is no lock. -/
structure Store.IsEmpty (s : Store) (t : FileTree) : Prop where
  inside : ∀ p name, p ∈ [s.plugins, s.jobs, s.tasks] → t.lookup (p ++ [name]) = none
  lock : t.lookup (s.root ++ [".lock"]) = none

namespace Catalogue.StandsIn

open Store (DiskRequest Reply)

variable {m m' : Catalogue} {s : Store} {t t' : FileTree} {id : Uuid} {name : String}

theorem ready (h : m.StandsIn s t) : s.Ready t where
  around p hp := h.plugins.around p (hp.trans (List.prefix_append ..))
  jobs := h.jobs.lookup_directory
  tasks := h.tasks
  lock := h.lock
  jobFile id := h.jobs.entry_ne_directory id.toText_ne_empty
  besideJob id := by
    rw [Store.jobFile, StoreM.besideOf_append, String.append_assoc]
    exact h.jobs.beside _
  taskFile := h.taskFile

/-- Where the directories stay as they are, only the tables matter. -/
theorem of_shelves (h : m.StandsIn s t) (hdirectories : SameDirectories t t') (hproper : t'.Proper)
    (hplugins : Shelf PluginRecord.codec t' s.plugins m'.plugins)
    (hjobs : Shelf Job.codec t' s.jobs (byFile m'.jobs))
    (hinstants : ∀ key r, m'.plugins key = some r → r.createdAt.Representable ∧ r.updatedAt.Representable)
    (hids : ∀ id, m'.jobs id ≠ none → id.value < 2 ^ 128) : m'.StandsIn s t' :=
  ⟨hplugins, hjobs, hdirectories.stay _ h.tasks, fun id hid => h.taskFile id ((hdirectories _).1 hid),
    fun hlock => h.lock ((hdirectories _).1 hlock), hproper, hinstants, hids⟩

/-- Where the records stay as they are, the catalogue stays. -/
theorem congr (h : m.StandsIn s t) (hdirectories : SameDirectories t t') (hproper : t'.Proper)
    (hplugins : ∀ k, t'.lookup (s.plugins ++ [k ++ ".json"]) = t.lookup (s.plugins ++ [k ++ ".json"]))
    (hjobs : ∀ k, t'.lookup (s.jobs ++ [k ++ ".json"]) = t.lookup (s.jobs ++ [k ++ ".json"])) :
    m.StandsIn s t' :=
  h.of_shelves hdirectories hproper (h.plugins.congr hdirectories fun k _ => hplugins k)
    (h.jobs.congr hdirectories fun k _ => hjobs k) h.instants h.ids

/-- A lock can be taken, and changes nothing. -/
theorem exists_lock (h : m.StandsIn s t) :
    ∃ t₁, StoreM.perform [s.lock] t = .ok () t₁ ∧ m.StandsIn s t₁ := by
  obtain ⟨t₁, hlock⟩ := h.ready.exists_lock
  obtain ⟨t₂, happly, hend⟩ := StoreM.perform_cons_eq_ok hlock
  cases hend
  exact ⟨t₁, hlock, h.congr (Change.sameDirectories_of_apply happly) (Change.proper_of_apply happly h.proper)
    (fun k => Store.lookup_of_lock hlock (s.lock_ne_plugins_append _))
    fun k => Store.lookup_of_lock hlock (s.lock_ne_jobs_append _)⟩

theorem sameDirectories_of_writeRecord {α : Type} {c : Codec α} {p : Place} {a : α}
    (h : StoreM.writeRecord c p a t = .ok () t') : SameDirectories t t' :=
  (StoreM.keeps_perform .refl (fun _ _ _ => .trans) fun _ _ _ _ => Change.sameDirectories_of_apply).ok h

theorem proper_of_writeRecord {α : Type} {c : Codec α} {p : Place} {a : α}
    (h : StoreM.writeRecord c p a t = .ok () t') (ht : t.Proper) : t'.Proper :=
  (StoreM.keeps_perform (r := fun t t' => t.Proper → t'.Proper) (fun _ h => h)
    (fun _ _ _ h h' ht => h' (h ht)) fun _ _ _ _ => Change.proper_of_apply).ok h ht

/-! ## Plugins -/

/-- The catalogue with another table of plugins, in files where the jobs are what they were. -/
theorem withPlugins (h : m.StandsIn s t) (hdirectories : SameDirectories t t') (hproper : t'.Proper)
    {plugins : String → Option PluginRecord} (hplugins : Shelf PluginRecord.codec t' s.plugins plugins)
    (hinstants : ∀ key r, plugins key = some r → r.createdAt.Representable ∧ r.updatedAt.Representable)
    (hjobs : ∀ k, t'.lookup (s.jobs ++ [k ++ ".json"]) = t.lookup (s.jobs ++ [k ++ ".json"])) :
    StandsIn { m with plugins } s t' :=
  h.of_shelves hdirectories hproper hplugins (h.jobs.congr hdirectories fun k _ => hjobs k) hinstants h.ids

/-- A plugin that is written is what the catalogue has under its name. -/
theorem putPlugin (h : m.StandsIn s t) {record : PluginRecord} (hcreated : record.createdAt.Representable)
    (hupdated : record.updatedAt.Representable)
    (hwrite : StoreM.writeRecord PluginRecord.codec (s.pluginFile name) record t = .ok () t') :
    StandsIn { m with plugins := Function.update m.plugins (Store.key name) (some record) } s t' := by
  rw [s.pluginFile_eq] at hwrite
  have hdirectories := sameDirectories_of_writeRecord hwrite
  refine h.withPlugins hdirectories (proper_of_writeRecord hwrite h.proper)
    (h.plugins.put hdirectories (key_ne_empty name) (some record) fun k _ => ?_) (fun key r hr => ?_) fun k => ?_
  · rw [StoreM.lookup_json_of_writeRecord hwrite]
    simp only [true_and, eq_comm, Option.map_some]
  · rw [Function.update_apply] at hr
    split at hr
    · cases hr
      exact ⟨hcreated, hupdated⟩
    · exact h.instants key r hr
  · rw [StoreM.lookup_json_of_writeRecord hwrite, if_neg]
    exact fun heq => s.plugins_ne_jobs heq.1

theorem reread_plugin (h : m.StandsIn s t) {key : String} {r : PluginRecord} (hr : m.plugins key = some r) :
    PluginRecord.codec.reread r = .ok r :=
  PluginRecord.ofJson_toJson (h.instants key r hr).1 (h.instants key r hr).2

theorem readPlugin (h : m.StandsIn s t) (name : String) :
    StoreM.readRecord PluginRecord.codec (s.pluginFile name) (.notFound .plugin name) t =
      (ofExcept (m.plugin name) : StoreM PluginRecord) t := by
  rw [s.pluginFile_eq, h.plugins.readRecord (key_ne_empty name), plugin]
  cases hr : m.plugins (Store.key name) with
  | none => rfl
  | some r =>
    simp only [h.reread_plugin hr]
    rfl

theorem draftPlugin (h : m.StandsIn s t) (now : Instant) (record : PluginRecord) :
    ∃ t₁, s.draftPlugin now record t = .ok (m.kept now record) t₁ ∧ m.StandsIn s t₁ := by
  obtain ⟨t₁, hlock, h₁⟩ := h.exists_lock
  refine ⟨t₁, (bind_of_ok hlock _).trans ?_, h₁⟩
  have hread : StoreM.readRecord? PluginRecord.codec (s.pluginFile record.name) t₁ =
      .ok (m.plugins (Store.key record.name)) t₁ := by
    rw [s.pluginFile_eq]
    cases hr : m.plugins (Store.key record.name) with
    | none => exact h₁.plugins.readRecord?_of_none (key_ne_empty _) hr
    | some r => exact h₁.plugins.readRecord?_of_some (key_ne_empty _) hr (h₁.reread_plugin hr)
  exact bind_of_ok hread _

theorem representable_kept (h : m.StandsIn s t) {now : Instant} {record : PluginRecord}
    (hcreated : record.createdAt.Representable) : (m.kept now record).createdAt.Representable := by
  rw [kept]
  cases hr : m.plugins (Store.key record.name) with
  | none => exact hcreated
  | some r => exact (h.instants _ r hr).1

theorem savePlugin (h : m.StandsIn s t) {now : Instant} {record : PluginRecord} (hnow : now.Representable)
    (hcreated : record.createdAt.Representable) :
    ∃ t', s.savePlugin now record t = .ok () t' ∧ (m.next (.savePlugin now record)).StandsIn s t' := by
  obtain ⟨t₁, hdraft, h₁⟩ := h.draftPlugin now record
  obtain ⟨t', hwrite⟩ := h₁.plugins.exists_writeRecord (key_ne_empty record.name) (m.kept now record)
  rw [← s.pluginFile_eq] at hwrite
  exact ⟨t', (bind_of_ok hdraft _).trans hwrite, h₁.putPlugin (h.representable_kept hcreated) hnow hwrite⟩

theorem deletePlugin (h : m.StandsIn s t) (name : String) :
    ∃ t', s.deletePlugin name t = (ofExcept ((m.plugin name).map fun _ => ()) : StoreM Unit) t' ∧
      (m.next (.deletePlugin name)).StandsIn s t' := by
  rw [plugin]
  cases hr : m.plugins (Store.key name) with
  | none =>
    have hsame : m.next (.deletePlugin name) = m := by
      rw [next, Function.update_eq_self_iff.2 hr.symm]
    have hread := h.plugins.read_of_none (key_ne_empty name) hr
    rw [← s.pluginFile_eq] at hread
    refine ⟨t, Store.deletePlugin_of_missing hread, ?_⟩
    rwa [hsame]
  | some r =>
    have hread := h.plugins.read_of_some (key_ne_empty name) hr
    obtain ⟨t', hremove⟩ := exists_remove (lookup_of_read hread)
    have hlookup := (lookup_of_remove hremove).2.2
    rw [← s.pluginFile_eq] at hread hremove
    have happly : (Change.remove (s.pluginFile name)).apply t = .ok t' := hremove
    have hdirectories := Change.sameDirectories_of_apply happly
    have hdelete : s.deletePlugin name t = .ok () t' := by
      rw [Store.deletePlugin_of_ne_missing, StoreM.perform_cons_of_ok happly]
      · rfl
      · intro hmissing
        cases hread.symm.trans hmissing
    refine ⟨t', hdelete, ?_⟩
    rw [next]
    refine h.withPlugins hdirectories (Change.proper_of_apply happly h.proper)
      (h.plugins.put hdirectories (key_ne_empty name) none fun k _ => ?_) (fun key r hr => ?_) fun k => ?_
    · rw [hlookup]
      simp only [append_singleton_inj, String.append_left_inj, true_and, eq_comm, Option.map_none]
    · rw [Function.update_apply] at hr
      split at hr
      · cases hr
      · exact h.instants key r hr
    · rw [hlookup, if_neg]
      exact fun heq => s.plugins_ne_jobs (append_singleton_inj.1 heq).1

theorem listPlugins (h : m.StandsIn s t) :
    ∃ records, s.listPlugins t = .ok records t ∧ Lists m.plugins records := by
  obtain ⟨records, hrecords, hlists⟩ := h.plugins.exists_readRecords h.proper
  have hreread : (fun key => (m.plugins key).bind fun r => (PluginRecord.codec.reread r).toOption) =
      m.plugins := by
    funext key
    cases hr : m.plugins key with
    | none => rfl
    | some r =>
      rw [Option.bind_some, h.reread_plugin hr]
      rfl
  rw [hreread] at hlists
  exact ⟨records, hrecords, hlists⟩

/-! ## Jobs -/

theorem putJob (h : m.StandsIn s t) (hid : id.value < 2 ^ 128) {job : Job}
    (hwrite : StoreM.writeRecord Job.codec (s.jobFile id) job t = .ok () t') :
    StandsIn { m with jobs := Function.update m.jobs id (some job) } s t' := by
  rw [Store.jobFile] at hwrite
  have hdirectories := sameDirectories_of_writeRecord hwrite
  refine h.of_shelves hdirectories (proper_of_writeRecord hwrite h.proper)
    (h.plugins.congr hdirectories fun k _ => ?_) ?_ h.instants fun other hother => ?_
  · rw [StoreM.lookup_json_of_writeRecord hwrite, if_neg]
    exact fun heq => s.plugins_ne_jobs heq.1.symm
  · rw [byFile_update _ hid]
    refine h.jobs.put hdirectories id.toText_ne_empty _ fun k _ => ?_
    rw [StoreM.lookup_json_of_writeRecord hwrite]
    simp only [true_and, eq_comm, Option.map_some]
  · by_cases heq : other = id
    · rwa [heq]
    · have hjobs : Function.update m.jobs id (some job) other ≠ none := hother
      rw [Function.update_of_ne heq] at hjobs
      exact h.ids other hjobs

theorem getJob (h : m.StandsIn s t) (hid : id.value < 2 ^ 128) :
    s.getJob id t = (ofExcept (m.job id) : StoreM Job) t := by
  refine (h.jobs.readRecord id.toText_ne_empty _).trans ?_
  rw [byFile_toText _ hid, job]
  cases m.jobs id with
  | none => rfl
  | some job =>
    dsimp only
    cases Job.codec.reread job <;> rfl

theorem saveJob (h : m.StandsIn s t) {job : Job} (hid : job.id.value < 2 ^ 128) :
    ∃ t', s.saveJob job t = .ok () t' ∧ (m.next (.saveJob job)).StandsIn s t' := by
  obtain ⟨t₁, hlock, h₁⟩ := h.exists_lock
  obtain ⟨t', hwrite⟩ := h₁.jobs.exists_writeRecord job.id.toText_ne_empty job
  exact ⟨t', (bind_of_ok hlock _).trans hwrite, h₁.putJob hid hwrite⟩

theorem updateJob (h : m.StandsIn s t) (now : Instant) (hid : id.value < 2 ^ 128) (results : Results)
    (status : RunStatus) :
    ∃ t', s.updateJob now id results status t =
        (ofExcept ((m.job id).map fun _ => ()) : StoreM Unit) t' ∧
      (m.next (.updateJob now id results status)).StandsIn s t' := by
  obtain ⟨t₁, hlock, h₁⟩ := h.exists_lock
  have hread : StoreM.readRecord Job.codec (s.jobFile id) (Store.noJob id) t₁ = _ := h₁.getJob hid
  rw [next]
  cases hjob : m.job id with
  | error e =>
    rw [hjob] at hread
    exact ⟨t₁, (bind_of_ok hlock _).trans (bind_of_error hread _), h₁⟩
  | ok job =>
    rw [hjob] at hread
    obtain ⟨t', hwrite⟩ := h₁.jobs.exists_writeRecord id.toText_ne_empty
      (Store.withRun job now results status)
    refine ⟨t', (bind_of_ok hlock _).trans ((bind_of_ok hread _).trans hwrite), ?_⟩
    rw [withRun_eq_entered] at hwrite
    exact h₁.putJob hid hwrite

theorem listJobs (h : m.StandsIn s t) :
    ∃ jobs, s.listJobs t = .ok jobs t ∧ Lists m.readable jobs ∧
      jobs.Pairwise fun a b => (b.createdAt.compare a.createdAt).isLE := by
  obtain ⟨records, hrecords, hlists⟩ := h.jobs.exists_readRecords h.proper
  have hreadable : (fun stem => (byFile m.jobs stem).bind fun job => (Job.codec.reread job).toOption) =
      fun stem => (idOf? stem).bind m.readable := by
    funext stem
    rw [byFile]
    cases idOf? stem with
    | none => rfl
    | some id =>
      rw [Option.bind_some, Option.bind_some, readable, job]
      cases m.jobs id with
      | none => rfl
      | some job =>
        rw [Option.bind_some]
        dsimp only
        cases Job.codec.reread job <;> rfl
  rw [hreadable] at hlists
  have hlists := hlists.of_bind
    (fun i j k hi hj => (idOf?_eq_some_iff.1 hi).2.symm.trans (idOf?_eq_some_iff.1 hj).2)
    fun id hid => ⟨id.toText, idOf?_toText (h.ids id fun hnone => hid (by rw [readable, job, hnone]; rfl))⟩
  refine ⟨_, bind_of_ok hrecords _, hlists.perm (List.mergeSort_perm _ _), List.pairwise_mergeSort ?_ ?_ _⟩
  · intro a b c
    simp only [Instant.isLE_compare_iff]
    omega
  · intro a b
    simp only [Bool.or_eq_true, Instant.isLE_compare_iff]
    omega

/-! ## Requests -/

/-- **A request is answered as the catalogue says**, and leaves what the catalogue says. -/
theorem serve (h : m.StandsIn s t) {r : DiskRequest} (hr : r.Fits) :
    m.Answers r (s.serve r t).1 ∧ (m.next r).StandsIn s (s.serve r t).2 := by
  cases r with
  | savePlugin now record =>
    obtain ⟨t', hrun, h'⟩ := h.savePlugin hr.1 hr.2
    rw [Store.serve_of_run (x := .ok ()) rfl hrun]
    exact ⟨rfl, h'⟩
  | pluginSource name =>
    have hrun : s.pluginSource name t = _ := Store.map_of_ofExcept (h.readPlugin name) PluginRecord.source
    rw [Store.serve_of_run rfl hrun]
    refine ⟨?_, h⟩
    cases hplugin : m.plugin name <;> simp only [Answers, hplugin, Except.map]
  | deletePlugin name =>
    obtain ⟨t', hrun, h'⟩ := h.deletePlugin name
    rw [Store.serve_of_run rfl hrun]
    refine ⟨?_, h'⟩
    cases hplugin : m.plugin name <;> simp only [Answers, hplugin, Except.map]
  | listPlugins =>
    obtain ⟨records, hrun, hlists⟩ := h.listPlugins
    rw [Store.serve_of_run (x := .ok records) rfl hrun]
    exact ⟨⟨records, rfl, hlists⟩, h⟩
  | saveJob job =>
    obtain ⟨t', hrun, h'⟩ := h.saveJob hr
    rw [Store.serve_of_run (x := .ok ()) rfl hrun]
    exact ⟨rfl, h'⟩
  | getJob id =>
    rw [Store.serve_of_run rfl (h.getJob hr)]
    exact ⟨rfl, h⟩
  | jobInput id =>
    have hrun : s.jobInput id t = _ := Store.map_of_ofExcept (h.getJob hr) Job.input
    rw [Store.serve_of_run rfl hrun]
    refine ⟨?_, h⟩
    cases hjob : m.job id <;> simp only [Answers, hjob, Except.map]
  | updateJob now id results status =>
    obtain ⟨t', hrun, h'⟩ := h.updateJob now hr results status
    rw [Store.serve_of_run rfl hrun]
    refine ⟨?_, h'⟩
    cases hjob : m.job id <;> simp only [Answers, hjob, Except.map]
  | listJobs =>
    obtain ⟨jobs, hrun, hlists, hsorted⟩ := h.listJobs
    rw [Store.serve_of_run (x := .ok jobs) rfl hrun]
    exact ⟨⟨jobs, rfl, hlists, hsorted⟩, h⟩
  | saveTask id task =>
    obtain ⟨t', hrun, hlookup⟩ := Store.exists_saveTask id task h.ready
    have hserve : s.serve (.saveTask id task) t = (.ok .done, t') :=
      Store.serve_of_run (x := .ok ()) (g := fun _ => .done) rfl hrun
    have hdirectories := s.sameDirectories_serve (.saveTask id task) t
    have hproper := s.proper_serve (.saveTask id task) h.proper
    rw [hserve] at hdirectories hproper ⊢
    refine ⟨rfl, h.congr hdirectories hproper (fun k => ?_) fun k => ?_⟩
    · rw [hlookup, if_neg]
      exact fun heq => s.tasks_ne_plugins (append_singleton_inj.1 heq).1
    · rw [hlookup, if_neg]
      exact fun heq => s.tasks_append_ne_jobs_append _ _ heq

/-- What one request keeps is kept by any number of them. -/
theorem serveAll (h : m.StandsIn s t) (requests : List DiskRequest) (hfits : ∀ r ∈ requests, r.Fits) :
    m.AnswersAll requests (s.serveAll requests t).1 ∧
      (m.after requests).StandsIn s (s.serveAll requests t).2 := by
  induction requests generalizing m t with
  | nil => exact ⟨rfl, h⟩
  | cons r rest ih =>
    obtain ⟨hreply, hnext⟩ := h.serve (hfits r List.mem_cons_self)
    obtain ⟨hreplies, hafter⟩ := ih hnext fun r hr => hfits r (List.mem_cons_of_mem _ hr)
    exact ⟨⟨_, _, rfl, hreply, hreplies⟩, hafter⟩

/-! ## Stores with nothing in them -/

/-- Where nothing is inside the three directories, nothing is kept. -/
theorem of_nothing (hproper : t.Proper) (haround : ∀ p, p <+: s.root → t.lookup p = some .directory)
    (hdirectories : ∀ p ∈ [s.plugins, s.jobs, s.tasks], t.lookup p = some .directory)
    (hempty : s.IsEmpty t) : empty.StandsIn s t := by
  have hprefix : ∀ {p q : Place} {name : String}, t.lookup (q ++ [name]) = some .directory →
      (∀ p, p <+: q → t.lookup p = some .directory) → p <+: q ++ [name] → t.lookup p = some .directory := by
    intro p q name hq haround hp
    rcases List.prefix_concat_iff.1 hp with rfl | hp
    · exact hq
    · exact haround p hp
  have hshelf : ∀ {α : Type} (c : Codec α) (name : String), s.root ++ [name] ∈ [s.plugins, s.jobs, s.tasks] →
      Shelf c t (s.root ++ [name]) fun _ => none := by
    intro α c name hmem
    refine ⟨fun p hp => hprefix (hdirectories _ hmem) haround hp, fun stem _ => hempty.inside _ _ hmem,
      fun stem => ?_, rfl⟩
    rw [hempty.inside _ _ hmem]
    exact nofun
  have hbyFile : byFile empty.jobs = fun _ => none := by
    funext stem
    rw [byFile]
    cases idOf? stem <;> rfl
  refine ⟨hshelf _ "plugins" (by simp [Store.plugins]), ?_, hdirectories _ (by simp), fun id => ?_, ?_, hproper,
    nofun, fun id hid => absurd rfl hid⟩
  · rw [hbyFile]
    exact hshelf _ "jobs" (by simp [Store.jobs])
  · rw [Store.taskFile, hempty.inside _ _ (by simp)]
    exact nofun
  · rw [hempty.lock]
    exact nofun

end Catalogue.StandsIn

namespace Store

/-- The files of a store in the root with nothing in it. -/
def vacant : FileTree := ⟨[(["tasks"], .directory), (["jobs"], .directory), (["plugins"], .directory)]⟩

theorem isEmpty_vacant : IsEmpty ⟨[]⟩ vacant := by
  refine ⟨fun p name hp => ?_, by decide⟩
  simp only [List.mem_cons, List.not_mem_nil, or_false] at hp
  rcases hp with rfl | rfl | rfl <;> simp [FileTree.lookup, vacant, plugins, jobs, tasks]

theorem standsIn_vacant : Catalogue.empty.StandsIn ⟨[]⟩ vacant := by
  refine .of_nothing (by decide) (fun p hp => ?_) (by decide) isEmpty_vacant
  rw [List.prefix_nil.1 hp]
  rfl

/-! ## Names that share a record -/

/-- Two names with one digest. -/
theorem shared_key : Text.trim "d16d7d2bde305b8c" ≠ Text.trim "6a22137b458388c8" ∧
    key "d16d7d2bde305b8c" = key "6a22137b458388c8" := by
  decide +kernel

end Store

end PluginChain
