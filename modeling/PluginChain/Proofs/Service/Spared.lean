import PluginChain.Proofs.Service.AllOrNothing
import PluginChain.Proofs.Service.Submission
import PluginChain.Proofs.Store.Spared

/-!
# Operations of the service that spare the records

An operation that only looks for plugins and jobs, or runs them, keeps all records (`Spares`).  One that changes
a record does so in its last step at the store, behind which nothing can fail; so all records are kept where
it fails (`SparesFailing`).

What a submission does about a task that turns out to be invalid when it is run would be an exception: a job
is kept then, and the submission fails.  It is never done, for by then the task was validated.
-/

set_option autoImplicit false

namespace PluginChain.Service

open Operation

variable {α : Type} {s s' : Service}

/-- Between the two, no record is another. -/
def Spared (s s' : Service) : Prop := RecordsKept [] s.files s'.files

theorem Spared.refl (s : Service) : Spared s s := RecordsKept.refl [] s.files

theorem Spared.trans {s'' : Service} (h : Spared s s') (h' : Spared s' s'') : Spared s s'' :=
  RecordsKept.trans h h'

/-- Whatever the operation comes to, all records are kept. -/
abbrev Spares (f : ServiceM α) : Prop := Operation.Keeps Spared f

/-- Where the operation fails, all records are kept. -/
abbrev SparesFailing (f : ServiceM α) : Prop := KeepsFailing Spared f

theorem spares_of_looksOnly {f : ServiceM α} (h : LooksOnly f) : Spares f := h.keeps .refl

theorem spares_onStore {f : Store → StoreM α} (h : ∀ store, Operation.Keeps (RecordsKept []) (f store))
    (wrap : StoreError → ChainError) : Spares (onStore f wrap) :=
  (keeps_onStore (r := fun _ => RecordsKept []) h wrap).mono fun _ _ h => h.2

theorem sparesFailing_onStore {f : Store → StoreM α} (h : ∀ store, KeepsFailing (RecordsKept []) (f store))
    (wrap : StoreError → ChainError) : SparesFailing (onStore f wrap) := by
  intro s e s' herror
  unfold onStore at herror
  split at herror
  · cases herror
  · next hf =>
    cases herror
    exact h s.store _ _ _ hf

theorem spares_onEngine (f : Engine → α × Engine) : Spares (onEngine f) := fun s => RecordsKept.refl [] s.files

/-! ## Operations that change no record -/

/-- The store and its files stay as they are. -/
def SameFiles (s s' : Service) : Prop := s'.store = s.store ∧ s'.files = s.files

theorem SameFiles.trans {s'' : Service} (h : SameFiles s s') (h' : SameFiles s' s'') : SameFiles s s'' :=
  ⟨h'.1.trans h.1, h'.2.trans h.2⟩

theorem SameFiles.spared (h : SameFiles s s') : Spared s s' := by
  rw [Spared, h.2]
  exact .refl [] _

theorem keeps_installAll (now : Instant) (records : List PluginRecord) :
    Operation.Keeps SameFiles (installAll now records) := by
  induction records with
  | nil => exact fun s => ⟨rfl, rfl⟩
  | cons record rest ih =>
    intro s
    have hrest : ∀ (f : LoadReport → LoadReport) (s : Service),
        SameFiles s (stateOf ((do return f (← installAll now rest)) s)) := fun f =>
      ih.bind (fun _ _ _ => .trans) fun _ => keeps_pure (fun _ => ⟨rfl, rfl⟩) _
    cases hregister : s.engine.registry.register now record.name record.description record.source with
    | ok installed =>
      simp only [installAll, hregister]
      exact hrest _ { s with engine := { s.engine with registry := installed.2 } }
    | error e =>
      simp only [installAll, hregister]
      exact hrest _ s

/-- To load the plugins changes the registry only. -/
theorem keeps_load (now : Instant) : Operation.Keeps SameFiles (load now) :=
  ((looksOnly_onStore (fun _ => StoreM.looksOnly_readRecords _ _) _).keeps fun _ => ⟨rfl, rfl⟩).bind
    (fun _ _ _ => .trans) fun records => keeps_installAll now records

theorem looksOnly_listPlugins : LooksOnly listPlugins :=
  (looksOnly_onStore (fun _ => StoreM.looksOnly_readRecords _ _) _).bind fun _ => looksOnly_pure _

theorem spares_listPlugins : Spares listPlugins := spares_of_looksOnly looksOnly_listPlugins

theorem looksOnly_pluginSource (name : String) : LooksOnly (pluginSource name) :=
  looksOnly_onStore (fun _ => (StoreM.looksOnly_readRecord _ _ _).bind fun _ => looksOnly_pure _) _

theorem spares_pluginSource (name : String) : Spares (pluginSource name) :=
  spares_of_looksOnly (looksOnly_pluginSource name)

theorem spares_execute (name : String) (input params : Data) : Spares (execute name input params) :=
  (spares_onEngine _).bind (fun _ _ _ => .trans) fun _ => keeps_ofExcept .refl _

theorem looksOnly_getJob (id : Uuid) : LooksOnly (getJob id) :=
  looksOnly_onStore (fun _ => StoreM.looksOnly_readRecord _ _ _) _

theorem spares_getJob (id : Uuid) : Spares (getJob id) := spares_of_looksOnly (looksOnly_getJob id)

theorem looksOnly_listJobs : LooksOnly listJobs :=
  looksOnly_onStore (fun _ => (StoreM.looksOnly_readRecords _ _).bind fun _ => looksOnly_pure _) _

theorem spares_listJobs : Spares listJobs := spares_of_looksOnly looksOnly_listJobs

/-! ## Operations that change one record in the end -/

/-- A plugin that was kept is installed, which does not fail. -/
theorem sparesFailing_register (now : Instant) (given description source : String) :
    SparesFailing (register now given description source) := by
  intro s e s' h
  cases hname : Registry.nameOf given with
  | error why =>
    rw [register_of_nameOf hname] at h
    cases h
    exact .refl s
  | ok name =>
    cases hcompile : s.engine.registry.compile name source with
    | error why =>
      rw [register_of_compile hname hcompile] at h
      cases h
      exact .refl s
    | ok c =>
      cases hsave : s.store.savePlugin now (.fresh now name description source) s.files with
      | error why files =>
        rw [register_of_save_error hname hcompile hsave] at h
        cases h
        exact s.store.keepsFailing_savePlugin _ _ _ _ _ hsave
      | ok u files =>
        rw [register_of_save hname hcompile hsave] at h
        cases h

theorem sparesFailing_remove (name : String) : SparesFailing (remove name) := by
  intro s e s' h
  have hends : RemoveEnds name s (answerOf (remove name s)) (stateOf (remove name s)) := .told rfl rfl
  rcases hends.cases with ⟨e', -, hsame, -⟩ | ⟨hok, -⟩
  · rw [h] at hsame
    obtain rfl : s' = s := hsame
    exact .refl s'
  · rw [h] at hok
    cases hok

theorem sparesFailing_upload (now : Instant) (id : Uuid) (input : Data) : SparesFailing (upload now id input) :=
  (sparesFailing_onStore (fun store => store.keepsFailing_saveJob _) _).bind_succeeds fun _ => succeeds_pure _

theorem sparesFailing_process (now : Instant) (id : Uuid) (calls : List Invocation) :
    SparesFailing (process now id calls) := by
  refine .bind (fun _ _ _ => .trans)
    (spares_of_looksOnly (looksOnly_onStore (fun store => looksOnly_jobInput store id) _)) fun input => ?_
  refine .bind (fun _ _ _ => .trans) (spares_onEngine _) fun results => ?_
  exact (sparesFailing_onStore (fun store => store.keepsFailing_updateJob _ _ _ _) _).bind_succeeds
    fun _ => succeeds_pure _

/-- A task that is valid is not found to be invalid when it is run, so that no job of it is failed. -/
theorem sparesFailing_runAndKeep {task : Task} (hvalid : task.validate = .ok ()) (now : Instant) (jobId : Uuid)
    (input : Data) : SparesFailing (runAndKeep now jobId task input) := by
  intro s e s' h
  obtain ⟨s₁, hfiles, hengine⟩ : ∃ s₁ : Service, s₁.files = s.files ∧
      onEngine (fun e => e.runTask task input) s = .ok (s.engine.runTask task input).1 s₁ :=
    ⟨{ s with engine := (s.engine.runTask task input).2 }, rfl, onEngine_of_fst rfl⟩
  rw [runAndKeep, bind_of_ok hengine] at h
  rw [Spared, ← hfiles]
  cases hrun : (s.engine.runTask task input).1 with
  | ok report =>
    rw [hrun] at h
    have hkeep : SparesFailing (do
        onStore fun store => store.saveJob ((Job.forTask jobId now task.name task.description
          input).applyResults now report.results report.status)
        return (⟨jobId, report⟩ : Submission)) :=
      (sparesFailing_onStore (fun store => store.keepsFailing_saveJob _) _).bind_succeeds
        fun _ => succeeds_pure _
    exact hkeep s₁ e s' h
  | error fault =>
    rw [hrun] at h
    cases fault with
    | invalid why => exact absurd hrun (s.engine.runTask_ne_invalid hvalid input why)
    | gate places =>
      cases h
      exact .refl [] _

theorem sparesFailing_submit (now : Instant) (taskId jobId : Uuid) (task : Task) (given : Option Data) :
    SparesFailing (submit now taskId jobId task given) := by
  cases hvalid : task.validate with
  | error why =>
    intro s e s' h
    rw [submit_of_invalid hvalid] at h
    cases h
    exact .refl s
  | ok u =>
    rw [submit_of_valid hvalid]
    refine .bind (fun _ _ _ => .trans) (spares_onStore (fun store => store.spares_saveTask taskId task) _)
      fun _ => ?_
    exact .bind (fun _ _ _ => .trans) (spares_of_looksOnly (looksOnly_inputOf task given)) fun input =>
      sparesFailing_runAndKeep hvalid now jobId input

/-! ## What one that succeeds writes -/

theorem jobWritten_upload {now : Instant} {id : Uuid} {input : Data} {job : Job}
    (h : upload now id input s = .ok job s') :
    job = .uploaded id now input ∧ s.store.JobWritten id job s.files s'.files := by
  obtain ⟨rfl, files, rfl, hsave⟩ := upload_eq_ok h
  exact ⟨rfl, Store.jobWritten_of_saveJob rfl hsave⟩

theorem jobWritten_submit {now : Instant} {taskId jobId : Uuid} {task : Task} {given : Option Data}
    {sub : Submission} (h : submit now taskId jobId task given s = .ok sub s') :
    sub.jobId = jobId ∧ ∃ input,
      s.store.JobWritten jobId (jobOf now jobId task input sub.report) s.files s'.files := by
  obtain ⟨hid, input, files, files', hcopy, -, hreport, hsave, rfl⟩ := submit_eq_ok h
  rw [forTask_applyResults (Engine.report_runTask hreport).2] at hsave
  exact ⟨hid, input, .behind ((s.store.spares_saveTask taskId task).ok hcopy)
    (Store.jobWritten_of_saveJob rfl hsave)⟩

theorem jobWritten_process {now : Instant} {id : Uuid} {calls : List Invocation} {report : Report}
    (h : process now id calls s = .ok report s') :
    ∃ job, s.HasJob id job ∧
      s.store.JobWritten id (job.applyResults now report.results report.status) s.files s'.files := by
  obtain ⟨-, hstatus, engine, files, rfl, hupdate⟩ := process_eq_ok h
  obtain ⟨job, hjob, hwritten⟩ := Store.jobWritten_of_updateJob hupdate
  rw [hstatus, withRun_ofResults, ← hstatus] at hwritten
  exact ⟨job, hjob, hwritten⟩

end PluginChain.Service
