import PluginChain.Proofs.Service.Processing
import PluginChain.Proofs.Store.Catalogue

/-!
# The error of a job

Runs are entered into a job one after the other, either with a report that is handed in or by calls that are
made on the input of the job (`RunEntry`).  The status of the job is that of the last run.  Its error is not:
one is put there when a run failed, and none of what follows takes it away.  So a job that failed has an error,
but one that has an error may have been processed since (`Service.error_of_runs`).

The job is read before each entry, and may be read with other data than was written.  What is said here of
statuses and errors does not depend on the data (`Job.exists_of_ofJson_toJson`).
-/

set_option autoImplicit false

namespace PluginChain

open Operation

/-- The job with a run entered that ended in a report. -/
def Job.enter (job : Job) (run : Instant × Report) : Job := job.entered run.1 run.2.results run.2.status

namespace Job

variable {job : Job} {runs : List (Instant × Report)}

/-- There is an error as soon as a run failed, and it stays. -/
theorem error_foldl_enter (job : Job) (runs : List (Instant × Report)) : (runs.foldl enter job).error =
    if ∃ run ∈ runs, run.2.status = .failed then some (job.error.getD "run failed") else job.error := by
  induction runs generalizing job with
  | nil => simp
  | cons run runs ih =>
    have hrest : (∃ r ∈ run :: runs, r.2.status = .failed) ↔
        run.2.status = .failed ∨ ∃ r ∈ runs, r.2.status = .failed := List.exists_mem_cons_iff ..
    rw [List.foldl_cons, ih, enter, entered]
    by_cases hfailed : run.2.status = .failed
    · simp only [hrest, hfailed, true_or, if_true, Option.getD_some, ite_self]
    · simp only [hrest, hfailed, false_or, if_false]

/-- Runs change what a run is about, and nothing else of a job. -/
theorem exists_foldl_enter (job : Job) (runs : List (Instant × Report)) :
    ∃ status runStatus results error updatedAt,
      runs.foldl enter job = { job with status, runStatus, results, error, updatedAt } := by
  induction runs generalizing job with
  | nil => exact ⟨_, _, _, _, _, rfl⟩
  | cons run runs ih => exact ih (job.enter run)

/-- All but the error comes of the last run. -/
theorem foldl_enter_eq {last : Instant × Report} (h : runs.getLast? = some last) (job : Job) :
    runs.foldl enter job = { job with
      status := .ofRun last.2.status, runStatus := some last.2.status, results := last.2.results
      updatedAt := last.1, error := (runs.foldl enter job).error } := by
  obtain ⟨earlier, rfl⟩ := List.getLast?_eq_some_iff.1 h
  obtain ⟨_, _, _, _, _, hearlier⟩ := exists_foldl_enter job earlier
  rw [List.foldl_concat, hearlier]
  rfl

/-- There is an error just when the job failed, now or earlier. -/
theorem isSome_error_foldl_enter (job : Job) (hnone : job.error = none) (hstatus : job.status ≠ .failed)
    (runs : List (Instant × Report)) : (runs.foldl enter job).error.isSome ↔
      (runs.foldl enter job).status = .failed ∨ ∃ run ∈ runs.dropLast, run.2.status = .failed := by
  have herror : (runs.foldl enter job).error.isSome ↔ ∃ run ∈ runs, run.2.status = .failed := by
    rw [error_foldl_enter, hnone]
    split
    · next h => exact ⟨fun _ => h, fun _ => rfl⟩
    · next h => exact ⟨nofun, fun hfailed => absurd hfailed h⟩
  have hofRun : ∀ status : RunStatus, JobStatus.ofRun status = .failed ↔ status = .failed := by
    intro status
    cases status <;> decide
  rw [herror]
  rcases List.eq_nil_or_concat runs with rfl | ⟨earlier, last, rfl⟩
  · simpa using hstatus
  · rw [List.concat_eq_append, foldl_enter_eq List.getLast?_concat job, List.dropLast_concat]
    simp only [hofRun, List.mem_append, List.mem_singleton, or_and_right, exists_or, exists_eq_left, or_comm]

theorem Dated.enter (h : job.Dated) (run : Instant × Report) (hnow : run.1.Representable) :
    (job.enter run).Dated :=
  ⟨h.id, h.createdAt, hnow⟩

theorem Plain.enter (h : job.Plain) (run : Instant × Report) (hnow : run.1.Representable)
    (hresults : Results.Plain run.2.results) : (job.enter run).Plain :=
  ⟨h.id, h.input, hresults, h.createdAt, hnow⟩

end Job

/-- The data in outcomes fits a document, and leaves room for what is around it in the document of a job. -/
structure Results.Fit (results : Results) : Prop where
  plain : results.Plain
  shallow : ∀ name d, (name, Outcome.ok d) ∈ results → d.depth ≤ 124

namespace Service

variable {s s' : Service} {id : Uuid} {job : Job}

/-- How a run is entered into a job: as it is handed in, or as it comes of calls. -/
inductive RunEntry
  | update (now : Instant) (report : Report)
  | process (now : Instant) (calls : List Invocation)

namespace RunEntry

def now : RunEntry → Instant
  | update now _ => now
  | process now _ => now

/-- The operation, which gives the report that was entered. -/
def run (id : Uuid) : RunEntry → ServiceM Report
  | update now report => do
    onStore fun store => store.updateJob now id report.results report.status
    return report
  | process now calls => Service.process now id calls

theorem keeps_run (id : Uuid) (entry : RunEntry) : Operation.Keeps TextChange (entry.run id) := by
  cases entry with
  | update now report =>
    exact (textChange_onStore (fun store => store.keeps_updateJob _ _ _ _) _).bind (fun _ _ _ => .trans)
      fun _ => keeps_pure .refl _
  | process now calls => exact keeps_process now id calls

theorem sparesFailing_run (id : Uuid) (entry : RunEntry) : SparesFailing (entry.run id) := by
  cases entry with
  | update now report =>
    exact (sparesFailing_onStore (fun store => store.keepsFailing_updateJob _ _ _ _) _).bind_succeeds
      fun _ => succeeds_pure _
  | process now calls => exact sparesFailing_process now id calls

/-- Either way the job is read and the run is entered into it. -/
theorem run_eq_ok {entry : RunEntry} {report : Report} (h : entry.run id s = .ok report s') :
    ∃ job, s.HasJob id job ∧ s'.Holds id (job.enter (entry.now, report)) := by
  obtain ⟨engine, files, rfl, hupdate⟩ : ∃ engine files, s' = { s with engine, files } ∧
      s.store.updateJob entry.now id report.results report.status s.files = .ok () files := by
    cases entry with
    | update now given =>
      obtain ⟨_, s₁, hstore, hpure⟩ := bind_eq_ok h
      obtain ⟨files, hupdate, rfl⟩ := onStore_eq_ok hstore
      cases hpure
      exact ⟨s.engine, files, rfl, hupdate⟩
    | process now calls => exact (process_eq_ok h).2.2
  obtain ⟨job, hjob, hfile⟩ := Store.lookup_of_updateJob hupdate
  rw [Catalogue.withRun_eq_entered] at hfile
  exact ⟨job, hjob, hfile⟩

/-- A report can be entered into a job that can be read. -/
theorem exists_run_update (now : Instant) (report : Report) (hready : s.store.Ready s.files)
    (hjob : s.HasJob id job) : ∃ s', (update now report).run id s = .ok report s' := by
  obtain ⟨files, hupdate⟩ := Store.exists_updateJob now report.results report.status hready hjob
  refine ⟨{ s with files }, ?_⟩
  rw [run, bind_of_ok (onStore_of_ok (f := fun store => store.updateJob now id _ _) hupdate _)]
  rfl

theorem exists_run (entry : RunEntry) (hready : s.store.Ready s.files) (hjob : s.HasJob id job) :
    ∃ report s', entry.run id s = .ok report s' := by
  cases entry with
  | update now report =>
    obtain ⟨s', hupdate⟩ := exists_run_update now report hready hjob
    exact ⟨report, s', hupdate⟩
  | process now calls =>
    obtain ⟨s', hprocess⟩ := exists_process now id calls hready hjob
    exact ⟨_, s', hprocess⟩

end RunEntry

/-- Runs are entered one after the other.  Those that could be entered are told, each with its instant. -/
def enterAll (id : Uuid) : List RunEntry → Service → List (Instant × Report) × Service
  | [], s => ([], s)
  | entry :: entries, s =>
    match entry.run id s with
    | .ok report s' => ((entry.now, report) :: (enterAll id entries s').1, (enterAll id entries s').2)
    | .error _ s' => enterAll id entries s'

theorem enterAll_of_ok {entry : RunEntry} {entries : List RunEntry} {report : Report}
    (h : entry.run id s = .ok report s') : enterAll id (entry :: entries) s =
      ((entry.now, report) :: (enterAll id entries s').1, (enterAll id entries s').2) := by
  rw [enterAll, h]

theorem enterAll_of_error {entry : RunEntry} {entries : List RunEntry} {e : ChainError}
    (h : entry.run id s = .error e s') : enterAll id (entry :: entries) s = enterAll id entries s' := by
  rw [enterAll, h]

/-! ## One entry -/

/-- Where no record changes a job stays in its file. -/
theorem Holds.spared (h : s.Holds id job) (hstore : s'.store = s.store) (hspared : Spared s s') :
    s'.Holds id job := by
  rw [Holds, hstore]
  exact (hspared s.store.jobs _ (Store.suffix?_jobName id) List.not_mem_nil (.file _) nofun).2 h

/-- What is read of a job that stands in its file may have other data. -/
theorem Holds.exists_of_hasJob (h : s.Holds id job) (hdated : job.Dated) {found : Job}
    (hfound : s.HasJob id found) : ∃ input results, found = { job with input, results } := by
  obtain ⟨text, htext, hread⟩ := StoreM.recordAt?_eq_some_iff.1 hfound
  cases h.symm.trans htext
  exact Job.exists_of_ofJson_toJson hdated hread

/-- A job whose data documents can hold is read as it is. -/
theorem Holds.eq_of_hasJob (h : s.Holds id job) (hplain : job.Plain) {found : Job} (hfound : s.HasJob id found) :
    found = job := by
  obtain ⟨text, htext, hread⟩ := StoreM.recordAt?_eq_some_iff.1 hfound
  cases h.symm.trans htext
  by_cases hshallow : job.Shallow
  · exact (Except.ok.inj (((Job.ofJson_toJson hplain).1 hshallow).symm.trans hread)).symm
  · obtain ⟨f, hf⟩ := (Job.ofJson_toJson hplain).2 hshallow
    cases hf.symm.trans hread

/-! ## Any number of entries -/

/-- After entries the job stands in its file with the runs that could be entered.  Its input is read before
each of them, and may be read as another. -/
theorem Holds.enterAll (h : s.Holds id job) (hdated : job.Dated) (entries : List RunEntry)
    (hentries : ∀ entry ∈ entries, entry.now.Representable) :
    ∃ input, (enterAll id entries s).2.Holds id ((enterAll id entries s).1.foldl Job.enter { job with input }) ∧
      ((enterAll id entries s).1.foldl Job.enter { job with input }).Dated ∧
      ((enterAll id entries s).1 = [] → input = job.input) ∧
      (job.Plain → (∀ run ∈ (enterAll id entries s).1, Results.Plain run.2.results) → input = job.input) := by
  induction entries generalizing s job with
  | nil => exact ⟨job.input, h, hdated, fun _ => rfl, fun _ _ => rfl⟩
  | cons entry entries ih =>
    obtain ⟨hnow, hentries⟩ := List.forall_mem_cons.1 hentries
    cases hrun : entry.run id s with
    | error e s' =>
      rw [enterAll_of_error hrun]
      have hstore : s'.store = s.store := ((entry.keeps_run id).error hrun).1
      exact ih (h.spared hstore (entry.sparesFailing_run id s e s' hrun)) hdated hentries
    | ok report s' =>
      rw [enterAll_of_ok hrun]
      obtain ⟨found, hfound, hholds⟩ := RunEntry.run_eq_ok hrun
      obtain ⟨given, results, rfl⟩ := h.exists_of_hasJob hdated hfound
      have hdated' : ({ job with input := given, results } : Job).Dated :=
        ⟨hdated.id, hdated.createdAt, hdated.updatedAt⟩
      obtain ⟨input, hall, hafter, -, hsame⟩ := ih hholds (hdated'.enter _ hnow) hentries
      refine ⟨input, hall, hafter, nofun, fun hplain hruns => ?_⟩
      obtain ⟨hfirst, hruns⟩ := List.forall_mem_cons.1 hruns
      rw [h.eq_of_hasJob hplain hfound] at hsame
      exact hsame (hplain.enter _ hnow hfirst) hruns

/-- Where all outcomes fit all runs can be entered, and the job can be read. -/
theorem Holds.length_enterAll (h : s.Holds id job) (hready : s.store.Ready s.files) (hplain : job.Plain)
    (hshallow : job.Shallow) (entries : List RunEntry) (hentries : ∀ entry ∈ entries, entry.now.Representable)
    (hruns : ∀ run ∈ (Service.enterAll id entries s).1, Results.Fit run.2.results) :
    (Service.enterAll id entries s).1.length = entries.length ∧
      (Service.enterAll id entries s).2.HasJob id ((Service.enterAll id entries s).1.foldl Job.enter job) := by
  induction entries generalizing s job with
  | nil => exact ⟨rfl, h.hasJob hplain hshallow⟩
  | cons entry entries ih =>
    obtain ⟨hnow, hentries⟩ := List.forall_mem_cons.1 hentries
    obtain ⟨report, s', hrun⟩ := entry.exists_run hready (h.hasJob hplain hshallow)
    obtain ⟨found, hfound, hholds⟩ := RunEntry.run_eq_ok hrun
    cases h.eq_of_hasJob hplain hfound
    rw [enterAll_of_ok hrun] at hruns ⊢
    obtain ⟨hfirst, hruns⟩ := List.forall_mem_cons.1 hruns
    have hchange : TextChange s s' := (entry.keeps_run id).ok hrun
    have hready' : s'.store.Ready s'.files := hchange.1.symm ▸ hready.textChange hchange.2
    obtain ⟨hlength, hjob⟩ := ih hholds hready' (hplain.enter _ hnow hfirst.plain)
      ⟨hshallow.input, hfirst.shallow⟩ hentries hruns
    exact ⟨congrArg (· + 1) hlength, hjob⟩

/-- A job that was made of data or for a task. -/
inductive IsNew (id : Uuid) (now : Instant) (input : Data) : Job → Prop
  | uploaded : IsNew id now input (.uploaded id now input)
  | forTask (name description : String) : IsNew id now input (.forTask id now name description input)

/-- **The error of a job.**  A job that is new is saved, and runs are entered into it, handed in or made of calls.
Whatever their outcomes are, the file of the job then holds what the last of those that could be entered left:
its outcomes, its status for the run and the status of the job that goes with it.  The error is another
matter.  It is there just when some run failed, the last or an earlier one, and its text is always the same; so a
job that failed has an error, and keeps it when it is processed later.  What is found in the file has the same
statuses and the same error.  If all data fits documents then all runs can be entered and the job is found. -/
theorem error_of_runs {s₀ : Service} {now : Instant} {input : Data} (hnew : IsNew id now input job)
    (hid : id.value < 2 ^ 128) (hnow : now.Representable)
    (hsave : onStore (fun store => store.saveJob job) .store s₀ = .ok () s) (entries : List RunEntry)
    (hentries : ∀ entry ∈ entries, entry.now.Representable) :
    let runs := (enterAll id entries s).1
    ∃ after : Job, (enterAll id entries s).2.Holds id after ∧
      (∀ found, (enterAll id entries s).2.HasJob id found →
        ∃ input results, found = { after with input, results }) ∧
      (runs = [] → after = job) ∧
      (∀ last, runs.getLast? = some last → after = { job with
        input := after.input, results := last.2.results, runStatus := some last.2.status
        status := .ofRun last.2.status, updatedAt := last.1, error := after.error }) ∧
      after.error = (if ∃ run ∈ runs, run.2.status = .failed then some "run failed" else none) ∧
      (after.error.isSome ↔ after.status = .failed ∨ ∃ run ∈ runs.dropLast, run.2.status = .failed) ∧
      (s.store.Ready s.files → input.Plain → input.depth ≤ 126 → (∀ run ∈ runs, Results.Fit run.2.results) →
        runs.length = entries.length ∧ after.input = input ∧ (enterAll id entries s).2.HasJob id after) := by
  intro runs
  obtain ⟨hjobId, hinput, hresults, hnone, hstatus⟩ : job.id = id ∧ job.input = input ∧ job.results = [] ∧
      job.error = none ∧ job.status ≠ .failed := by
    cases hnew <;> exact ⟨rfl, rfl, rfl, rfl, nofun⟩
  have hdated : job.Dated := by
    cases hnew <;> exact ⟨hid, hnow, hnow⟩
  have hholds : s.Holds id job := by
    obtain ⟨files, hfiles, rfl⟩ := onStore_eq_ok hsave
    have hfile := Store.lookup_of_saveJob hfiles (s₀.store.lock_ne_jobFile id)
    exact hfile.trans (if_pos (by rw [hjobId]))
  obtain ⟨given, hafter, hdatedAfter, hempty, hsame⟩ := hholds.enterAll hdated entries hentries
  refine ⟨_, hafter, fun found hfound => hafter.exists_of_hasJob hdatedAfter hfound, fun hruns => ?_,
    fun last hlast => ?_, ?_, ?_, fun hready hplain hdepth hfit => ?_⟩
  · rw [hempty hruns, show (enterAll id entries s).1 = [] from hruns]
    rfl
  · obtain ⟨_, _, _, _, _, hframe⟩ := Job.exists_foldl_enter { job with input := given } runs
    have hgiven : (runs.foldl Job.enter { job with input := given }).input = given := by rw [hframe]
    rw [hgiven]
    exact Job.foldl_enter_eq hlast _
  · rw [Job.error_foldl_enter]
    simp only [hnone, Option.getD_none]
    rfl
  · exact Job.isSome_error_foldl_enter { job with input := given } hnone hstatus runs
  · have hjob : job.Plain := by
      refine ⟨hdated.id, hinput ▸ hplain, ?_, hdated.createdAt, hdated.updatedAt⟩
      rw [hresults]
      exact ⟨Entries.sorted_nil, nofun⟩
    have hshallow : job.Shallow := ⟨hinput ▸ hdepth, by rw [hresults]; exact nofun⟩
    rw [hsame hjob fun run hrun => (hfit run hrun).plain]
    obtain ⟨hlength, hfound⟩ := hholds.length_enterAll hready hjob hshallow entries hentries hfit
    obtain ⟨_, _, _, _, _, hframe⟩ := Job.exists_foldl_enter job runs
    exact ⟨hlength, (congrArg Job.input hframe).trans hinput, hfound⟩

/-- A job fails, and is processed afterwards by no calls at all.  It has the error of the run that failed. -/
theorem error_of_runs_failed :
    let entries : List RunEntry := [.update ⟨0, 0⟩ ⟨[], .failed⟩, .process ⟨0, 0⟩ []]
    let job := Job.uploaded ⟨1⟩ ⟨0, 0⟩ (nest 0)
    ∃ s : Service, onStore (fun store => store.saveJob job) .store (fresh default) = .ok () s ∧
      (enterAll ⟨1⟩ entries s).1 = [(⟨0, 0⟩, ⟨[], .failed⟩), (⟨0, 0⟩, ⟨[], .completed⟩)] ∧
      (enterAll ⟨1⟩ entries s).2.HasJob ⟨1⟩ { job with
        runStatus := some .completed, status := .processed, error := some "run failed" } := by
  intro entries job
  have hready := ready_fresh default
  obtain ⟨files, hfiles⟩ := Store.exists_saveJob job hready
  have hsave : onStore (fun store => store.saveJob job) .store (fresh default) =
      .ok () { fresh default with files } := onStore_of_ok (f := fun store => store.saveJob job) hfiles _
  generalize hs : ({ fresh default with files } : Service) = s at hsave
  have hready₁ : s.store.Ready s.files := hs ▸ hready.textChange ((Store.keeps_saveJob _ job).ok hfiles)
  have hplain : job.Plain := plain_uploaded Instant.representable_epoch (by decide) (plain_nest 0)
  have hjob : s.HasJob ⟨1⟩ job := by
    have hfile := Store.lookup_of_saveJob hfiles ((fresh default).store.lock_ne_jobFile ⟨1⟩)
    exact hs ▸ Holds.hasJob (hfile.trans (if_pos rfl)) hplain ⟨Nat.zero_le _, nofun⟩
  obtain ⟨s₁, hupdate⟩ := RunEntry.exists_run_update ⟨0, 0⟩ ⟨[], .failed⟩ hready₁ hjob
  have hchange : TextChange s s₁ := (RunEntry.keeps_run ⟨1⟩ _).ok hupdate
  have hready₂ : s₁.store.Ready s₁.files := hchange.1.symm ▸ hready₁.textChange hchange.2
  obtain ⟨found, hfound, hholds⟩ := RunEntry.run_eq_ok hupdate
  cases hjob.symm.trans hfound
  have hnone : Results.Fit [] := ⟨⟨Entries.sorted_nil, nofun⟩, nofun⟩
  have hplain₁ := hplain.enter (⟨0, 0⟩, ⟨[], .failed⟩) Instant.representable_epoch hnone.plain
  obtain ⟨s₂, hprocess⟩ := exists_process ⟨0, 0⟩ ⟨1⟩ [] hready₂ (hholds.hasJob hplain₁ ⟨Nat.zero_le _, nofun⟩)
  have hprocess : (RunEntry.process ⟨0, 0⟩ []).run ⟨1⟩ s₁ = .ok ⟨[], .completed⟩ s₂ := hprocess
  have hruns : (enterAll ⟨1⟩ entries s).1 = [(⟨0, 0⟩, ⟨[], .failed⟩), (⟨0, 0⟩, ⟨[], .completed⟩)] := by
    rw [enterAll_of_ok hupdate, enterAll_of_ok hprocess]
    rfl
  obtain ⟨after, -, -, -, hlast, herror, -, hfits⟩ := error_of_runs (@IsNew.uploaded ⟨1⟩ ⟨0, 0⟩ (nest 0)) (by decide)
    Instant.representable_epoch hsave entries (by simp [entries, RunEntry.now, Instant.representable_epoch])
  simp only [hruns] at hlast herror hfits
  obtain ⟨-, hinput, hfound⟩ := hfits hready₁ (plain_nest 0) (Nat.zero_le _) (by simp [hnone])
  refine ⟨s, hsave, hruns, ?_⟩
  rw [hlast _ rfl, hinput, herror] at hfound
  exact hfound

end Service

end PluginChain
