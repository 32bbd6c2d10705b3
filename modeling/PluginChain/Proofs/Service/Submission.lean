import PluginChain.Proofs.Service.Calls

/-!
# What becomes of a task that is submitted

A submission ends in one of three ways.  A task that is not valid is refused, and nothing is written.
If its reference is dangling it is refused as well, of which only a copy of the task is left; the engine
has no part in that (`Refused`).  Otherwise the task is run on its input, and what it gave is kept as a
new job (`Added`), beside which all that was kept before stays as it was.

`Service.submit_ends` has these three, and that there is no fourth.  What `submit` does about a task that
is found to be invalid when it is run is never done, for by then it was validated.
-/

set_option autoImplicit false

namespace PluginChain

open Operation

namespace Service

variable {s s' : Service} {taskId jobId : Uuid} {task : Task} {given : Option Data} {now : Instant}

/-- Runs a task on its input, and keeps what it gave as a new job. -/
def runAndKeep (now : Instant) (jobId : Uuid) (task : Task) (input : Data) : ServiceM Submission := do
  let job := Job.forTask jobId now task.name task.description input
  match ← onEngine fun e => e.runTask task input with
  | .ok report => do
    onStore fun store => store.saveJob (job.applyResults now report.results report.status)
    return ⟨jobId, report⟩
  | .error (.invalid e) => do
    let error := ChainError.structural (.invalid e)
    onStore fun store => store.saveJob (job.markFailed now error.message)
    throw error
  | .error f => throw (.ofRunFault f)

theorem submit_of_valid (h : task.validate = .ok ()) (now : Instant) (taskId jobId : Uuid)
    (given : Option Data) :
    submit now taskId jobId task given = (do
      onStore fun store => store.saveTask taskId task
      let input ← inputOf task given
      runAndKeep now jobId task input) := by
  rw [submit, h]
  rfl

theorem submit_of_invalid {why : TaskError} (h : task.validate = .error why) :
    submit now taskId jobId task given s = .error (.structural (.invalid why)) s := by
  rw [submit, h]
  rfl

/-! ## Keeping a copy -/

/-- A copy of the task is kept in these files, and nothing else is changed. -/
def CopyIn (s : Service) (taskId : Uuid) (task : Task) (files : FileTree) : Prop :=
  ∀ q, files.lookup q =
    if s.store.taskFile taskId = q then some (.file (Task.codec.toYaml task)) else s.files.lookup q

theorem CopyIn.sameJobs {files : FileTree} (h : CopyIn s taskId task files) (e : Engine) :
    SameJobs s { s with engine := e, files } := by
  refine ⟨rfl, fun id => ?_⟩
  rw [h, if_neg (s.store.taskFile_ne_jobFile taskId id)]

/-- A task that is valid is first kept. -/
theorem exists_copy (h : s.store.Ready s.files) (taskId : Uuid) (task : Task) :
    ∃ files, CopyIn s taskId task files ∧ s.store.Ready files ∧
      ∀ e, onStore (fun store => store.saveTask taskId task) .store { s with engine := e } =
        .ok () { s with engine := e, files } := by
  obtain ⟨files, hsave, hlookup⟩ := Store.exists_saveTask taskId task h
  refine ⟨files, hlookup, h.textChange ((s.store.keeps_saveTask taskId task).ok hsave), fun e => ?_⟩
  exact onStore_of_ok (s := { s with engine := e }) (f := fun store => store.saveTask taskId task) hsave _

/-! ## Refusals -/

/-- Whatever the engine, the submission is refused with an error about the request.  The engine is left
alone, and only a copy of the task is kept. -/
def Refused (s : Service) (now : Instant) (taskId jobId : Uuid) (task : Task) (given : Option Data)
    (why : StructuralError) : Prop :=
  ∃ files, CopyIn s taskId task files ∧
    ∀ e, submit now taskId jobId task given { s with engine := e } =
      .error (.structural why) { s with engine := e, files }

theorem refused_of_dangling (h : s.store.Ready s.files) (hvalid : task.validate = .ok ())
    {reference : InputRef} {why : StructuralError} (hreference : task.initialInput? = some reference)
    (hdangling : Dangling s reference why) : Refused s now taskId jobId task given why := by
  obtain ⟨files, hcopy, hready, hkeep⟩ := exists_copy h taskId task
  refine ⟨files, hcopy, fun e => ?_⟩
  have hinput : inputOf task given { s with engine := e, files } =
      .error (.structural why) { s with engine := e, files } :=
    inputOf_of_dangling (s := { s with engine := e, files }) hready hreference
      ((hcopy.sameJobs e).dangling hdangling)
  rw [submit_of_valid hvalid, bind_of_ok (hkeep e), bind_of_error hinput]

/-! ## New jobs -/

/-- The job that is made of a task, its input and the report of its run. -/
def jobOf (now : Instant) (jobId : Uuid) (task : Task) (input : Data) (report : Report) : Job where
  id := jobId
  name := task.name
  description := task.description
  input
  status := .processed
  runStatus := some report.status
  results := report.results
  error := none
  createdAt := now
  updatedAt := now

/-- A job was added, next to a copy of its task; all other files are as they were. -/
structure Added (s : Service) (taskId : Uuid) (task : Task) (job : Job) (s' : Service) : Prop where
  store : s'.store = s.store
  holds : s'.Holds job.id job
  copy : s'.files.lookup (s.store.taskFile taskId) = some (.file (Task.codec.toYaml task))
  others : ∀ q, s.store.jobFile job.id ≠ q → StoreM.besideOf (s.store.jobFile job.id) ≠ q →
    s.store.taskFile taskId ≠ q → s.store.root ++ [".lock"] ≠ q → s'.files.lookup q = s.files.lookup q

theorem CopyIn.added {files files' : FileTree} (h : CopyIn s taskId task files) {job : Job}
    (hsave : s.store.saveJob job files = .ok () files') (e : Engine) :
    Added s taskId task job { s with engine := e, files := files' } := by
  refine ⟨rfl, ?_, ?_, fun q hjob hbeside htask hlock => ?_⟩
  · exact (Store.lookup_of_saveJob hsave (s.store.lock_ne_jobFile job.id)).trans (if_pos rfl)
  · rw [Store.lookup_of_saveJob hsave (s.store.lock_ne_taskFile taskId),
      if_neg (s.store.taskFile_ne_jobFile taskId job.id).symm,
      if_neg (s.store.taskFile_ne_besideOf taskId job.id).symm, h, if_pos rfl]
  · rw [Store.lookup_of_saveJob hsave hlock, if_neg hjob, if_neg hbeside, h, if_neg htask]

/-- Of the files that are named like records only that of the new job is changed. -/
theorem Added.lookup_of_suffix {job : Job} (h : Added s taskId task job s') {name : String}
    (hsuffix : FileTree.suffix? name = some "json")
    (hname : s.store.jobFile job.id ≠ s.store.jobs ++ [name]) :
    s'.files.lookup (s.store.jobs ++ [name]) = s.files.lookup (s.store.jobs ++ [name]) :=
  h.others _ hname (Store.besideOf_ne_of_suffix? hsuffix job.id)
    (s.store.tasks_append_ne_jobs_append _ _) (s.store.lock_ne_jobs_append _)

/-- All other jobs are what they were. -/
theorem Added.hasJob_iff {job : Job} (h : Added s taskId task job s') {id : Uuid}
    (hid : s.store.jobFile job.id ≠ s.store.jobFile id) {other : Job} :
    s'.HasJob id other ↔ s.HasJob id other := by
  rw [HasJob, HasJob, StoreM.recordAt?, StoreM.recordAt?, h.store, Store.jobFile,
    h.lookup_of_suffix (Store.suffix?_jobName id) hid]

/-- **A job that was added is the one that is listed beside the others.** -/
theorem Added.exists_listJobs {job : Job} (h : Added s taskId task job s') (htidy : s.Tidy)
    (htidy' : s'.Tidy) (hfresh : s.files.lookup (s.store.jobFile job.id) = none)
    (hread : s'.HasJob job.id job) :
    ∃ before after, listJobs s = .ok before s ∧ listJobs s' = .ok after s' ∧
      ∀ other, other ∈ after ↔ other = job ∨ other ∈ before := by
  obtain ⟨before, hbefore, hmem⟩ := Service.exists_listJobs htidy
  obtain ⟨after, hafter, hmem'⟩ := Service.exists_listJobs htidy'
  refine ⟨before, after, hbefore, hafter, fun other => ?_⟩
  have hrecord : ∀ {name}, FileTree.suffix? name = some "json" →
      s.store.jobFile job.id ≠ s.store.jobs ++ [name] →
      StoreM.recordAt? Job.codec s'.files (s'.store.jobs ++ [name]) =
        StoreM.recordAt? Job.codec s.files (s.store.jobs ++ [name]) := by
    intro name hsuffix hname
    rw [StoreM.recordAt?, StoreM.recordAt?, h.store, h.lookup_of_suffix hsuffix hname]
  rw [hmem, hmem']
  constructor
  · rintro ⟨name, hsuffix, hother⟩
    by_cases hname : s.store.jobFile job.id = s.store.jobs ++ [name]
    · rw [h.store, ← hname, ← h.store] at hother
      exact Or.inl (Option.some.inj (hother.symm.trans hread))
    · exact Or.inr ⟨name, hsuffix, hrecord hsuffix hname ▸ hother⟩
  · rintro (rfl | ⟨name, hsuffix, hother⟩)
    · exact ⟨_, Store.suffix?_jobName other.id, hread⟩
    · have hname : s.store.jobFile job.id ≠ s.store.jobs ++ [name] := by
        intro hname
        obtain ⟨text, htext, -⟩ := StoreM.recordAt?_eq_some_iff.1 hother
        rw [← hname, hfresh] at htext
        cases htext
      exact ⟨name, hsuffix, hrecord hsuffix hname ▸ hother⟩

theorem forTask_applyResults {report : Report} (h : report.status = .ofResults report.results)
    (input : Data) :
    (Job.forTask jobId now task.name task.description input).applyResults now report.results
      report.status = jobOf now jobId task input report := by
  rw [Job.applyResults, h, ofRun_ofResults, ← h]
  rfl

/-- A run that comes to a report is kept. -/
theorem exists_runAndKeep (now : Instant) (jobId : Uuid) (h : s.store.Ready s.files) {input : Data}
    {report : Report}
    (hreport : (s.engine.runTask task input).1 = .ok report) :
    ∃ files, runAndKeep now jobId task input s =
        .ok ⟨jobId, report⟩ { s with engine := (s.engine.runTask task input).2, files } ∧
      s.store.saveJob (jobOf now jobId task input report) s.files = .ok () files := by
  obtain ⟨files, hsave⟩ := Store.exists_saveJob (jobOf now jobId task input report) h
  refine ⟨files, ?_, hsave⟩
  have hengine : onEngine (fun e => e.runTask task input) s =
      .ok (.ok report) { s with engine := (s.engine.runTask task input).2 } := onEngine_of_fst hreport
  have hstore : onStore (fun store => store.saveJob ((Job.forTask jobId now task.name task.description
      input).applyResults now report.results report.status)) .store
      { s with engine := (s.engine.runTask task input).2 } =
      .ok () { s with engine := (s.engine.runTask task input).2, files } := by
    rw [forTask_applyResults (Engine.report_runTask hreport).2]
    exact onStore_of_ok (s := { s with engine := (s.engine.runTask task input).2 })
      (f := fun store => store.saveJob _) hsave _
  rw [runAndKeep, bind_of_ok hengine]
  exact (bind_of_ok hstore _).trans rfl

theorem submit_of_report (h : s.store.Ready s.files) (hvalid : task.validate = .ok ()) {input : Data}
    (hinput : WorksOn s task given input) {report : Report}
    (hreport : (s.engine.runTask task input).1 = .ok report) :
    ∃ s', submit now taskId jobId task given s = .ok ⟨jobId, report⟩ s' ∧
      s'.engine = (s.engine.runTask task input).2 ∧
      Added s taskId task (jobOf now jobId task input report) s' := by
  obtain ⟨files, hcopy, hready, hkeep⟩ := exists_copy h taskId task
  have hinput' : inputOf task given { s with files } = .ok input { s with files } :=
    inputOf_eq_ok_iff.2 ⟨rfl, (hcopy.sameJobs s.engine).worksOn.2 hinput⟩
  obtain ⟨files', hrun, hsave⟩ :=
    exists_runAndKeep now jobId (s := { s with files }) hready hreport
  refine ⟨{ s with engine := (s.engine.runTask task input).2, files := files' }, ?_, rfl,
    hcopy.added hsave _⟩
  rw [submit_of_valid hvalid, bind_of_ok (hkeep s.engine), bind_of_ok hinput', hrun]

/-- Where there can be no gate for the task, nothing but the copy of it is kept. -/
theorem submit_of_no_gate (h : s.store.Ready s.files) (hvalid : task.validate = .ok ()) {input : Data}
    (hinput : WorksOn s task given input) (hparallel : task.parallel = true)
    (hgate : Engine.gateLimit < s.engine.maxParallel) :
    ∃ files, CopyIn s taskId task files ∧ submit now taskId jobId task given s =
      .error (.gate s.engine.maxParallel) { s with files } := by
  obtain ⟨files, hcopy, -, hkeep⟩ := exists_copy h taskId task
  refine ⟨files, hcopy, ?_⟩
  have hinput' : inputOf task given { s with files } = .ok input { s with files } :=
    inputOf_eq_ok_iff.2 ⟨rfl, (hcopy.sameJobs s.engine).worksOn.2 hinput⟩
  have hengine : onEngine (fun e => e.runTask task input) { s with files } =
      .ok (.error (.gate s.engine.maxParallel)) { s with files } := by
    simp only [onEngine, s.engine.runTask_of_no_gate hvalid hparallel hgate]
  rw [submit_of_valid hvalid, bind_of_ok (hkeep s.engine), bind_of_ok hinput', runAndKeep,
    bind_of_ok hengine]
  rfl

/-- What was given along with a task that has a reference has no influence. -/
theorem worksOn_of_reference (hreference : task.initialInput? ≠ none) (given given' : Option Data)
    (input : Data) : WorksOn s task given input ↔ WorksOn s task given' input := by
  have h := inputOf_of_reference hreference given given'
  have hiff : ∀ g, WorksOn s task g input ↔ inputOf task g s = .ok input s := fun g =>
    ⟨fun hw => inputOf_eq_ok_iff.2 ⟨rfl, hw⟩, fun hi => (inputOf_eq_ok_iff.1 hi).2⟩
  rw [hiff, hiff, h]

theorem dangling_or_worksOn (h : s.JobsReadable) (task : Task) (given : Option Data) :
    (∃ reference why, task.initialInput? = some reference ∧ Dangling s reference why) ∨
      ∃ input, WorksOn s task given input := by
  cases hreference : task.initialInput? with
  | none => exact Or.inr ⟨_, .given hreference⟩
  | some reference =>
    rcases resolves_or_dangling h reference with ⟨d, hd⟩ | ⟨why, hwhy⟩
    · exact Or.inr ⟨d, .referenced hreference hd⟩
    · exact Or.inl ⟨reference, why, rfl, hwhy⟩

/-- **What becomes of a task that is submitted.**  A task that is not valid changes nothing, and one whose
reference is dangling leaves nothing but its copy.  Otherwise the task works on what its reference stands
for, and without one on what was given or on nothing; its report is told, and just one job is added, which
is processed and has all of the report.  The run finds no task to be invalid, so that no job is failed. -/
theorem submit_ends (now : Instant) (taskId jobId : Uuid) (task : Task) (given : Option Data)
    (hready : s.store.Ready s.files) (htidy : s.Tidy) (hread : s.JobsReadable)
    (hfresh : s.files.lookup (s.store.jobFile jobId) = none) :
    (∀ why, task.validate = .error why →
      submit now taskId jobId task given s = .error (.structural (.invalid why)) s) ∧
    (task.validate = .ok () →
      (∀ reference why, task.initialInput? = some reference → Dangling s reference why →
        Refused s now taskId jobId task given why) ∧
      (∀ input, WorksOn s task given input →
        ((task.parallel = true → s.engine.maxParallel ≤ Engine.gateLimit) →
          ∃ report s', (s.engine.runTask task input).1 = .ok report ∧
            submit now taskId jobId task given s = .ok ⟨jobId, report⟩ s' ∧
            s'.engine = (s.engine.runTask task input).2 ∧
            Added s taskId task (jobOf now jobId task input report) s' ∧
            (Job.codec.ofJson (Job.codec.toJson (jobOf now jobId task input report)) =
                .ok (jobOf now jobId task input report) →
              getJob jobId s' = .ok (jobOf now jobId task input report) s' ∧
              ∃ before after, listJobs s = .ok before s ∧ listJobs s' = .ok after s' ∧
                ∀ job, job ∈ after ↔ job = jobOf now jobId task input report ∨ job ∈ before)) ∧
        (task.parallel = true → Engine.gateLimit < s.engine.maxParallel →
          ∃ files, CopyIn s taskId task files ∧ submit now taskId jobId task given s =
            .error (.gate s.engine.maxParallel) { s with files })) ∧
      ((∃ reference why, task.initialInput? = some reference ∧ Dangling s reference why) ∨
        ∃ input, WorksOn s task given input) ∧
      (task.initialInput? ≠ none →
        ∀ given' input, WorksOn s task given input ↔ WorksOn s task given' input) ∧
      ∀ input why, (s.engine.runTask task input).1 ≠ .error (.invalid why)) := by
  refine ⟨fun why hinvalid => submit_of_invalid hinvalid, fun hvalid =>
    ⟨fun reference why hreference hdangling => refused_of_dangling hready hvalid hreference hdangling,
      fun input hinput => ⟨fun hgate => ?_, submit_of_no_gate hready hvalid hinput⟩,
      dangling_or_worksOn hread task given,
      fun hreference given' input => worksOn_of_reference hreference given given' input,
      fun input why => s.engine.runTask_ne_invalid hvalid input why⟩⟩
  obtain ⟨report, hreport⟩ := s.engine.exists_report hvalid hgate input
  obtain ⟨s', hsubmit, hengine, hadded⟩ := submit_of_report hready hvalid hinput hreport
  have htidy' : s'.Tidy := htidy.textChange ((keeps_submit now taskId jobId task given).ok hsubmit)
  refine ⟨report, s', hreport, hsubmit, hengine, hadded, fun hback => ?_⟩
  have hjob : s'.HasJob jobId (jobOf now jobId task input report) :=
    StoreM.recordAt?_eq_some_iff.2 ⟨_, hadded.holds, hback⟩
  exact ⟨onStore_getJob_eq_ok_iff.2 ⟨rfl, hjob⟩, hadded.exists_listJobs htidy htidy' hfresh hjob⟩

/-- A task that works on the input of an earlier job, whatever is given along with it. -/
theorem submit_ends_referenced :
    let task : Task := ⟨"again", "", [{ plugin := "p", input := some (.job (Uuid.toText ⟨1⟩)) }], false⟩
    let engine : Engine := { (default : Engine) with registry := ({} : Registry).insert picky }
    ∃ (s s' : Service) (report : Report), s.engine = engine ∧ s.store.Ready s.files ∧ s.Tidy ∧
      s.JobsReadable ∧ s.files.lookup (s.store.jobFile ⟨2⟩) = none ∧
      s.HasJob ⟨1⟩ (.uploaded ⟨1⟩ ⟨0, 0⟩ (.text "a")) ∧
      (engine.runTask task (.text "a")).1 = .ok report ∧
      submit ⟨0, 0⟩ ⟨3⟩ ⟨2⟩ task (some (.text "b")) s = .ok ⟨⟨2⟩, report⟩ s' ∧
      Added s ⟨3⟩ task (jobOf ⟨0, 0⟩ ⟨2⟩ task (.text "a") report) s' := by
  intro task engine
  obtain ⟨files, hupload⟩ := exists_upload ⟨0, 0⟩ ⟨1⟩ (.text "a") (ready_fresh engine)
  have hchange := (keeps_upload ⟨0, 0⟩ ⟨1⟩ (.text "a")).ok hupload
  have hready : (fresh engine).store.Ready files := Store.Ready.textChange (ready_fresh engine) hchange.2
  have htidy : Tidy { fresh engine with files } := (tidy_fresh engine).textChange hchange
  have hjob := hasJob_upload hupload Instant.representable_epoch (by decide) (.text "a") (by decide)
  have hread : JobsReadable { fresh engine with files } :=
    JobsReadable.upload (readable_fresh engine) hupload hjob
  have hfresh : files.lookup ((fresh engine).store.jobFile ⟨2⟩) = none := by
    refine (lookup_upload hupload ⟨2⟩ fun heq => ?_).trans (lookup_fresh engine Nat.one_lt_two)
    exact absurd ((Store.jobFile_inj (by decide) (by decide)).1 heq) (by decide)
  have htrim : Text.trim (Uuid.toText ⟨1⟩) = Uuid.toText ⟨1⟩ := by decide +kernel
  have hid : Uuid.parse (Text.trim (Uuid.toText ⟨1⟩)) = .ok ⟨1⟩ := htrim.symm ▸ Uuid.parse_toText (by decide)
  have hworks : WorksOn { fresh engine with files } task (some (.text "b")) (.text "a") :=
    .referenced rfl (.job hid hjob)
  have hvalid : task.validate = .ok () := by decide +kernel
  have hends := (submit_ends ⟨0, 0⟩ ⟨3⟩ ⟨2⟩ task (some (.text "b")) hready htidy hread hfresh).2 hvalid
  obtain ⟨report, s', hreport, hsubmit, -, hadded, -⟩ := (hends.2.1 _ hworks).1 nofun
  exact ⟨_, s', report, rfl, hready, htidy, hread, hfresh, hjob, hreport, hsubmit, hadded⟩

end Service

end PluginChain
