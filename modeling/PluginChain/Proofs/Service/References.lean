import PluginChain.Proofs.Service.AllOrNothing
import PluginChain.Proofs.Service.JobTraffic
import PluginChain.Proofs.Store.Copies
import PluginChain.Proofs.Workflow.References

/-!
# Later references play no part

Of the references in a task that is submitted only that of the first step is followed.  Here two tasks are
compared from which the same is left when the references of all later steps are taken out
(`Task.firstOnly`).  What the runs come to is left open, as long as they do not look at references either
(`Runner.Blind`): the plugins of an engine do not, nor does any schedule on which steps run side by side
while plugins come and go (`Runner.blind_onSchedule`).

* The submissions of such tasks cannot be told apart by what they come to, nor by anything they leave on the
  disk but the copies of the tasks (`Service.alike_submitBy`), whatever the state of the disk.
* With other ids and at another time they come to the same report, and to jobs that are the same up to ids
  and times (`Service.SameFate`).
* Nor can they be told apart when any other requests about jobs are under way (`JobTraffic.after_firstOnly`).
-/

set_option autoImplicit false

namespace PluginChain

open Operation

/-! ## Tasks without later references -/

/-- The task without the references of the steps after the first. -/
def Task.firstOnly (task : Task) : Task :=
  { task with steps := task.steps.take 1 ++ (task.steps.drop 1).map Step.bare }

namespace Task

variable {task task' : Task}

@[simp] theorem initialInput?_firstOnly (task : Task) : task.firstOnly.initialInput? = task.initialInput? := by
  obtain ⟨name, description, steps, parallel⟩ := task
  cases steps <;> rfl

@[simp] theorem validate_firstOnly (task : Task) : task.firstOnly.validate = task.validate := by
  obtain ⟨name, description, steps, parallel⟩ := task
  cases steps <;> rfl

@[simp] theorem bare_firstOnly (task : Task) : task.firstOnly.bare = task.bare := by
  obtain ⟨name, description, steps, parallel⟩ := task
  cases steps <;> simp [firstOnly, bare]

@[simp] theorem firstOnly_firstOnly (task : Task) : task.firstOnly.firstOnly = task.firstOnly := by
  obtain ⟨name, description, steps, parallel⟩ := task
  cases steps <;> simp [firstOnly]

/-- What two tasks have in common that differ in later references only. -/
structure SameButLater (task task' : Task) : Prop where
  name : task.name = task'.name
  description : task.description = task'.description
  validate : task.validate = task'.validate
  initialInput? : task.initialInput? = task'.initialInput?
  bare : task.bare = task'.bare

theorem sameButLater_of_firstOnly (h : task.firstOnly = task'.firstOnly) : SameButLater task task' where
  name := show task.firstOnly.name = task'.firstOnly.name by rw [h]
  description := show task.firstOnly.description = task'.firstOnly.description by rw [h]
  validate := by rw [← validate_firstOnly task, h, validate_firstOnly]
  initialInput? := by rw [← initialInput?_firstOnly task, h, initialInput?_firstOnly]
  bare := by rw [← bare_firstOnly task, h, bare_firstOnly]

end Task

/-! ## Runs that do not look at references -/

namespace Runner

/-- The run does the same when a change is made in the steps. -/
structure Overlooks (run : Runner) (f : Step → Step) : Prop where
  step : ∀ index step input, run.step index (f step) input = run.step index step input
  sideBySide : ∀ steps input, run.sideBySide (steps.map f) input = run.sideBySide steps input

/-- The run does the same with steps that have no references. -/
abbrev Blind (run : Runner) : Prop := run.Overlooks Step.bare

/-- The tasks are run alike, and what else becomes of a task is the same for both. -/
structure RunsAlike (run : Runner) (task task' : Task) : Prop where
  name : task.name = task'.name
  description : task.description = task'.description
  validate : task.validate = task'.validate
  initialInput? : task.initialInput? = task'.initialInput?
  runTask : ∀ input, run.runTask task input = run.runTask task' input

variable {run : Runner} {task task' : Task} {f : Step → Step}

/-- Tasks from which the same becomes by the change are run alike. -/
theorem Overlooks.runTask_eq (h : run.Overlooks f) (hf : Step.Unnoticed f)
    (hsame : task.mapSteps f = task'.mapSteps f) (input : Data) :
    run.runTask task input = run.runTask task' input := by
  have hrun := hf.run_mapSteps input h.step h.sideBySide
  rw [runTask, runTask, ← hrun task, hsame, hrun task']

theorem Blind.runTask_eq (h : run.Blind) (hbare : task.bare = task'.bare) (input : Data) :
    run.runTask task input = run.runTask task' input :=
  Overlooks.runTask_eq h Step.unnoticed_bare hbare input

theorem Blind.runsAlike (h : run.Blind) (hsame : task.SameButLater task') : run.RunsAlike task task' :=
  ⟨hsame.name, hsame.description, hsame.validate, hsame.initialInput?, h.runTask_eq hsame.bare⟩

theorem overlooks_ofEngine (hf : Step.Unnoticed f) (e : Engine) : (ofEngine e).Overlooks f :=
  ⟨hf.runStep_eq _, hf.runFanOut_eq _⟩

theorem blind_ofEngine (e : Engine) : (ofEngine e).Blind := overlooks_ofEngine Step.unnoticed_bare e

end Runner

/-- Runs steps side by side on a schedule.  Where that is none for these steps, or does not bring all of
them to their ends, the workers move one after the other. -/
def Engine.runOnSchedule (eval : Nat → Evaluator) (turns : List Turn) (steps : List Step) (input : Data) :
    StateM Engine (Except RunFault Results) := fun e =>
  if gateLimit < e.maxParallel then (.error (.gate e.maxParallel), e)
  else
    match (FanOut.begin_ e steps).after eval steps input turns with
    | none => runFanOut eval steps input e
    | some s =>
      if s.workers.all Worker.isRecorded then (.ok s.results, s.engine) else runFanOut eval steps input e

/-- Every schedule that brings all workers through is followed. -/
theorem Engine.runOnSchedule_of_finished {eval : Nat → Evaluator} {turns : List Turn} {steps : List Step}
    {input : Data} {e : Engine} {s : FanOut} (hgate : e.maxParallel ≤ gateLimit)
    (hafter : (FanOut.begin_ e steps).after eval steps input turns = some s) (hfinished : s.Finished) :
    runOnSchedule eval turns steps input e = (.ok s.results, s.engine) := by
  have hall : s.workers.all Worker.isRecorded = true := by
    rw [List.all_eq_true]
    intro w hw
    obtain ⟨r, rfl⟩ := hfinished w hw
    rfl
  simp only [runOnSchedule, Nat.not_lt.2 hgate, if_false, hafter, hall, if_true]

namespace Runner

/-- Runs in which plugins come and go: before each step of a chain the plugins change, and steps that run
side by side do so on a schedule. -/
def onSchedule (eval : Nat → Evaluator) (changes : Nat → Registry → Registry) (turns : List Turn) : Runner where
  step index step input := fun e =>
    Engine.runStep eval index step input { e with registry := changes index e.registry }
  sideBySide := Engine.runOnSchedule eval turns
  calls calls input := Service.callAll (eval 0) calls input []
  ne_invalid steps input e why := by
    have hrun : ∀ e', (Engine.runFanOut eval steps input e').1 ≠ .error (.invalid why) := by
      intro e'
      rw [Engine.runFanOut]
      split <;> exact nofun
    rw [Engine.runOnSchedule]
    split
    · exact nofun
    · split
      · exact hrun e
      · split
        · exact nofun
        · exact hrun e

/-- A change that no run notices is not noticed on any schedule either. -/
theorem overlooks_onSchedule {f : Step → Step} (hf : Step.Unnoticed f) (eval : Nat → Evaluator)
    (changes : Nat → Registry → Registry) (turns : List Turn) : (onSchedule eval changes turns).Overlooks f where
  step index step input := by
    funext e
    simp only [onSchedule, hf.runStep_eq]
  sideBySide steps input := by
    funext e
    simp only [onSchedule, Engine.runOnSchedule, Step.Unnoticed.begin_eq, hf.after_eq, hf.runFanOut_eq]

/-- **No schedule depends on references.** -/
theorem blind_onSchedule (eval : Nat → Evaluator) (changes : Nat → Registry → Registry) (turns : List Turn) :
    (onSchedule eval changes turns).Blind :=
  overlooks_onSchedule Step.unnoticed_bare eval changes turns

end Runner

/-! ## Submissions -/

theorem Store.alike_saveJob (s : Store) (job : Job) :
    Alike (FileTree.emptied s.tasks) (s.saveJob job) (s.saveJob job) := by
  have hsteps := (Edit.save job (.ok (.job job))).carryOut_eq s
  rw [Edit.carryOut] at hsteps
  rw [hsteps]
  exact s.alike_lock.bind fun _ => (alike_pure job).bind fun job' =>
    (s.alike_writeBeside _ _).bind fun _ => s.alike_putInPlace _

namespace Service

variable {run : Runner} {task task' : Task} {s s' : Service} {now now' : Instant}
  {taskId taskId' jobId jobId' : Uuid} {given : Option Data} {input : Data}

/-- Runs a task on its input in a way of its own, and keeps what that gave as a new job. -/
def runAndKeepBy (run : Runner) (now : Instant) (jobId : Uuid) (task : Task) (input : Data) :
    ServiceM Submission := do
  let job := Job.forTask jobId now task.name task.description input
  match ← onEngine (run.runTask task input) with
  | .ok report => do
    onStore fun store => store.saveJob (job.applyResults now report.results report.status)
    return ⟨jobId, report⟩
  | .error (.invalid e) => do
    let error := ChainError.structural (.invalid e)
    onStore fun store => store.saveJob (job.markFailed now error.message)
    throw error
  | .error f => throw (.ofRunFault f)

/-- A submission whose run is left open. -/
def submitBy (run : Runner) (now : Instant) (taskId jobId : Uuid) (task : Task) (given : Option Data) :
    ServiceM Submission := do
  ofExcept (task.validate.mapError fun e => .structural (.invalid e))
  onStore fun store => store.saveTask taskId task
  runAndKeepBy run now jobId task (← inputOf task given)

/-- A submission is one with the plugins of the engine. -/
theorem submitBy_ofEngine (now : Instant) (taskId jobId : Uuid) (task : Task) (given : Option Data)
    (s : Service) :
    submitBy (.ofEngine s.engine) now taskId jobId task given s = submit now taskId jobId task given s := by
  rw [submitBy, submit]
  refine bind_congr_ok fun _ s₁ hvalid => ?_
  obtain ⟨-, rfl⟩ := ofExcept_eq_ok hvalid
  refine bind_congr_ok fun _ s₂ hsave => ?_
  obtain ⟨files, -, rfl⟩ := onStore_eq_ok hsave
  refine bind_congr_ok fun input s₃ hinput => ?_
  obtain rfl := (looksOnly_inputOf task given).ok hinput
  have hengine : onEngine ((Runner.ofEngine s₁.engine).runTask task input) { s₁ with files } =
      onEngine (fun e => e.runTask task input) { s₁ with files } := by
    rw [onEngine, onEngine, Runner.runTask_ofEngine]
  rw [runAndKeepBy]
  cases hrun : onEngine (fun e => e.runTask task input) { s₁ with files } with
  | error e s' => rw [bind_of_error hrun, bind_of_error (hengine.trans hrun)]
  | ok r s' =>
    rcases r with (_ | _) | _ <;> rw [bind_of_ok hrun, bind_of_ok (hengine.trans hrun)]

theorem alike_runAndKeepBy (h : run.RunsAlike task task') (now : Instant) (jobId : Uuid) (input : Data) :
    Alike withoutCopies (runAndKeepBy run now jobId task input) (runAndKeepBy run now jobId task' input) := by
  rw [runAndKeepBy, runAndKeepBy, h.name, h.description, h.runTask]
  refine (alike_onEngine _).bind fun r => ?_
  cases r with
  | ok report =>
    exact (alike_onStore (fun store => store.alike_saveJob _) _).bind fun _ => alike_pure _
  | error fault =>
    cases fault with
    | invalid why => exact (alike_onStore (fun store => store.alike_saveJob _) _).bind fun _ => alike_throw _
    | gate places => exact alike_throw _

/-- Submissions of tasks that are run alike cannot be told apart, whatever the disk is like. -/
theorem alike_submitBy_of_runsAlike (h : run.RunsAlike task task') (now : Instant) (taskId jobId : Uuid)
    (given : Option Data) :
    Alike withoutCopies (submitBy run now taskId jobId task given)
      (submitBy run now taskId jobId task' given) := by
  rw [submitBy, submitBy, h.validate]
  exact (alike_ofExcept _).bind fun _ =>
    (alike_onStore (fun store => store.alike_saveTask taskId task task') _).bind fun _ =>
      (alike_inputOf h.initialInput? given).bind fun input => alike_runAndKeepBy h now jobId input

/-- **Submissions of tasks that differ in later references** cannot be told apart, whatever the disk is like. -/
theorem alike_submitBy (h : run.Blind) (hsame : task.SameButLater task') (now : Instant)
    (taskId jobId : Uuid) (given : Option Data) :
    Alike withoutCopies (submitBy run now taskId jobId task given)
      (submitBy run now taskId jobId task' given) :=
  alike_submitBy_of_runsAlike (h.runsAlike hsame) now taskId jobId given

/-! ## Other ids and another time -/

theorem CopyIn.read_jobFile {files : FileTree} (h : CopyIn s taskId task files) (id : Uuid) :
    files.read (s.store.jobFile id) = s.files.read (s.store.jobFile id) := by
  refine FileTree.read_congr fun q hq => ?_
  rw [h, if_neg]
  rintro rfl
  have hlength : (s.store.taskFile taskId).length = (s.store.jobFile id).length := by
    simp [Store.taskFile, Store.jobFile, Store.tasks, Store.jobs]
  exact s.store.taskFile_ne_jobFile taskId id (hq.eq_of_length hlength)

/-- Where jobs are read alike a task works on the same. -/
theorem findsSame_inputOf {files : FileTree}
    (h : ∀ id, files.read (s.store.jobFile id) = s.files.read (s.store.jobFile id)) (task : Task)
    (given : Option Data) : FindsSame (inputOf task given) s { s with files } := by
  have hid : ∀ text, FindsSame (referencedId text) s { s with files } := by
    intro text
    rw [referencedId]
    cases Uuid.parse (Text.trim text) with
    | ok id => exact findsSame_pure id
    | error why => exact findsSame_throw _
  have hjob : ∀ id, FindsSame (s.store.getJob id) s.files files := fun id =>
    StoreM.findsSame_readRecord (h id) _
  rw [inputOf]
  cases task.initialInput? with
  | none => exact findsSame_pure _
  | some reference =>
    cases reference with
    | inline value => exact findsSame_pure value
    | job jobId =>
      exact (hid jobId).bind fun id =>
        findsSame_onStore (f := fun store => store.jobInput id) ((hjob id).bind fun _ => findsSame_pure _) _
    | output jobId step =>
      refine (hid jobId).bind fun id =>
        (findsSame_onStore (f := fun store => store.getJob id) (hjob id) _).bind fun job => ?_
      cases (Entries.get? step job.results).bind Outcome.value? with
      | none => exact findsSame_throw _
      | some value => exact findsSame_pure value

/-- A run that comes to a report is kept. -/
theorem exists_runAndKeepBy (run : Runner) (now : Instant) (jobId : Uuid) (h : s.store.Ready s.files)
    {report : Report} (hreport : (run.runTask task input s.engine).1 = .ok report) :
    ∃ files, runAndKeepBy run now jobId task input s =
        .ok ⟨jobId, report⟩ { s with engine := (run.runTask task input s.engine).2, files } ∧
      s.store.saveJob (jobOf now jobId task input report) s.files = .ok () files := by
  obtain ⟨files, hsave⟩ := Store.exists_saveJob (jobOf now jobId task input report) h
  refine ⟨files, ?_, hsave⟩
  have hstore : onStore (fun store => store.saveJob ((Job.forTask jobId now task.name task.description
      input).applyResults now report.results report.status)) .store
      { s with engine := (run.runTask task input s.engine).2 } =
      .ok () { s with engine := (run.runTask task input s.engine).2, files } := by
    rw [forTask_applyResults (Runner.status_runTask hreport)]
    exact onStore_of_ok (s := { s with engine := (run.runTask task input s.engine).2 })
      (f := fun store => store.saveJob _) hsave _
  rw [runAndKeepBy, bind_of_ok (onEngine_of_fst hreport)]
  exact (bind_of_ok hstore _).trans rfl

/-- Where all is in order with the store, a task that is valid is kept, and what becomes of it then depends
on its input and its run. -/
theorem submitBy_of_ready (run : Runner) (now : Instant) (taskId jobId : Uuid) (given : Option Data)
    (h : s.store.Ready s.files) (hvalid : task.validate = .ok ()) :
    (∀ e, inputOf task given s = .error e s → ∃ files, CopyIn s taskId task files ∧
      submitBy run now taskId jobId task given s = .error e { s with files }) ∧
    ∀ input, inputOf task given s = .ok input s →
      (∀ report, (run.runTask task input s.engine).1 = .ok report → ∃ t,
        submitBy run now taskId jobId task given s = .ok ⟨jobId, report⟩ t ∧
          t.engine = (run.runTask task input s.engine).2 ∧
          Added s taskId task (jobOf now jobId task input report) t) ∧
      ∀ places, (run.runTask task input s.engine).1 = .error (.gate places) → ∃ files,
        CopyIn s taskId task files ∧ submitBy run now taskId jobId task given s =
          .error (.gate places) { s with engine := (run.runTask task input s.engine).2, files } := by
  obtain ⟨files, hcopy, hready, hkeep⟩ := exists_copy h taskId task
  have hsubmit : submitBy run now taskId jobId task given s =
      (inputOf task given >>= fun input => runAndKeepBy run now jobId task input) { s with files } := by
    rw [submitBy, hvalid]
    exact bind_of_ok (hkeep s.engine) _
  rw [hsubmit]
  rcases findsSame_inputOf hcopy.read_jobFile task given with ⟨input, hs, hcopied⟩ | ⟨e, hs, hcopied⟩
  · refine ⟨fun e he => absurd (hs.symm.trans he) nofun, fun input' hinput => ?_⟩
    cases hs.symm.trans hinput
    rw [bind_of_ok hcopied]
    refine ⟨fun report hreport => ?_, fun places hgate => ⟨files, hcopy, ?_⟩⟩
    · obtain ⟨files', hrun, hsave⟩ :=
        exists_runAndKeepBy run now jobId (s := { s with files }) hready hreport
      exact ⟨_, hrun, rfl, hcopy.added hsave _⟩
    · rw [runAndKeepBy, bind_of_ok (onEngine_of_fst (s := { s with files }) hgate)]
      rfl
  · refine ⟨fun e' he => ?_, fun input hinput => absurd (hs.symm.trans hinput) nofun⟩
    cases hs.symm.trans he
    exact ⟨files, hcopy, bind_of_error hcopied _⟩

/-- The jobs are the same up to ids and times. -/
def SameButStamps (job job' : Job) : Prop :=
  job' = { job with id := job'.id, createdAt := job'.createdAt, updatedAt := job'.updatedAt }

theorem sameButStamps_jobOf (h : run.RunsAlike task task') (input : Data) (report : Report) :
    SameButStamps (jobOf now jobId task input report) (jobOf now' jobId' task' input report) := by
  simp only [SameButStamps, jobOf, h.name, h.description]

/-- Two submissions to a service come to the same error and leave its jobs alone, or they come to the same
report and add jobs that are the same up to ids and times. -/
inductive SameFate (s : Service) (taskId taskId' : Uuid) (task task' : Task) (jobId jobId' : Uuid) :
    EStateM.Result ChainError Service Submission → EStateM.Result ChainError Service Submission → Prop
  | refused {t t' : Service} (e : ChainError) (engine : t'.engine = t.engine) (jobs : s.SameJobs t)
      (jobs' : s.SameJobs t') : SameFate s taskId taskId' task task' jobId jobId' (.error e t) (.error e t')
  | done {t t' : Service} {job job' : Job} (report : Report) (engine : t'.engine = t.engine)
      (added : Added s taskId task job t) (added' : Added s taskId' task' job' t')
      (job_id : job.id = jobId) (job_id' : job'.id = jobId') (results : job.results = report.results)
      (jobs : SameButStamps job job') :
      SameFate s taskId taskId' task task' jobId jobId' (.ok ⟨jobId, report⟩ t) (.ok ⟨jobId', report⟩ t')

/-- Other ids and another time make no difference between the submissions of two tasks that are run alike. -/
theorem sameFate_submitBy_of_runsAlike (h : run.RunsAlike task task') (hready : s.store.Ready s.files)
    (now now' : Instant) (taskId taskId' jobId jobId' : Uuid) (given : Option Data) :
    SameFate s taskId taskId' task task' jobId jobId' (submitBy run now taskId jobId task given s)
      (submitBy run now' taskId' jobId' task' given s) := by
  cases hvalid : task.validate with
  | error why =>
    have hrefused : ∀ (t : Task) (now : Instant) (taskId jobId : Uuid), t.validate = .error why →
        submitBy run now taskId jobId t given s = .error (.structural (.invalid why)) s := by
      intro t now taskId jobId ht
      rw [submitBy, ht]
      rfl
    rw [hrefused task _ _ _ hvalid, hrefused task' _ _ _ (h.validate ▸ hvalid)]
    exact .refused _ rfl ⟨rfl, fun _ => rfl⟩ ⟨rfl, fun _ => rfl⟩
  | ok _ =>
    have hvalid' : task'.validate = .ok () := h.validate ▸ hvalid
    have hinputs : inputOf task' given = inputOf task given := by
      rw [inputOf, inputOf, h.initialInput?]
    obtain ⟨herror, hok⟩ := submitBy_of_ready run now taskId jobId given hready hvalid
    obtain ⟨herror', hok'⟩ := submitBy_of_ready run now' taskId' jobId' given hready hvalid'
    rw [hinputs] at herror' hok'
    rcases (looksOnly_inputOf task given).cases s with ⟨input, hinput⟩ | ⟨e, hinput⟩
    · obtain ⟨hreport, hgate⟩ := hok input hinput
      obtain ⟨hreport', hgate'⟩ := hok' input hinput
      have hrun := h.runTask input
      cases hr : (run.runTask task input s.engine).1 with
      | ok report =>
        obtain ⟨t, ht, hengine, hadded⟩ := hreport report hr
        obtain ⟨t', ht', hengine', hadded'⟩ := hreport' report (hrun ▸ hr)
        rw [ht, ht']
        refine .done report ?_ hadded hadded' rfl rfl rfl (sameButStamps_jobOf h input report)
        rw [hengine, hengine', hrun]
      | error fault =>
        cases fault with
        | invalid why => exact absurd hr (Runner.runTask_ne_invalid hvalid why)
        | gate places =>
          obtain ⟨files, hcopy, ht⟩ := hgate places hr
          obtain ⟨files', hcopy', ht'⟩ := hgate' places (hrun ▸ hr)
          rw [ht, ht', hrun]
          exact .refused _ rfl (hcopy.sameJobs _) (hcopy'.sameJobs _)
    · obtain ⟨files, hcopy, ht⟩ := herror e hinput
      obtain ⟨files', hcopy', ht'⟩ := herror' e hinput
      rw [ht, ht']
      exact .refused e rfl (hcopy.sameJobs _) (hcopy'.sameJobs _)

/-- **Other ids and another time** make no difference between the submissions of two tasks that differ in later
references. -/
theorem sameFate_submitBy (h : run.Blind) (hsame : task.SameButLater task') (hready : s.store.Ready s.files)
    (now now' : Instant) (taskId taskId' jobId jobId' : Uuid) (given : Option Data) :
    SameFate s taskId taskId' task task' jobId jobId' (submitBy run now taskId jobId task given s)
      (submitBy run now' taskId' jobId' task' given s) :=
  sameFate_submitBy_of_runsAlike (h.runsAlike hsame) hready now now' taskId taskId' jobId jobId' given

end Service

/-! ## Among other requests -/

/-- The request without later references. -/
def JobRequest.firstOnly : JobRequest → JobRequest
  | call (.submit now taskId jobId task given) => call (.submit now taskId jobId task.firstOnly given)
  | r => r

namespace JobStage

open Service (withoutCopies alike_onStore alike_onEngine alike_inputOf)

variable {run : Runner}

/-- The stage without later references. -/
def firstOnly : JobStage → JobStage
  | ready r => ready r.firstOnly
  | submitted now jobId task given => submitted now jobId task.firstOnly given
  | resolved now jobId task input => resolved now jobId task.firstOnly input
  | stage => stage

theorem alike_edit (e : Edit) (store : Store) :
    Alike (FileTree.emptied store.tasks) (e.draft store) (e.draft store) := by
  cases e with
  | save job reply => exact alike_pure job
  | enter now id report => exact (store.alike_getJob id).bind fun job => alike_pure _

/-- A listing takes up a job if it can read it. -/
theorem advance_listing (run : Runner) (name : String) (left : List String) (found : List Job) (s : Service) :
    (listing (name :: left) found).advance run s =
      match s.files.read (s.store.jobs ++ [name]) with
      | .ok text => .ok (listing left (found ++ (Job.codec.ofJson text).toOption.toList)) s
      | .error e => .error (.store (.file e)) s := by
  rw [advance, bind_of_ok (get_eq s)]
  cases hread : s.files.read (s.store.jobs ++ [name]) with
  | ok text =>
    rw [bind_of_ok (Service.onStore_look_of_ok (f := fun _ t => t.read (s.store.jobs ++ [name])) hread _)]
    cases hjob : Job.codec.ofJson text with
    | ok job =>
      simp only [hjob]
      rfl
    | error why =>
      simp only [hjob, Except.toOption, Option.toList_none, List.append_nil]
      rfl
  | error e =>
    exact bind_of_error
      (Service.onStore_look_of_error (f := fun _ t => t.read (s.store.jobs ++ [name])) hread _) _

theorem alike_listing (run : Runner) (name : String) (left : List String) (found : List Job) :
    Alike withoutCopies ((listing (name :: left) found).advance run)
      ((listing (name :: left) found).advance run) := by
  rintro ⟨engine, store, files⟩ ⟨engine', store', files'⟩ hview
  obtain ⟨rfl, rfl, hfiles⟩ := Service.withoutCopies_eq_iff.1 hview
  have hread : files.read (store.jobs ++ [name]) = files'.read (store.jobs ++ [name]) := by
    rw [← FileTree.read_emptied (store.dropLast_jobs_append name) files, hfiles,
      FileTree.read_emptied (store.dropLast_jobs_append name)]
  rw [advance_listing, advance_listing, hread]
  cases files'.read (store.jobs ++ [name]) <;> simp only [observed, hview]

/-- A step of a request is like that of the request without later references. -/
theorem alike_advance (h : run.Blind) (stage : JobStage) :
    Alike withoutCopies (firstOnly <$> stage.advance run) (firstOnly <$> stage.firstOnly.advance run) := by
  cases stage with
  | ready r =>
    cases r with
    | call c =>
      cases c with
      | upload now id input => exact (alike_pure _).map _
      | submit now taskId jobId task given =>
        simp only [firstOnly, JobRequest.firstOnly, advance, map_bind, map_pure, Task.validate_firstOnly,
          Task.firstOnly_firstOnly]
        exact (alike_ofExcept _).bind fun _ =>
          (alike_onStore (fun store => store.alike_saveTask taskId _ _) _).bind fun _ => alike_pure _
      | process now id calls =>
        exact ((alike_onStore (fun store => store.alike_jobInput id) _).bind fun input => alike_pure _).map _
    | get id => exact ((alike_onStore (fun store => store.alike_getJob id) _).bind fun job => alike_pure _).map _
    | list =>
      exact ((alike_onStore (fun store => StoreM.alike_recordNames store.dropLast_jobs) _).bind fun names =>
        alike_pure _).map _
  | submitted now jobId task given =>
    simp only [firstOnly, advance, map_bind, map_pure, Task.firstOnly_firstOnly]
    exact (alike_inputOf (Task.initialInput?_firstOnly task).symm given).bind fun input => alike_pure _
  | resolved now jobId task input =>
    have hrun : run.runTask task.firstOnly input = run.runTask task input :=
      h.runTask_eq (Task.bare_firstOnly task) input
    simp only [firstOnly, advance, hrun]
    refine ((alike_onEngine _).bind fun r => ?_).map _
    rcases r with (why | places) | report
    · exact alike_pure _
    · exact alike_throw _
    · exact alike_pure _
  | loaded now id calls input => exact ((alike_onEngine _).bind fun results => alike_pure _).map _
  | opening e => exact ((alike_onStore (fun store => store.alike_lock) _).bind fun _ => alike_pure _).map _
  | waiting e => exact (alike_pure _).map _
  | locked e => exact ((alike_onStore (alike_edit e) _).bind fun job => alike_pure _).map _
  | drafted e job =>
    exact ((alike_onStore (fun store => store.alike_writeBeside e.id _) _).bind fun _ => alike_pure _).map _
  | written e job =>
    exact ((alike_onStore (fun store => store.alike_putInPlace e.id) _).bind fun _ => alike_pure _).map _
  | placed e => exact ((alike_ofExcept _).bind fun reply => alike_pure _).map _
  | listing left found =>
    cases left with
    | nil => exact (alike_pure _).map _
    | cons name left => exact (alike_listing run name left found).map _
  | returned r => exact (alike_pure _).map _

/-! ### Steps and moves -/

@[simp] theorem isWaiting_firstOnly (stage : JobStage) : stage.firstOnly.isWaiting = stage.isWaiting := by
  cases stage <;> rfl

@[simp] theorem hasLock_firstOnly (stage : JobStage) : stage.firstOnly.hasLock = stage.hasLock := by
  cases stage <;> rfl

theorem puts?_firstOnly (stage next : JobStage) : stage.firstOnly.puts? next.firstOnly = stage.puts? next := by
  cases stage <;> cases next <;> rfl

theorem firstOnly_eq_returned_iff {stage : JobStage} {r : Except ChainError JobReply} :
    stage.firstOnly = returned r ↔ stage = returned r := by
  cases stage <;> simp [firstOnly]

/-- What is seen of a step: the stage it leads to, and the service then. -/
def afterStep : Except ChainError JobStage × Service → JobStage × Service
  | (.ok next, s) => (next, s)
  | (.error e, s) => (returned (.error e), s)

theorem afterStep_observed (run : Runner) (stage : JobStage) (s : Service) :
    afterStep (observed withoutCopies ((firstOnly <$> stage.advance run) s)) =
      ((stage.proceed run s).1.firstOnly, (stage.proceed run s).2.withoutCopies) := by
  rw [map_eq_pure_bind]
  cases h : stage.advance run s with
  | ok next t =>
    rw [bind_of_ok h, proceed, h]
    rfl
  | error e t =>
    rw [bind_of_error h, proceed, h]
    rfl

/-- Stages that are the same without later references go on to such stages. -/
theorem proceed_firstOnly (h : run.Blind) {stage stage' : JobStage} {s s' : Service}
    (hstage : stage.firstOnly = stage'.firstOnly) (hs : s.withoutCopies = s'.withoutCopies) :
    (stage.proceed run s).1.firstOnly = (stage'.proceed run s').1.firstOnly ∧
      (stage.proceed run s).2.withoutCopies = (stage'.proceed run s').2.withoutCopies := by
  have hobserved : observed withoutCopies ((firstOnly <$> stage.advance run) s) =
      observed withoutCopies ((firstOnly <$> stage'.advance run) s') := by
    rw [alike_advance h stage s s' hs, alike_advance h stage' s' s' rfl, hstage]
  have hafter := congrArg afterStep hobserved
  rw [afterStep_observed, afterStep_observed] at hafter
  exact Prod.mk.inj hafter

end JobStage

namespace JobTraffic

variable {runs : Nat → Runner} {t t' : JobTraffic}

/-- The traffic without later references and without what is in the copies of tasks. -/
def firstOnly (t : JobTraffic) : JobTraffic :=
  ⟨t.service.withoutCopies, t.stages.map JobStage.firstOnly, t.written⟩

theorem firstOnly_eq_iff : t.firstOnly = t'.firstOnly ↔
    t.service.withoutCopies = t'.service.withoutCopies ∧
      t.stages.map JobStage.firstOnly = t'.stages.map JobStage.firstOnly ∧ t.written = t'.written := by
  simp [firstOnly]

theorem move_of_stage {stage : JobStage} {i : Nat} (hi : t.stages[i]? = some stage)
    (hstage : ∀ r, stage ≠ .returned r) :
    t.move runs i =
      if stage.isWaiting && t.stages.any JobStage.hasLock then none
      else some ⟨(stage.proceed (runs i) t.service).2, t.stages.set i (stage.proceed (runs i) t.service).1,
        t.written ++ (stage.puts? (stage.proceed (runs i) t.service).1).toList⟩ := by
  rw [move, hi]
  cases stage with
  | returned r => exact absurd rfl (hstage r)
  | _ => dsimp only

theorem move_of_returned {r : Except ChainError JobReply} {i : Nat}
    (hi : t.stages[i]? = some (.returned r)) : t.move runs i = none := by
  rw [move, hi]

/-- A request moves where one can that is the same without later references, and both lead to traffic that
is the same. -/
theorem move_firstOnly (h : ∀ i, (runs i).Blind) (hsame : t.firstOnly = t'.firstOnly) (i : Nat) :
    (t.move runs i).map firstOnly = (t'.move runs i).map firstOnly := by
  obtain ⟨hservice, hstages, hwritten⟩ := firstOnly_eq_iff.1 hsame
  have hany : t.stages.any JobStage.hasLock = t'.stages.any JobStage.hasLock := by
    have hlock : ∀ stages : List JobStage,
        (stages.map JobStage.firstOnly).any JobStage.hasLock = stages.any JobStage.hasLock := by
      intro stages
      simp [List.any_map, Function.comp_def]
    rw [← hlock, hstages, hlock]
  have hat : t.stages[i]?.map JobStage.firstOnly = t'.stages[i]?.map JobStage.firstOnly := by
    rw [← List.getElem?_map, hstages, List.getElem?_map]
  cases hi : t.stages[i]? with
  | none =>
    rw [hi] at hat
    have hi' : t'.stages[i]? = none := Option.map_eq_none_iff.1 hat.symm
    simp only [move, hi, hi', Option.map_none]
  | some stage =>
    rw [hi] at hat
    obtain ⟨stage', hi', hstage⟩ := Option.map_eq_some_iff.1 hat.symm
    by_cases hreturned : ∃ r, stage = .returned r
    · obtain ⟨r, rfl⟩ := hreturned
      obtain rfl := JobStage.firstOnly_eq_returned_iff.1 hstage
      rw [move_of_returned hi, move_of_returned hi']
    · have hreturned' : ¬ ∃ r, stage' = .returned r := by
        rintro ⟨r, rfl⟩
        exact hreturned ⟨r, JobStage.firstOnly_eq_returned_iff.1 hstage.symm⟩
      rw [move_of_stage hi fun r hr => hreturned ⟨r, hr⟩, move_of_stage hi' fun r hr => hreturned' ⟨r, hr⟩]
      obtain ⟨hnext, hleft⟩ := JobStage.proceed_firstOnly (h i) hstage.symm hservice
      have hwaiting : stage.isWaiting = stage'.isWaiting := by
        rw [← JobStage.isWaiting_firstOnly stage, ← hstage, JobStage.isWaiting_firstOnly]
      rw [hwaiting, hany]
      split
      · rfl
      · simp only [Option.map_some, firstOnly, List.map_set, hnext, hleft, hstages, hwritten,
          ← JobStage.puts?_firstOnly stage, ← JobStage.puts?_firstOnly stage', ← hstage]

/-- **Among other requests.**  However requests move, traffic that is the same without later references stays
the same without them. -/
theorem after_firstOnly (h : ∀ i, (runs i).Blind) (hsame : t.firstOnly = t'.firstOnly) (turns : List Nat) :
    (t.after runs turns).map firstOnly = (t'.after runs turns).map firstOnly := by
  induction turns generalizing t t' with
  | nil => exact congrArg some hsame
  | cons i turns ih =>
    have hmove := move_firstOnly h hsame i
    rw [after, after, List.foldlM_cons, List.foldlM_cons]
    cases hm : t.move runs i with
    | none =>
      rw [hm] at hmove
      rw [Option.map_eq_none_iff.1 hmove.symm]
    | some t₁ =>
      rw [hm] at hmove
      obtain ⟨t₁', hm', hsame'⟩ := Option.map_eq_some_iff.1 hmove.symm
      rw [hm']
      exact ih hsame'.symm

theorem returned_iff_of_firstOnly (h : t.firstOnly = t'.firstOnly) (i : Nat) (r : Except ChainError JobReply) :
    t.stages[i]? = some (.returned r) ↔ t'.stages[i]? = some (.returned r) := by
  have hview : ∀ u : JobTraffic, u.stages[i]? = some (.returned r) ↔
      (u.stages.map JobStage.firstOnly)[i]? = some (.returned r) := by
    intro u
    simp [List.getElem?_map, JobStage.firstOnly_eq_returned_iff]
  rw [hview, hview, (firstOnly_eq_iff.1 h).2.1]

/-- Requests that are the same without later references come to the same replies in every order of moves, and
put the same jobs in place. -/
theorem exists_after_of_firstOnly (h : ∀ i, (runs i).Blind) {s s' : Service}
    (hs : s.withoutCopies = s'.withoutCopies) {requests requests' : List JobRequest}
    (hrequests : requests.map JobRequest.firstOnly = requests'.map JobRequest.firstOnly) {turns : List Nat}
    (ht : (begin_ s requests).after runs turns = some t) :
    ∃ t', (begin_ s' requests').after runs turns = some t' ∧
      t.service.withoutCopies = t'.service.withoutCopies ∧ t'.written = t.written ∧
      ∀ (i : Nat) (r : Except ChainError JobReply),
        t'.stages[i]? = some (JobStage.returned r) ↔ t.stages[i]? = some (JobStage.returned r) := by
  have hbegin : (begin_ s requests).firstOnly = (begin_ s' requests').firstOnly := by
    have hready := congrArg (List.map JobStage.ready) hrequests
    rw [List.map_map, List.map_map] at hready
    rw [firstOnly_eq_iff, begin_, begin_, List.map_map, List.map_map]
    exact ⟨hs, hready, rfl⟩
  have hafter := after_firstOnly h hbegin turns
  rw [ht] at hafter
  obtain ⟨t', ht', hsame⟩ := Option.map_eq_some_iff.1 hafter.symm
  obtain ⟨hservice, -, hwritten⟩ := firstOnly_eq_iff.1 hsame
  exact ⟨t', ht', hservice.symm, hwritten, returned_iff_of_firstOnly hsame⟩

end JobTraffic

/-! ## What references do -/

namespace Service

/-- **Only the reference of the first step counts.**  Two tasks that differ in the references of later steps are
submitted to the same end, on any disk, whatever plugins there are and on every schedule: the answers are the
same, and so is all that is left but the copies of the tasks.  With other ids and at another time the jobs are
the same up to these, and among other requests the replies are the same and the jobs that are put in place.
Two tasks that differ in any references are run alike, also as calls that overlap with others.  The later steps
that carry a reference are told by name in their order. -/
theorem only_first_reference_counts (task task' : Task) :
    (task.firstOnly = task'.firstOnly →
      (∀ s now taskId jobId given, observed withoutCopies (submit now taskId jobId task given s) =
        observed withoutCopies (submit now taskId jobId task' given s)) ∧
      (∀ eval changes turns now taskId jobId given,
        Alike withoutCopies (submitBy (.onSchedule eval changes turns) now taskId jobId task given)
          (submitBy (.onSchedule eval changes turns) now taskId jobId task' given)) ∧
      (∀ eval changes turns (s : Service), s.store.Ready s.files →
        ∀ now now' taskId taskId' jobId jobId' given, SameFate s taskId taskId' task task' jobId jobId'
          (submitBy (.onSchedule eval changes turns) now taskId jobId task given s)
          (submitBy (.onSchedule eval changes turns) now' taskId' jobId' task' given s)) ∧
      ∀ (eval : Nat → Nat → Evaluator) (changes : Nat → Nat → Registry → Registry) (turns : Nat → List Turn)
        (s : Service) (before behind : List JobRequest) (now : Instant) (taskId jobId : Uuid)
        (given : Option Data) (order : List Nat) (t : JobTraffic),
        (JobTraffic.begin_ s (before ++ .call (.submit now taskId jobId task given) :: behind)).after
          (fun i => .onSchedule (eval i) (changes i) (turns i)) order = some t →
        ∃ t', (JobTraffic.begin_ s (before ++ .call (.submit now taskId jobId task' given) :: behind)).after
            (fun i => .onSchedule (eval i) (changes i) (turns i)) order = some t' ∧
          t.service.withoutCopies = t'.service.withoutCopies ∧ t'.written = t.written ∧
          ∀ (i : Nat) (r : Except ChainError JobReply),
            t'.stages[i]? = some (.returned r) ↔ t.stages[i]? = some (.returned r)) ∧
    (task.bare = task'.bare →
      (∀ (e : Engine) (input : Data), e.runTask task input = e.runTask task' input) ∧
      ∀ (eval : Nat → Nat → Evaluator) (e : Engine) (before behind : List EngineCall) (input : Data)
        (turns : List OverlapTurn) (t : Overlap),
        (Overlap.begin_ e (before ++ .task task input :: behind)).after eval turns = some t →
        ∃ t', (Overlap.begin_ e (before ++ .task task' input :: behind)).after eval turns = some t' ∧
          t'.engine = t.engine ∧ ∀ (i : Nat) (reply : EngineReply),
            t'.phases[i]? = some (.returned reply) ↔ t.phases[i]? = some (.returned reply)) ∧
    (task.ignoredInputs = task.referringLater.filterMap fun i =>
      task.steps[i]?.map fun step => step.displayName i) ∧
    task.referringLater.Pairwise (· < ·) ∧
    ∀ i, i ∈ task.referringLater ↔ 0 < i ∧ ∃ step reference, task.steps[i]? = some step ∧
      step.input = some reference := by
  refine ⟨fun h => ?_, fun h => ⟨fun e input => ?_, ?_⟩, task.ignoredInputs_eq, task.pairwise_referringLater,
    task.mem_referringLater_iff⟩
  · have hsame := Task.sameButLater_of_firstOnly h
    have hblind := Runner.blind_onSchedule
    refine ⟨fun s now taskId jobId given => ?_,
      fun eval changes turns => alike_submitBy (hblind eval changes turns) hsame,
      fun eval changes turns s hready now now' taskId taskId' jobId jobId' given =>
        sameFate_submitBy (hblind eval changes turns) hsame hready now now' taskId taskId' jobId jobId' given,
      fun eval changes turns s before behind now taskId jobId given order t ht => ?_⟩
    · rw [← submitBy_ofEngine, ← submitBy_ofEngine]
      exact alike_submitBy (Runner.blind_ofEngine s.engine) hsame now taskId jobId given s s rfl
    · refine JobTraffic.exists_after_of_firstOnly (fun i => hblind _ _ _) rfl ?_ ht
      simp only [List.map_append, List.map_cons, JobRequest.firstOnly, h]
  · rw [← e.runTask_bare task, h, e.runTask_bare task']
  · intro eval e before behind input turns t ht
    refine Overlap.exists_after_of_bare ?_ ht
    simp only [List.map_append, List.map_cons, EngineCall.bare, h]

/-- A later reference to a job that there cannot be. -/
theorem only_first_reference_counts_nowhere :
    let first : Step := { plugin := "p" }
    let task : Task := ⟨"t", "", [first, { first with input := some (.job "nowhere") }], false⟩
    let plain : Task := ⟨"t", "", [first, first], false⟩
    let s := fresh default
    task.ignoredInputs = ["step_1"] ∧ plain.ignoredInputs = [] ∧
      observed withoutCopies (submit ⟨0, 0⟩ ⟨1⟩ ⟨2⟩ task (some .null) s) =
        observed withoutCopies (submit ⟨0, 0⟩ ⟨1⟩ ⟨2⟩ plain (some .null) s) ∧
      SameFate s ⟨1⟩ ⟨3⟩ task plain ⟨2⟩ ⟨4⟩
        (submitBy (.onSchedule (fun _ _ _ _ => .ok .null) (fun _ r => r) []) ⟨0, 0⟩ ⟨1⟩ ⟨2⟩ task none s)
        (submitBy (.onSchedule (fun _ _ _ _ => .ok .null) (fun _ r => r) []) ⟨5, 0⟩ ⟨3⟩ ⟨4⟩ plain none s) ∧
      s.engine.runTask task .null = s.engine.runTask plain .null := by
  intro first task plain s
  obtain ⟨hlater, hany, -⟩ := only_first_reference_counts task plain
  obtain ⟨hsubmit, -, hstamps, -⟩ := hlater rfl
  exact ⟨by decide +kernel, rfl, hsubmit s _ _ _ _, hstamps _ _ _ s (ready_fresh default) _ _ _ _ _ _ _,
    (hany rfl).1 _ _⟩

end Service

end PluginChain
