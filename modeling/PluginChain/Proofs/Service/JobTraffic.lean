import PluginChain.Proofs.Service.Records
import PluginChain.Proofs.Service.Submission

/-!
# Requests about jobs that overlap

Requests about jobs may be under way at the same time.  A `JobStage` is how far one of them got, and
`JobStage.advance` brings it one step further.  What changes a job is an `Edit`, which is carried out
behind the lock of the store: the lock is opened and waited for, the job is drafted, written to a file
beside its own and put in place.  Between two of these steps any other request may move, and only those
that wait for the lock have to wait.  Who looks at jobs takes no lock, and the input of a job that is
processed is read long before the outcomes are entered.

What plugins do is left open: the run of each request has a `Runner` of its own, so that nothing depends
on which plugins there are, what they give, or the order in which steps are done.

* `JobTraffic` is a service with requests that are under way, and `JobTraffic.after` lets them move in an
  order that is given.
* A request that nothing comes between does what the operation of the service does (`upload_eq_steps`,
  `submit_eq_steps`, `process_eq_steps`, `get_eq_steps`, `list_eq_steps`).
-/

set_option autoImplicit false

namespace PluginChain

open Operation

/-- A request that changes jobs or looks at them. -/
inductive JobRequest
  | call (c : Service.JobCall)
  | get (id : Uuid)
  | list

/-- What a request gives. -/
inductive JobReply
  | job (job : Job)
  | submission (sub : Service.Submission)
  | report (r : Report)
  | jobs (js : List Job)

/-! ## Runs -/

/-- What plugins do in a run. -/
structure Runner where
  step : StepRun (StateM Engine)
  sideBySide : List Step → Data → StateM Engine (Except RunFault Results)
  calls : List Invocation → Data → StateM Engine Results
  /-- Steps that run side by side may lack a gate, but they are not asked whether their task is valid. -/
  ne_invalid : ∀ steps input e why, (sideBySide steps input e).1 ≠ .error (.invalid why)

namespace Runner

def runTask (run : Runner) (task : Task) (input : Data) : StateM Engine (Except RunFault Report) :=
  task.run run.step run.sideBySide input

/-- The plugins of an engine. -/
def ofEngine (e : Engine) : Runner where
  step := Engine.runStep fun _ => e.evaluator none
  sideBySide := Engine.runFanOut fun _ => e.evaluator none
  calls calls input := Service.callAll (e.evaluator none) calls input []
  ne_invalid steps input e' why := by
    rw [Engine.runFanOut]
    split <;> exact nofun

variable {run : Runner} {task : Task} {input : Data} {e : Engine}

theorem runTask_ofEngine (e : Engine) (task : Task) (input : Data) :
    (ofEngine e).runTask task input e = e.runTask task input := by
  simp only [runTask, Engine.runTask, StateT.run, ofEngine]

/-- The state of a report is that of its outcomes, whatever plugins do. -/
theorem status_runTask {report : Report} (h : (run.runTask task input e).1 = .ok report) :
    report.status = .ofResults report.results := by
  rw [runTask, Task.run] at h
  cases hvalid : task.validate with
  | error why =>
    rw [hvalid] at h
    cases h
  | ok u =>
    rw [hvalid] at h
    cases hparallel : task.parallel with
    | false =>
      rw [hparallel] at h
      cases h
      rfl
    | true =>
      rw [hparallel] at h
      change (run.sideBySide task.steps input e).1.map Report.ofResults = .ok report at h
      cases hr : (run.sideBySide task.steps input e).1 with
      | ok results =>
        rw [hr] at h
        cases h
        rfl
      | error fault =>
        rw [hr] at h
        cases h

/-- A task that is valid is never found to be invalid, whatever plugins do. -/
theorem runTask_ne_invalid (hvalid : task.validate = .ok ()) (why : TaskError) :
    (run.runTask task input e).1 ≠ .error (.invalid why) := by
  rw [runTask, Task.run, hvalid]
  cases task.parallel with
  | false =>
    intro h
    cases h
  | true =>
    change (run.sideBySide task.steps input e).1.map Report.ofResults ≠ _
    have hne := run.ne_invalid task.steps input e why
    cases hr : (run.sideBySide task.steps input e).1 with
    | ok results =>
      intro h
      cases h
    | error fault =>
      rw [hr] at hne
      exact fun h => hne (congrArg Except.error (Except.error.inj h))

end Runner

/-! ## Edits -/

/-- A change of a job: one that is saved as it is, or a report that is entered. -/
inductive Edit
  | save (job : Job) (reply : Except ChainError JobReply)
  | enter (now : Instant) (id : Uuid) (report : Report)

namespace Edit

/-- The job that is changed. -/
def id : Edit → Uuid
  | save job _ => job.id
  | enter _ id _ => id

/-- What the request gives when the job is in place. -/
def reply : Edit → Except ChainError JobReply
  | save _ reply => reply
  | enter _ _ report => .ok (.report report)

/-- The job as it will be. -/
def draft (store : Store) : Edit → StoreM Job
  | save job _ => return job
  | enter now id report => return Store.withRun (← store.getJob id) now report.results report.status

/-- The operation of the store that makes the change. -/
def carryOut (store : Store) : Edit → StoreM Unit
  | save job _ => store.saveJob job
  | enter now id report => store.updateJob now id report.results report.status

end Edit

/-- How far a request got. -/
inductive JobStage
  | ready (r : JobRequest)
  /-- A copy of the task is kept. -/
  | submitted (now : Instant) (jobId : Uuid) (task : Task) (given : Option Data)
  | resolved (now : Instant) (jobId : Uuid) (task : Task) (input : Data)
  | loaded (now : Instant) (id : Uuid) (calls : List Invocation) (input : Data)
  | opening (e : Edit)
  /-- Waiting for the lock. -/
  | waiting (e : Edit)
  | locked (e : Edit)
  | drafted (e : Edit) (job : Job)
  /-- The job stands beside its file. -/
  | written (e : Edit) (job : Job)
  | placed (e : Edit)
  | listing (left : List String) (found : List Job)
  | returned (r : Except ChainError JobReply)

namespace JobStage

/-- The next step of a request. -/
def advance (run : Runner) : JobStage → ServiceM JobStage
  | ready (.call (.upload now id input)) =>
    let job := Job.uploaded id now input
    return opening (.save job (.ok (.job job)))
  | ready (.call (.submit now taskId jobId task given)) => do
    ofExcept (task.validate.mapError fun e => .structural (.invalid e))
    Service.onStore fun store => store.saveTask taskId task
    return submitted now jobId task given
  | submitted now jobId task given => do
    return resolved now jobId task (← Service.inputOf task given)
  | resolved now jobId task input => do
    let job := Job.forTask jobId now task.name task.description input
    match ← Service.onEngine (run.runTask task input) with
    | .ok report =>
      let done := job.applyResults now report.results report.status
      return opening (.save done (.ok (.submission ⟨jobId, report⟩)))
    | .error (.invalid e) =>
      let error := ChainError.structural (.invalid e)
      return opening (.save (job.markFailed now error.message) (.error error))
    | .error f => throw (.ofRunFault f)
  | ready (.call (.process now id calls)) => do
    return loaded now id calls (← Service.onStore (fun store => store.jobInput id) (Service.jobError .noJob))
  | loaded now id calls input => do
    return opening (.enter now id (.ofResults (← Service.onEngine (run.calls calls input))))
  | opening e => do
    Service.onStore fun store => StoreM.perform [store.lock]
    return waiting e
  | waiting e => return locked e
  | locked e => do
    return drafted e (← Service.onStore fun store => e.draft store)
  | drafted e job => do
    Service.onStore fun store =>
      StoreM.perform [.write (StoreM.besideOf (store.jobFile e.id)) (Job.codec.toJson job)]
    return written e job
  | written e _ => do
    Service.onStore fun store =>
      StoreM.perform [.rename (StoreM.besideOf (store.jobFile e.id)) (store.jobFile e.id)]
    return placed e
  | placed e => do
    return returned (.ok (← ofExcept e.reply))
  | ready (.get id) => do
    return returned (.ok (.job (← Service.getJob id)))
  | ready .list => do
    let names ← Service.onStore fun store => StoreM.look fun t => StoreM.recordNames t store.jobs
    return listing names []
  | listing [] found =>
    return returned (.ok (.jobs (found.mergeSort fun a b => (b.createdAt.compare a.createdAt).isLE)))
  | listing (name :: left) found => do
    let file := (← get).store.jobs ++ [name]
    let text ← Service.onStore fun _ => StoreM.look fun t => t.read file
    match Job.codec.ofJson text with
    | .ok job => return listing left (found ++ [job])
    | .error _ => return listing left found
  | returned r => return returned r

/-- The stage after a step, and the service then.  A step that fails is the last of its request. -/
def proceed (run : Runner) (stage : JobStage) (s : Service) : JobStage × Service :=
  match stage.advance run s with
  | .ok next s => (next, s)
  | .error e s => (returned (.error e), s)

theorem snd_proceed (run : Runner) (stage : JobStage) (s : Service) :
    (stage.proceed run s).2 = stateOf (stage.advance run s) := by
  rw [proceed]
  cases stage.advance run s <;> rfl

def isReturned : JobStage → Bool
  | returned _ => true
  | _ => false

def isWaiting : JobStage → Bool
  | waiting _ => true
  | _ => false

def hasLock : JobStage → Bool
  | locked _ | drafted _ _ | written _ _ | placed _ => true
  | _ => false

/-- The job that is put in place by the step between two stages. -/
def puts? : JobStage → JobStage → Option Job
  | written _ job, placed _ => some job
  | _, _ => none

end JobStage

/-- A service with requests under way. -/
structure JobTraffic where
  service : Service
  stages : List JobStage
  /-- All jobs that were put in place. -/
  written : List Job

namespace JobTraffic

def begin_ (s : Service) (requests : List JobRequest) : JobTraffic := ⟨s, requests.map .ready, []⟩

/-- A step of the request at an index, if it can move. -/
def move (runs : Nat → Runner) (t : JobTraffic) (i : Nat) : Option JobTraffic :=
  match t.stages[i]? with
  | none | some (.returned _) => none
  | some stage =>
    if stage.isWaiting && t.stages.any JobStage.hasLock then none
    else
      let (next, service) := stage.proceed (runs i) t.service
      some ⟨service, t.stages.set i next, t.written ++ (stage.puts? next).toList⟩

/-- The requests moving in an order, if each of them can. -/
def after (runs : Nat → Runner) (t : JobTraffic) (turns : List Nat) : Option JobTraffic :=
  turns.foldlM (move runs) t

end JobTraffic

/-! ## Requests that nothing comes between -/

theorem StoreM.perform_cons_eq (c : Change) (rest : List Change) :
    perform (c :: rest) = perform [c] >>= fun _ => perform rest := by
  funext t
  cases hc : c.apply t with
  | ok t' => rw [perform_cons_of_ok hc, bind_of_ok (perform_cons_of_ok hc)]
  | error e => rw [perform_cons_of_error hc, bind_of_error (perform_cons_of_error hc)]

theorem Edit.carryOut_eq (store : Store) (e : Edit) :
    e.carryOut store = (do
      StoreM.perform [store.lock]
      let job ← e.draft store
      StoreM.perform [.write (StoreM.besideOf (store.jobFile e.id)) (Job.codec.toJson job)]
      StoreM.perform [.rename (StoreM.besideOf (store.jobFile e.id)) (store.jobFile e.id)]) := by
  cases e with
  | save job reply =>
    rw [carryOut, Store.saveJob, StoreM.writeRecord, StoreM.recordChanges,
      StoreM.perform_cons_eq (.write _ _)]
    rfl
  | enter now id report =>
    simp only [carryOut, Store.updateJob, StoreM.writeRecord, StoreM.recordChanges, draft, bind_assoc,
      pure_bind]
    refine bind_congr fun _ => bind_congr fun job => ?_
    rw [StoreM.perform_cons_eq]
    rfl

namespace JobStage

open Service (onStore_bind get_bind_const)

variable {run : Runner}

/-- An edit is the operation of the store, step by step. -/
theorem edit_eq_steps (run : Runner) (e : Edit) :
    repeated (advance run) 6 (opening e) = (do
      Service.onStore fun store => e.carryOut store
      return returned (.ok (← ofExcept e.reply))) := by
  simp only [repeated, advance, Edit.carryOut_eq, onStore_bind, bind_assoc, pure_bind]

theorem upload_eq_steps (run : Runner) (now : Instant) (id : Uuid) (input : Data) :
    (fun job => returned (.ok (.job job))) <$> Service.upload now id input =
      repeated (advance run) 7 (ready (.call (.upload now id input))) := by
  rw [repeated, advance, pure_bind, edit_eq_steps, Service.upload, map_eq_pure_bind, bind_assoc]
  rfl

/-- With the plugins of the engine the run of a task and what is made of it are as in the service. -/
theorem runAndKeep_eq_steps (now : Instant) (jobId : Uuid) (task : Task) (input : Data) (s : Service) :
    ((fun sub => returned (.ok (.submission sub))) <$> Service.runAndKeep now jobId task input) s =
      repeated (advance (.ofEngine s.engine)) 7 (resolved now jobId task input) s := by
  rw [repeated, advance, Service.runAndKeep, map_eq_pure_bind, bind_assoc, bind_assoc]
  have hengine : Service.onEngine ((Runner.ofEngine s.engine).runTask task input) s =
      Service.onEngine (fun e => e.runTask task input) s := by
    rw [Service.onEngine, Service.onEngine, Runner.runTask_ofEngine]
  cases hrun : Service.onEngine (fun e => e.runTask task input) s with
  | error e s' => rw [bind_of_error hrun, bind_of_error (hengine.trans hrun)]
  | ok r s' =>
    rw [bind_of_ok hrun, bind_of_ok (hengine.trans hrun)]
    cases r with
    | ok report =>
      simp only [pure_bind, edit_eq_steps, bind_assoc]
      rfl
    | error fault =>
      cases fault with
      | invalid why =>
        simp only [pure_bind, edit_eq_steps, bind_assoc]
        rfl
      | gate places => rfl

theorem submit_eq_steps (now : Instant) (taskId jobId : Uuid) (task : Task) (given : Option Data)
    (s : Service) :
    ((fun sub => returned (.ok (.submission sub))) <$> Service.submit now taskId jobId task given) s =
      repeated (advance (.ofEngine s.engine)) 9 (ready (.call (.submit now taskId jobId task given))) s := by
  cases hvalid : task.validate with
  | error why =>
    rw [map_eq_pure_bind, bind_of_error (Service.submit_of_invalid hvalid), repeated, advance, hvalid]
    rfl
  | ok u =>
    have hpass : ofExcept (task.validate.mapError fun e => ChainError.structural (.invalid e)) =
        (pure () : ServiceM Unit) := by
      rw [hvalid]
      rfl
    rw [Service.submit_of_valid hvalid, map_eq_pure_bind, repeated, advance, hpass]
    simp only [bind_assoc, pure_bind]
    refine bind_congr_ok fun _ s₁ hsave => ?_
    obtain ⟨files, -, rfl⟩ := Service.onStore_eq_ok hsave
    rw [repeated, advance, bind_assoc]
    refine bind_congr_ok fun input s₂ hinput => ?_
    obtain rfl := (Service.looksOnly_inputOf task given).ok hinput
    rw [pure_bind, ← map_eq_pure_bind]
    exact runAndKeep_eq_steps now jobId task input { s with files }

theorem process_eq_steps (now : Instant) (id : Uuid) (calls : List Invocation) (s : Service) :
    ((fun report => returned (.ok (.report report))) <$> Service.process now id calls) s =
      repeated (advance (.ofEngine s.engine)) 8 (ready (.call (.process now id calls))) s := by
  rw [Service.process, map_eq_pure_bind, repeated, advance]
  simp only [bind_assoc]
  refine bind_congr_ok fun input s₁ hinput => ?_
  obtain ⟨rfl, -⟩ := Service.onStore_jobInput_eq_ok_iff.1 hinput
  rw [pure_bind, repeated, advance, bind_assoc]
  simp only [pure_bind, edit_eq_steps]
  rfl

theorem get_eq_steps (run : Runner) (id : Uuid) :
    (fun job => returned (.ok (.job job))) <$> Service.getJob id =
      repeated (advance run) 1 (ready (.get id)) := by
  rw [repeated, advance, map_eq_pure_bind, bind_assoc]
  rfl

theorem readsNext_listing (run : Runner) :
    Service.ReadsNext listing Store.jobs (fun _ _ job => job) Job.codec (advance run) := by
  intro name left found
  rw [advance]
  refine bind_congr fun s => bind_congr fun text => ?_
  cases Job.codec.ofJson text <;> rfl

/-- How many steps it takes to list the jobs depends on the files there are. -/
theorem list_eq_steps (run : Runner) (s : Service) :
    ∃ n, ((fun js => returned (.ok (.jobs js))) <$> Service.listJobs) s =
      repeated (advance run) n (ready .list) s := by
  have hread := Service.repeated_records (c := Job.codec) (f := advance run) (ready .list) listing
    Store.jobs (fun job => job) (fun _ _ job => job) (fun _ _ _ => rfl) rfl (readsNext_listing run) s
  cases hrecords : StoreM.readRecords Job.codec s.store.jobs s.files with
  | error e files =>
    rw [hrecords] at hread
    obtain ⟨rfl, n, hsteps⟩ := hread
    have hlist : s.store.listJobs s.files = .error e s.files := bind_of_error hrecords _
    have hjobs : Service.listJobs s = .error (.store e) s :=
      Service.onStore_of_error (f := Store.listJobs) hlist .store
    exact ⟨n, by rw [map_eq_pure_bind, bind_of_error hjobs, hsteps]⟩
  | ok records files =>
    rw [hrecords] at hread
    obtain ⟨rfl, n, found, rfl, hsteps⟩ := hread
    have hlist : s.store.listJobs s.files =
        .ok (found.mergeSort fun a b => (b.createdAt.compare a.createdAt).isLE) s.files := by
      rw [Store.listJobs, bind_of_ok hrecords, List.map_id']
      rfl
    have hjobs : Service.listJobs s = _ := Service.onStore_of_ok (f := Store.listJobs) hlist .store
    refine ⟨n + 1, ?_⟩
    rw [map_eq_pure_bind, bind_of_ok hjobs, repeated_add, bind_of_ok hsteps]
    rfl

end JobStage

end PluginChain
