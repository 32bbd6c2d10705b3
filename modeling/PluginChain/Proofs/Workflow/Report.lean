import PluginChain.Proofs.Workflow.Schedule

/-!
# Reports are in order

However a task is run, its outcomes are entered one by one under the names of its steps, so that a
report has them in the order of these names, each name once.  The state it tells is that of a run with
just these outcomes (`Engine.report_runTask`).

A task that is valid comes to a report (`Engine.exists_report`), unless it is to run side by side and the
gate for that cannot be made.
-/

set_option autoImplicit false

namespace PluginChain

theorem Results.sorted_record {results : Results} (h : Entries.Sorted results) (index : Nat)
    (step : Step) (r : Except StepFailure Data) : Entries.Sorted (results.record index step r) :=
  h.put _ _

theorem sorted_chain (execute : StepRun (StateM Engine)) (index : Nat) (steps : List Step)
    (input : Data) {results : Results} (h : Entries.Sorted results) (e : Engine) :
    Entries.Sorted (chain execute index steps input results e).1 := by
  induction steps generalizing index input results e with
  | nil => exact h
  | cons step rest ih =>
    simp only [chain, bind, StateT.bind]
    generalize execute index step input e = run
    obtain ⟨r, e'⟩ := run
    cases r with
    | ok output => exact ih (index + 1) output (Results.sorted_record h index step _) e'
    | error f => exact Results.sorted_record h index step _

namespace FanOut

variable {eval : Nat → Evaluator} {steps : List Step} {input : Data} {s s' : FanOut} {m : Move}

theorem Moved.sorted (h : Moved eval steps input s m s') (hs : Entries.Sorted s.results) :
    Entries.Sorted s'.results := by
  cases h with
  | recorded worker step_eq => exact Results.sorted_record hs _ _ _
  | _ => exact hs

theorem sorted_run (e : Engine) (eval : Nat → Evaluator) (steps : List Step) (input : Data) :
    Entries.Sorted (run e eval steps input).results := by
  suffices h : ∀ (moves : List Move) (s : FanOut), Entries.Sorted s.results →
      Entries.Sorted (moves.foldl (tryMove eval steps input) s).results from
    h _ _ Entries.sorted_nil
  intro moves
  induction moves with
  | nil => exact fun s hs => hs
  | cons m moves ih =>
    intro s hs
    rw [List.foldl_cons]
    refine ih _ ?_
    rw [tryMove]
    cases hm : s.move eval steps input m with
    | none => exact hs
    | some s' => exact (moved_of_move hm).sorted hs

end FanOut

namespace Engine

/-- **A report has its outcomes in the order of their names**, and its state follows from them. -/
theorem report_runTask {e : Engine} {task : Task} {input : Data} {report : Report}
    (h : (e.runTask task input).1 = .ok report) :
    Entries.Sorted report.results ∧ report.status = .ofResults report.results := by
  rw [runTask, Task.run] at h
  split at h
  · cases h
  · split at h
    · change (runFanOut (fun _ => e.evaluator none) task.steps input e).1.map Report.ofResults =
        .ok report at h
      rw [runFanOut] at h
      split at h
      · cases h
      · cases h
        exact ⟨FanOut.sorted_run _ _ _ _, rfl⟩
    · cases h
      exact ⟨sorted_chain _ _ _ _ Entries.sorted_nil _, rfl⟩

/-- A task that is valid comes to a report, if there can be a gate for it. -/
theorem exists_report (e : Engine) {task : Task} (hvalid : task.validate = .ok ())
    (hgate : task.parallel = true → e.maxParallel ≤ gateLimit) (input : Data) :
    ∃ report, (e.runTask task input).1 = .ok report := by
  rw [runTask, Task.run, hvalid]
  cases hparallel : task.parallel with
  | false => exact ⟨_, rfl⟩
  | true =>
    refine ⟨.ofResults (FanOut.run e (fun _ => e.evaluator none) task.steps input).results, ?_⟩
    change (runFanOut (fun _ => e.evaluator none) task.steps input e).1.map Report.ofResults = _
    rw [runFanOut, if_neg (Nat.not_lt.2 (hgate hparallel))]
    rfl

/-- Where there can be no gate for it, a task that is valid does not begin. -/
theorem runTask_of_no_gate (e : Engine) {task : Task} (hvalid : task.validate = .ok ())
    (hparallel : task.parallel = true) (hgate : gateLimit < e.maxParallel) (input : Data) :
    e.runTask task input = (.error (.gate e.maxParallel), e) := by
  have hrun : runFanOut (fun _ => e.evaluator none) task.steps input e = (.error (.gate e.maxParallel), e) :=
    if_pos hgate
  rw [runTask, Task.run, hvalid]
  simp only [hparallel, if_true, bind, StateT.bind, StateT.run, hrun]
  rfl

/-- Of a task that is valid there is a report just if there can be a gate where it needs one. -/
theorem exists_report_iff (e : Engine) {task : Task} (hvalid : task.validate = .ok ()) (input : Data) :
    (∃ report, (e.runTask task input).1 = .ok report) ↔ (task.parallel = true → e.maxParallel ≤ gateLimit) := by
  refine ⟨fun ⟨report, hreport⟩ hparallel => ?_, fun hgate => e.exists_report hvalid hgate input⟩
  by_contra hwide
  rw [e.runTask_of_no_gate hvalid hparallel (Nat.not_le.1 hwide)] at hreport
  cases hreport

/-- A task that is valid is never found to be invalid when it is run. -/
theorem runTask_ne_invalid (e : Engine) {task : Task} (hvalid : task.validate = .ok ()) (input : Data)
    (why : TaskError) : (e.runTask task input).1 ≠ .error (.invalid why) := by
  by_cases hgate : task.parallel = true → e.maxParallel ≤ gateLimit
  · obtain ⟨report, hreport⟩ := e.exists_report hvalid hgate input
    rw [hreport]
    exact nofun
  · obtain ⟨hparallel, hwide⟩ := Classical.not_imp.1 hgate
    rw [e.runTask_of_no_gate hvalid hparallel (Nat.not_le.1 hwide)]
    exact nofun

end Engine

end PluginChain
