import PluginChain.Proofs.Workflow.Schedule

/-!
# Changes of steps that no run notices

All that a run asks of a step is what it is called, which plugin it names and with which parameters.  A
change of steps that leaves these three alone is `Step.Unnoticed`: where it is made in every step of a task,
the run does the same as before, in a chain (`Unnoticed.chain_eq`), side by side on any schedule
(`Unnoticed.after_eq`), and on an engine (`Unnoticed.runTask_eq`).
-/

set_option autoImplicit false

namespace PluginChain

/-- The change leaves alone what a run asks of a step. -/
structure Step.Unnoticed (f : Step → Step) : Prop where
  displayName : ∀ step index, (f step).displayName index = step.displayName index
  pluginName : ∀ step index, (f step).pluginName index = step.pluginName index
  paramsData : ∀ step, (f step).paramsData = step.paramsData

/-- The task with a change made in each step. -/
def Task.mapSteps (f : Step → Step) (task : Task) : Task := { task with steps := task.steps.map f }

@[simp] theorem Task.validate_mapSteps (f : Step → Step) (task : Task) :
    (task.mapSteps f).validate = task.validate := by
  simp [validate, mapSteps]

namespace Step.Unnoticed

variable {f : Step → Step} (h : Unnoticed f)
include h

theorem record_eq (results : Results) (index : Nat) (step : Step) (r : Except StepFailure Data) :
    results.record index (f step) r = results.record index step r := by
  rw [Results.record, Results.record, h.displayName]

/-! ## Chains -/

/-- A chain does the same if each of its steps does. -/
theorem chain_eq {m : Type → Type} [Monad m] {execute : StepRun m}
    (hstep : ∀ index step input, execute index (f step) input = execute index step input)
    (index : Nat) (steps : List Step) (input : Data) (results : Results) :
    chain execute index (steps.map f) input results = chain execute index steps input results := by
  induction steps generalizing index input results with
  | nil => rfl
  | cons step rest ih => simp only [List.map_cons, chain, hstep, h.record_eq, ih]

theorem runStep_eq (eval : Nat → Evaluator) (index : Nat) (step : Step) (input : Data) :
    Engine.runStep eval index (f step) input = Engine.runStep eval index step input := by
  rw [Engine.runStep, Engine.runStep, h.pluginName, h.paramsData]

/-! ## Steps side by side -/

omit h in
theorem begin_eq (f : Step → Step) (e : Engine) (steps : List Step) :
    FanOut.begin_ e (steps.map f) = FanOut.begin_ e steps := by
  simp [FanOut.begin_, Function.comp_def]

variable (eval : Nat → Evaluator) (steps : List Step) (input : Data)

theorem move_eq (s : FanOut) (m : Move) : s.move eval (steps.map f) input m = s.move eval steps input m := by
  cases m with
  | enter i => rfl
  | start i | finish i | record i =>
    rw [FanOut.move, FanOut.move, List.getElem?_map]
    cases s.workers[i]? with
    | none => rfl
    | some w =>
      cases steps[i]? <;> cases w <;>
        simp only [Option.map_none, Option.map_some, h.pluginName, h.paramsData, h.record_eq]

theorem turn_eq (s : FanOut) (t : Turn) : s.turn eval (steps.map f) input t = s.turn eval steps input t := by
  cases t with
  | move m => exact h.move_eq eval steps input s m
  | change r => rfl

/-- **A schedule leads to the same.** -/
theorem after_eq (s : FanOut) (turns : List Turn) :
    s.after eval (steps.map f) input turns = s.after eval steps input turns := by
  rw [FanOut.after, FanOut.after]
  exact congrArg (fun g => turns.foldlM g s)
    (funext fun s => funext fun t => h.turn_eq eval steps input s t)

theorem run_eq (e : Engine) : FanOut.run e eval (steps.map f) input = FanOut.run e eval steps input := by
  simp only [FanOut.run, List.length_map, begin_eq]
  refine congrArg (fun g => List.foldl g _ _) (funext fun s => funext fun m => ?_)
  rw [FanOut.tryMove, FanOut.tryMove, h.move_eq]

theorem runFanOut_eq : Engine.runFanOut eval (steps.map f) input = Engine.runFanOut eval steps input := by
  funext e
  simp only [Engine.runFanOut, h.run_eq]

/-! ## Tasks -/

omit eval steps in
/-- A task is run as before, if its steps are. -/
theorem run_mapSteps {m : Type → Type} [Monad m] {execute : StepRun m}
    {sideBySide : List Step → Data → m (Except RunFault Results)}
    (hstep : ∀ index step input, execute index (f step) input = execute index step input)
    (hall : ∀ steps input, sideBySide (steps.map f) input = sideBySide steps input) (task : Task) :
    (task.mapSteps f).run execute sideBySide input = task.run execute sideBySide input := by
  rw [Task.run, Task.run, Task.validate_mapSteps]
  simp only [Task.mapSteps, hall, h.chain_eq hstep]

omit eval steps in
/-- **An engine runs a task as before.** -/
theorem runTask_eq (e : Engine) (task : Task) : e.runTask (task.mapSteps f) input = e.runTask task input := by
  rw [Engine.runTask, Engine.runTask, h.run_mapSteps input (h.runStep_eq _) (h.runFanOut_eq _)]

end Step.Unnoticed

end PluginChain
