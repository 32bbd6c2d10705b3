import PluginChain.Task

/-!
# Chains of steps

In a chain each step works on what the step before it gave, and the first that fails is the last to
run.  `chain` leaves open what the execution of a step is, and in which state it takes place: the
plugins may change while a chain runs.

* `chain_eq_of_failed` and `chain_eq_of_ok` say how a chain goes on behind its first step.
-/

set_option autoImplicit false

namespace PluginChain

/-- What the execution of the step at an index, on an input, comes to. -/
abbrev StepRun (m : Type → Type) := Nat → Step → Data → m (Except StepFailure Data)

/-- The outcomes with that of the step at an index. -/
def Results.record (results : Results) (index : Nat) (step : Step) (r : Except StepFailure Data) :
    Results :=
  Entries.put (step.displayName index) (.ofExcept r) results

section Chain

variable {m : Type → Type} [Monad m]

/-- Runs the steps from an index on, and adds their outcomes to those there are. -/
def chain (execute : StepRun m) : Nat → List Step → Data → Results → m Results
  | _, [], _, results => pure results
  | index, step :: rest, input, results => do
    let r ← execute index step input
    match r with
    | .ok output => chain execute (index + 1) rest output (results.record index step r)
    | .error _ => pure (results.record index step r)

end Chain

theorem chain_eq_of_failed {execute : StepRun Id} {index : Nat} {step : Step} {input : Data}
    {f : StepFailure} (h : execute index step input = .error f) (rest : List Step)
    (results : Results) :
    chain (m := Id) execute index (step :: rest) input results =
      results.record index step (.error f) := by
  have h' : execute index step input = pure (.error f) := h
  simp only [chain, h', pure_bind]
  rfl

theorem chain_eq_of_ok {execute : StepRun Id} {index : Nat} {step : Step} {input output : Data}
    (h : execute index step input = .ok output) (rest : List Step) (results : Results) :
    chain (m := Id) execute index (step :: rest) input results =
      chain (m := Id) execute (index + 1) rest output (results.record index step (.ok output)) := by
  have h' : execute index step input = pure (.ok output) := h
  simp only [chain, h', pure_bind]

end PluginChain
