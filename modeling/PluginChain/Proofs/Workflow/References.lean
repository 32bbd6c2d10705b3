import PluginChain.Proofs.Workflow.Overlap
import PluginChain.Proofs.Workflow.Unnoticed

/-!
# References of steps and runs

A step may carry a reference to the input that it wants.  No run looks at it: a run cannot tell the step
from that without its reference (`Step.bare`, `Step.unnoticed_bare`).

So a run does the same with bare steps, alone and as one of many calls that overlap while plugins come and
go (`Overlap.after_bare`).  Tasks from which the same is left without references are therefore run alike
(`Overlap.exists_after_of_bare`).

What is made of references that do not count is a list of names (`Task.ignoredInputs_eq`).
-/

set_option autoImplicit false

namespace PluginChain

/-! ## Without references -/

/-- The step without its reference. -/
def Step.bare (step : Step) : Step := { step with input := none }

@[simp] theorem Step.displayName_bare (step : Step) (index : Nat) :
    step.bare.displayName index = step.displayName index := rfl

@[simp] theorem Step.pluginName_bare (step : Step) (index : Nat) :
    step.bare.pluginName index = step.pluginName index := rfl

@[simp] theorem Step.paramsData_bare (step : Step) : step.bare.paramsData = step.paramsData := rfl

@[simp] theorem Step.bare_bare (step : Step) : step.bare.bare = step.bare := rfl

/-- The task without any references. -/
def Task.bare (task : Task) : Task := { task with steps := task.steps.map Step.bare }

@[simp] theorem Task.steps_bare (task : Task) : task.bare.steps = task.steps.map Step.bare := rfl

@[simp] theorem Task.validate_bare (task : Task) : task.bare.validate = task.validate := by
  simp [validate, bare]

/-! ## Runs -/

/-- **No run looks at references.** -/
theorem Step.unnoticed_bare : Unnoticed bare := ⟨fun _ _ => rfl, fun _ _ => rfl, fun _ => rfl⟩

@[simp] theorem FanOut.move_bare (eval : Nat → Evaluator) (steps : List Step) (input : Data) (s : FanOut)
    (m : Move) : s.move eval (steps.map Step.bare) input m = s.move eval steps input m :=
  Step.unnoticed_bare.move_eq eval steps input s m

/-- An engine runs a task as without its references. -/
theorem Engine.runTask_bare (e : Engine) (task : Task) (input : Data) :
    e.runTask task.bare input = e.runTask task input :=
  Step.unnoticed_bare.runTask_eq input e task

/-! ## Calls that overlap -/

/-- The call without the references of its task. -/
def EngineCall.bare : EngineCall → EngineCall
  | .task t input => .task t.bare input
  | .plugin run => .plugin run

namespace RunPhase

/-- The phase without the references of the steps that are left. -/
def bare : RunPhase → RunPhase
  | ready call => ready call.bare
  | running run p => running run p
  | between index left current results => between index (left.map Step.bare) current results
  | within index step left current results p =>
    within index step.bare (left.map Step.bare) current results p
  | sideBySide steps input gate workers results =>
    sideBySide (steps.map Step.bare) input gate workers results
  | returned reply => returned reply

section

variable (index : Nat) (step : Step) (steps left : List Step) (input current : Data) (results : Results)

@[simp] theorem bare_ready (call : EngineCall) : (ready call).bare = ready call.bare := rfl

@[simp] theorem bare_between : (between index left current results).bare =
    between index (left.map Step.bare) current results := rfl

@[simp] theorem bare_within (p : CompiledPlugin) : (within index step left current results p).bare =
    within index step.bare (left.map Step.bare) current results p := rfl

@[simp] theorem bare_sideBySide (gate : Gate) (workers : List Worker) :
    (sideBySide steps input gate workers results).bare =
      sideBySide (steps.map Step.bare) input gate workers results := rfl

@[simp] theorem bare_returned (reply : EngineReply) : (returned reply).bare = returned reply := rfl

@[simp] theorem bare_stepped (r : Except StepFailure Data) :
    (stepped index step left current results r).bare =
      stepped index step.bare (left.map Step.bare) current results r := by
  cases r <;> rfl

end

theorem bare_eq_returned_iff {phase : RunPhase} {reply : EngineReply} :
    phase.bare = returned reply ↔ phase = returned reply := by
  cases phase <;> simp [bare]

variable (eval : Nat → Evaluator) (e : Engine)

/-- A phase goes on as without references. -/
theorem proceed_bare (phase : RunPhase) :
    phase.bare.proceed eval e = (phase.proceed eval e).map fun next => (next.1.bare, next.2) := by
  cases phase with
  | ready call =>
    cases call with
    | task t input =>
      simp only [bare_ready, EngineCall.bare, proceed, Task.validate_bare]
      cases t.validate with
      | error why => rfl
      | ok _ =>
        change (if t.parallel then _ else _) = _
        cases t.parallel with
        | false => rfl
        | true => by_cases hgate : Engine.gateLimit < e.maxParallel <;> simp [hgate, Function.comp_def]
    | plugin run =>
      simp only [bare_ready, EngineCall.bare, proceed]
      cases e.start run.name <;> rfl
  | running run p => rfl
  | between index left current results =>
    cases left with
    | nil => rfl
    | cons step left =>
      simp only [bare_between, List.map_cons, proceed, Step.pluginName_bare]
      cases step.pluginName index with
      | error f => rfl
      | ok name => cases hstart : e.start name <;> simp [hstart]
  | within index step left current results p => simp [proceed]
  | sideBySide steps input gate workers results =>
    by_cases hall : workers.all Worker.isRecorded <;> simp [proceed, hall]
  | returned reply => rfl

theorem moveWorker_bare (m : Move) (phase : RunPhase) :
    phase.bare.moveWorker eval e m = (phase.moveWorker eval e m).map fun next => (next.1.bare, next.2) := by
  cases phase with
  | sideBySide steps input gate workers results =>
    simp [moveWorker, Function.comp_def]
  | _ => rfl

end RunPhase

namespace Overlap

/-- The calls that are under way, without the references of their tasks. -/
def bare (t : Overlap) : Overlap := { t with phases := t.phases.map RunPhase.bare }

variable {eval : Nat → Nat → Evaluator}

theorem begin_bare (e : Engine) (calls : List EngineCall) :
    begin_ e (calls.map EngineCall.bare) = (begin_ e calls).bare := by
  simp [begin_, bare, RunPhase.bare, Function.comp_def]

theorem moveCall_bare (t : Overlap) (i : Nat) {f : RunPhase → Option (RunPhase × Engine)}
    (h : ∀ phase, f phase.bare = (f phase).map fun next => (next.1.bare, next.2)) :
    t.bare.moveCall i f = (t.moveCall i f).map bare := by
  simp only [moveCall, bare, List.getElem?_map]
  cases t.phases[i]? with
  | none => rfl
  | some phase =>
    simp only [Option.map_some, Option.bind_eq_bind, Option.bind_some, h]
    cases f phase with
    | none => rfl
    | some next =>
      change some (Overlap.mk next.2 _) = some (bare ⟨next.2, _⟩)
      rw [bare, List.map_set]

theorem turn_bare (t : Overlap) (turn : OverlapTurn) :
    t.bare.turn eval turn = (t.turn eval turn).map bare := by
  cases turn with
  | call i => exact t.moveCall_bare i fun phase => phase.proceed_bare (eval i) t.engine
  | worker i m => exact t.moveCall_bare i fun phase => phase.moveWorker_bare (eval i) t.engine m
  | change r => rfl

/-- **No turn of an overlap depends on references.** -/
theorem after_bare (t : Overlap) (turns : List OverlapTurn) :
    t.bare.after eval turns = (t.after eval turns).map bare := by
  induction turns generalizing t with
  | nil => rfl
  | cons turn turns ih =>
    rw [after, after, List.foldlM_cons, List.foldlM_cons, turn_bare]
    cases t.turn eval turn with
    | none => rfl
    | some t' => exact ih t'

/-- A call has the same reply in states from which the same is left without references. -/
theorem returned_iff_of_bare {t t' : Overlap} (h : t.bare = t'.bare) (i : Nat) (reply : EngineReply) :
    t.phases[i]? = some (.returned reply) ↔ t'.phases[i]? = some (.returned reply) := by
  have hphases : t.phases.map RunPhase.bare = t'.phases.map RunPhase.bare := congrArg Overlap.phases h
  have hbare : ∀ u : Overlap, u.phases[i]? = some (.returned reply) ↔
      (u.phases.map RunPhase.bare)[i]? = some (.returned reply) := by
    intro u
    simp [List.getElem?_map, RunPhase.bare_eq_returned_iff]
  rw [hbare, hbare, hphases]

/-- Calls from which the same is left without references have the same replies on every schedule, and
leave the same engine. -/
theorem exists_after_of_bare {e : Engine} {calls calls' : List EngineCall}
    (h : calls.map EngineCall.bare = calls'.map EngineCall.bare) {turns : List OverlapTurn} {t : Overlap}
    (ht : (begin_ e calls).after eval turns = some t) :
    ∃ t', (begin_ e calls').after eval turns = some t' ∧ t'.engine = t.engine ∧
      ∀ (i : Nat) (reply : EngineReply), t'.phases[i]? = some (RunPhase.returned reply) ↔
        t.phases[i]? = some (RunPhase.returned reply) := by
  have hsame : (begin_ e calls').bare = (begin_ e calls).bare := by
    rw [← begin_bare, ← begin_bare, h]
  have hafter : (begin_ e calls').bare.after eval turns = ((begin_ e calls').after eval turns).map bare :=
    after_bare (begin_ e calls') turns
  rw [hsame, after_bare, ht, Option.map_some] at hafter
  obtain ⟨t', ht', hbare⟩ := Option.map_eq_some_iff.1 hafter.symm
  have hengine : t'.bare.engine = t.bare.engine := congrArg Overlap.engine hbare
  exact ⟨t', ht', hengine, returned_iff_of_bare hbare⟩

end Overlap

/-! ## References that do not count -/

namespace Task

/-- The places of the steps after the first that carry a reference. -/
def referringLater (task : Task) : List Nat :=
  (List.range task.steps.length).filter fun i => 0 < i && (task.steps[i]?.bind (·.input)).isSome

theorem mem_referringLater_iff (task : Task) (i : Nat) :
    i ∈ task.referringLater ↔ 0 < i ∧ ∃ step reference, task.steps[i]? = some step ∧
      step.input = some reference := by
  simp only [referringLater, List.mem_filter, List.mem_range, Bool.and_eq_true, decide_eq_true_eq]
  constructor
  · rintro ⟨-, hi, h⟩
    obtain ⟨reference, h⟩ := Option.isSome_iff_exists.1 h
    obtain ⟨step, hs, hinput⟩ := Option.bind_eq_some_iff.1 h
    exact ⟨hi, step, reference, hs, hinput⟩
  · rintro ⟨hi, step, reference, hs, hinput⟩
    exact ⟨(List.getElem?_eq_some_iff.1 hs).1, hi, by simp [hs, hinput]⟩

theorem pairwise_referringLater (task : Task) : task.referringLater.Pairwise (· < ·) :=
  List.pairwise_lt_range.filter _

private theorem filterMap_zipIdx {α β : Type} (f : α × Nat → Option β) (l : List α) (k : Nat) :
    (l.zipIdx k).filterMap f =
      (List.range' k l.length).filterMap fun i => l[i - k]?.bind fun a => f (a, i) := by
  induction l generalizing k with
  | nil => rfl
  | cons a l ih =>
    rw [List.zipIdx_cons, List.length_cons, List.range'_succ, List.filterMap_cons, List.filterMap_cons, ih]
    have hrest : (List.range' (k + 1) l.length).filterMap (fun i => l[i - (k + 1)]?.bind fun a => f (a, i)) =
        (List.range' (k + 1) l.length).filterMap fun i => (a :: l)[i - k]?.bind fun a => f (a, i) := by
      refine List.filterMap_congr fun i hi => ?_
      obtain ⟨j, -, rfl⟩ := List.mem_range'.1 hi
      have hplace : k + 1 + 1 * j - k = (k + 1 + 1 * j - (k + 1)) + 1 := by omega
      rw [hplace, List.getElem?_cons_succ]
    rw [hrest]
    simp

/-- **The references that do not count** are told by the names of their steps, in the order of the steps. -/
theorem ignoredInputs_eq (task : Task) :
    task.ignoredInputs = task.referringLater.filterMap fun i =>
      task.steps[i]?.map fun step => step.displayName i := by
  obtain ⟨name, description, steps, parallel⟩ := task
  cases steps with
  | nil => rfl
  | cons first rest =>
    rw [ignoredInputs, referringLater, List.zipIdx_cons, List.drop_one, List.tail_cons, filterMap_zipIdx,
      List.filterMap_filter, List.length_cons, List.range_eq_range', List.range'_succ, List.filterMap_cons]
    refine List.filterMap_congr fun i hi => ?_
    obtain ⟨j, rfl⟩ : ∃ j, i = j + 1 := by
      obtain ⟨j, -, rfl⟩ := List.mem_range'.1 hi
      exact ⟨j, by omega⟩
    simp only [Nat.zero_add, Nat.add_sub_cancel, Nat.succ_pos, decide_true, Bool.true_and, List.getElem?_cons_succ]
    cases rest[j]? with
    | none => rfl
    | some step => cases hinput : step.input <;> simp [hinput]

end Task

end PluginChain
