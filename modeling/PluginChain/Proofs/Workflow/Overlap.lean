import PluginChain.Proofs.Row
import PluginChain.Proofs.Workflow.Chain
import PluginChain.Proofs.Workflow.FanOut
import PluginChain.Proofs.Workflow.Report

/-!
# Calls of an engine that overlap

Any number of calls are under way on one engine, and between two moves of one of them any other may move,
or plugins may be installed or removed.  A call runs one plugin, the steps of a task in turn, or the steps
of a task side by side; in the last case each step has a worker, and all workers of the call go through a
gate of its own (`FanOut.move`).  The gauge is the engine's, and common to all calls.

What a plugin gives is open: a run of it may succeed, fail or take too long, and each time in another way.

* `Overlap.turn` lets one call move, or changes the plugins.
* A call that nothing comes between does what the operation of the engine does
  (`Overlap.exists_turns_alone`).
-/

set_option autoImplicit false

namespace PluginChain

/-! ## Calls -/

/-- A plugin to be run once, in the time given or else in that of the sandbox. -/
structure PluginRun where
  name : String
  input : Data
  params : Data
  time : Option Duration
  /-- What goes wrong is told as an error of the engine, and not as the failure of a step. -/
  alone : Bool

inductive EngineCall
  | task (task : Task) (input : Data)
  | plugin (run : PluginRun)

/-- What a call gives. -/
inductive EngineReply
  | report (r : Except RunFault Report)
  | outcome (r : Except StepFailure Data)
  | answer (r : Except ChainError Data)

def PluginRun.reply (run : PluginRun) (r : Except StepFailure Data) : EngineReply :=
  if run.alone then .answer (r.mapError ChainError.ofFailure) else .outcome r

/-- A call that is carried out at once. -/
def EngineCall.carryOut (e : Engine) : EngineCall → EngineReply × Engine
  | .task t input =>
    let (r, e) := e.runTask t input
    (.report r, e)
  | .plugin run =>
    if run.alone then
      let (r, e) := e.executePlugin run.name run.input run.params run.time
      (.answer r, e)
    else
      let (r, e) := e.runPlugin (e.evaluator run.time) run.name run.input run.params
      (.outcome r, e)

/-- What runs the plugins of a call. -/
def EngineCall.evaluator (e : Engine) : EngineCall → Evaluator
  | .task _ _ => e.evaluator none
  | .plugin run => e.evaluator run.time

/-- How far a call got. -/
inductive RunPhase
  | ready (call : EngineCall)
  | running (run : PluginRun) (p : CompiledPlugin)
  /-- Before the first of the steps that are left. -/
  | between (index : Nat) (left : List Step) (current : Data) (results : Results)
  /-- The plugin of a step is running, and others are left behind it. -/
  | within (index : Nat) (step : Step) (left : List Step) (current : Data) (results : Results)
      (p : CompiledPlugin)
  | sideBySide (steps : List Step) (input : Data) (gate : Gate) (workers : List Worker) (results : Results)
  | returned (reply : EngineReply)

def Worker.isRecorded : Worker → Bool
  | recorded _ => true
  | _ => false

def Worker.isRunning : Worker → Bool
  | running _ => true
  | _ => false

namespace RunPhase

/-- A task after one of its steps, which is the last to run if it failed. -/
def stepped (index : Nat) (step : Step) (left : List Step) (current : Data) (results : Results) :
    Except StepFailure Data → RunPhase
  | .ok output => between (index + 1) left output (results.record index step (.ok output))
  | .error f => between (index + 1) [] current (results.record index step (.error f))

/-- The next move of a call, other than those of its workers.  `eval index` runs the plugin of the step at
an index. -/
def proceed (eval : Nat → Evaluator) (e : Engine) : RunPhase → Option (RunPhase × Engine)
  | ready (.task task input) =>
    match task.validate with
    | .error why => some (returned (.report (.error (.invalid why))), e)
    | .ok () =>
      if task.parallel then
        if Engine.gateLimit < e.maxParallel then some (returned (.report (.error (.gate e.maxParallel))), e)
        else some (sideBySide task.steps input ⟨e.maxParallel, false⟩ (task.steps.map fun _ => .waiting) [], e)
      else some (between 0 task.steps input [], e)
  | ready (.plugin run) =>
    match e.start run.name with
    | .error f => some (returned (run.reply (.error f)), e)
    | .ok (p, e) => some (running run p, e)
  | running run p =>
    some (returned (run.reply ((eval 0 p run.input run.params).mapError ExecutionError.toFailure)), e.finish)
  | between _ [] _ results => some (returned (.report (.ok (.ofResults results))), e)
  | between index (step :: left) current results =>
    match step.pluginName index with
    | .error f => some (stepped index step left current results (.error f), e)
    | .ok name =>
      match e.start name with
      | .error f => some (stepped index step left current results (.error f), e)
      | .ok (p, e) => some (within index step left current results p, e)
  | within index step left current results p =>
    some (stepped index step left current results
      ((eval index p current step.paramsData).mapError ExecutionError.toFailure), e.finish)
  | sideBySide _ _ _ workers results =>
    if workers.all Worker.isRecorded then some (returned (.report (.ok (.ofResults results))), e) else none
  | returned _ => none

/-- A move of one of the workers of a call. -/
def moveWorker (eval : Nat → Evaluator) (e : Engine) (m : Move) : RunPhase → Option (RunPhase × Engine)
  | sideBySide steps input gate workers results =>
    (FanOut.move eval steps input ⟨e, gate, workers, results⟩ m).map fun s =>
      (sideBySide steps input s.gate s.workers s.results, s.engine)
  | _ => none

end RunPhase

/-- An engine with calls under way. -/
structure Overlap where
  engine : Engine
  phases : List RunPhase

inductive OverlapTurn
  | call (i : Nat)
  /-- A worker of the call at an index moves. -/
  | worker (i : Nat) (m : Move)
  /-- Plugins are installed or removed. -/
  | change (registry : Registry)

namespace Overlap

def begin_ (e : Engine) (calls : List EngineCall) : Overlap := ⟨e, calls.map .ready⟩

/-- The call at an index moves as it is told. -/
def moveCall (t : Overlap) (i : Nat) (f : RunPhase → Option (RunPhase × Engine)) : Option Overlap := do
  let (next, engine) ← f (← t.phases[i]?)
  return ⟨engine, t.phases.set i next⟩

/-- The state after a turn, if it is possible.  `eval i` runs the plugins of the call at an index. -/
def turn (eval : Nat → Nat → Evaluator) (t : Overlap) : OverlapTurn → Option Overlap
  | .call i => t.moveCall i (RunPhase.proceed (eval i) t.engine)
  | .worker i m => t.moveCall i (RunPhase.moveWorker (eval i) t.engine m)
  | .change r => some { t with engine := { t.engine with registry := r } }

def after (eval : Nat → Nat → Evaluator) (t : Overlap) (turns : List OverlapTurn) : Option Overlap :=
  turns.foldlM (turn eval) t

end Overlap

/-! ## Calls that nothing comes between -/

/-- The turn is a move of the call at an index. -/
def OverlapTurn.IsOf (i : Nat) : OverlapTurn → Prop
  | call j | worker j _ => j = i
  | change _ => False

namespace RunPhase

variable {eval : Nat → Evaluator} {phase phase₁ phase₂ : RunPhase} {e e₁ e₂ : Engine} {run : PluginRun}
  {steps : List Step} {input : Data}

/-- A call gets there by moves of its own and of its workers. -/
inductive Leads (eval : Nat → Evaluator) : RunPhase → Engine → RunPhase → Engine → Prop
  | refl (phase : RunPhase) (e : Engine) : Leads eval phase e phase e
  | call {phase phase₁ phase₂ : RunPhase} {e e₁ e₂ : Engine} (h : phase.proceed eval e = some (phase₁, e₁))
      (hrest : Leads eval phase₁ e₁ phase₂ e₂) : Leads eval phase e phase₂ e₂
  | worker {phase phase₁ phase₂ : RunPhase} {e e₁ e₂ : Engine} (m : Move)
      (h : phase.moveWorker eval e m = some (phase₁, e₁)) (hrest : Leads eval phase₁ e₁ phase₂ e₂) :
      Leads eval phase e phase₂ e₂

theorem Leads.trans (h : Leads eval phase e phase₁ e₁) (h' : Leads eval phase₁ e₁ phase₂ e₂) :
    Leads eval phase e phase₂ e₂ := by
  induction h with
  | refl => exact h'
  | call h _ ih => exact .call h (ih h')
  | worker m h _ ih => exact .worker m h (ih h')

theorem Leads.single (h : phase.proceed eval e = some (phase₁, e₁)) : Leads eval phase e phase₁ e₁ :=
  .call h (.refl ..)

theorem leads_plugin (eval : Nat → Evaluator) (run : PluginRun) {r : Except StepFailure Data}
    (h : e.runPlugin (eval 0) run.name run.input run.params = (r, e₁)) :
    Leads eval (ready (.plugin run)) e (returned (run.reply r)) e₁ := by
  rw [Engine.runPlugin] at h
  cases hstart : e.start run.name with
  | error f =>
    rw [hstart] at h
    cases h
    exact .single (by simp only [proceed, hstart])
  | ok started =>
    obtain ⟨p, e₂⟩ := started
    rw [hstart] at h
    cases h
    have hbegin : (ready (.plugin run)).proceed eval e = some (running run p, e₂) := by
      simp only [proceed, hstart]
    exact .call hbegin (.single rfl)

/-- A step runs, or fails without a plugin. -/
theorem leads_step (eval : Nat → Evaluator) {index : Nat} {step : Step} (left : List Step) {current : Data}
    (results : Results) {r : Except StepFailure Data}
    (h : Engine.runStep eval index step current e = (r, e₁)) :
    Leads eval (between index (step :: left) current results) e (stepped index step left current results r)
      e₁ := by
  rw [Engine.runStep] at h
  cases hname : step.pluginName index with
  | error f =>
    rw [hname] at h
    cases h
    exact .single (by simp only [proceed, hname])
  | ok name =>
    rw [hname] at h
    replace h : e.runPlugin (eval index) name current step.paramsData = (r, e₁) := h
    rw [Engine.runPlugin] at h
    cases hstart : e.start name with
    | error f =>
      rw [hstart] at h
      cases h
      exact .single (by simp only [proceed, hname, hstart])
    | ok started =>
      obtain ⟨p, e₂⟩ := started
      rw [hstart] at h
      cases h
      have hbegin : (between index (step :: left) current results).proceed eval e =
          some (within index step left current results p, e₂) := by
        simp only [proceed, hname, hstart]
      exact .call hbegin (.single rfl)

/-- The steps that are left run in turn. -/
theorem leads_chain (eval : Nat → Evaluator) {left : List Step} {index : Nat} {current : Data}
    {results results' : Results} (h : chain (Engine.runStep eval) index left current results e = (results', e₁)) :
    Leads eval (between index left current results) e (returned (.report (.ok (.ofResults results')))) e₁ := by
  induction left generalizing index current results e with
  | nil =>
    cases h
    exact .single rfl
  | cons step left ih =>
    obtain ⟨r, e₂, hrun⟩ : ∃ r e₂, Engine.runStep eval index step current e = (r, e₂) := ⟨_, _, rfl⟩
    have hstep := leads_step eval left results hrun
    simp only [chain, bind, StateT.bind, hrun] at h
    cases r with
    | ok output => exact hstep.trans (ih h)
    | error f =>
      -- no step is left behind one that failed
      cases h
      exact hstep.trans (.single rfl)

/-- Workers move as on a schedule of their own. -/
theorem leads_fanOut {turns : List Turn} (hmoves : ∀ t ∈ turns, t.isMove = true) {s s' : FanOut}
    (h : s.after eval steps input turns = some s') :
    Leads eval (sideBySide steps input s.gate s.workers s.results) s.engine
      (sideBySide steps input s'.gate s'.workers s'.results) s'.engine := by
  induction turns generalizing s with
  | nil =>
    cases h
    exact .refl ..
  | cons turn turns ih =>
    obtain ⟨s₁, hturn, hrest⟩ := Option.bind_eq_some_iff.1 h
    cases turn with
    | change r => cases hmoves _ List.mem_cons_self
    | move m =>
      have hmove : s.move eval steps input m = some s₁ := hturn
      have hworker : (sideBySide steps input s.gate s.workers s.results).moveWorker eval s.engine m =
          some (sideBySide steps input s₁.gate s₁.workers s₁.results, s₁.engine) := by
        simp only [moveWorker, hmove, Option.map_some]
      exact .worker m hworker (ih (fun t ht => hmoves t (List.mem_cons_of_mem _ ht)) hrest)

theorem leads_task (task : Task) (input : Data) (he : 0 < e.maxParallel) {r : Except RunFault Report}
    (h : e.runTask task input = (r, e₁)) :
    Leads (fun _ => e.evaluator none) (ready (.task task input)) e (returned (.report r)) e₁ := by
  cases hvalid : task.validate with
  | error why =>
    rw [Engine.runTask, Task.run, hvalid] at h
    cases h
    exact .single (by simp only [proceed, hvalid])
  | ok _ =>
    cases hparallel : task.parallel with
    | false =>
      obtain ⟨results, e₂, hchain⟩ : ∃ results e₂,
          chain (Engine.runStep fun _ => e.evaluator none) 0 task.steps input [] e = (results, e₂) := ⟨_, _, rfl⟩
      have hrun : e.runTask task input = (.ok (.ofResults results), e₂) := by
        rw [Engine.runTask, Task.run_in_turn hvalid hparallel]
        exact congrArg (fun run => (Except.ok (Report.ofResults run.1), run.2)) hchain
      cases hrun.symm.trans h
      have hbegin : (ready (.task task input)).proceed (fun _ => e.evaluator none) e =
          some (between 0 task.steps input [], e) := by
        simp only [proceed, hvalid, hparallel, Bool.false_eq_true, if_false]
      exact .call hbegin (leads_chain _ hchain)
    | true =>
      by_cases hgate : Engine.gateLimit < e.maxParallel
      · cases (e.runTask_of_no_gate hvalid hparallel hgate input).symm.trans h
        exact .single (by simp only [proceed, hvalid, hparallel, hgate, if_true])
      · obtain ⟨hfinished, turns, hmoves, hafter⟩ :=
          FanOut.exists_schedule e (fun _ => e.evaluator none) task.steps input he
        have hrun : e.runTask task input =
            (.ok (.ofResults (FanOut.run e (fun _ => e.evaluator none) task.steps input).results),
              (FanOut.run e (fun _ => e.evaluator none) task.steps input).engine) := by
          simp only [Engine.runTask, Task.run, hvalid, hparallel, bind, StateT.bind, StateT.run,
            Engine.runFanOut, hgate, if_true, if_false]
          rfl
        cases hrun.symm.trans h
        have hbegin : (ready (.task task input)).proceed (fun _ => e.evaluator none) e =
            some (sideBySide task.steps input ⟨e.maxParallel, false⟩ (task.steps.map fun _ => .waiting) [], e) := by
          simp only [proceed, hvalid, hparallel, hgate, if_true, if_false]
        refine .call hbegin ((leads_fanOut hmoves hafter).trans (.single ?_))
        have hall : (FanOut.run e (fun _ => e.evaluator none) task.steps input).workers.all
            Worker.isRecorded = true := by
          rw [List.all_eq_true]
          intro w hw
          obtain ⟨r, rfl⟩ := hfinished w hw
          rfl
        simp only [proceed, hall, if_true]

/-- **A call that nothing comes between** comes to what it comes to at once. -/
theorem leads_of_ready (call : EngineCall) (he : 0 < e.maxParallel) :
    Leads (fun _ => call.evaluator e) (ready call) e (returned (call.carryOut e).1) (call.carryOut e).2 := by
  cases call with
  | task t input =>
    obtain ⟨r, e₁, hrun⟩ : ∃ r e₁, e.runTask t input = (r, e₁) := ⟨_, _, rfl⟩
    simp only [EngineCall.carryOut, EngineCall.evaluator, hrun]
    exact leads_task t input he hrun
  | plugin run =>
    obtain ⟨r, e₁, hrun⟩ : ∃ r e₁,
        e.runPlugin (e.evaluator run.time) run.name run.input run.params = (r, e₁) := ⟨_, _, rfl⟩
    have hcarry : (EngineCall.plugin run).carryOut e = (run.reply r, e₁) := by
      cases halone : run.alone <;>
        simp only [EngineCall.carryOut, Engine.executePlugin, PluginRun.reply, halone, hrun, if_true,
          Bool.false_eq_true, if_false]
    rw [hcarry]
    exact leads_plugin _ run hrun

end RunPhase

namespace Overlap

variable {eval : Nat → Nat → Evaluator} {t : Overlap} {i : Nat} {phase next : RunPhase} {e e' : Engine}

theorem moveCall_of_some {f : RunPhase → Option (RunPhase × Engine)} (hi : t.phases[i]? = some phase)
    (h : f phase = some (next, e)) : t.moveCall i f = some ⟨e, t.phases.set i next⟩ := by
  simp only [moveCall, hi, h, Option.bind_eq_bind, Option.bind_some]
  rfl

theorem exists_of_moveCall {t' : Overlap} {f : RunPhase → Option (RunPhase × Engine)}
    (h : t.moveCall i f = some t') :
    ∃ phase next e, t.phases[i]? = some phase ∧ f phase = some (next, e) ∧ t' = ⟨e, t.phases.set i next⟩ := by
  obtain ⟨phase, hi, hf⟩ := Option.bind_eq_some_iff.1 h
  obtain ⟨⟨next, e⟩, hnext, ht'⟩ := Option.bind_eq_some_iff.1 hf
  exact ⟨phase, next, e, hi, hnext, (Option.some.inj ht').symm⟩

/-- Turns of a call behind one that brought it to another phase. -/
theorem exists_turns_cons (turn : OverlapTurn) {middle : RunPhase} {e₁ : Engine} (hof : turn.IsOf i)
    (hturn : t.turn eval turn = some ⟨e₁, t.phases.set i middle⟩)
    (hrest : ∃ turns, (∀ turn ∈ turns, turn.IsOf i) ∧
      after eval ⟨e₁, t.phases.set i middle⟩ turns = some ⟨e', (t.phases.set i middle).set i next⟩) :
    ∃ turns, (∀ turn ∈ turns, turn.IsOf i) ∧ t.after eval turns = some ⟨e', t.phases.set i next⟩ := by
  obtain ⟨turns, hturns, hafter⟩ := hrest
  refine ⟨turn :: turns, fun other hmem => ?_, ?_⟩
  · rcases List.mem_cons.1 hmem with rfl | hmem
    · exact hof
    · exact hturns other hmem
  · rw [after, List.foldlM_cons, hturn]
    rw [List.set_set] at hafter
    exact hafter

theorem exists_turns_of_leads (h : RunPhase.Leads (eval i) phase e next e') (hi : t.phases[i]? = some phase)
    (he : t.engine = e) :
    ∃ turns, (∀ turn ∈ turns, turn.IsOf i) ∧ t.after eval turns = some ⟨e', t.phases.set i next⟩ := by
  have hset : ∀ middle, (t.phases.set i middle)[i]? = some middle := fun _ =>
    List.getElem?_set_self (List.getElem?_eq_some_iff.1 hi).1
  induction h generalizing t with
  | refl phase e =>
    subst he
    exact ⟨[], fun turn h => absurd h List.not_mem_nil,
      congrArg (fun phases => some (Overlap.mk t.engine phases)) (set_of_getElem? hi)⟩
  | call h _ ih =>
    subst he
    refine exists_turns_cons (.call i) rfl (moveCall_of_some hi h) (ih (hset _) rfl fun middle => ?_)
    rw [List.set_set]
    exact hset middle
  | worker m h _ ih =>
    subst he
    refine exists_turns_cons (.worker i m) rfl (moveCall_of_some hi h) (ih (hset _) rfl fun middle => ?_)
    rw [List.set_set]
    exact hset middle

/-- **A call that nothing comes between** does what the operation of the engine does. -/
theorem exists_turns_alone {call : EngineCall} (hi : t.phases[i]? = some (.ready call))
    (he : 0 < t.engine.maxParallel) (heval : eval i = fun _ => call.evaluator t.engine) :
    ∃ turns, (∀ turn ∈ turns, turn.IsOf i) ∧ t.after eval turns =
      some ⟨(call.carryOut t.engine).2, t.phases.set i (.returned (call.carryOut t.engine).1)⟩ :=
  exists_turns_of_leads (heval ▸ RunPhase.leads_of_ready call he) hi rfl

end Overlap

end PluginChain
