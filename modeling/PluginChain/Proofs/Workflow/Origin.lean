import PluginChain.Proofs.Workflow.Schedule

/-!
# Where outcomes come from

The outcome of a step tells that there was no plugin to run, or what the run of a plugin gave
(`CameFrom`).  So what is true of all that the plugins give that there may be is true of all outcomes, whether
steps run in turn (`Results.cameFrom_chain`) or side by side (`FanOut.Traced.after`).
-/

set_option autoImplicit false

namespace PluginChain

/-- The plugin may be found, with the registries there may be. -/
def CompiledPlugin.IsIn (R : Registry → Prop) (p : CompiledPlugin) : Prop :=
  ∃ (registry : Registry) (name : String), R registry ∧ registry.get? name = some p

/-- Whatever such a plugin is run on, what it gives has the property. -/
def Evaluator.Gives (eval : Evaluator) (R : Registry → Prop) (P : Except ExecutionError Data → Prop) : Prop :=
  ∀ p : CompiledPlugin, p.IsIn R → ∀ input params, P (eval p input params)

variable {R : Registry → Prop} {P : Except ExecutionError Data → Prop} {e : Engine} {eval : Nat → Evaluator}
  {results : Results}

/-- What a step came to, where plugins only give what has some property. -/
inductive CameFrom (P : Except ExecutionError Data → Prop) : Except StepFailure Data → Prop
  | unnamed (step reason : String) : CameFrom P (.error (.invalidStep step reason))
  | notFound (name : String) : CameFrom P (.error (.pluginNotFound name))
  | ran {a : Except ExecutionError Data} (h : P a) : CameFrom P (a.mapError ExecutionError.toFailure)

theorem cameFrom_pluginName {step : Step} {index : Nat} {f : StepFailure} (h : step.pluginName index = .error f) :
    CameFrom P (.error f) := by
  rw [Step.pluginName] at h
  split at h
  · cases h
  · cases h
    exact .unnamed _ _

theorem cameFrom_runPlugin {eval : Evaluator} (heval : eval.Gives R P) (h : R e.registry) (name : String)
    (input params : Data) : CameFrom P (e.runPlugin eval name input params).1 := by
  rw [Engine.runPlugin, Engine.start]
  cases hp : e.registry.get? name with
  | none => exact .notFound _
  | some p => exact .ran (heval p ⟨e.registry, name, h, hp⟩ input params)

theorem cameFrom_runStep (heval : ∀ i, (eval i).Gives R P) (h : R e.registry) (index : Nat) (step : Step)
    (input : Data) : CameFrom P (Engine.runStep eval index step input e).1 := by
  rw [Engine.runStep]
  cases hname : step.pluginName index with
  | error f => exact cameFrom_pluginName hname
  | ok name => exact cameFrom_runPlugin (heval index) h name input step.paramsData

/-! ## Outcomes of several steps -/

/-- All outcomes came from runs of plugins, as far as there were plugins. -/
def Results.CameFrom (P : Except ExecutionError Data → Prop) (results : Results) : Prop :=
  ∀ e ∈ results, ∃ r, PluginChain.CameFrom P r ∧ e.2 = .ofExcept r

theorem Results.cameFrom_nil : Results.CameFrom P [] := nofun

theorem Results.CameFrom.put (h : results.CameFrom P) (name : String) {r : Except StepFailure Data}
    (hr : PluginChain.CameFrom P r) : Results.CameFrom P (Entries.put name (.ofExcept r) results) := by
  intro entry hentry
  rcases Entries.mem_put hentry with rfl | hold
  · exact ⟨r, hr, rfl⟩
  · exact h entry hold

/-- Steps that run in turn, whatever happens between them. -/
theorem Results.cameFrom_chain {execute : StepRun (StateM Engine)}
    (hexecute : ∀ index step input e, PluginChain.CameFrom P (execute index step input e).1) (steps : List Step)
    (index : Nat) (input : Data) (h : results.CameFrom P) (e : Engine) :
    Results.CameFrom P (chain execute index steps input results e).1 := by
  induction steps generalizing index input results e with
  | nil => exact h
  | cons step rest ih =>
    have hstep := hexecute index step input e
    simp only [chain, bind, StateT.bind]
    generalize execute index step input e = run at hstep ⊢
    obtain ⟨r, e'⟩ := run
    have hresults : Results.CameFrom P (results.record index step r) := h.put _ hstep
    cases r with
    | ok output => exact ih (index + 1) output hresults e'
    | error f => exact hresults

/-! ## Steps that run side by side -/

/-- The plugin that the worker of a step runs may be found, and what the step came to is in order. -/
def Worker.Fits (R : Registry → Prop) (P : Except ExecutionError Data → Prop) : Worker → Prop
  | .running p => p.IsIn R
  | .done r | .recorded r => CameFrom P r
  | .waiting | .inside => True

namespace FanOut

variable {steps : List Step} {input : Data} {s s' : FanOut} {m : Move} {turns : List Turn}

structure Traced (R : Registry → Prop) (P : Except ExecutionError Data → Prop) (s : FanOut) : Prop where
  registry : R s.engine.registry
  gate_open : s.gate.closed = false
  workers : ∀ w ∈ s.workers, w.Fits R P
  results : s.results.CameFrom P

theorem traced_begin (h : R e.registry) (steps : List Step) : (begin_ e steps).Traced R P where
  registry := h
  gate_open := rfl
  workers w hw := by
    obtain ⟨-, -, rfl⟩ := List.mem_map.1 hw
    trivial
  results := Results.cameFrom_nil

theorem Traced.set_worker (h : s.Traced R P) (i : Nat) {w : Worker} (hw : w.Fits R P) :
    ∀ w' ∈ s.workers.set i w, w'.Fits R P := fun w' hw' =>
  (List.mem_or_eq_of_mem_set hw').elim (h.workers w') fun heq => heq ▸ hw

/-- The gate is open, so that no worker is turned away. -/
theorem Traced.moved (h : s.Traced R P) (heval : ∀ i, (eval i).Gives R P)
    (hmoved : Moved eval steps input s m s') : s'.Traced R P := by
  cases hmoved with
  | refused worker gate => simp [h.gate_open] at gate
  | admitted => exact ⟨h.registry, h.gate_open, h.set_worker _ trivial, h.results⟩
  | unnamed worker step_eq name_eq =>
    exact ⟨h.registry, h.gate_open, h.set_worker _ (cameFrom_pluginName name_eq), h.results⟩
  | notFound => exact ⟨h.registry, h.gate_open, h.set_worker _ (.notFound _), h.results⟩
  | started worker step_eq name_eq plugin_eq =>
    exact ⟨h.registry, h.gate_open, h.set_worker _ ⟨_, _, h.registry, plugin_eq⟩, h.results⟩
  | @finished i step p worker step_eq =>
    have hp : p.IsIn R := h.workers _ (List.mem_of_getElem? worker)
    exact ⟨h.registry, h.gate_open, h.set_worker _ (.ran (heval i p hp _ _)), h.results⟩
  | @recorded i step r worker step_eq =>
    have hr : PluginChain.CameFrom P r := h.workers _ (List.mem_of_getElem? worker)
    exact ⟨h.registry, h.gate_open, h.set_worker _ hr, h.results.put _ hr⟩

theorem Traced.after (h : s.Traced R P) (heval : ∀ i, (eval i).Gives R P)
    (hturns : ∀ r, Turn.change r ∈ turns → R r) (hafter : s.after eval steps input turns = some s') :
    s'.Traced R P := by
  induction turns generalizing s with
  | nil =>
    cases hafter
    exact h
  | cons turn turns ih =>
    obtain ⟨s₁, hturn, hrest⟩ := Option.bind_eq_some_iff.1 hafter
    refine ih ?_ (fun r hr => hturns r (List.mem_cons_of_mem _ hr)) hrest
    cases turn with
    | move m => exact h.moved heval (moved_of_move hturn)
    | change r =>
      cases hturn
      exact ⟨hturns r List.mem_cons_self, h.gate_open, h.workers, h.results⟩

theorem cameFrom_run (heval : ∀ i, (eval i).Gives R P) (h : R e.registry) (steps : List Step) (input : Data) :
    (run e eval steps input).results.CameFrom P := by
  suffices hmoves : ∀ (moves : List Move) (s : FanOut), s.Traced R P →
      (moves.foldl (tryMove eval steps input) s).Traced R P from
    (hmoves _ _ (traced_begin h steps)).results
  intro moves
  induction moves with
  | nil => exact fun s hs => hs
  | cons m moves ih =>
    intro s hs
    refine ih _ ?_
    rw [tryMove]
    cases hm : s.move eval steps input m with
    | none => exact hs
    | some s' => exact hs.moved heval (moved_of_move hm)

end FanOut

end PluginChain
