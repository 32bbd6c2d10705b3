import Mathlib.Data.List.Forall2
import PluginChain.Proofs.Workflow.Chain

/-!
# Chains that are cut in two

The steps behind some place of a chain make a chain of their own.  Put to work on what the step before
them gave, they do what they do in the whole chain: the same plugins are run on the same inputs, and the
same comes of it.  Only the places of the steps are others, which shows where a step names no plugin, for
without a name of its own it is told by its place (`SameOutcome`).

* `trail_append`: a chain whose first half succeeds goes on with the second one.
* `forall₂_trail`: a chain is the same at another place, whatever its steps refer to.
* `Task.Cut.inHalves` has both for a task and two others that are its halves.
-/

set_option autoImplicit false

namespace PluginChain

/-! ## A step at another place -/

/-- What a step comes to at two places.  The two are the same, but for the name that is told of a step
without a plugin. -/
inductive SameOutcome (step : Step) (i j : Nat) :
    Except StepFailure Data → Except StepFailure Data → Prop
  | same (r : Except StepFailure Data) : SameOutcome step i j r r
  | unnamed (why : String) : SameOutcome step i j (.error (.invalidStep (step.displayName i) why))
      (.error (.invalidStep (step.displayName j) why))

namespace SameOutcome

variable {step : Step} {i j : Nat} {r r' : Except StepFailure Data}

theorem ok_iff (h : SameOutcome step i j r r') (d : Data) : r = .ok d ↔ r' = .ok d := by
  cases h with
  | same => exact Iff.rfl
  | unnamed why => exact ⟨nofun, nofun⟩

theorem error_iff (h : SameOutcome step i j r r') : (∃ f, r = .error f) ↔ ∃ f, r' = .error f := by
  cases h with
  | same => exact Iff.rfl
  | unnamed why => exact ⟨fun _ => ⟨_, rfl⟩, fun _ => ⟨_, rfl⟩⟩

end SameOutcome

/-- The two steps differ in nothing but what they refer to. -/
def Step.Alike (a b : Step) : Prop := { a with input := b.input } = b

namespace Step

variable {a b : Step}

theorem Alike.refl (step : Step) : step.Alike step := rfl

theorem Alike.displayName_eq (h : a.Alike b) (i : Nat) : a.displayName i = b.displayName i := by
  rw [← h]
  rfl

theorem Alike.outcomeIn_eq (h : a.Alike b) (r : Registry) (eval : Evaluator) (i : Nat) (d : Data) :
    a.outcomeIn r eval i d = b.outcomeIn r eval i d := by
  rw [← h]
  rfl

theorem Alike.deedsIn_eq (h : a.Alike b) (r : Registry) (i : Nat) (d : Data) :
    a.deedsIn r i d = b.deedsIn r i d := by
  rw [← h]
  rfl

theorem Alike.sameOutcome (h : a.Alike b) {i j : Nat} {r r' : Except StepFailure Data}
    (hsame : SameOutcome b i j r r') : SameOutcome a i j r r' := by
  cases hsame with
  | same => exact .same r
  | unnamed why =>
    rw [← h.displayName_eq, ← h.displayName_eq]
    exact .unnamed why

/-- What a step comes to does not depend on its place. -/
theorem sameOutcome (step : Step) (r : Registry) (eval : Evaluator) (i j : Nat) (d : Data) :
    SameOutcome step i j (step.outcomeIn r eval i d) (step.outcomeIn r eval j d) := by
  simp only [outcomeIn, pluginName]
  cases step.plugin.bind Text.nonBlank? with
  | none => exact .unnamed _
  | some name => exact .same _

end Step

/-- What is done for a step, told of a step so many places further on. -/
def Deed.movedBy (n : Nat) : Deed → Deed
  | .lookUp index name => .lookUp (n + index) name
  | .run index plugin input params => .run (n + index) plugin input params

theorem Step.map_movedBy_deedsIn (step : Step) (r : Registry) (n i : Nat) (d : Data) :
    (step.deedsIn r i d).map (Deed.movedBy n) = step.deedsIn r (n + i) d := by
  simp only [deedsIn, pluginName]
  cases step.plugin.bind Text.nonBlank? with
  | none => rfl
  | some name =>
    dsimp only
    cases r.get? name <;> rfl

/-- The second execution is the first one, of a step that stands so many places further on. -/
structure Visit.MovedBy (n : Nat) (v w : Visit) : Prop where
  index : w.index = n + v.index
  step : v.step.Alike w.step
  input : w.input = v.input
  result : SameOutcome w.step v.index w.index v.result w.result

/-! ## Two chains -/

section Chains

variable {result : StepResult} {xs : List Step} {input d : Data} {start : Nat}

/-- Where a chain succeeds, its first step does, and the steps behind it go on with what it gave. -/
theorem exists_output_of_chainInput {step : Step}
    (h : chainInput (fun j => result (start + j)) (step :: xs) input (xs.length + 1) = some d) :
    ∃ output, result start step input = .ok output ∧
      chainInput (fun j => result (start + 1 + j)) xs output xs.length = some d := by
  have hshift : (fun j => result (start + (j + 1))) = fun j => result (start + 1 + j) := by
    funext j
    rw [Nat.add_assoc, Nat.add_comm 1 j]
  rw [chainInput_cons, hshift, Nat.add_zero] at h
  cases hr : result start step input with
  | ok output =>
    rw [hr] at h
    exact ⟨output, rfl, h⟩
  | error f =>
    rw [hr] at h
    cases h

/-- Behind steps that all succeed, others go on with what the last of them gave. -/
theorem trail_append (h : chainInput (fun j => result (start + j)) xs input xs.length = some d)
    (ys : List Step) :
    trail result start (xs ++ ys) input =
      trail result start xs input ++ trail result (start + xs.length) ys d := by
  induction xs generalizing start input with
  | nil =>
    cases h
    rfl
  | cons step xs ih =>
    obtain ⟨output, hr, hrest⟩ := exists_output_of_chainInput h
    rw [List.cons_append, trail, trail, hr, List.length_cons, ← Nat.add_assoc, Nat.add_right_comm]
    exact congrArg (List.cons _) (ih hrest)

/-- What is told of a chain: the outcomes of the steps that were executed. -/
def chainReport (result : StepResult) (steps : List Step) (input : Data) : Report :=
  .ofResults (Results.recordAll [] (trail result 0 steps input))

theorem length_trail (h : chainInput (fun j => result (start + j)) xs input xs.length = some d) :
    (trail result start xs input).length = xs.length := by
  induction xs generalizing start input with
  | nil => rfl
  | cons step xs ih =>
    obtain ⟨output, hr, hrest⟩ := exists_output_of_chainInput h
    rw [trail, hr]
    exact congrArg Nat.succ (ih hrest)

end Chains

namespace Engine

/-- What a step comes to in an engine whose plugins stay. -/
def stepResult (e : Engine) : StepResult := resultAmid (fun _ => e.evaluator none) fun _ => e.registry

/-- The same plugins are run in the same sandbox. -/
structure SamePlugins (e e' : Engine) : Prop where
  registry : e'.registry = e.registry
  sandbox : e'.sandbox = e.sandbox

theorem SamePlugins.stepResult_eq {e e' : Engine} (h : SamePlugins e e') :
    e'.stepResult = e.stepResult := by
  have heval : e'.evaluator none = e.evaluator none := by
    unfold evaluator
    rw [h.sandbox]
  rw [stepResult, stepResult, h.registry, heval]

theorem SamePlugins.refl (e : Engine) : SamePlugins e e := ⟨rfl, rfl⟩

theorem SamePlugins.trans {e e' e'' : Engine} (h : SamePlugins e e') (h' : SamePlugins e' e'') :
    SamePlugins e e'' :=
  ⟨h'.registry.trans h.registry, h'.sandbox.trans h.sandbox⟩

theorem samePlugins_runStep (eval : Nat → Evaluator) (index : Nat) (step : Step) (input : Data)
    (e : Engine) : SamePlugins e (runStep eval index step input e).2 := by
  refine ⟨registry_runStep eval index step input e, ?_⟩
  rw [runStep]
  cases step.pluginName index with
  | error f => rfl
  | ok name =>
    show (e.runPlugin (eval index) name input step.paramsData).2.sandbox = e.sandbox
    unfold runPlugin start
    cases e.registry.get? name <;> rfl

/-- A chain leaves the plugins and their sandbox as they are. -/
theorem samePlugins_chain (eval : Nat → Evaluator) (index : Nat) (steps : List Step) (input : Data)
    (results : Results) (e : Engine) :
    SamePlugins e (chain (runStep eval) index steps input results e).2 := by
  induction steps generalizing index input results e with
  | nil => exact .refl e
  | cons step rest ih =>
    have hstep := samePlugins_runStep eval index step input e
    simp only [chain, bind, StateT.bind]
    generalize runStep eval index step input e = run at hstep
    obtain ⟨r, engine⟩ := run
    cases r with
    | ok output => exact hstep.trans (ih (index + 1) output _ engine)
    | error f => exact hstep

/-- A chain is the same at another place, whatever its steps refer to. -/
theorem forall₂_trail (e : Engine) (n : Nat) {steps others : List Step}
    (h : List.Forall₂ Step.Alike steps others) (i : Nat) (d : Data) :
    List.Forall₂ (Visit.MovedBy n) (trail e.stepResult i steps d)
      (trail e.stepResult (n + i) others d) := by
  induction h generalizing i d with
  | nil => exact .nil
  | @cons step other steps others hstep _ ih =>
    have heq : e.stepResult i step d = e.stepResult i other d := hstep.outcomeIn_eq _ _ i d
    have hsame : SameOutcome other i (n + i) (e.stepResult i other d) (e.stepResult (n + i) other d) :=
      other.sameOutcome _ _ i (n + i) d
    rw [trail, trail, heq]
    refine .cons ⟨rfl, hstep, rfl, hsame⟩ ?_
    cases hr : e.stepResult i other d with
    | ok output =>
      rw [(hsame.ok_iff output).1 hr]
      exact ih (i + 1) output
    | error f =>
      obtain ⟨f', hf'⟩ := hsame.error_iff.1 ⟨f, hr⟩
      rw [hf']
      exact .nil

/-- The run of a task whose steps take turns, and what is done for it. -/
def watchedTask (e : Engine) (task : Task) (input : Data) : Except RunFault Report × Watched :=
  (task.run (watchedStep (fun _ => e.evaluator none) fun _ => e.registry)
    (fun _ _ => pure (.ok [])) input).run ⟨e, []⟩

/-- What is done for a task whose steps take turns. -/
def deeds (e : Engine) (task : Task) (input : Data) : List Deed := (e.watchedTask task input).2.deeds

variable {e : Engine} {task : Task}

theorem watchedTask_eq (hvalid : task.validate = .ok ()) (hturn : task.parallel = false) (input : Data) :
    (e.watchedTask task input).1 =
        .ok (chainReport e.stepResult task.steps input) ∧
      e.deeds task input = (trail e.stepResult 0 task.steps input).flatMap fun v =>
        v.step.deedsIn e.registry v.index v.input := by
  obtain ⟨hresults, hdeeds⟩ := chain_watchedStep (fun _ => e.evaluator none) (fun _ => e.registry) 0
    task.steps input [] ⟨e, []⟩
  rw [deeds, watchedTask, Task.run_in_turn hvalid hturn]
  exact ⟨congrArg (fun r => Except.ok (Report.ofResults r)) hresults, hdeeds⟩

theorem runTask_in_turn (hvalid : task.validate = .ok ()) (hturn : task.parallel = false)
    (input : Data) : (e.runTask task input).1 = .ok (chainReport e.stepResult task.steps input) := by
  have hchain := chain_runStep (fun _ => e.evaluator none) 0 task.steps input [] ⟨e, []⟩
  have hresults := (chain_watchedStep (fun _ => e.evaluator none) (fun _ => e.registry) 0 task.steps
    input [] ⟨e, []⟩).1
  rw [runTask, Task.run_in_turn hvalid hturn]
  exact congrArg (fun r => Except.ok (Report.ofResults r)) ((congrArg Prod.fst hchain).trans hresults)

theorem samePlugins_runTask (hvalid : task.validate = .ok ()) (hturn : task.parallel = false)
    (input : Data) : SamePlugins e (e.runTask task input).2 := by
  rw [runTask, Task.run_in_turn hvalid hturn]
  exact samePlugins_chain _ 0 task.steps input [] e

end Engine

/-! ## Tasks that are cut in two -/

/-- The steps, of which the first one refers to something. -/
def referring (reference : InputRef) : List Step → List Step
  | [] => []
  | step :: rest => step.withInput reference :: rest

theorem forall₂_alike_referring (reference : InputRef) (steps : List Step) :
    List.Forall₂ Step.Alike (referring reference steps) steps := by
  cases steps with
  | nil => exact .nil
  | cons step rest => exact .cons rfl (List.forall₂_same.2 fun step _ => Step.Alike.refl step)

/-- A task whose steps take turns is cut in two.  The first half has its steps up to some place, the
second one those behind, of which the first refers to something. -/
structure Task.Cut (whole first second : Task) (reference : InputRef) : Prop where
  valid_whole : whole.validate = .ok ()
  valid_first : first.validate = .ok ()
  valid_second : second.validate = .ok ()
  turn_whole : whole.parallel = false
  turn_first : first.parallel = false
  turn_second : second.parallel = false
  steps : ∃ rest, whole.steps = first.steps ++ rest ∧ second.steps = referring reference rest

/-- What the two halves of a task and the whole do in an engine, and what is told of them.  The first half
works on `input` like the whole, and the second one on `d`. -/
structure InHalves (e : Engine) (whole first second : Task) (input d : Data) (report₂ report : Report) :
    Prop where
  /-- The steps of the second half find the same inputs there and in the whole, and come to the same. -/
  visits : ∀ i, Option.Rel (Visit.MovedBy first.steps.length)
    (chainVisit e.stepResult second.steps d i)
    (chainVisit e.stepResult whole.steps input (first.steps.length + i))
  deeds : e.deeds whole input =
    e.deeds first input ++ (e.deeds second d).map (Deed.movedBy first.steps.length)
  halts : ∀ k, HaltsAt e.stepResult second.steps d k ↔
    HaltsAt e.stepResult whole.steps input (first.steps.length + k)
  collected : ∀ k, HaltsAt e.stepResult second.steps d k →
    Collected e.stepResult second.steps d k report₂.results ∧
      Collected e.stepResult whole.steps input (first.steps.length + k) report.results
  status : report₂.status = report.status
  /-- Where nothing fails, the last step gives the same. -/
  value : HaltsAt e.stepResult second.steps d second.steps.length →
    ∀ i step, second.steps[i]? = some step → i + 1 = second.steps.length →
      ∃ v, report₂.outcome? (step.displayName i) = some (.ok v) ∧
        report.outcome? (step.displayName (first.steps.length + i)) = some (.ok v)
  /-- Where a step fails, the same failure is told. -/
  failure : ∀ k step, HaltsAt e.stepResult second.steps d k → second.steps[k]? = some step →
    ∃ f f', SameOutcome step k (first.steps.length + k) (.error f) (.error f') ∧
      report₂.outcome? (step.displayName k) = some (.failed f) ∧
      report.outcome? (step.displayName (first.steps.length + k)) = some (.failed f')

/-- The outcome of the last step that was executed is not covered by another one. -/
theorem HaltsAt.outcome?_last {result : StepResult} {steps : List Step} {input : Data} {k i : Nat}
    (h : HaltsAt result steps input k) {v : Visit} (hv : chainVisit result steps input i = some v)
    (hlast : i = k ∨ i + 1 = steps.length) :
    (chainReport result steps input).outcome? (v.step.displayName i) = some (.ofExcept v.result) := by
  obtain ⟨-, hs, -, -⟩ := chainVisit_eq_some.1 hv
  obtain ⟨r, hr, hget⟩ := h.collected_recordAll.last i v.step (h.le_of_chainVisit hv) hs
    fun j later hij hjk hj => by
      have hj := (List.getElem?_eq_some_iff.1 hj).1
      omega
  rw [chainOutcome, hv, Option.map_some, Option.some_inj] at hr
  rw [hr]
  exact hget

theorem rel_getElem?_of_forall₂ {α β : Type} {R : α → β → Prop} {l : List α} {l' : List β}
    (h : List.Forall₂ R l l') (i : Nat) : Option.Rel R l[i]? l'[i]? := by
  induction h generalizing i with
  | nil => exact .none
  | cons hab _ ih =>
    cases i with
    | zero => exact .some hab
    | succ i => exact ih i

namespace Task.Cut

variable {e : Engine} {whole first second : Task} {reference : InputRef} {input d : Data}

/-- The steps that are executed for the whole are those of the first half, and behind them those of the
second one. -/
theorem exists_trail (h : Cut whole first second reference)
    (hd : chainInput e.stepResult first.steps input first.steps.length = some d) :
    ∃ visits, trail e.stepResult 0 whole.steps input = trail e.stepResult 0 first.steps input ++ visits ∧
      (trail e.stepResult 0 first.steps input).length = first.steps.length ∧
      List.Forall₂ (Visit.MovedBy first.steps.length) (trail e.stepResult 0 second.steps d) visits := by
  obtain ⟨rest, hwhole, hsecond⟩ := h.steps
  have hzero : (fun j => e.stepResult (0 + j)) = e.stepResult := by
    funext j
    rw [Nat.zero_add]
  rw [← hzero] at hd
  refine ⟨_, hwhole ▸ trail_append hd rest, length_trail hd, ?_⟩
  rw [hsecond, Nat.zero_add]
  exact e.forall₂_trail first.steps.length (forall₂_alike_referring reference rest) 0 d

theorem length_whole (h : Cut whole first second reference) :
    whole.steps.length = first.steps.length + second.steps.length := by
  obtain ⟨rest, hwhole, hsecond⟩ := h.steps
  rw [hwhole, List.length_append, hsecond, (forall₂_alike_referring reference rest).length_eq]

theorem rel_chainVisit (h : Cut whole first second reference)
    (hd : chainInput e.stepResult first.steps input first.steps.length = some d) (i : Nat) :
    Option.Rel (Visit.MovedBy first.steps.length) (chainVisit e.stepResult second.steps d i)
      (chainVisit e.stepResult whole.steps input (first.steps.length + i)) := by
  obtain ⟨visits, htrail, hlen, hmoved⟩ := h.exists_trail hd
  rw [← getElem?_trail_zero, ← getElem?_trail_zero, htrail,
    List.getElem?_append_right (by omega), hlen, Nat.add_sub_cancel_left]
  exact rel_getElem?_of_forall₂ hmoved i

theorem exists_moved (h : Cut whole first second reference)
    (hd : chainInput e.stepResult first.steps input first.steps.length = some d) {i : Nat} {v : Visit}
    (hv : chainVisit e.stepResult second.steps d i = some v) :
    ∃ w, chainVisit e.stepResult whole.steps input (first.steps.length + i) = some w ∧
      v.MovedBy first.steps.length w := by
  have hrel := h.rel_chainVisit hd i
  rw [hv] at hrel
  generalize chainVisit e.stepResult whole.steps input (first.steps.length + i) = visit at hrel
  cases hrel with
  | some hmoved => exact ⟨_, rfl, hmoved⟩

/-- The first half is executed in the whole as it is for itself. -/
theorem chainVisit_whole (h : Cut whole first second reference)
    (hd : chainInput e.stepResult first.steps input first.steps.length = some d) {i : Nat}
    (hi : i < first.steps.length) :
    chainVisit e.stepResult whole.steps input i = chainVisit e.stepResult first.steps input i := by
  obtain ⟨visits, htrail, hlen, -⟩ := h.exists_trail hd
  rw [← getElem?_trail_zero, ← getElem?_trail_zero, htrail, List.getElem?_append_left (by omega)]

theorem haltsAt_whole (h : Cut whole first second reference)
    (hfirst : HaltsAt e.stepResult first.steps input first.steps.length)
    (hd : chainInput e.stepResult first.steps input first.steps.length = some d) {k : Nat}
    (hk : HaltsAt e.stepResult second.steps d k) :
    HaltsAt e.stepResult whole.steps input (first.steps.length + k) := by
  have hlen := h.length_whole
  refine ⟨by have := hk.le; omega, fun i hi => ?_, fun hlt => ?_⟩
  · by_cases hin : i < first.steps.length
    · rw [chainOutcome, h.chainVisit_whole hd hin]
      exact hfirst.before i hin
    · obtain ⟨j, rfl⟩ := Nat.exists_eq_add_of_le (Nat.not_lt.1 hin)
      obtain ⟨v, hv⟩ := hk.before j (by omega)
      obtain ⟨visit, hvisit, hok⟩ := Option.map_eq_some_iff.1 hv
      obtain ⟨w, hw, hmoved⟩ := h.exists_moved hd hvisit
      rw [chainOutcome, hw]
      exact ⟨v, congrArg some ((hmoved.result.ok_iff v).1 hok)⟩
  · obtain ⟨f, hf⟩ := hk.failed (by omega)
    obtain ⟨visit, hvisit, herror⟩ := Option.map_eq_some_iff.1 hf
    obtain ⟨w, hw, hmoved⟩ := h.exists_moved hd hvisit
    obtain ⟨f', hf'⟩ := hmoved.result.error_iff.1 ⟨f, herror⟩
    rw [chainOutcome, hw]
    exact ⟨f', congrArg some hf'⟩

theorem deeds_whole (h : Cut whole first second reference)
    (hd : chainInput e.stepResult first.steps input first.steps.length = some d) :
    e.deeds whole input =
      e.deeds first input ++ (e.deeds second d).map (Deed.movedBy first.steps.length) := by
  obtain ⟨visits, htrail, -, hmoved⟩ := h.exists_trail hd
  rw [(Engine.watchedTask_eq h.valid_whole h.turn_whole input).2,
    (Engine.watchedTask_eq h.valid_first h.turn_first input).2,
    (Engine.watchedTask_eq h.valid_second h.turn_second d).2, htrail, List.flatMap_append]
  congr 1
  clear htrail
  generalize trail e.stepResult 0 second.steps d = others at hmoved
  induction hmoved with
  | nil => rfl
  | cons hvw _ ih =>
    rw [List.flatMap_cons, List.flatMap_cons, List.map_append, ih, hvw.index, hvw.input,
      hvw.step.deedsIn_eq, Step.map_movedBy_deedsIn]

/-- The last of the steps that are executed has the same outcome in both reports. -/
theorem outcomes_last (h : Cut whole first second reference)
    (hd : chainInput e.stepResult first.steps input first.steps.length = some d) {k i : Nat}
    (hk : HaltsAt e.stepResult second.steps d k)
    (hk' : HaltsAt e.stepResult whole.steps input (first.steps.length + k)) {v : Visit}
    (hv : chainVisit e.stepResult second.steps d i = some v) (hlast : i = k ∨ i + 1 = second.steps.length) :
    ∃ r r', SameOutcome v.step i (first.steps.length + i) r r' ∧
      chainOutcome e.stepResult second.steps d i = some r ∧
      (chainReport e.stepResult second.steps d).outcome? (v.step.displayName i) = some (.ofExcept r) ∧
      (chainReport e.stepResult whole.steps input).outcome?
        (v.step.displayName (first.steps.length + i)) = some (.ofExcept r') := by
  have hlen := h.length_whole
  obtain ⟨w, hw, hmoved⟩ := h.exists_moved hd hv
  have hsame := hmoved.result
  rw [(chainVisit_eq_some.1 hv).1, (chainVisit_eq_some.1 hw).1] at hsame
  refine ⟨v.result, w.result, hmoved.step.sameOutcome hsame, by rw [chainOutcome, hv]; rfl,
    hk.outcome?_last hv hlast, ?_⟩
  rw [hmoved.step.displayName_eq]
  exact hk'.outcome?_last hw (by omega)

/-- **A chain does in two halves what it does as a whole.** -/
theorem inHalves (h : Cut whole first second reference)
    (hfirst : HaltsAt e.stepResult first.steps input first.steps.length)
    (hd : chainInput e.stepResult first.steps input first.steps.length = some d) :
    InHalves e whole first second input d (chainReport e.stepResult second.steps d)
      (chainReport e.stepResult whole.steps input) := by
  have hlen := h.length_whole
  have hhalts : ∀ {k}, HaltsAt e.stepResult second.steps d k →
      HaltsAt e.stepResult whole.steps input (first.steps.length + k) := h.haltsAt_whole hfirst hd
  obtain ⟨stop, hstop⟩ := exists_haltsAt e.stepResult second.steps d
  refine ⟨h.rel_chainVisit hd, h.deeds_whole hd, fun k => ⟨hhalts, fun hk => ?_⟩,
    fun k hk => ⟨hk.collected_recordAll, (hhalts hk).collected_recordAll⟩, ?_,
    fun hk i step hs hi => ?_, fun k step hk hs => ?_⟩
  · obtain rfl : stop = k := Nat.add_left_cancel ((hhalts hstop).unique hk)
    exact hstop
  · rw [chainReport, chainReport, Report.ofResults, Report.ofResults, hstop.ofResults_eq,
      (hhalts hstop).ofResults_eq]
    refine if_congr ?_ rfl rfl
    omega
  · obtain ⟨x, hx⟩ := hk.exists_chainVisit (by omega) hs
    obtain ⟨r, r', hsame, hr, ho, ho'⟩ := h.outcomes_last hd hk (hhalts hk) hx (Or.inr hi)
    obtain ⟨v, hv⟩ := hk.before i (by omega)
    obtain rfl : r = .ok v := Option.some.inj (hr.symm.trans hv)
    rw [(hsame.ok_iff v).1 rfl] at ho'
    exact ⟨v, ho, ho'⟩
  · obtain ⟨x, hx⟩ := hk.exists_chainVisit (Nat.le_refl k) hs
    obtain ⟨r, r', hsame, hr, ho, ho'⟩ := h.outcomes_last hd hk (hhalts hk) hx (Or.inl rfl)
    obtain ⟨f, hf⟩ := hk.failed (List.getElem?_eq_some_iff.1 hs).1
    obtain rfl : r = .error f := Option.some.inj (hr.symm.trans hf)
    obtain ⟨f', rfl⟩ := hsame.error_iff.1 ⟨f, rfl⟩
    exact ⟨f, f', hsame, ho, ho'⟩

end Task.Cut

end PluginChain
