import PluginChain.Proofs.Workflow.Step

/-!
# How a chain of steps runs

A chain is watched here while plugins come and go: `registries i` is the registry that the step at `i`
finds, and `Watched` keeps what is looked up and what is run.  `watchedStep` executes a step in the way
of `Engine.runStep` (`watchedStep_eq`), so that a chain in an engine nobody touches is one case
(`Engine.runTask_eq_watched`).

What is to be expected says nothing of `chain`.  `chainInput i` is what the step at `i` works on, namely
what the step before it gave, `chainOutcome i` what it comes to, and `HaltsAt k` says that the step at
`k` is the first to fail, or that none does and there are `k` of them.

* `exists_haltsAt` and `HaltsAt.unique`: there is always one such place.
* `run_watched`: the steps up to there are executed, in their order, and nothing is done for a later
  one.  Their outcomes are what is reported, and a failure shows in the state of the run.
-/

set_option autoImplicit false

namespace PluginChain

/-! ## What is expected of a chain -/

section Expected

/-- What the step at an index comes to on an input. -/
abbrev StepResult := Nat → Step → Data → Except StepFailure Data

variable (result : StepResult) (steps : List Step) (input : Data)

/-- What the step at an index works on, if no step before it fails. -/
def chainInput : Nat → Option Data
  | 0 => some input
  | i + 1 => do
    let d ← chainInput i
    let step ← steps[i]?
    (result i step d).toOption

/-- The execution of the step at an index, if no step before it fails. -/
def chainVisit (i : Nat) : Option Visit := do
  let d ← chainInput result steps input i
  let step ← steps[i]?
  return ⟨i, step, d, result i step d⟩

/-- What the step at an index comes to, if no step before it fails. -/
def chainOutcome (i : Nat) : Option (Except StepFailure Data) :=
  (chainVisit result steps input i).map (·.result)

/-- The step at `k` is the first that fails, or there are `k` steps and none fails. -/
structure HaltsAt (k : Nat) : Prop where
  le : k ≤ steps.length
  before : ∀ i < k, ∃ d, chainOutcome result steps input i = some (.ok d)
  failed : k < steps.length → ∃ f, chainOutcome result steps input k = some (.error f)

/-- What the outcomes of a chain have to be that halts at `k`: those of the steps up to there, where of
several steps of one name the last counts. -/
structure Collected (k : Nat) (results : Results) : Prop where
  nodup : (Entries.names results).Nodup
  names : ∀ name, name ∈ Entries.names results ↔
    ∃ i step, i ≤ k ∧ steps[i]? = some step ∧ step.displayName i = name
  last : ∀ i step, i ≤ k → steps[i]? = some step →
    (∀ j later, i < j → j ≤ k → steps[j]? = some later →
      later.displayName j ≠ step.displayName i) →
    ∃ r, chainOutcome result steps input i = some r ∧
      Entries.get? (step.displayName i) results = some (.ofExcept r)

end Expected

section Halting

variable {result : StepResult} {steps : List Step} {input : Data}

theorem chainInput_succ (i : Nat) :
    chainInput result steps input (i + 1) =
      (chainOutcome result steps input i).bind Except.toOption := by
  rw [chainInput, chainOutcome, chainVisit]
  cases chainInput result steps input i with
  | none => rfl
  | some d =>
    cases steps[i]? with
    | none => rfl
    | some step => rfl

theorem chainVisit_eq_some {i : Nat} {v : Visit} :
    chainVisit result steps input i = some v ↔
      v.index = i ∧ steps[i]? = some v.step ∧ chainInput result steps input i = some v.input ∧
        v.result = result i v.step v.input := by
  obtain ⟨index, step, d, r⟩ := v
  rw [chainVisit]
  cases chainInput result steps input i with
  | none => exact ⟨fun h => (nomatch h), fun h => (nomatch h.2.2.1)⟩
  | some d' =>
    cases steps[i]? with
    | none => exact ⟨fun h => (nomatch h), fun h => (nomatch h.2.1)⟩
    | some step' =>
      constructor
      · intro h
        cases h
        exact ⟨rfl, rfl, rfl, rfl⟩
      · rintro ⟨hindex, hs, hd, hr⟩
        cases hindex
        cases hs
        cases hd
        exact congrArg (fun r => some (Visit.mk index step d r)) hr.symm

theorem chainOutcome_of_input {i : Nat} {step : Step} {d : Data} (hs : steps[i]? = some step)
    (hd : chainInput result steps input i = some d) :
    chainOutcome result steps input i = some (result i step d) := by
  rw [chainOutcome, chainVisit, hs, hd]
  rfl

/-- A chain halts somewhere. -/
theorem exists_haltsAt (result : StepResult) (steps : List Step) (input : Data) :
    ∃ k, HaltsAt result steps input k := by
  have h : ∀ n ≤ steps.length, (∃ k, HaltsAt result steps input k) ∨
      (∀ i < n, ∃ d, chainOutcome result steps input i = some (.ok d)) ∧
        ∃ d, chainInput result steps input n = some d := by
    intro n
    induction n with
    | zero => exact fun _ => Or.inr ⟨fun i hi => absurd hi (Nat.not_lt_zero i), input, rfl⟩
    | succ n ih =>
      intro hn
      rcases ih (Nat.le_of_succ_le hn) with h | ⟨hbefore, d, hd⟩
      · exact Or.inl h
      · have hs : steps[n]? = some steps[n] := List.getElem?_eq_getElem hn
        have ho := chainOutcome_of_input hs hd
        cases hr : result n steps[n] d with
        | error f => exact Or.inl ⟨n, Nat.le_of_lt hn, hbefore, fun _ => ⟨f, hr ▸ ho⟩⟩
        | ok output =>
          rw [hr] at ho
          refine Or.inr ⟨fun i hi => ?_, output, by rw [chainInput_succ, ho]; rfl⟩
          rcases Nat.lt_succ_iff_lt_or_eq.1 hi with hi | rfl
          · exact hbefore i hi
          · exact ⟨output, ho⟩
  rcases h steps.length (Nat.le_refl _) with h | ⟨hbefore, -⟩
  · exact h
  · exact ⟨steps.length, Nat.le_refl _, hbefore, fun hlt => absurd hlt (Nat.lt_irrefl _)⟩

/-- A chain halts at one place only. -/
theorem HaltsAt.unique {k l : Nat} (hk : HaltsAt result steps input k)
    (hl : HaltsAt result steps input l) : k = l := by
  have key : ∀ {k l : Nat}, HaltsAt result steps input k → HaltsAt result steps input l → ¬ k < l := by
    intro k l hk hl hlt
    obtain ⟨f, hf⟩ := hk.failed (Nat.lt_of_lt_of_le hlt hl.le)
    obtain ⟨d, hd⟩ := hl.before k hlt
    rw [hf] at hd
    cases hd
  exact Nat.le_antisymm (Nat.not_lt.1 (key hl hk)) (Nat.not_lt.1 (key hk hl))

/-- The chain gets to the step at which it halts. -/
theorem HaltsAt.isSome_chainInput {k : Nat} (h : HaltsAt result steps input k) {i : Nat} (hi : i ≤ k) :
    (chainInput result steps input i).isSome = true := by
  cases i with
  | zero => rfl
  | succ i =>
    obtain ⟨d, hd⟩ := h.before i hi
    rw [chainInput_succ, hd]
    rfl

/-- The chain does not get beyond the step at which it halts. -/
theorem HaltsAt.chainInput_eq_none {k : Nat} (h : HaltsAt result steps input k)
    (hk : k < steps.length) : ∀ {i : Nat}, k < i → chainInput result steps input i = none := by
  intro i hi
  induction hi with
  | refl =>
    obtain ⟨f, hf⟩ := h.failed hk
    rw [chainInput_succ, hf]
    rfl
  | step _ ih => rw [chainInput, ih]; rfl

theorem HaltsAt.le_of_chainVisit {k : Nat} (h : HaltsAt result steps input k) {i : Nat} {v : Visit}
    (hv : chainVisit result steps input i = some v) : i ≤ k := by
  obtain ⟨-, hs, hd, -⟩ := chainVisit_eq_some.1 hv
  have hi : i < steps.length := (List.getElem?_eq_some_iff.1 hs).1
  rcases Nat.lt_or_ge k steps.length with hk | hk
  · refine Nat.not_lt.1 fun hlt => ?_
    rw [h.chainInput_eq_none hk hlt] at hd
    cases hd
  · omega

/-- Up to the place at which it halts there is an execution of each step. -/
theorem HaltsAt.exists_chainVisit {k : Nat} (h : HaltsAt result steps input k) {i : Nat} {step : Step}
    (hi : i ≤ k) (hs : steps[i]? = some step) :
    ∃ d, chainVisit result steps input i = some ⟨i, step, d, result i step d⟩ := by
  obtain ⟨d, hd⟩ := Option.isSome_iff_exists.1 (h.isSome_chainInput hi)
  exact ⟨d, chainVisit_eq_some.2 ⟨rfl, hs, hd, rfl⟩⟩

end Halting

/-! ## The executions of a chain -/

private theorem getElem?_filterMap_of_isSome {α β : Type} {f : α → Option β} {l : List α}
    (h : ∀ a ∈ l, (f a).isSome = true) (i : Nat) : (l.filterMap f)[i]? = l[i]?.bind f := by
  induction l generalizing i with
  | nil => rfl
  | cons a l ih =>
    obtain ⟨b, hb⟩ := Option.isSome_iff_exists.1 (h a List.mem_cons_self)
    rw [List.filterMap_cons_some hb]
    cases i with
    | zero => exact hb.symm
    | succ i => exact ih (fun x hx => h x (List.mem_cons_of_mem _ hx)) i

/-- The executions of a chain that starts at an index. -/
def trail (result : StepResult) : Nat → List Step → Data → List Visit
  | _, [], _ => []
  | index, step :: rest, input =>
    ⟨index, step, input, result index step input⟩ ::
      match result index step input with
      | .ok output => trail result (index + 1) rest output
      | .error _ => []

section Trail

/-- In a chain of one step more the steps behind the first find what it gave. -/
theorem chainInput_cons (result : StepResult) (step : Step) (rest : List Step) (input : Data)
    (i : Nat) :
    chainInput result (step :: rest) input (i + 1) =
      match result 0 step input with
      | .ok output => chainInput (fun j => result (j + 1)) rest output i
      | .error _ => none := by
  induction i with
  | zero =>
    simp only [chainInput, List.getElem?_cons_zero, bind, Option.bind]
    cases result 0 step input <;> rfl
  | succ i ih =>
    rw [chainInput, ih, List.getElem?_cons_succ]
    cases result 0 step input <;> rfl

theorem getElem?_trail (result : StepResult) (start : Nat) (steps : List Step) (input : Data)
    (i : Nat) :
    (trail result start steps input)[i]? =
      (chainInput (fun j => result (start + j)) steps input i).bind fun d =>
        steps[i]?.map fun step => ⟨start + i, step, d, result (start + i) step d⟩ := by
  induction steps generalizing start input i with
  | nil => cases chainInput (fun j => result (start + j)) [] input i <;> rfl
  | cons step rest ih =>
    rw [trail]
    cases i with
    | zero => rfl
    | succ i =>
      have hshift : (fun j => result (start + (j + 1))) = fun j => result (start + 1 + j) := by
        funext j
        rw [Nat.add_assoc, Nat.add_comm 1 j]
      rw [List.getElem?_cons_succ, chainInput_cons, List.getElem?_cons_succ, hshift, Nat.add_zero]
      cases result start step input with
      | error f => rfl
      | ok output =>
        dsimp only
        rw [ih, Nat.add_assoc, Nat.add_comm 1 i]

/-- A trail is made of the executions there are, each at its place. -/
theorem getElem?_trail_zero (result : StepResult) (steps : List Step) (input : Data) (i : Nat) :
    (trail result 0 steps input)[i]? = chainVisit result steps input i := by
  have hzero : (fun j => result (0 + j)) = result := by
    funext j
    rw [Nat.zero_add]
  rw [getElem?_trail, hzero, Nat.zero_add, chainVisit]
  cases chainInput result steps input i with
  | none => rfl
  | some d => cases steps[i]? <;> rfl

variable {result : StepResult} {steps : List Step} {input : Data} {k : Nat}

/-- The executions of a chain that halts at `k` are those of the steps up to there. -/
theorem HaltsAt.trail_eq (h : HaltsAt result steps input k) :
    trail result 0 steps input =
      (List.range (min (k + 1) steps.length)).filterMap (chainVisit result steps input) := by
  have hsome : ∀ i ∈ List.range (min (k + 1) steps.length),
      (chainVisit result steps input i).isSome = true := by
    intro i hi
    have hlt := List.mem_range.1 hi
    have hi' : i < steps.length := by omega
    obtain ⟨d, hd⟩ := h.exists_chainVisit (i := i) (by omega) (List.getElem?_eq_getElem hi')
    rw [hd]
    rfl
  refine List.ext_getElem? fun i => ?_
  rw [getElem?_trail_zero, getElem?_filterMap_of_isSome hsome]
  by_cases hi : i < min (k + 1) steps.length
  · rw [List.getElem?_range hi, Option.bind_some]
  · rw [List.getElem?_eq_none (by rw [List.length_range]; omega), Option.bind_none, chainVisit]
    by_cases hk : k < i
    · by_cases hn : k < steps.length
      · rw [h.chainInput_eq_none hn hk]
        rfl
      · rw [List.getElem?_eq_none (by omega)]
        cases chainInput result steps input i <;> rfl
    · rw [List.getElem?_eq_none (by omega)]
      cases chainInput result steps input i <;> rfl

/-- The outcomes that a chain collects. -/
theorem HaltsAt.collected_recordAll (h : HaltsAt result steps input k) :
    Collected result steps input k (Results.recordAll [] (trail result 0 steps input)) := by
  have hmem : ∀ {v : Visit}, v ∈ trail result 0 steps input ↔
      ∃ i, chainVisit result steps input i = some v := by
    intro v
    simp only [List.mem_iff_getElem?, getElem?_trail_zero]
  refine ⟨(Results.sorted_recordAll Entries.sorted_nil _).nodup_names, fun name => ?_, ?_⟩
  · rw [Results.mem_names_recordAll]
    constructor
    · rintro (hname | ⟨v, hv, rfl⟩)
      · cases hname
      · obtain ⟨i, hi⟩ := hmem.1 hv
        obtain ⟨hindex, hs, -⟩ := chainVisit_eq_some.1 hi
        exact ⟨i, v.step, h.le_of_chainVisit hi, hs, by rw [Visit.name, hindex]⟩
    · rintro ⟨i, step, hi, hs, rfl⟩
      obtain ⟨d, hd⟩ := h.exists_chainVisit hi hs
      exact Or.inr ⟨_, hmem.2 ⟨i, hd⟩, rfl⟩
  · intro i step hi hs hlast
    obtain ⟨d, hd⟩ := h.exists_chainVisit hi hs
    refine ⟨result i step d, by rw [chainOutcome, hd]; rfl, ?_⟩
    rw [← getElem?_trail_zero] at hd
    obtain ⟨hlt, hget⟩ := List.getElem?_eq_some_iff.1 hd
    rw [← List.take_append_drop i (trail result 0 steps input), List.drop_eq_getElem_cons hlt, hget]
    refine Results.get?_recordAll [] _ ⟨i, step, d, result i step d⟩ fun u hu => ?_
    obtain ⟨m, hm⟩ := List.mem_iff_getElem?.1 hu
    rw [List.getElem?_drop, getElem?_trail_zero] at hm
    obtain ⟨hindex, hstep, -⟩ := chainVisit_eq_some.1 hm
    rw [Visit.name, hindex]
    exact hlast (i + 1 + m) u.step (by omega) (h.le_of_chainVisit hm) hstep

/-- A failure is the last outcome of a chain, so it is not covered by another one. -/
theorem HaltsAt.ofResults_eq (h : HaltsAt result steps input k) :
    RunStatus.ofResults (Results.recordAll [] (trail result 0 steps input)) =
      if k < steps.length then .completedWithErrors else .completed := by
  split
  · next hk =>
    obtain ⟨f, hf⟩ := h.failed hk
    have hs : steps[k]? = some steps[k] := List.getElem?_eq_getElem hk
    obtain ⟨r, hr, hget⟩ := h.collected_recordAll.last k steps[k] (Nat.le_refl k) hs
      fun j later hlt hle => absurd hlt (Nat.not_lt.2 hle)
    rw [hf, Option.some_inj] at hr
    subst hr
    exact RunStatus.ofResults_of_failed hget
  · next hk =>
    refine RunStatus.ofResults_of_ok fun v hv => ?_
    obtain ⟨i, hi⟩ := List.mem_iff_getElem?.1 hv
    rw [getElem?_trail_zero] at hi
    have hlt : i < steps.length := (List.getElem?_eq_some_iff.1 (chainVisit_eq_some.1 hi).2.1).1
    obtain ⟨d, hd⟩ := h.before i (by omega)
    rw [chainOutcome, hi, Option.map_some, Option.some_inj] at hd
    exact ⟨d, hd⟩

end Trail

/-! ## Tasks whose steps take turns -/

section Turns

variable {m : Type → Type} [Monad m] {execute : StepRun m}
  {sideBySide : List Step → Data → m (Except RunFault Results)} {task : Task}

theorem Task.run_of_error {why : TaskError} (h : task.validate = .error why) (input : Data) :
    task.run execute sideBySide input = pure (.error (.invalid why)) := by
  rw [run, h]

theorem Task.run_in_turn [LawfulMonad m] (h : task.validate = .ok ()) (hp : task.parallel = false) (input : Data) :
    task.run execute sideBySide input =
      (fun r => .ok (.ofResults r)) <$> chain execute 0 task.steps input [] := by
  rw [run, h]
  simp only [hp, Bool.false_eq_true, if_false, map_eq_pure_bind]

end Turns

/-! ## A chain that is watched -/

/-- What is done for the step at an index. -/
inductive Deed
  | lookUp (index : Nat) (name : String)
  | run (index : Nat) (plugin : CompiledPlugin) (input params : Data)

/-- An engine, and what was done on it. -/
structure Watched where
  engine : Engine
  deeds : List Deed := []

namespace Watched

def note (w : Watched) (d : Deed) : Watched := { w with deeds := w.deeds ++ [d] }

/-- The plugins become those of a registry. -/
def meet (w : Watched) (r : Registry) : Watched := { w with engine := { w.engine with registry := r } }

end Watched

/-- Executes a step with the plugins there are in its turn, and notes what is done for it. -/
def watchedStep (eval : Nat → Evaluator) (registries : Nat → Registry) : StepRun (StateM Watched) :=
  fun index step input w =>
    let w := w.meet (registries index)
    match step.pluginName index with
    | .error f => (.error f, w)
    | .ok name =>
      let w := w.note (.lookUp index name)
      match w.engine.start name with
      | .error f => (.error f, w)
      | .ok (p, engine) =>
        let w := { w with engine }.note (.run index p input step.paramsData)
        let r := eval index p input step.paramsData
        (r.mapError ExecutionError.toFailure, { w with engine := w.engine.finish })

/-- What is done for a step on an input, with the plugins of a registry. -/
def Step.deedsIn (r : Registry) (index : Nat) (step : Step) (input : Data) : List Deed :=
  match step.pluginName index with
  | .error _ => []
  | .ok name =>
    .lookUp index name ::
      match r.get? name with
      | none => []
      | some p => [.run index p input step.paramsData]

section WatchedChain

variable (eval : Nat → Evaluator) (registries : Nat → Registry)

/-- What a step comes to with the plugins there are in its turn. -/
def resultAmid : StepResult := fun index step input =>
  step.outcomeIn (registries index) (eval index) index input

/-- A step that is watched is executed as any other. -/
theorem watchedStep_eq (index : Nat) (step : Step) (input : Data) (w : Watched) :
    watchedStep eval registries index step input w =
      (resultAmid eval registries index step input,
        ⟨(Engine.runStep eval index step input (w.meet (registries index)).engine).2,
          w.deeds ++ step.deedsIn (registries index) index input⟩) := by
  rw [watchedStep, resultAmid, Step.outcomeIn, Engine.runStep, Step.deedsIn]
  cases step.pluginName index with
  | error f =>
    rw [List.append_nil]
    rfl
  | ok name =>
    have hget : (w.meet (registries index)).engine.registry.get? name =
        (registries index).get? name := rfl
    change _ = (_, Watched.mk ((w.meet (registries index)).engine.runPlugin (eval index) name input
      step.paramsData).2 _)
    simp only [Engine.runPlugin, Engine.start, Watched.note, hget]
    cases (registries index).get? name with
    | none => rfl
    | some p => simp only [List.append_assoc]; rfl

theorem Engine.registry_runStep (index : Nat) (step : Step) (input : Data) (e : Engine) :
    (runStep eval index step input e).2.registry = e.registry := by
  rw [runStep]
  cases step.pluginName index with
  | error f => rfl
  | ok name => exact e.registry_runPlugin (eval index) name input step.paramsData

/-- Where the plugins stay as they are, a chain that is watched is a chain. -/
theorem chain_runStep (index : Nat) (steps : List Step) (input : Data) (results : Results)
    (w : Watched) :
    let (r, after) := chain (watchedStep eval fun _ => w.engine.registry) index steps input results w
    chain (Engine.runStep eval) index steps input results w.engine = (r, after.engine) := by
  suffices h : ∀ registry, w.engine.registry = registry →
      let (r, after) := chain (watchedStep eval fun _ => registry) index steps input results w
      chain (Engine.runStep eval) index steps input results w.engine = (r, after.engine) from
    h _ rfl
  intro registry hregistry
  induction steps generalizing index input results w with
  | nil => rfl
  | cons step rest ih =>
    have hmeet : (w.meet registry).engine = w.engine := by rw [← hregistry]; rfl
    have hwatched := watchedStep_eq eval (fun _ => registry) index step input w
    have hresult : (Engine.runStep eval index step input w.engine).1 =
        resultAmid eval (fun _ => registry) index step input := by
      rw [Engine.runStep_eq, hregistry]
      rfl
    simp only [chain, bind, StateT.bind]
    rw [hwatched, hmeet, ← hresult]
    generalize hrun : Engine.runStep eval index step input w.engine = run
    obtain ⟨r, engine⟩ := run
    have hnext : engine.registry = registry := by
      have hkept := Engine.registry_runStep eval index step input w.engine
      rw [hrun] at hkept
      exact hkept.trans hregistry
    cases r with
    | error f => rfl
    | ok output => exact ih (index + 1) output _ ⟨engine, _⟩ hnext

/-- The executions of a chain that is watched, in what it gives and in what was done. -/
theorem chain_watchedStep (index : Nat) (steps : List Step) (input : Data) (results : Results)
    (w : Watched) :
    let visits := trail (resultAmid eval registries) index steps input
    let (r, after) := chain (watchedStep eval registries) index steps input results w
    r = results.recordAll visits ∧
      after.deeds = w.deeds ++ visits.flatMap fun v =>
        v.step.deedsIn (registries v.index) v.index v.input := by
  induction steps generalizing index input results w with
  | nil => exact ⟨rfl, (List.append_nil _).symm⟩
  | cons step rest ih =>
    have hstep := watchedStep_eq eval registries index step input w
    simp only [chain, trail, bind, StateT.bind]
    rw [hstep]
    dsimp only
    cases resultAmid eval registries index step input with
    | error f =>
      refine ⟨rfl, ?_⟩
      rw [List.flatMap_cons, List.flatMap_nil, List.append_nil]
    | ok output =>
      obtain ⟨h₁, h₂⟩ := ih (index + 1) output (results.record index step (.ok output)) ⟨_, _⟩
      refine ⟨h₁, ?_⟩
      rw [List.flatMap_cons, ← List.append_assoc]
      exact h₂

/-- What is done for the step at an index of a chain, if the chain gets there. -/
def deedsAt (steps : List Step) (input : Data) (i : Nat) : List Deed :=
  match chainVisit (resultAmid eval registries) steps input i with
  | some v => v.step.deedsIn (registries i) i v.input
  | none => []

/-- A chain that halts at `k` is done with the steps up to there. -/
theorem HaltsAt.flatMap_trail {eval : Nat → Evaluator} {registries : Nat → Registry}
    {steps : List Step} {input : Data} {k : Nat}
    (h : HaltsAt (resultAmid eval registries) steps input k) :
    ((trail (resultAmid eval registries) 0 steps input).flatMap fun v =>
        v.step.deedsIn (registries v.index) v.index v.input) =
      (List.range (min (k + 1) steps.length)).flatMap (deedsAt eval registries steps input) := by
  rw [h.trail_eq]
  induction List.range (min (k + 1) steps.length) with
  | nil => rfl
  | cons i is ih =>
    rw [List.flatMap_cons, deedsAt, List.filterMap_cons]
    cases hv : chainVisit (resultAmid eval registries) steps input i with
    | none => exact ih
    | some v =>
      rw [List.flatMap_cons, ih, (chainVisit_eq_some.1 hv).1]

/-- **A chain runs up to its first failure.**  A task that is not valid is refused before anything is
done.  The steps of a valid one are executed up to the first that fails, each with the plugins there
are in its turn; their outcomes are collected, and the run has errors just if there is such a step. -/
theorem run_watched (sideBySide : List Step → Data → StateM Watched (Except RunFault Results))
    (task : Task) (input : Data) (w : Watched) :
    let (answer, after) := (task.run (watchedStep eval registries) sideBySide input).run w
    (∀ why, task.validate = .error why →
      answer.mapError ChainError.ofRunFault = .error (.structural (.invalid why)) ∧ after = w) ∧
    (task.validate = .ok () → task.parallel = false →
      ∃ k report, HaltsAt (resultAmid eval registries) task.steps input k ∧
        answer = .ok report ∧
        Collected (resultAmid eval registries) task.steps input k report.results ∧
        (report.status = .completedWithErrors ↔ k < task.steps.length) ∧
        (report.status = .completed ↔ k = task.steps.length) ∧
        after.deeds = w.deeds ++ (List.range (min (k + 1) task.steps.length)).flatMap
          (deedsAt eval registries task.steps input)) := by
  generalize hrun : (task.run (watchedStep eval registries) sideBySide input).run w = run
  obtain ⟨answer, after⟩ := run
  refine ⟨fun why hv => ?_, fun hv hp => ?_⟩
  · rw [Task.run_of_error hv] at hrun
    cases hrun
    exact ⟨rfl, rfl⟩
  · obtain ⟨k, hk⟩ := exists_haltsAt (resultAmid eval registries) task.steps input
    obtain ⟨hresults, hdeeds⟩ := chain_watchedStep eval registries 0 task.steps input [] w
    have hle := hk.le
    rw [Task.run_in_turn hv hp] at hrun
    cases hrun
    refine ⟨k, .ofResults (Results.recordAll [] (trail (resultAmid eval registries) 0 task.steps
      input)), hk, congrArg (fun r => Except.ok (Report.ofResults r)) hresults,
      hk.collected_recordAll, ?_, ?_, hdeeds.trans (by rw [hk.flatMap_trail])⟩
    · rw [Report.ofResults, hk.ofResults_eq]
      split
      · next hlt => exact ⟨fun _ => hlt, fun _ => rfl⟩
      · next hlt => exact ⟨fun h => (nomatch h), fun h => absurd h hlt⟩
    · rw [Report.ofResults, hk.ofResults_eq]
      split
      · next hlt => exact ⟨fun h => (nomatch h), fun h => absurd h (Nat.ne_of_lt hlt)⟩
      · next hlt => exact ⟨fun _ => by omega, fun _ => rfl⟩

/-- A chain whose first step finds no plugin does nothing for the second one. -/
theorem run_watched_no_plugin :
    let task : Task := ⟨"pair", "", [.running "a", .running "b"], false⟩
    let execute := watchedStep (fun _ _ _ _ => .ok .null) fun _ => {}
    let (answer, after) := (task.run execute (fun _ _ => pure (.ok [])) .null).run ⟨default, []⟩
    task.validate = .ok () ∧ task.parallel = false ∧
      ∃ report, answer = .ok report ∧ report.status = .completedWithErrors ∧
        after.deeds = [.lookUp 0 "a"] := by
  have hv : Task.validate ⟨"pair", "", [.running "a", .running "b"], false⟩ = .ok () := rfl
  obtain ⟨k, report, hk, hanswer, -, hstatus, -, hdeeds⟩ :=
    (run_watched (fun _ _ _ _ => .ok .null) (fun _ => {}) (fun _ _ => pure (.ok []))
      ⟨"pair", "", [.running "a", .running "b"], false⟩ .null ⟨default, []⟩).2 hv rfl
  have hfirst : HaltsAt (resultAmid (fun _ _ _ _ => .ok .null) fun _ => {})
      [.running "a", .running "b"] .null 0 :=
    ⟨by decide, fun i hi => absurd hi (Nat.not_lt_zero i), fun _ => ⟨.pluginNotFound "a", rfl⟩⟩
  obtain rfl := hk.unique hfirst
  exact ⟨hv, rfl, report, hanswer, hstatus.2 (by decide), hdeeds⟩

/-- In an engine that nobody else touches, the steps of a task are run in the way that is watched. -/
theorem Engine.runTask_eq_watched (e : Engine) (task : Task) (input : Data)
    (sideBySide : List Step → Data → StateM Watched (Except RunFault Results))
    (hp : task.parallel = false) :
    let execute := watchedStep (fun _ => e.evaluator none) fun _ => e.registry
    let (answer, after) := (task.run execute sideBySide input).run ⟨e, []⟩
    e.runTask task input = (answer, after.engine) := by
  intro execute
  rw [runTask]
  cases hv : task.validate with
  | error why =>
    rw [Task.run_of_error hv, Task.run_of_error hv]
    rfl
  | ok u =>
    have hchain := chain_runStep (fun _ => e.evaluator none) 0 task.steps input [] ⟨e, []⟩
    rw [Task.run_in_turn hv hp, Task.run_in_turn hv hp]
    exact congrArg (fun run => (Except.ok (Report.ofResults run.1), run.2)) hchain

end WatchedChain

end PluginChain
