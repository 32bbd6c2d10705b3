import PluginChain.Proofs.Entries
import PluginChain.Workflow

/-!
# What a step comes to

`Step.outcomeIn` is what a step comes to when it finds a certain registry: the plugin it names is looked
up there once, and run on the input and the parameters of the step.  `runStep_eq` says that running a
step on an engine gives just this, whatever else the engine counts.

`Results.recordAll` enters the outcomes of several steps in a row.  The names it binds are those of the
steps (`mem_names_recordAll`), and the last step of a name is the one whose outcome stays
(`get?_recordAll`).
-/

set_option autoImplicit false

namespace PluginChain

/-- What the step at an index comes to on an input, with the plugins of a registry. -/
def Step.outcomeIn (r : Registry) (eval : Evaluator) (index : Nat) (step : Step) (input : Data) :
    Except StepFailure Data :=
  match step.pluginName index with
  | .error f => .error f
  | .ok name =>
    match r.get? name with
    | none => .error (.pluginNotFound (Text.trim name))
    | some p => (eval p input step.paramsData).mapError ExecutionError.toFailure

theorem Engine.runStep_eq (eval : Nat → Evaluator) (index : Nat) (step : Step) (input : Data)
    (e : Engine) :
    (runStep eval index step input e).1 = step.outcomeIn e.registry (eval index) index input := by
  rw [runStep, Step.outcomeIn]
  cases step.pluginName index with
  | error f => rfl
  | ok name =>
    change (e.runPlugin (eval index) name input step.paramsData).1 = _
    simp only [runPlugin, start]
    cases e.registry.get? name <;> rfl

/-! ## Outcomes of several steps -/

/-- A step that was executed: where it stands, what it worked on and what it came to. -/
structure Visit where
  index : Nat
  step : Step
  input : Data
  result : Except StepFailure Data

/-- The name under which the outcome of a visit is collected. -/
def Visit.name (v : Visit) : String := v.step.displayName v.index

/-- The outcomes with those of several steps, one after the other. -/
def Results.recordAll (results : Results) (visits : List Visit) : Results :=
  visits.foldl (fun acc v => acc.record v.index v.step v.result) results

namespace Results

theorem recordAll_cons (results : Results) (v : Visit) (visits : List Visit) :
    results.recordAll (v :: visits) = (results.record v.index v.step v.result).recordAll visits := rfl

theorem recordAll_append (results : Results) (visits more : List Visit) :
    results.recordAll (visits ++ more) = (results.recordAll visits).recordAll more :=
  List.foldl_append

theorem sorted_recordAll {results : Results} (h : Entries.Sorted results) (visits : List Visit) :
    Entries.Sorted (results.recordAll visits) := by
  induction visits generalizing results with
  | nil => exact h
  | cons v visits ih => exact ih (h.put _ _)

theorem mem_names_recordAll (name : String) (results : Results) (visits : List Visit) :
    name ∈ Entries.names (results.recordAll visits) ↔
      name ∈ Entries.names results ∨ ∃ v ∈ visits, v.name = name := by
  induction visits generalizing results with
  | nil => simp [recordAll]
  | cons v visits ih =>
    rw [recordAll_cons, ih, record, Entries.mem_names_put]
    simp only [List.mem_cons, exists_eq_or_imp]
    constructor
    · rintro ((rfl | h) | h)
      · exact Or.inr (Or.inl rfl)
      · exact Or.inl h
      · exact Or.inr (Or.inr h)
    · rintro (h | rfl | h)
      · exact Or.inl (Or.inr h)
      · exact Or.inl (Or.inl rfl)
      · exact Or.inr h

/-- Steps of other names leave what a name is bound to. -/
theorem get?_recordAll_of_ne {name : String} {visits : List Visit}
    (h : ∀ v ∈ visits, v.name ≠ name) (results : Results) :
    Entries.get? name (results.recordAll visits) = Entries.get? name results := by
  induction visits generalizing results with
  | nil => rfl
  | cons v visits ih =>
    rw [recordAll_cons, ih fun u hu => h u (List.mem_cons_of_mem _ hu), record, Entries.get?_put]
    exact if_neg (h v List.mem_cons_self)

/-- The last step of a name is the one whose outcome stays. -/
theorem get?_recordAll (results : Results) (visits : List Visit) (v : Visit) {more : List Visit}
    (h : ∀ u ∈ more, u.name ≠ v.name) :
    Entries.get? v.name (results.recordAll (visits ++ v :: more)) = some (.ofExcept v.result) := by
  rw [recordAll_append, recordAll_cons, get?_recordAll_of_ne h]
  exact Entries.get?_put_self _ _ _

/-- A name that is bound is that of a step, of which there is a last one. -/
theorem exists_last_of_get? {visits : List Visit} {name : String} {o : Outcome}
    (h : Entries.get? name (recordAll [] visits) = some o) :
    ∃ before v later, visits = before ++ v :: later ∧ v.name = name ∧
      ∀ u ∈ later, u.name ≠ name := by
  suffices hlast : (∃ v ∈ visits, v.name = name) → ∃ before v later,
      visits = before ++ v :: later ∧ v.name = name ∧ ∀ u ∈ later, u.name ≠ name by
    have hmem := (Entries.isSome_get?_iff name _).1 (Option.isSome_iff_exists.2 ⟨o, h⟩)
    exact hlast (((mem_names_recordAll name [] visits).1 hmem).resolve_left nofun)
  clear h
  induction visits with
  | nil => exact fun ⟨v, hv, _⟩ => nomatch hv
  | cons v visits ih =>
    intro hex
    by_cases hrest : ∃ u ∈ visits, u.name = name
    · obtain ⟨before, u, later, rfl, hu⟩ := ih hrest
      exact ⟨v :: before, u, later, rfl, hu⟩
    · obtain ⟨u, hu, hname⟩ := hex
      rcases List.mem_cons.1 hu with rfl | hu
      · exact ⟨[], u, visits, rfl, hname, fun x hx heq => hrest ⟨x, hx, heq⟩⟩
      · exact absurd ⟨u, hu, hname⟩ hrest

/-- Every outcome that is bound is that of a step. -/
theorem mem_recordAll {results : Results} {visits : List Visit} {e : String × Outcome}
    (h : e ∈ results.recordAll visits) :
    e ∈ results ∨ ∃ v ∈ visits, e = (v.name, .ofExcept v.result) := by
  induction visits generalizing results with
  | nil => exact Or.inl h
  | cons v visits ih =>
    simp only [List.mem_cons, exists_eq_or_imp]
    rcases ih h with h | h
    · exact (Entries.mem_put h).elim (fun he => Or.inr (Or.inl he)) Or.inl
    · exact Or.inr (Or.inr h)

end Results

theorem Outcome.isOk_ofExcept (r : Except StepFailure Data) :
    (Outcome.ofExcept r).isOk = true ↔ ∃ d, r = .ok d := by
  cases r with
  | ok d => exact ⟨fun _ => ⟨d, rfl⟩, fun _ => rfl⟩
  | error f => simp [Outcome.ofExcept, Outcome.isOk]

/-- Where no step fails, the state of the run is that of one without errors. -/
theorem RunStatus.ofResults_of_ok {visits : List Visit} (h : ∀ v ∈ visits, ∃ d, v.result = .ok d) :
    RunStatus.ofResults (Results.recordAll [] visits) = .completed := by
  rw [ofResults_eq_completed_iff]
  intro e he
  rcases Results.mem_recordAll he with he | ⟨v, hv, rfl⟩
  · cases he
  · exact (Outcome.isOk_ofExcept _).2 (h v hv)

/-- A failure that is bound shows in the state of the run. -/
theorem RunStatus.ofResults_of_failed {results : Results} {name : String} {f : StepFailure}
    (h : Entries.get? name results = some (.failed f)) :
    RunStatus.ofResults results = .completedWithErrors := by
  have hmem := Entries.mem_of_get? h
  rw [ofResults, if_neg]
  intro hall
  cases List.all_eq_true.1 hall _ hmem

end PluginChain
