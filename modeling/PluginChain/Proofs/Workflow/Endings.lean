import PluginChain.Proofs.Workflow.Capacity

/-!
# How calls that overlap end

Each turn of a call uses up one of the moves that it can make at most (`RunPhase.movesLeft`), and as long as
it has not returned there is a turn for it.  So however calls overlap, a call has returned after so many turns
of its own.

What a task returns with is decided by the task and by the width of the engine (`EngineCall.EndsIn`): there is
a report of every task that is valid, unless its steps are to run side by side and there can be no gate of that
width.  Nothing else that happens on the way takes the report away: not a plugin that is missing or fails, nor
one that comes or goes meanwhile.
-/

set_option autoImplicit false

namespace PluginChain

/-! ## How far a call is from its end -/

/-- The moves that are left for a worker. -/
def Worker.movesLeft (w : Worker) : Nat := 4 - w.rank

namespace RunPhase

/-- The most moves that a call can still make, those of its workers included. -/
def movesLeft : RunPhase → Nat
  | ready (.task task _) => 4 * task.steps.length + 2
  | ready (.plugin _) => 2
  | running _ _ => 1
  | between _ left _ _ => 2 * left.length + 1
  | within _ _ left _ _ _ => 2 * left.length + 2
  | sideBySide _ _ _ workers _ => total Worker.movesLeft workers + 1
  | returned _ => 0

variable {eval : Nat → Evaluator} {e e' : Engine} {phase next : RunPhase} {m : Move} {width : Nat}
  {call : EngineCall}

theorem total_movesLeft_waiting (steps : List Step) :
    total Worker.movesLeft (steps.map fun _ => .waiting) = 4 * steps.length := by
  induction steps with
  | nil => rfl
  | cons step steps ih =>
    rw [List.map_cons, total, ih, List.length_cons]
    simp only [Worker.movesLeft, Worker.rank]
    omega

theorem movesLeft_stepped_le (index : Nat) (step : Step) (left : List Step) (current : Data)
    (results : Results) (r : Except StepFailure Data) :
    (stepped index step left current results r).movesLeft ≤ 2 * left.length + 1 := by
  cases r with
  | ok output => exact Nat.le_refl _
  | error f => exact Nat.le_add_left 1 _

theorem Proceeded.movesLeft_lt (h : Proceeded eval e phase next e') : next.movesLeft < phase.movesLeft := by
  cases h with
  | @opened task input =>
    simp only [movesLeft, total_movesLeft_waiting]
    omega
  | unnamed | notFound =>
    refine Nat.lt_of_le_of_lt (movesLeft_stepped_le ..) ?_
    simp only [movesLeft, List.length_cons]
    omega
  | finished => exact Nat.lt_of_le_of_lt (movesLeft_stepped_le ..) (Nat.lt_succ_self _)
  | _ =>
    simp only [movesLeft, List.length_cons]
    omega

theorem movesLeft_lt_of_moveWorker (h : phase.moveWorker eval e m = some (next, e')) :
    next.movesLeft < phase.movesLeft := by
  obtain ⟨steps, input, gate, workers, results, s, rfl, hmoved, rfl, rfl⟩ := exists_moved h
  obtain ⟨w, w', hw, hworkers, hrank⟩ := hmoved.exists_worker
  have htotal := total_set_add hw Worker.movesLeft w'
  have hle := w'.rank_le
  simp only [movesLeft, hworkers]
  simp only [Worker.movesLeft] at htotal
  omega

end RunPhase

/-! ## What a task returns with -/

/-- What a call of a task on an engine of a width can return with. -/
def EngineCall.EndsIn (width : Nat) (task : Task) (reply : EngineReply) : Prop :=
  match task.validate with
  | .error why => reply = .report (.error (.invalid why))
  | .ok () =>
    if task.parallel = true ∧ Engine.gateLimit < width then reply = .report (.error (.gate width))
    else ∃ results, reply = .report (.ok (.ofResults results))

namespace RunPhase

variable {eval : Nat → Evaluator} {e e' : Engine} {phase next : RunPhase} {m : Move} {width : Nat}
  {task : Task} {input : Data}

/-- How the call of a task looks on the way to its end. -/
def IsOn (width : Nat) (task : Task) (input : Data) : RunPhase → Prop
  | ready call => call = .task task input
  | running _ _ => False
  | between _ _ _ _ | within _ _ _ _ _ _ => task.validate = .ok () ∧ task.parallel = false
  | sideBySide _ _ _ _ _ => task.validate = .ok () ∧ width ≤ Engine.gateLimit
  | returned reply => EngineCall.EndsIn width task reply

theorem isOn_stepped {index : Nat} {step : Step} {left : List Step} {current : Data} {results : Results}
    {r : Except StepFailure Data} (hvalid : task.validate = .ok ()) (hparallel : task.parallel = false) :
    (stepped index step left current results r).IsOn width task input := by
  cases r <;> exact ⟨hvalid, hparallel⟩

/-- A report is an end of every task that is valid and has a gate where it needs one. -/
theorem endsIn_report (hvalid : task.validate = .ok ())
    (hgate : ¬ (task.parallel = true ∧ Engine.gateLimit < width)) (results : Results) :
    EngineCall.EndsIn width task (.report (.ok (.ofResults results))) := by
  rw [EngineCall.EndsIn, hvalid]
  exact (if_neg hgate).symm ▸ ⟨results, rfl⟩

theorem Proceeded.isOn (h : Proceeded eval e phase next e') (hon : phase.IsOn e.maxParallel task input) :
    next.IsOn e.maxParallel task input := by
  cases h with
  | invalid hvalid =>
    cases hon
    simp only [IsOn, EngineCall.EndsIn, hvalid]
  | noGate hvalid hparallel hwide =>
    cases hon
    simp only [IsOn, EngineCall.EndsIn, hvalid, hparallel, hwide, and_self, if_true]
  | opened hvalid hparallel hwide =>
    cases hon
    exact ⟨hvalid, hwide⟩
  | begun hvalid hparallel =>
    cases hon
    exact ⟨hvalid, hparallel⟩
  | missing => cases hon
  | found => cases hon
  | answered => cases hon
  | through =>
    obtain ⟨hvalid, hparallel⟩ := hon
    rw [IsOn]
    exact endsIn_report hvalid (fun h => by simp [hparallel] at h) _
  | unnamed | notFound | finished =>
    obtain ⟨hvalid, hparallel⟩ := hon
    exact isOn_stepped hvalid hparallel
  | started => exact hon
  | gathered =>
    obtain ⟨hvalid, hwide⟩ := hon
    rw [IsOn]
    exact endsIn_report hvalid (fun h => Nat.not_lt.2 hwide h.2) _

theorem isOn_of_moveWorker (h : phase.moveWorker eval e m = some (next, e'))
    (hon : phase.IsOn e.maxParallel task input) : next.IsOn e.maxParallel task input := by
  obtain ⟨steps, input', gate, workers, results, s, rfl, hmoved, rfl, rfl⟩ := exists_moved h
  exact hon

end RunPhase

/-! ## Turns of a call -/

instance (i : Nat) : DecidablePred (OverlapTurn.IsOf i)
  | .call j | .worker j _ => inferInstanceAs (Decidable (j = i))
  | .change _ => inferInstanceAs (Decidable False)

namespace Overlap

variable {eval : Nat → Nat → Evaluator} {t t' : Overlap} {turn : OverlapTurn} {turns : List OverlapTurn}
  {i width : Nat} {phase : RunPhase} {e : Engine} {task : Task} {input : Data}

/-- How the call of a task at an index stands: on the way to its end, with so many moves left. -/
structure Stands (width : Nat) (task : Task) (input : Data) (i budget : Nat) (t : Overlap) : Prop where
  width_eq : t.engine.maxParallel = width
  phase : ∃ phase, t.phases[i]? = some phase ∧ phase.IsOn width task input ∧ phase.movesLeft ≤ budget

/-- One call moves by a turn, or the plugins change. -/
theorem exists_moved_of_turn (h : t.turn eval turn = some t') :
    (∃ r, turn = .change r ∧ t' = { t with engine := { t.engine with registry := r } }) ∨
      ∃ (j : Nat) (phase next : RunPhase) (e : Engine), turn.IsOf j ∧ t.phases[j]? = some phase ∧
        t' = ⟨e, t.phases.set j next⟩ ∧ e.maxParallel = t.engine.maxParallel ∧
        next.movesLeft < phase.movesLeft ∧
        ∀ task input, phase.IsOn t.engine.maxParallel task input → next.IsOn t.engine.maxParallel task input := by
  cases turn with
  | call j =>
    obtain ⟨phase, next, e, hj, hproceed, rfl⟩ := exists_of_moveCall h
    have hproceeded := RunPhase.proceeded_of_proceed hproceed
    exact .inr ⟨j, phase, next, e, rfl, hj, rfl, hproceeded.kept.width_eq, hproceeded.movesLeft_lt,
      fun task input => hproceeded.isOn⟩
  | worker j m =>
    obtain ⟨phase, next, e, hj, hmove, rfl⟩ := exists_of_moveCall h
    exact .inr ⟨j, phase, next, e, rfl, hj, rfl, (RunPhase.kept_of_moveWorker hmove).width_eq,
      RunPhase.movesLeft_lt_of_moveWorker hmove, fun task input => RunPhase.isOn_of_moveWorker hmove⟩
  | change r =>
    cases h
    exact .inl ⟨r, rfl, rfl⟩

theorem isOf_unique {j : Nat} (hi : turn.IsOf i) (hj : turn.IsOf j) : i = j := by
  cases turn with
  | call k => exact (show k = i from hi).symm.trans hj
  | worker k m => exact (show k = i from hi).symm.trans hj
  | change r => exact hi.elim

/-- A turn of the call takes one of its moves, and any other turn leaves the call where it was. -/
theorem Stands.turned {budget : Nat} (h : Stands width task input i budget t) (hturn : t.turn eval turn = some t') :
    ∃ budget', Stands width task input i budget' t' ∧
      (if turn.IsOf i then 1 else 0) + budget' ≤ budget := by
  obtain ⟨phase, hi, hon, hleft⟩ := h.phase
  rcases exists_moved_of_turn hturn with ⟨r, rfl, rfl⟩ | ⟨j, before, next, e, hof, hj, rfl, hwidth, hlt, hkept⟩
  · exact ⟨budget, ⟨h.width_eq, phase, hi, hon, hleft⟩, by simp [OverlapTurn.IsOf]⟩
  · by_cases hij : turn.IsOf i
    · obtain rfl := isOf_unique hij hof
      obtain rfl := Option.some.inj (hi.symm.trans hj)
      rw [if_pos hij]
      refine ⟨next.movesLeft, ⟨hwidth.trans h.width_eq, next,
        List.getElem?_set_self (List.getElem?_eq_some_iff.1 hi).1, ?_, Nat.le_refl _⟩, by omega⟩
      rw [← h.width_eq] at hon ⊢
      exact hkept task input hon
    · have hne : j ≠ i := fun hji => hij (hji ▸ hof)
      rw [if_neg hij]
      exact ⟨budget, ⟨hwidth.trans h.width_eq, phase, (List.getElem?_set_ne hne).trans hi, hon, hleft⟩, by omega⟩

theorem Stands.after {budget : Nat} (h : Stands width task input i budget t)
    (hafter : t.after eval turns = some t') :
    ∃ budget', Stands width task input i budget' t' ∧ turns.countP (OverlapTurn.IsOf i) + budget' ≤ budget := by
  induction turns generalizing t budget with
  | nil =>
    cases hafter
    exact ⟨budget, h, by simp⟩
  | cons turn turns ih =>
    rw [Overlap.after, List.foldlM_cons] at hafter
    obtain ⟨t₁, hturn, hrest⟩ := Option.bind_eq_some_iff.1 hafter
    obtain ⟨budget₁, h₁, hle₁⟩ := h.turned hturn
    obtain ⟨budget', h', hle'⟩ := ih h₁ hrest
    refine ⟨budget', h', ?_⟩
    rw [List.countP_cons]
    simp only [decide_eq_true_eq]
    omega

theorem stands_begin {calls : List EngineCall} (hcall : calls[i]? = some (.task task input)) (e : Engine) :
    Stands e.maxParallel task input i (4 * task.steps.length + 2) (begin_ e calls) where
  width_eq := rfl
  phase := ⟨.ready (.task task input), by rw [begin_, List.getElem?_map, hcall]; rfl, rfl, Nat.le_refl _⟩

end Overlap

end PluginChain
