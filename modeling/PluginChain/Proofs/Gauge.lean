import Mathlib.Data.List.Induction
import Mathlib.Order.Bounds.Basic
import PluginChain.Gauge
import PluginChain.Proofs.Row

/-!
# A gauge that is shared

Any number of executions enter and leave one gauge.  An execution enters in two moves: it is counted, and
then it notes the count that it made.  Between the two others may enter and leave, so that for a while the
peak may be lower than the count.

What makes the peak exact in the end is that no count is forgotten: the highest there was has been noted, or
some execution is about to note it (`SharedGauge.Sound.noted`).

* `SharedGauge.Sound.move` says that every move keeps this, and `SharedGauge.exists_sound` that it is so
  after any moves.
* `SharedGauge.peak_of_counts`: the count is that of the executions which were counted and have not left,
  and where none of them has still to note its count the peak is the highest count there was.

The counts are natural numbers.  An execution that is counted takes up memory of its own, so that a machine
word is wide enough for all of them.
-/

set_option autoImplicit false

namespace PluginChain

/-- How far an execution is. -/
inductive GaugePhase
  | outside
  /-- Counted, and about to note the count that it made. -/
  | entering (seen : Nat)
  | inside
  | left
  deriving Repr, DecidableEq

namespace GaugePhase

/-- The execution was counted once. -/
def wasCounted : GaugePhase → Bool
  | outside => false
  | entering _ | inside | left => true

/-- The execution is counted now. -/
def isCounted : GaugePhase → Bool
  | entering _ | inside => true
  | outside | left => false

def hasLeft : GaugePhase → Bool
  | left => true
  | outside | entering _ | inside => false

def isEntering : GaugePhase → Bool
  | entering _ => true
  | outside | inside | left => false

theorem countP_wasCounted (phases : List GaugePhase) :
    phases.countP wasCounted = phases.countP isCounted + phases.countP hasLeft := by
  induction phases with
  | nil => rfl
  | cons phase phases ih =>
    rw [List.countP_cons, List.countP_cons, List.countP_cons, ih]
    cases phase <;> simp [wasCounted, isCounted, hasLeft] <;> omega

end GaugePhase

/-- A gauge with the executions that enter and leave it. -/
structure SharedGauge where
  gauge : Gauge
  phases : List GaugePhase
  deriving Repr, DecidableEq

namespace SharedGauge

def begin_ (n : Nat) : SharedGauge := ⟨{}, List.replicate n .outside⟩

/-- The next move of the execution at an index, if it has one. -/
def move (t : SharedGauge) (i : Nat) : Option SharedGauge :=
  match t.phases[i]? with
  | some .outside => some ⟨t.gauge.raise, t.phases.set i (.entering t.gauge.raise.current)⟩
  | some (.entering seen) => some ⟨t.gauge.note seen, t.phases.set i .inside⟩
  | some .inside => some ⟨t.gauge.leave, t.phases.set i .left⟩
  | some .left | none => none

/-- The executions moving in an order, if each of them can. -/
def after (t : SharedGauge) (turns : List Nat) : Option SharedGauge := turns.foldlM move t

/-- The counts there were before, between and behind some turns. -/
def counts (t : SharedGauge) (turns : List Nat) : Set Nat :=
  {c | ∃ k u, t.after (turns.take k) = some u ∧ u.gauge.current = c}

variable {t t' : SharedGauge} {i n greatest : Nat} {turns : List Nat}

theorem after_concat (t : SharedGauge) (turns : List Nat) (i : Nat) :
    t.after (turns ++ [i]) = (t.after turns).bind fun u => u.move i := by
  simp [after, List.foldlM_append]

/-- An execution that nothing comes between enters in one go. -/
theorem after_enter (h : t.phases[i]? = some .outside) :
    t.after [i, i] = some ⟨t.gauge.enter, t.phases.set i .inside⟩ := by
  have hcounted : t.move i = some ⟨t.gauge.raise, t.phases.set i (.entering t.gauge.raise.current)⟩ := by
    rw [move, h]
  have hset : (t.phases.set i (.entering t.gauge.raise.current))[i]? =
      some (.entering t.gauge.raise.current) :=
    List.getElem?_set_self (List.getElem?_eq_some_iff.1 h).1
  have hnoted : move ⟨t.gauge.raise, t.phases.set i (.entering t.gauge.raise.current)⟩ i =
      some ⟨t.gauge.enter, t.phases.set i .inside⟩ := by
    simp only [move, hset, List.set_set]
    rfl
  simp only [after, List.foldlM_cons, hcounted, List.foldlM_nil, Option.bind_eq_bind, Option.bind_some, hnoted]
  rfl

/-! ## What every move keeps -/

/-- What is true of a gauge whose highest count was `greatest`. -/
structure Sound (t : SharedGauge) (greatest : Nat) : Prop where
  current_eq : t.gauge.current = t.phases.countP GaugePhase.isCounted
  current_le : t.gauge.current ≤ greatest
  peak_le : t.gauge.peak ≤ greatest
  seen_le : ∀ seen, .entering seen ∈ t.phases → seen ≤ greatest
  /-- The highest count has been noted, or is about to be. -/
  noted : greatest ≤ t.gauge.peak ∨ .entering greatest ∈ t.phases

theorem sound_begin (n : Nat) : (begin_ n).Sound 0 where
  current_eq := by simp [begin_, List.countP_replicate, GaugePhase.isCounted]
  current_le := Nat.le_refl 0
  peak_le := Nat.le_refl 0
  seen_le seen hseen := by simp [begin_] at hseen
  noted := Or.inl (Nat.le_refl 0)

theorem Sound.raise (h : t.Sound greatest) (hi : t.phases[i]? = some .outside) :
    Sound ⟨t.gauge.raise, t.phases.set i (.entering t.gauge.raise.current)⟩
      (max greatest t.gauge.raise.current) where
  current_eq := by
    have hcount := countP_set_add hi GaugePhase.isCounted (.entering t.gauge.raise.current)
    rw [GaugePhase.isCounted, GaugePhase.isCounted, ← h.current_eq] at hcount
    exact hcount.symm
  current_le := Nat.le_max_right _ _
  peak_le := h.peak_le.trans (Nat.le_max_left _ _)
  seen_le seen hseen := by
    rcases List.mem_or_eq_of_mem_set hseen with hold | hnew
    · exact (h.seen_le seen hold).trans (Nat.le_max_left _ _)
    · cases hnew
      exact Nat.le_max_right _ _
  noted := by
    by_cases hhigher : greatest ≤ t.gauge.raise.current
    · -- the count that was just made is the highest
      rw [Nat.max_eq_right hhigher]
      exact Or.inr (List.mem_set (List.getElem?_eq_some_iff.1 hi).1 _)
    · rw [Nat.max_eq_left (Nat.le_of_not_le hhigher)]
      refine h.noted.imp_right fun hmem => ?_
      exact mem_set_of_ne hi hmem GaugePhase.noConfusion _

theorem Sound.note {seen : Nat} (h : t.Sound greatest) (hi : t.phases[i]? = some (.entering seen)) :
    Sound ⟨t.gauge.note seen, t.phases.set i .inside⟩ greatest where
  current_eq := by
    have hcount := countP_set_add hi GaugePhase.isCounted .inside
    rw [GaugePhase.isCounted, GaugePhase.isCounted, ← h.current_eq] at hcount
    exact (Nat.add_right_cancel hcount).symm
  current_le := h.current_le
  peak_le := Nat.max_le.2 ⟨h.peak_le, h.seen_le seen (List.mem_of_getElem? hi)⟩
  seen_le seen' hseen := by
    rcases List.mem_or_eq_of_mem_set hseen with hold | hnew
    · exact h.seen_le seen' hold
    · cases hnew
  noted := by
    rcases h.noted with hpeak | hmem
    · exact Or.inl (hpeak.trans (Nat.le_max_left _ _))
    · by_cases hseen : seen = greatest
      · exact Or.inl (hseen ▸ Nat.le_max_right _ _)
      · refine Or.inr (mem_set_of_ne hi hmem (fun heq => hseen ?_) _)
        exact (GaugePhase.entering.inj heq).symm

theorem Sound.leave (h : t.Sound greatest) (hi : t.phases[i]? = some .inside) :
    Sound ⟨t.gauge.leave, t.phases.set i .left⟩ greatest where
  current_eq := by
    have hcount := countP_set_add hi GaugePhase.isCounted .left
    rw [GaugePhase.isCounted, GaugePhase.isCounted, ← h.current_eq] at hcount
    exact Nat.sub_eq_of_eq_add hcount.symm
  current_le := (Nat.sub_le _ _).trans h.current_le
  peak_le := h.peak_le
  seen_le seen hseen := by
    rcases List.mem_or_eq_of_mem_set hseen with hold | hnew
    · exact h.seen_le seen hold
    · cases hnew
  noted := by
    refine h.noted.imp_right fun hmem => ?_
    exact mem_set_of_ne hi hmem GaugePhase.noConfusion _

/-- **Every move keeps it**, and a new count may be the highest. -/
theorem Sound.move (h : t.Sound greatest) (hmove : t.move i = some t') :
    t'.Sound (max greatest t'.gauge.current) := by
  rw [SharedGauge.move] at hmove
  split at hmove
  · next hi =>
    cases hmove
    exact h.raise hi
  · next seen hi =>
    cases hmove
    rw [Nat.max_eq_left (h.note hi).current_le]
    exact h.note hi
  · next hi =>
    cases hmove
    rw [Nat.max_eq_left (h.leave hi).current_le]
    exact h.leave hi
  · cases hmove
  · cases hmove

theorem peak_le_of_move (hmove : t.move i = some t') : t.gauge.peak ≤ t'.gauge.peak := by
  rw [SharedGauge.move] at hmove
  split at hmove
  · cases hmove
    exact Nat.le_refl _
  · cases hmove
    exact Nat.le_max_left _ _
  · cases hmove
    exact Nat.le_refl _
  · cases hmove
  · cases hmove

/-! ## After any moves -/

/-- One turn more adds the count that it leads to. -/
theorem counts_concat (h : t.after (turns ++ [i]) = some t') :
    t.counts (turns ++ [i]) = insert t'.gauge.current (t.counts turns) := by
  ext c
  constructor
  · rintro ⟨k, u, hu, rfl⟩
    rcases Nat.lt_or_ge turns.length k with hk | hk
    · rw [List.take_of_length_le (by rw [List.length_append, List.length_singleton]; omega), h] at hu
      cases hu
      exact Set.mem_insert _ _
    · rw [List.take_append_of_le_length hk] at hu
      exact Set.mem_insert_of_mem _ ⟨k, u, hu, rfl⟩
  · rintro (rfl | ⟨k, u, hu, rfl⟩)
    · exact ⟨turns.length + 1, t', by rwa [List.take_of_length_le (by simp)], rfl⟩
    · refine ⟨min k turns.length, u, ?_, rfl⟩
      rwa [List.take_append_of_le_length (Nat.min_le_right _ _), ← List.take_eq_take_min]

theorem exists_sound (h : (begin_ n).after turns = some t) :
    ∃ greatest, t.Sound greatest ∧ IsGreatest ((begin_ n).counts turns) greatest := by
  induction turns using List.reverseRecOn generalizing t with
  | nil =>
    cases h
    refine ⟨0, sound_begin n, ⟨0, begin_ n, rfl, rfl⟩, ?_⟩
    rintro c ⟨k, u, hu, rfl⟩
    rw [List.take_nil] at hu
    cases hu
    exact Nat.le_refl 0
  | append_singleton turns i ih =>
    have hlast := h
    rw [after_concat] at hlast
    obtain ⟨t₁, hturns, hmove⟩ := Option.bind_eq_some_iff.1 hlast
    obtain ⟨greatest, hsound, hgreatest⟩ := ih hturns
    refine ⟨_, hsound.move hmove, ?_⟩
    rw [counts_concat h, Nat.max_comm]
    exact hgreatest.insert _

/-- **What a gauge shows.**  Executions enter and leave in any order, and others move while one enters.  Those
that are counted now and those that have left are together those that were counted, so that no count is
taken off that was not put on.  The peak never falls, and never passes the highest count there was; where no
execution is still entering it is the highest count there was, and no lower than the count now. -/
theorem peak_of_counts (h : (begin_ n).after turns = some t) :
    t.gauge.current + t.phases.countP GaugePhase.hasLeft = t.phases.countP GaugePhase.wasCounted ∧
    (∀ i : Nat, t.phases[i]? = some .inside → 0 < t.gauge.current) ∧
    (∀ more t', t.after more = some t' → t.gauge.peak ≤ t'.gauge.peak) ∧
    ∃ greatest, IsGreatest ((begin_ n).counts turns) greatest ∧ t.gauge.peak ≤ greatest ∧
      ((∀ phase ∈ t.phases, phase.isEntering = false) → t.gauge.peak = greatest ∧ t.gauge.Sound) := by
  obtain ⟨greatest, hsound, hgreatest⟩ := exists_sound h
  refine ⟨?_, fun i hi => ?_, fun more t' hmore => ?_, greatest, hgreatest, hsound.peak_le, fun hquiet => ?_⟩
  · rw [hsound.current_eq, GaugePhase.countP_wasCounted]
  · rw [hsound.current_eq, List.countP_pos_iff]
    exact ⟨.inside, List.mem_of_getElem? hi, rfl⟩
  · exact foldlM_keeps (P := fun u => t.gauge.peak ≤ u.gauge.peak)
      (fun hle hmove => hle.trans (peak_le_of_move hmove)) (Nat.le_refl _) hmore
  · rcases hsound.noted with hnoted | hentering
    · have hpeak := Nat.le_antisymm hsound.peak_le hnoted
      exact ⟨hpeak, hsound.current_le.trans_eq hpeak.symm⟩
    · cases hquiet _ hentering

/-- The second of two executions is through with entering before the first, and leaves again. -/
theorem peak_of_counts_overtaken :
    ∃ t, (begin_ 2).after [0, 1, 1, 1, 0] = some t ∧ t.gauge = ⟨1, 2⟩ ∧
      IsGreatest ((begin_ 2).counts [0, 1, 1, 1, 0]) 2 := by
  have hrun : (begin_ 2).after [0, 1, 1, 1, 0] = some ⟨⟨1, 2⟩, [.inside, .left]⟩ := by decide
  obtain ⟨-, -, -, greatest, hgreatest, -, hquiet⟩ := peak_of_counts hrun
  obtain ⟨rfl, -⟩ := hquiet (by decide)
  exact ⟨_, hrun, rfl, hgreatest⟩

end SharedGauge

end PluginChain
