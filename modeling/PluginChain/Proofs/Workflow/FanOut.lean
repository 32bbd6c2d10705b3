import PluginChain.Proofs.Workflow.Schedule

/-!
# How steps run side by side

Whatever the schedule, the workers of a task come to an end: each has at most four moves, and as long as
one of them is not through, some worker can move (`exists_move`).  The gate never closes, so no
worker is turned away.

At the end every step has entered its outcome once, and `Gathered` says what is there then: the names
are those of the steps, and under a name stands the outcome of the step that was the last of this name
to write.  Where the plugins stay as they are, a step that shares its name with no other has the same
outcome on every schedule (`Gathered.get?_of_unique`).

`run` is the schedule in which the workers move one after the other (`exists_schedule`).
-/

set_option autoImplicit false

namespace PluginChain

namespace FanOut

variable {eval : Nat → Evaluator} {steps : List Step} {input : Data} {r₀ : Registry}
  {turns : List Turn} {width : Nat} {s : FanOut}

/-- All workers are through. -/
def Finished (s : FanOut) : Prop := ∀ w ∈ s.workers, ∃ r, w = .recorded r

/-! ## Every schedule comes to an end -/

/-- A worker inside the gate can always move. -/
theorem exists_move_of_isInside {i : Nat} {w : Worker} {step : Step} (hw : s.workers[i]? = some w)
    (hs : steps[i]? = some step) (hin : w.isInside = true) :
    ∃ m, (s.move eval steps input m).isSome = true := by
  cases w with
  | inside =>
    refine ⟨.start i, ?_⟩
    rw [move, hw, hs]
    dsimp only
    split
    · rfl
    · split <;> rfl
  | running p =>
    refine ⟨.finish i, ?_⟩
    rw [move, hw, hs]
    rfl
  | waiting => cases hin
  | done r => cases hin
  | recorded r => cases hin

/-- As long as a worker is not through, some worker can move: it itself, or one that takes up a place
inside the gate. -/
theorem exists_move (hlength : s.workers.length = steps.length) (hopen : s.gate.closed = false)
    (hplaces : 0 < s.gate.free + s.workers.countP Worker.isInside) (hnot : ¬ s.Finished) :
    ∃ m, (s.move eval steps input m).isSome = true := by
  have hstep : ∀ {i : Nat} {w : Worker}, s.workers[i]? = some w →
      ∃ step : Step, steps[i]? = some step := by
    intro i w hw
    have hi := (List.getElem?_eq_some_iff.1 hw).1
    rw [hlength] at hi
    exact ⟨steps[i], List.getElem?_eq_getElem hi⟩
  simp only [Finished, Classical.not_forall] at hnot
  obtain ⟨w, hmem, hrecorded⟩ := hnot
  obtain ⟨i, hw⟩ := List.mem_iff_getElem?.1 hmem
  obtain ⟨step, hs⟩ := hstep hw
  cases w with
  | waiting =>
    by_cases hfree : s.gate.free = 0
    · have hcount : 0 < s.workers.countP Worker.isInside := by omega
      obtain ⟨w', hmem', hin⟩ := List.countP_pos_iff.1 hcount
      obtain ⟨j, hw'⟩ := List.mem_iff_getElem?.1 hmem'
      obtain ⟨step', hs'⟩ := hstep hw'
      exact exists_move_of_isInside hw' hs' hin
    · refine ⟨.enter i, ?_⟩
      rw [move, hw]
      dsimp only
      rw [hopen, if_neg Bool.false_ne_true, if_neg hfree]
      rfl
  | inside => exact exists_move_of_isInside hw hs rfl
  | running p => exact exists_move_of_isInside hw hs rfl
  | done r =>
    refine ⟨.record i, ?_⟩
    rw [move, hw, hs]
    rfl
  | recorded r => exact absurd ⟨r, rfl⟩ hrecorded

theorem Sound.exists_move (h : Sound eval steps input r₀ turns width s) (hwidth : 0 < width)
    (hnot : ¬ s.Finished) : ∃ m, (s.move eval steps input m).isSome = true :=
  FanOut.exists_move h.length_eq h.gate_open (h.places.symm ▸ hwidth) hnot

/-- What the outcomes have to be when all workers are through. -/
structure Gathered (eval : Nat → Evaluator) (steps : List Step) (input : Data) (r₀ : Registry)
    (turns : List Turn) (results : Results) : Prop where
  once : (writers turns).Nodup ∧ ∀ i, i ∈ writers turns ↔ i < steps.length
  nodup : (Entries.names results).Nodup
  names : ∀ name, name ∈ Entries.names results ↔
    ∃ (i : Nat) (step : Step), steps[i]? = some step ∧ step.displayName i = name
  last : ∀ name o, Entries.get? name results = some o →
    ∃ (i : Nat) (step : Step) (r : Except StepFailure Data) (before later : List Nat),
      steps[i]? = some step ∧ step.displayName i = name ∧ writers turns = before ++ i :: later ∧
      (∀ j ∈ later, ∀ other : Step, steps[j]? = some other → other.displayName j ≠ name) ∧
      CameTo eval steps input r₀ turns i step r ∧ o = .ofExcept r

theorem Sound.mem_writers_iff (h : Sound eval steps input r₀ turns width s) (hf : s.Finished) (i : Nat) :
    i ∈ writers turns ↔ i < steps.length := by
  obtain ⟨visits, hlog⟩ := h.logged
  constructor
  · intro hi
    rw [← hlog.indices] at hi
    obtain ⟨v, hv, rfl⟩ := List.mem_map.1 hi
    exact (List.getElem?_eq_some_iff.1 (hlog.steps_eq v hv)).1
  · intro hi
    have hi' : i < s.workers.length := h.length_eq ▸ hi
    obtain ⟨r, hr⟩ := hf _ (List.getElem_mem hi')
    have hw := List.getElem?_eq_getElem hi'
    rw [hr] at hw
    exact (h.story (List.getElem?_eq_getElem hi) hw).2

theorem Sound.gathered (h : Sound eval steps input r₀ turns width s) (hf : s.Finished) :
    Gathered eval steps input r₀ turns s.results := by
  have hwriters := h.mem_writers_iff hf
  obtain ⟨visits, hlog⟩ := h.logged
  rw [hlog.results_eq]
  refine ⟨⟨h.nodup, hwriters⟩,
    (Results.sorted_recordAll Entries.sorted_nil visits).nodup_names, fun name => ?_, ?_⟩
  · rw [Results.mem_names_recordAll]
    constructor
    · rintro (hname | ⟨v, hv, rfl⟩)
      · cases hname
      · exact ⟨v.index, v.step, hlog.steps_eq v hv, rfl⟩
    · rintro ⟨i, step, hs, rfl⟩
      have hi := (hwriters i).2 (List.getElem?_eq_some_iff.1 hs).1
      rw [← hlog.indices] at hi
      obtain ⟨v, hv, rfl⟩ := List.mem_map.1 hi
      cases hs.symm.trans (hlog.steps_eq v hv)
      exact Or.inr ⟨v, hv, rfl⟩
  · intro name o ho
    obtain ⟨before, v, later, hvisits, hname, hlater⟩ := Results.exists_last_of_get? ho
    have hv : v ∈ visits := by
      rw [hvisits]
      exact List.mem_append_right _ List.mem_cons_self
    refine ⟨v.index, v.step, v.result, before.map (·.index), later.map (·.index),
      hlog.steps_eq v hv, hname, ?_, ?_,
      (h.story (hlog.steps_eq v hv) (hlog.workers_eq v hv)).1, ?_⟩
    · rw [← hlog.indices, hvisits, List.map_append, List.map_cons]
    · intro j hj other hother
      obtain ⟨u, hu, rfl⟩ := List.mem_map.1 hj
      have hmem : u ∈ visits := by
        rw [hvisits]
        exact List.mem_append_right _ (List.mem_cons_of_mem _ hu)
      cases hother.symm.trans (hlog.steps_eq u hmem)
      exact hlater u hu
    · rw [hvisits, ← hname, Results.get?_recordAll _ _ _ fun u hu => hname ▸ hlater u hu] at ho
      exact (Option.some_inj.1 ho).symm

/-- Moves that are not possible are left out of a schedule. -/
theorem exists_turns_of_tryMove (moves : List Move) (s : FanOut) :
    ∃ turns, (∀ t ∈ turns, t.isMove = true) ∧
      s.after eval steps input turns = some (moves.foldl (tryMove eval steps input) s) := by
  induction moves generalizing s with
  | nil => exact ⟨[], nofun, rfl⟩
  | cons m moves ih =>
    obtain ⟨turns, hmoves, hafter⟩ := ih (s.tryMove eval steps input m)
    rw [List.foldl_cons]
    cases hm : s.move eval steps input m with
    | none =>
      rw [tryMove, hm] at hafter ⊢
      exact ⟨turns, hmoves, hafter⟩
    | some s' =>
      refine ⟨.move m :: turns, ?_, ?_⟩
      · intro t ht
        rcases List.mem_cons.1 ht with rfl | ht
        · rfl
        · exact hmoves t ht
      · have htry : s.tryMove eval steps input m = s' := by rw [tryMove, hm]; rfl
        rw [htry] at hafter ⊢
        rw [after, List.foldlM_cons, turn, hm]
        exact hafter

theorem tryMove_of_some {m : Move} {s' : FanOut} (h : s.move eval steps input m = some s') :
    s.tryMove eval steps input m = s' := by
  rw [tryMove, h]
  rfl

/-- A worker that has its plugin or its outcome is brought to its end. -/
theorem foldl_finish_record (eval : Nat → Evaluator) (input : Data) {i : Nat} {step : Step}
    {w : Worker} (hs : steps[i]? = some step) (hw : s.workers[i]? = some w)
    (hrank : w.rank = 2 ∨ w.rank = 3) :
    ∃ r, ([.finish i, .record i].foldl (tryMove eval steps input) s).workers =
        s.workers.set i (.recorded r) ∧
      ([.finish i, .record i].foldl (tryMove eval steps input) s).gate =
        if w.isInside then s.gate.letOut else s.gate := by
  have hlt : i < s.workers.length := (List.getElem?_eq_some_iff.1 hw).1
  cases w with
  | running p =>
    have hfinish : s.move eval steps input (.finish i) =
        some ({ s with engine := s.engine.finish }.leave i
          ((eval i p input step.paramsData).mapError ExecutionError.toFailure)) := by
      rw [move, hw, hs]
    have hdone : ({ s with engine := s.engine.finish }.leave i
        ((eval i p input step.paramsData).mapError ExecutionError.toFailure)).workers[i]? =
          some (.done ((eval i p input step.paramsData).mapError ExecutionError.toFailure)) :=
      List.getElem?_set_self hlt
    rw [List.foldl_cons, List.foldl_cons, List.foldl_nil, tryMove_of_some hfinish,
      tryMove_of_some (by rw [move, hdone, hs])]
    exact ⟨_, List.set_set _, rfl⟩
  | done r =>
    have hstay : s.tryMove eval steps input (.finish i) = s := by
      rw [tryMove, move, hw]
      rfl
    rw [List.foldl_cons, List.foldl_cons, List.foldl_nil, hstay,
      tryMove_of_some (by rw [move, hw, hs])]
    exact ⟨r, rfl, rfl⟩
  | waiting => exact absurd hrank (by decide)
  | inside => exact absurd hrank (by decide)
  | recorded r => exact absurd hrank (by simp [Worker.rank])

/-- A worker inside the gate starts, or leaves at once. -/
theorem exists_tryMove_start (eval : Nat → Evaluator) (input : Data) {i : Nat} {step : Step}
    (hs : steps[i]? = some step) (hw : s.workers[i]? = some .inside) :
    ∃ w : Worker, (w.rank = 2 ∨ w.rank = 3) ∧
      (s.tryMove eval steps input (.start i)).workers = s.workers.set i w ∧
      (s.tryMove eval steps input (.start i)).gate =
        if w.isInside then s.gate else s.gate.letOut := by
  have hsome : (s.move eval steps input (.start i)).isSome = true := by
    rw [move, hw, hs]
    dsimp only
    split
    · rfl
    · split <;> rfl
  obtain ⟨s', hs'⟩ := Option.isSome_iff_exists.1 hsome
  rw [tryMove_of_some hs']
  cases moved_of_move hs' with
  | unnamed => exact ⟨_, Or.inr rfl, rfl, rfl⟩
  | notFound => exact ⟨_, Or.inr rfl, rfl, rfl⟩
  | started => exact ⟨_, Or.inl rfl, rfl, rfl⟩

theorem foldl_movesOf (eval : Nat → Evaluator) (input : Data) {i : Nat} {step : Step}
    (hs : steps[i]? = some step) (hw : s.workers[i]? = some .waiting)
    (hopen : s.gate.closed = false) (hfree : 0 < s.gate.free) :
    ∃ r, ((movesOf i).foldl (tryMove eval steps input) s).workers = s.workers.set i (.recorded r) ∧
      ((movesOf i).foldl (tryMove eval steps input) s).gate = s.gate := by
  have hlt : i < s.workers.length := (List.getElem?_eq_some_iff.1 hw).1
  have henter : s.move eval steps input (.enter i) =
      some { s.setWorker i .inside with gate := s.gate.takeIn } := by
    rw [move, hw]
    dsimp only
    rw [hopen, if_neg Bool.false_ne_true, if_neg (Nat.ne_of_gt hfree)]
  have hback : s.gate.takeIn.letOut = s.gate := by
    rw [Gate.takeIn, Gate.letOut, Nat.sub_add_cancel hfree]
  rw [movesOf, List.foldl_cons, tryMove_of_some henter, List.foldl_cons]
  obtain ⟨w, hrank, hworkers, hgate⟩ := exists_tryMove_start eval input hs
    (s := { s.setWorker i .inside with gate := s.gate.takeIn }) (List.getElem?_set_self hlt)
  have hset := hworkers.trans (List.set_set _)
  obtain ⟨r, hworkers', hgate'⟩ := foldl_finish_record eval input hs
    (by rw [hset]; exact List.getElem?_set_self hlt) hrank
  refine ⟨r, ?_, ?_⟩
  · rw [hworkers', hset]
    exact List.set_set _
  · rw [hgate', hgate]
    cases w.isInside <;> exact hback

/-- The workers before `k` are through, the others have not moved, and the gate is as it was. -/
structure Front (steps : List Step) (width k : Nat) (s : FanOut) : Prop where
  gate_eq : s.gate = ⟨width, false⟩
  length_eq : s.workers.length = steps.length
  through : ∀ i < k, ∃ r, s.workers[i]? = some (.recorded r)
  waiting : ∀ i, k ≤ i → i < steps.length → s.workers[i]? = some .waiting

theorem Front.succ {k : Nat} (h : Front steps width k s) (hwidth : 0 < width)
    (hk : k < steps.length) :
    Front steps width (k + 1) ((movesOf k).foldl (tryMove eval steps input) s) := by
  have hgate := h.gate_eq
  obtain ⟨r, hworkers, hgate'⟩ := foldl_movesOf eval input
    (List.getElem?_eq_getElem hk) (h.waiting k (Nat.le_refl k) hk) (by rw [hgate])
    (by rw [hgate]; exact hwidth)
  refine ⟨hgate'.trans hgate, by rw [hworkers, List.length_set, h.length_eq], ?_, ?_⟩
  · intro i hi
    rw [hworkers]
    rcases Nat.lt_succ_iff_lt_or_eq.1 hi with hi | rfl
    · rw [List.getElem?_set_ne (Nat.ne_of_gt hi)]
      exact h.through i hi
    · exact ⟨r, List.getElem?_set_self (h.length_eq ▸ hk)⟩
  · intro i hki hi
    rw [hworkers, List.getElem?_set_ne (Nat.ne_of_lt hki)]
    exact h.waiting i (Nat.le_of_succ_le hki) hi

/-- The workers moving one after the other is a schedule, and brings all of them through. -/
theorem exists_schedule (e : Engine) (eval : Nat → Evaluator) (steps : List Step) (input : Data)
    (he : 0 < e.maxParallel) :
    (run e eval steps input).Finished ∧
      ∃ turns, (∀ t ∈ turns, t.isMove = true) ∧
        (begin_ e steps).after eval steps input turns = some (run e eval steps input) := by
  refine ⟨?_, exists_turns_of_tryMove _ _⟩
  have hfront : ∀ k ≤ steps.length, Front steps e.maxParallel k
      (((List.range k).flatMap movesOf).foldl (tryMove eval steps input) (begin_ e steps)) := by
    intro k
    induction k with
    | zero =>
      refine fun _ => ⟨rfl, List.length_map _, nofun, fun i _ hi => ?_⟩
      exact (List.getElem?_map ..).trans (by rw [List.getElem?_eq_getElem hi]; rfl)
    | succ k ih =>
      intro hk
      rw [List.range_succ, List.flatMap_append, List.foldl_append, List.flatMap_singleton]
      exact (ih (Nat.le_of_succ_le hk)).succ he hk
  intro w hw
  obtain ⟨i, hi⟩ := List.mem_iff_getElem?.1 hw
  have hlast := hfront steps.length (Nat.le_refl _)
  have hlt := (List.getElem?_eq_some_iff.1 hi).1
  obtain ⟨r, hr⟩ := hlast.through i (hlast.length_eq ▸ hlt)
  exact ⟨r, Option.some_inj.1 (hi.symm.trans hr)⟩

end FanOut

end PluginChain
