import PluginChain.Proofs.Script.Evaluation
import PluginChain.Script.Run

/-!
# Scripts that are cut

The time of a script only says at which operation the script is cut.  A script that came to its end within
some time does the same in all that is longer (`Program.run_of_cutAt?_eq_none`), and one that was cut is cut
at the same operation as long as the time ends before that (`Program.cutAt?_of_lt`).
-/

set_option autoImplicit false

namespace PluginChain.Script.Program

open Operation

variable {p : Program} {limits : Limits} {time time' : Nat} {constants : List (String × Data)}

/-- What the statements of a script come to. -/
def halt (p : Program) (limits : Limits) (time : Nat) (constants : List (String × Data)) :
    EStateM.Result Stop Machine Value :=
  let scope := constants.map fun (name, d) =>
    ({ name, value := Value.ofData d, access := Access.sealed } : Binding)
  Run.statements (evaluate depth) p.body .unit ⟨p.functions, limits, time, 0, true⟩ { scope := scope.toArray }

/-- The work up to the operation at which a script is cut. -/
def cutAt? (p : Program) (limits : Limits) (time : Nat) (constants : List (String × Data)) : Option Nat :=
  match answerOf (p.halt limits time constants) with
  | .error .late => some (stateOf (p.halt limits time constants)).work
  | _ => none

theorem run_eq_of_halt_eq (h : p.halt limits time' constants = p.halt limits time constants) :
    p.run limits time' constants = p.run limits time constants := by
  rw [halt, halt] at h
  rw [run, run, h]

theorem cutAt?_eq_some_iff {work : Nat} : p.cutAt? limits time constants = some work ↔
    Run.IsLate (p.halt limits time constants) ∧ (stateOf (p.halt limits time constants)).work = work := by
  rw [cutAt?, Run.IsLate]
  split
  · next h => simp [h]
  · next h =>
    constructor
    · exact nofun
    · exact fun hlate => absurd hlate.1 h

/-- A script is told to be late just where it was cut. -/
theorem ending_eq_late_iff : (p.run limits time constants).ending = .late ↔
    p.cutAt? limits time constants ≠ none := by
  have hending : (p.run limits time constants).ending = .late ↔ Run.IsLate (p.halt limits time constants) := by
    rw [Run.IsLate, run, halt]
    dsimp only
    split
    · next h => simp [h, answerOf]
    · next s m h =>
      rw [h]
      cases s <;> simp [answerOf, ending]
  rw [hending, Option.ne_none_iff_exists']
  simp only [cutAt?_eq_some_iff, exists_and_left, exists_eq', and_true]

/-- The statements of a script are timed. -/
theorem timed_halt (p : Program) : Run.Timed depth (Run.statements (evaluate depth) p.body .unit) := by
  have heval := Run.timed_evaluate (Nat.le_refl depth)
  have hrun : ∀ node, Run.Timed (depth - 1) (evaluate depth node) := fun node => (heval node).1.mono (Nat.sub_le depth 1)
  exact Run.timed_statements (evaluate depth) (fun node => (heval node).2) (Nat.le_refl depth) hrun p.body .unit

theorem halt_of_le (hle : time ≤ time')
    (h : ∀ work, p.cutAt? limits time constants = some work → time' < work) :
    p.halt limits time' constants = p.halt limits time constants :=
  (timed_halt p).steady _ _ time' hle fun hlate => h _ (cutAt?_eq_some_iff.2 ⟨hlate, rfl⟩)

/-- A script that came to its end does the same in a longer time. -/
theorem run_of_cutAt?_eq_none (h : p.cutAt? limits time constants = none) (hle : time ≤ time') :
    p.cutAt? limits time' constants = none ∧ p.run limits time' constants = p.run limits time constants := by
  have hhalt : p.halt limits time' constants = p.halt limits time constants :=
    halt_of_le hle fun work hwork => by simp [h] at hwork
  refine ⟨?_, run_eq_of_halt_eq hhalt⟩
  rw [cutAt?, hhalt]
  exact h

/-- A script is cut at the same operation as long as the time ends before that. -/
theorem cutAt?_of_lt {work : Nat} (h : p.cutAt? limits time constants = some work) (hle : time ≤ time')
    (hlt : time' < work) : p.cutAt? limits time' constants = some work := by
  have hhalt : p.halt limits time' constants = p.halt limits time constants := by
    refine halt_of_le hle fun work' hwork' => ?_
    obtain rfl : work = work' := Option.some.inj (h.symm.trans hwork')
    exact hlt
  rw [cutAt?, hhalt]
  exact h

/-- A script is cut beyond its time. -/
theorem lt_of_cutAt?_eq_some {work : Nat} (h : p.cutAt? limits time constants = some work) (hdepth : time < depth) :
    time < work := by
  obtain ⟨hlate, rfl⟩ := cutAt?_eq_some_iff.1 h
  refine ((timed_halt p).cut _ _ hlate).elim id fun hwork => ?_
  exact Nat.lt_of_lt_of_le hdepth (Nat.le_trans (Nat.le_add_left ..) hwork)

end PluginChain.Script.Program
