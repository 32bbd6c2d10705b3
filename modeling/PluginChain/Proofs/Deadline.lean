import PluginChain.Proofs.Script.Cutting
import PluginChain.Sandbox

/-!
# Scripts under a deadline

A script runs on a worker of its own while its caller waits, for the worker or for the deadline, whichever
comes first.  They share a flag.  The caller raises it when it gives up, and the worker asks for it in front
of each operation: while it is down the worker passes on, and where it is up the script is cut.  What the
worker was doing at the deadline is open, and so is when it begins, how fast it is, and how often the caller
looks.

* `Errand.step` is one move of the worker, the caller or the clock, and `Errand.after` any number of them.
* Whatever moves were made, the state is `Errand.Sound`: the flag is up from when the caller gave up, and
  what a worker came to that was not cut is what its script comes to undisturbed (`Errand.ComesTo`).
* The caller ends with an answer (`Errand.exists_answer_of_isDue`), which is either that or the deadline
  (`Errand.comesTo_of_canAnswer`).
* The sandbox gives one of these answers (`Errand.canAnswer_run`).
-/

set_option autoImplicit false

namespace PluginChain

/-- A script to be run, and the time its caller gives it. -/
structure Errand where
  box : Sandbox
  program : Script.Program
  input : Data
  params : Data
  time : Duration

/-- How far the worker got. -/
inductive WorkerPhase
  /-- No thread has taken it up. -/
  | queued
  /-- All operations up to so much work were allowed. -/
  | evaluating (work : Nat)
  | finished (a : Except ExecutionError Data)
  | cut

/-- How far the caller got. -/
inductive CallerPhase
  /-- About to look whether the worker is through. -/
  | polling
  /-- The worker was not through, and the clock is next. -/
  | unready
  /-- The time is over, and the flag is still down. -/
  | expired
  | flagged
  | answered (a : Except ExecutionError Data)

/-- A script under way. -/
structure TimedRun where
  worker : WorkerPhase := .queued
  caller : CallerPhase := .polling
  flag : Bool := false
  /-- The deadline is over. -/
  elapsed : Bool := false
  /-- How often the worker asked for the flag and passed on. -/
  passed : Nat := 0

inductive TimedMove
  | worker
  | caller
  | clock
  deriving DecidableEq

/-- What the worker gives.  A script that was cut counts as one that failed. -/
def WorkerPhase.result? : WorkerPhase → Option (Except ExecutionError Data)
  | .finished a => some a
  | .cut => some (.error (.runtime "script terminated"))
  | .queued | .evaluating _ => none

namespace TimedRun

def answer? (s : TimedRun) : Option (Except ExecutionError Data) :=
  match s.caller with
  | .answered a => some a
  | _ => none

theorem answer?_eq_some_iff {s : TimedRun} {a : Except ExecutionError Data} :
    s.answer? = some a ↔ s.caller = .answered a := by
  rw [answer?]
  split
  · next b h => simp [h]
  · next h => exact ⟨nofun, fun hcaller => absurd hcaller (h a)⟩

end TimedRun

namespace Errand

/-! ## Moves -/

def constants (e : Errand) : List (String × Data) := [("input", e.input), ("params", e.params)]

/-- The work up to the next operation beyond some work, if the script does not end before. -/
def nextHook? (e : Errand) (work : Nat) : Option Nat := e.program.cutAt? e.box.limits work e.constants

/-- What a script gives that is stopped beyond some work. -/
def answerAt (e : Errand) (work : Nat) : Except ExecutionError Data :=
  Sandbox.answerOf e.time (e.program.run e.box.limits work e.constants).ending

/-- The worker begins, asks for the flag in front of its next operation, or comes to the end of the script. -/
def stepWorker (e : Errand) (s : TimedRun) : TimedRun :=
  match s.worker with
  | .queued => { s with worker := .evaluating 0 }
  | .evaluating work =>
    match e.nextHook? work with
    | none => { s with worker := .finished (e.answerAt work) }
    | some next =>
      if s.flag then { s with worker := .cut }
      else { s with worker := .evaluating next, passed := s.passed + 1 }
  | .finished _ | .cut => s

/-- The caller takes what the worker gives, if that is there, and else looks at the clock.  When the time is
over it raises the flag, and then tells its own caller. -/
def stepCaller (e : Errand) (s : TimedRun) : TimedRun :=
  match s.caller with
  | .polling =>
    match s.worker.result? with
    | some a => { s with caller := .answered a }
    | none => { s with caller := .unready }
  | .unready => { s with caller := if s.elapsed then .expired else .polling }
  | .expired => { s with caller := .flagged, flag := true }
  | .flagged => { s with caller := .answered (.error (.timeout e.time)) }
  | .answered _ => s

def step (e : Errand) (s : TimedRun) : TimedMove → TimedRun
  | .worker => e.stepWorker s
  | .caller => e.stepCaller s
  | .clock => { s with elapsed := true }

def run (e : Errand) (s : TimedRun) (moves : List TimedMove) : TimedRun := moves.foldl e.step s

/-- The state after some moves of the three. -/
def after (e : Errand) (moves : List TimedMove) : TimedRun := e.run {} moves

theorem run_append (e : Errand) (s : TimedRun) (moves more : List TimedMove) :
    e.run s (moves ++ more) = e.run (e.run s moves) more :=
  List.foldl_append

/-! ## What a script comes to undisturbed -/

/-- What the script gives if nothing stops it, however much work it is given beyond some. -/
def ComesTo (e : Errand) (a : Except ExecutionError Data) : Prop :=
  ∃ work, ∀ more, work ≤ more → e.nextHook? more = none ∧ e.answerAt more = a

variable {e : Errand} {s s' : TimedRun} {a a' : Except ExecutionError Data} {work : Nat}

theorem ComesTo.unique (h : e.ComesTo a) (h' : e.ComesTo a') : a = a' := by
  obtain ⟨work, hwork⟩ := h
  obtain ⟨work', hwork'⟩ := h'
  rw [← (hwork _ (Nat.le_max_left work work')).2, (hwork' _ (Nat.le_max_right work work')).2]

theorem comesTo_answerAt (h : e.nextHook? work = none) : e.ComesTo (e.answerAt work) := by
  refine ⟨work, fun more hle => ?_⟩
  obtain ⟨hnone, hrun⟩ := Script.Program.run_of_cutAt?_eq_none h hle
  refine ⟨hnone, ?_⟩
  rw [answerAt, hrun, answerAt]

/-- No script says by itself that its time is over. -/
theorem ComesTo.ne_timeout (h : e.ComesTo a) (limit : Duration) : a ≠ .error (.timeout limit) := by
  obtain ⟨work, hwork⟩ := h
  obtain ⟨hnone, rfl⟩ := hwork work (Nat.le_refl work)
  have hending : (e.program.run e.box.limits work e.constants).ending ≠ .late := fun hlate =>
    Script.Program.ending_eq_late_iff.1 hlate hnone
  unfold answerAt Sandbox.answerOf
  split
  · next hlate => exact absurd hlate hending
  · simp
  · split <;> simp

/-! ## What is true of all that can be reached -/

/-- What goes with how far the caller got. -/
def FitsCaller (e : Errand) (s : TimedRun) : CallerPhase → Prop
  | .polling | .unready => s.flag = false
  | .expired => s.flag = false ∧ s.elapsed = true
  | .flagged => s.flag = true ∧ s.elapsed = true
  | .answered a =>
    (s.flag = false ∧ s.worker = .finished a) ∨
      (s.flag = true ∧ s.elapsed = true ∧ a = .error (.timeout e.time))

structure Sound (e : Errand) (s : TimedRun) : Prop where
  cut : s.worker = .cut → s.flag = true
  finished : ∀ a, s.worker = .finished a → e.ComesTo a
  caller : e.FitsCaller s s.caller

theorem sound_start (e : Errand) : e.Sound {} where
  cut := nofun
  finished := nofun
  caller := rfl

/-- What a worker does that is not through cannot make an answer wrong. -/
theorem FitsCaller.of_worker {phase : CallerPhase} (h : e.FitsCaller s phase) (hbusy : ∀ a, s.worker ≠ .finished a)
    (hflag : s'.flag = s.flag) (helapsed : s'.elapsed = s.elapsed) : e.FitsCaller s' phase := by
  cases phase with
  | answered a =>
    obtain ⟨-, hfinished⟩ | htimeout := h
    · exact absurd hfinished (hbusy a)
    · exact .inr (hflag ▸ helapsed ▸ htimeout)
  | _ => simpa only [FitsCaller, hflag, helapsed] using h

theorem Sound.stepWorker (h : e.Sound s) : e.Sound (e.stepWorker s) := by
  rw [Errand.stepWorker]
  split
  · next hworker => exact ⟨by simp, by simp, h.caller.of_worker (by simp [hworker]) rfl rfl⟩
  · next work hworker =>
    have hbusy : ∀ a, s.worker ≠ .finished a := by simp [hworker]
    split
    · next hnone =>
      refine ⟨by simp, fun a ha => ?_, h.caller.of_worker hbusy rfl rfl⟩
      cases ha
      exact comesTo_answerAt hnone
    · by_cases hflag : s.flag = true
      · rw [if_pos hflag]
        exact ⟨fun _ => hflag, by simp, h.caller.of_worker hbusy rfl rfl⟩
      · rw [if_neg hflag]
        exact ⟨by simp, by simp, h.caller.of_worker hbusy rfl rfl⟩
  · exact h
  · exact h

theorem Sound.stepCaller (h : e.Sound s) : e.Sound (e.stepCaller s) := by
  have hfits := h.caller
  rw [Errand.stepCaller]
  split
  · next hcaller =>
    rw [hcaller] at hfits
    have hflag : s.flag = false := hfits
    split
    · next a hresult =>
      refine ⟨h.cut, h.finished, .inl ⟨hflag, ?_⟩⟩
      -- the worker was not cut, for the flag is down
      cases hworker : s.worker with
      | finished b => simpa [hworker, WorkerPhase.result?] using hresult
      | cut => simp [h.cut hworker] at hflag
      | _ => simp [hworker, WorkerPhase.result?] at hresult
    · exact ⟨h.cut, h.finished, hflag⟩
  · next hcaller =>
    rw [hcaller] at hfits
    by_cases helapsed : s.elapsed = true
    · rw [if_pos helapsed]
      exact ⟨h.cut, h.finished, hfits, helapsed⟩
    · rw [if_neg helapsed]
      exact ⟨h.cut, h.finished, hfits⟩
  · next hcaller =>
    rw [hcaller] at hfits
    exact ⟨fun _ => rfl, h.finished, rfl, hfits.2⟩
  · next hcaller =>
    rw [hcaller] at hfits
    exact ⟨h.cut, h.finished, .inr ⟨hfits.1, hfits.2, rfl⟩⟩
  · exact h

theorem Sound.step (h : e.Sound s) (m : TimedMove) : e.Sound (e.step s m) := by
  cases m with
  | worker => exact h.stepWorker
  | caller => exact h.stepCaller
  | clock =>
    refine ⟨h.cut, h.finished, ?_⟩
    have hfits := h.caller
    change e.FitsCaller { s with elapsed := true } s.caller
    cases hcaller : s.caller <;> rw [hcaller] at hfits
    · exact hfits
    · exact hfits
    · exact ⟨hfits.1, rfl⟩
    · exact ⟨hfits.1, rfl⟩
    · exact hfits.imp id fun htimeout => ⟨htimeout.1, rfl, htimeout.2.2⟩

theorem Sound.run (h : e.Sound s) (moves : List TimedMove) : e.Sound (e.run s moves) := by
  induction moves generalizing s with
  | nil => exact h
  | cons m moves ih => exact ih (h.step m)

/-- The flag is only raised when the time is over. -/
theorem Sound.elapsed_of_flag (h : e.Sound s) (hflag : s.flag = true) : s.elapsed = true := by
  have hfits := h.caller
  have hup : s.flag ≠ false := by simp [hflag]
  rcases hcaller : s.caller with _ | _ | _ | _ | a <;> rw [hcaller] at hfits
  · exact absurd hfits hup
  · exact absurd hfits hup
  · exact absurd hfits.1 hup
  · exact hfits.2
  · exact hfits.elim (fun hown => absurd hown.1 hup) fun htimeout => htimeout.2.1

theorem sound_after (e : Errand) (moves : List TimedMove) : e.Sound (e.after moves) := (sound_start e).run moves

/-! ## What no move takes back -/

/-- A later state of the same run. -/
structure Follows (s s' : TimedRun) : Prop where
  elapsed : s.elapsed = true → s'.elapsed = true
  flag : s.flag = true → s'.flag = true ∧ s'.passed = s.passed
  worker : s.worker.result?.isSome = true → s'.worker = s.worker
  answered : ∀ a, s.caller = .answered a → s'.caller = .answered a

theorem Follows.refl (s : TimedRun) : Follows s s := ⟨id, fun h => ⟨h, rfl⟩, fun _ => rfl, fun _ h => h⟩

theorem Follows.trans {s'' : TimedRun} (h : Follows s s') (h' : Follows s' s'') : Follows s s'' where
  elapsed ht := h'.elapsed (h.elapsed ht)
  flag ht := by
    obtain ⟨hflag, hpassed⟩ := h.flag ht
    obtain ⟨hflag', hpassed'⟩ := h'.flag hflag
    exact ⟨hflag', hpassed'.trans hpassed⟩
  worker ht := by
    have hworker := h.worker ht
    exact (h'.worker (hworker ▸ ht)).trans hworker
  answered a ht := h'.answered a (h.answered a ht)

theorem follows_step (e : Errand) (s : TimedRun) (m : TimedMove) : Follows s (e.step s m) := by
  cases m with
  | worker =>
    change Follows s (e.stepWorker s)
    rw [Errand.stepWorker]
    split
    · next hworker => exact ⟨id, fun h => ⟨h, rfl⟩, by simp [hworker, WorkerPhase.result?], fun _ h => h⟩
    · next work hworker =>
      have hbusy : ∀ p : WorkerPhase, s.worker.result?.isSome = true → p = s.worker := by
        simp [hworker, WorkerPhase.result?]
      split
      · exact ⟨id, fun h => ⟨h, rfl⟩, hbusy _, fun _ h => h⟩
      · by_cases hflag : s.flag = true
        · rw [if_pos hflag]
          exact ⟨id, fun h => ⟨h, rfl⟩, hbusy _, fun _ h => h⟩
        · rw [if_neg hflag]
          exact ⟨id, fun h => absurd h hflag, hbusy _, fun _ h => h⟩
    · exact .refl s
    · exact .refl s
  | caller =>
    change Follows s (e.stepCaller s)
    rw [Errand.stepCaller]
    split
    · next hcaller => split <;> exact ⟨id, fun h => ⟨h, rfl⟩, fun _ => rfl, by simp [hcaller]⟩
    · next hcaller => exact ⟨id, fun h => ⟨h, rfl⟩, fun _ => rfl, by simp [hcaller]⟩
    · next hcaller => exact ⟨id, fun _ => ⟨rfl, rfl⟩, fun _ => rfl, by simp [hcaller]⟩
    · next hcaller => exact ⟨id, fun h => ⟨h, rfl⟩, fun _ => rfl, by simp [hcaller]⟩
    · exact .refl s
  | clock => exact ⟨fun _ => rfl, fun h => ⟨h, rfl⟩, fun _ => rfl, fun _ h => h⟩

theorem follows_run (e : Errand) (s : TimedRun) (moves : List TimedMove) : Follows s (e.run s moves) := by
  induction moves generalizing s with
  | nil => exact .refl s
  | cons m moves ih => exact (follows_step e s m).trans (ih _)

/-! ## The caller comes to an answer -/

/-- There is something for the caller to answer. -/
def IsDue (s : TimedRun) : Prop := s.elapsed = true ∨ s.worker.result?.isSome = true

/-- How many moves the caller is away from an answer that is due. -/
def distance (s : TimedRun) : Nat :=
  match s.caller with
  | .polling => if s.worker.result?.isSome then 1 else 4
  | .unready => 3
  | .expired => 2
  | .flagged => 1
  | .answered _ => 0

theorem distance_le (s : TimedRun) : distance s ≤ 4 := by
  rw [distance]
  split
  · split <;> decide
  all_goals decide

theorem Follows.isDue (h : Follows s s') (hdue : IsDue s) : IsDue s' :=
  hdue.imp h.elapsed fun hresult => h.worker hresult ▸ hresult

theorem distance_stepCaller (hdue : IsDue s) : distance (e.stepCaller s) ≤ distance s - 1 := by
  rcases hcaller : s.caller with _ | _ | _ | _ | a
  case polling =>
    cases hresult : s.worker.result? <;> simp [stepCaller, distance, hcaller, hresult]
  case unready =>
    by_cases helapsed : s.elapsed = true
    · simp [stepCaller, distance, hcaller, helapsed]
    · have hresult := hdue.resolve_left helapsed
      simp [stepCaller, distance, hcaller, helapsed, hresult]
  all_goals simp [stepCaller, distance, hcaller]

/-- Who does not move the caller brings it no farther from an answer. -/
theorem distance_of_caller_eq (h : Follows s s') (hcaller : s'.caller = s.caller) : distance s' ≤ distance s := by
  rw [distance, distance, hcaller]
  split
  · by_cases hresult : s.worker.result?.isSome = true
    · simp [h.worker hresult]
    · rw [if_neg hresult]
      split <;> decide
  all_goals exact Nat.le_refl _

theorem caller_stepWorker (e : Errand) (s : TimedRun) : (e.stepWorker s).caller = s.caller := by
  rw [stepWorker]
  split
  · rfl
  · split
    · rfl
    · split <;> rfl
  · rfl
  · rfl

/-- From when an answer is due, each move of the caller brings it nearer. -/
theorem distance_run (hdue : IsDue s) (moves : List TimedMove) :
    distance (e.run s moves) ≤ distance s - moves.count .caller := by
  induction moves generalizing s with
  | nil => exact Nat.le_refl _
  | cons m moves ih =>
    have hstep : distance (e.step s m) ≤ distance s - [m].count .caller := by
      cases m with
      | worker => exact distance_of_caller_eq (follows_step e s .worker) (caller_stepWorker e s)
      | caller => exact distance_stepCaller hdue
      | clock => exact distance_of_caller_eq (follows_step e s .clock) rfl
    refine Nat.le_trans (ih ((follows_step e s m).isDue hdue)) ?_
    rw [← List.singleton_append, List.count_append]
    omega

theorem exists_answer_of_isDue (hdue : IsDue s) {moves : List TimedMove} (hmoves : 4 ≤ moves.count .caller) :
    ∃ a, (e.run s moves).answer? = some a := by
  have hzero : distance (e.run s moves) = 0 := by
    have hrun := distance_run (e := e) hdue moves
    have hle := distance_le s
    omega
  rcases hcaller : (e.run s moves).caller with _ | _ | _ | _ | a
  case answered => exact ⟨a, TimedRun.answer?_eq_some_iff.2 hcaller⟩
  case polling => by_cases hresult : (e.run s moves).worker.result?.isSome <;> simp [distance, hcaller, hresult] at hzero
  all_goals simp [distance, hcaller] at hzero

/-! ## What the caller can be answered -/

/-- What a caller may be answered, as it comes. -/
def CanAnswer (e : Errand) (a : Except ExecutionError Data) : Prop := ∃ moves, (e.after moves).answer? = some a

/-- A caller is only ever answered what its script comes to undisturbed, or that the time is over. -/
theorem comesTo_of_canAnswer (h : e.CanAnswer a) : e.ComesTo a ∨ a = .error (.timeout e.time) := by
  obtain ⟨moves, hanswer⟩ := h
  have hsound := sound_after e moves
  have hfits := hsound.caller
  rw [TimedRun.answer?_eq_some_iff.1 hanswer] at hfits
  obtain ⟨-, hfinished⟩ | ⟨-, -, htimeout⟩ := hfits
  · exact .inl (hsound.finished a hfinished)
  · exact .inr htimeout

/-- The deadline may always be first. -/
theorem canAnswer_timeout (e : Errand) : e.CanAnswer (.error (.timeout e.time)) :=
  ⟨[.caller, .clock, .caller, .caller, .caller], rfl⟩

/-- A worker that nothing disturbs comes to the end of a script that ends within some work. -/
theorem exists_finished {time : Nat} (hdepth : time < Script.Program.depth) (hnone : e.nextHook? time = none)
    {work : Nat} (hle : work ≤ time) (hworker : s.worker = .evaluating work) (hflag : s.flag = false) :
    ∃ moves, (e.run s moves).worker = .finished (e.answerAt time) ∧ (e.run s moves).caller = s.caller := by
  induction hleft : time - work using Nat.strongRecOn generalizing work s with
  | _ left ih =>
    subst hleft
    cases hnext : e.nextHook? work with
    | none =>
      have hanswer : e.answerAt time = e.answerAt work := by
        rw [answerAt, (Script.Program.run_of_cutAt?_eq_none hnext hle).2, answerAt]
      refine ⟨[.worker], ?_, caller_stepWorker e s⟩
      change (e.stepWorker s).worker = _
      simp only [stepWorker, hworker, hnext, hanswer]
    | some next =>
      -- the next operation is beyond this one, and not beyond the time in which the script ends
      have hlt : work < next := Script.Program.lt_of_cutAt?_eq_some hnext (Nat.lt_of_le_of_lt hle hdepth)
      have hnextle : next ≤ time := by
        refine Nat.le_of_not_lt fun hbeyond => ?_
        have hcut : e.nextHook? time = some next := Script.Program.cutAt?_of_lt hnext hle hbeyond
        simp [hnone] at hcut
      have hstep : e.stepWorker s = { s with worker := .evaluating next, passed := s.passed + 1 } := by
        simp [stepWorker, hworker, hnext, hflag]
      obtain ⟨moves, hfinished, hcaller⟩ :=
        ih (time - next) (by omega) hnextle (s := e.stepWorker s) (by rw [hstep]) (by rw [hstep]; exact hflag) rfl
      exact ⟨.worker :: moves, hfinished, hcaller.trans (caller_stepWorker e s)⟩

/-- **The sandbox gives an answer that a caller may have been given.** -/
theorem canAnswer_run (e : Errand) : e.CanAnswer (e.box.run e.program e.input e.params e.time).answer := by
  change e.CanAnswer (e.answerAt (Sandbox.workLimit e.time))
  cases hnext : e.nextHook? (Sandbox.workLimit e.time) with
  | some next =>
    have hlate : (e.program.run e.box.limits (Sandbox.workLimit e.time) e.constants).ending = .late :=
      Script.Program.ending_eq_late_iff.2 (Option.ne_none_iff_exists'.2 ⟨next, hnext⟩)
    rw [answerAt, hlate]
    exact canAnswer_timeout e
  | none =>
    have hdepth : Sandbox.workLimit e.time < Script.Program.depth :=
      Nat.lt_of_le_of_lt (Nat.min_le_left ..) (by decide)
    obtain ⟨moves, hfinished, hcaller⟩ :=
      exists_finished hdepth hnext (Nat.zero_le _) (s := e.after [.worker]) rfl rfl
    refine ⟨.worker :: moves ++ [.caller], TimedRun.answer?_eq_some_iff.2 ?_⟩
    rw [after, run_append]
    change (e.stepCaller (e.run (e.after [.worker]) moves)).caller = _
    rw [stepCaller, hcaller]
    simp only [hfinished, WorkerPhase.result?]
    rfl

end Errand

end PluginChain
