import PluginChain.Proofs.Workflow.Overlap

/-!
# What calls that overlap take up

However the calls of an engine overlap, and whatever its plugins come to, nothing that a call takes up is
lost.  A gate has as many places, free or taken, as it had at first (`Gate.Keeps`), and the gauge counts
the plugins that are running (`RunPhase.executing`).

* `RunPhase.Proceeded` says what the next move of a call can be, `FanOut.Moved` what a move of a worker.
* `RunPhase.Kept` is what any move leaves true, and `Overlap.Sound` what holds wherever turns lead.
* `Overlap.capacity`: no call has more plugins running than it may, there is always a way on for a call
  that has not returned, and nothing is counted when all have.
-/

set_option autoImplicit false

namespace PluginChain

/-! ## Counting what is running -/

namespace RunPhase

def isReturned : RunPhase → Bool
  | returned _ => true
  | _ => false

/-- How many plugins of a call are running: they were found, and have not come to an end. -/
def executing : RunPhase → Nat
  | running _ _ | within _ _ _ _ _ _ => 1
  | sideBySide _ _ _ workers _ => workers.countP Worker.isRunning
  | ready _ | between _ _ _ _ | returned _ => 0

/-- The plugin that the next move of a call looks up, if it looks up one. -/
def asks : RunPhase → Option String
  | ready (.plugin run) => some run.name
  | between index (step :: _) _ _ => (step.pluginName index).toOption
  | _ => none

/-- The plugin that a move of a worker looks up, if it looks up one. -/
def workerAsks (m : Move) : RunPhase → Option String
  | sideBySide steps _ _ _ _ =>
    match m with
    | .start i => do ((← steps[i]?).pluginName i).toOption
    | _ => none
  | _ => none

end RunPhase

/-- How many plugins a call can have running at a time. -/
def EngineCall.bound (width : Nat) : EngineCall → Nat
  | .task t _ => if t.parallel then width else 1
  | .plugin _ => 1

/-- The plugin that is looked up in a turn, if one is. -/
def Overlap.asks (t : Overlap) : OverlapTurn → Option String
  | .call i => t.phases[i]?.bind RunPhase.asks
  | .worker i m => t.phases[i]?.bind (RunPhase.workerAsks m)
  | .change _ => none

/-- What a move does to a gauge, where `n` plugins are running before it and `n'` after it.  Nothing is
counted for a plugin that is not asked for, or is not there. -/
inductive Counts (asked : Option String) (r : Registry) (g : Gauge) (n : Nat) (g' : Gauge) (n' : Nat) : Prop
  | quiet (missing : ∀ name, asked = some name → r.get? name = none) (gauge_eq : g' = g) (count : n' = n)
  | begun {name : String} {p : CompiledPlugin} (asked_eq : asked = some name) (found : r.get? name = some p)
      (gauge_eq : g' = g.enter) (count : n' = n + 1)
  | ended (asked_eq : asked = none) (gauge_eq : g' = g.leave) (count : n = n' + 1)

namespace Counts

variable {asked : Option String} {r : Registry} {g g' : Gauge} {a b n n' : Nat}

/-- Where no plugin is looked up, and none ends, nothing is counted. -/
theorem idle (count : n' = n) : Counts none r g n g n' :=
  .quiet (fun name hname => by cases hname) rfl count

/-- What is counted for one call is counted for all of them. -/
theorem of_part (h : Counts asked r g a g' b) (htotal : n' + a = n + b) : Counts asked r g n g' n' := by
  cases h with
  | quiet hmissing hgauge hcount => exact .quiet hmissing hgauge (by omega)
  | begun hasked hfound hgauge hcount => exact .begun hasked hfound hgauge (by omega)
  | ended hasked hgauge hcount => exact .ended hasked hgauge (by omega)

theorem current_eq (h : Counts asked r g n g' n') (hg : g.current = n) : g'.current = n' := by
  cases h with
  | quiet _ hgauge hcount => rw [hgauge, hg, hcount]
  | begun _ _ hgauge hcount => rw [hgauge, hcount, ← hg]; rfl
  | ended _ hgauge hcount =>
    rw [hgauge, Gauge.leave, hg, hcount]
    exact Nat.add_sub_cancel _ 1

/-- A peak is only passed by what is running. -/
theorem peak_le (h : Counts asked r g n g' n') (hg : g.current = n) {bound : Nat} (hpeak : g.peak ≤ bound)
    (hn : n' ≤ bound) : g'.peak ≤ bound := by
  cases h with
  | quiet _ hgauge _ => rwa [hgauge]
  | begun _ _ hgauge hcount =>
    rw [hgauge, Gauge.enter, Gauge.note, Gauge.raise, hg, ← hcount]
    exact Nat.max_le.2 ⟨hpeak, hn⟩
  | ended _ hgauge _ => rwa [hgauge]

end Counts

/-! ## Gates -/

/-- A gate that lets `width` workers in, and the workers of some steps. -/
structure Gate.Keeps (width : Nat) (steps : List Step) (gate : Gate) (workers : List Worker) : Prop where
  gate_open : gate.closed = false
  places : gate.free + workers.countP Worker.isInside = width
  length_eq : workers.length = steps.length

namespace Gate.Keeps

variable {width : Nat} {steps : List Step} {gate : Gate} {workers : List Worker}

theorem start (width : Nat) (steps : List Step) :
    Keeps width steps ⟨width, false⟩ (steps.map fun _ => .waiting) where
  gate_open := rfl
  places := by
    rw [Worker.countP_waiting rfl]
    rfl
  length_eq := List.length_map _

theorem countP_isRunning_le (h : Keeps width steps gate workers) :
    workers.countP Worker.isRunning ≤ width := by
  have hle : workers.countP Worker.isRunning ≤ workers.countP Worker.isInside :=
    List.countP_mono_left fun w _ hw => by
      cases w with
      | running p => rfl
      | _ => cases hw
  have hplaces := h.places
  omega

/-- Where no place is free, somebody is inside. -/
theorem exists_isInside (h : Keeps width steps gate workers) (hwidth : 0 < width) :
    0 < gate.free ∨ ∃ w ∈ workers, w.isInside = true := by
  have hplaces := h.places
  by_cases hfree : 0 < gate.free
  · exact Or.inl hfree
  · exact Or.inr (List.countP_pos_iff.1 (by omega))

end Gate.Keeps

/-! ## What a move of a call can be -/

theorem Engine.start_cases (e : Engine) (name : String) :
    (e.registry.get? name = none ∧ e.start name = .error (.pluginNotFound (Text.trim name))) ∨
      ∃ p, e.registry.get? name = some p ∧ e.start name = .ok (p, { e with gauge := e.gauge.enter }) := by
  rw [start]
  cases h : e.registry.get? name with
  | none => exact Or.inl ⟨rfl, rfl⟩
  | some p => exact Or.inr ⟨p, rfl, rfl⟩

namespace RunPhase

variable {eval : Nat → Evaluator} {e e' : Engine} {phase next : RunPhase} {m : Move} {width : Nat}
  {call : EngineCall}

/-- A move of a call, with what makes it possible. -/
inductive Proceeded (eval : Nat → Evaluator) (e : Engine) : RunPhase → RunPhase → Engine → Prop
  | invalid {task : Task} {input : Data} {why : TaskError} (validate_eq : task.validate = .error why) :
      Proceeded eval e (ready (.task task input)) (returned (.report (.error (.invalid why)))) e
  | noGate {task : Task} {input : Data} (validate_eq : task.validate = .ok ())
      (parallel_eq : task.parallel = true) (wide : Engine.gateLimit < e.maxParallel) :
      Proceeded eval e (ready (.task task input)) (returned (.report (.error (.gate e.maxParallel)))) e
  | opened {task : Task} {input : Data} (validate_eq : task.validate = .ok ())
      (parallel_eq : task.parallel = true) (wide : e.maxParallel ≤ Engine.gateLimit) :
      Proceeded eval e (ready (.task task input))
        (sideBySide task.steps input ⟨e.maxParallel, false⟩ (task.steps.map fun _ => .waiting) []) e
  | begun {task : Task} {input : Data} (validate_eq : task.validate = .ok ())
      (parallel_eq : task.parallel = false) :
      Proceeded eval e (ready (.task task input)) (between 0 task.steps input []) e
  | missing {run : PluginRun} (plugin_eq : e.registry.get? run.name = none) :
      Proceeded eval e (ready (.plugin run))
        (returned (run.reply (.error (.pluginNotFound (Text.trim run.name))))) e
  | found {run : PluginRun} {p : CompiledPlugin} (plugin_eq : e.registry.get? run.name = some p) :
      Proceeded eval e (ready (.plugin run)) (running run p) { e with gauge := e.gauge.enter }
  | answered {run : PluginRun} {p : CompiledPlugin} :
      Proceeded eval e (running run p)
        (returned (run.reply ((eval 0 p run.input run.params).mapError ExecutionError.toFailure))) e.finish
  | through {index : Nat} {current : Data} {results : Results} :
      Proceeded eval e (between index [] current results) (returned (.report (.ok (.ofResults results)))) e
  | unnamed {index : Nat} {step : Step} {left : List Step} {current : Data} {results : Results}
      {f : StepFailure} (name_eq : step.pluginName index = .error f) :
      Proceeded eval e (between index (step :: left) current results)
        (stepped index step left current results (.error f)) e
  | notFound {index : Nat} {step : Step} {left : List Step} {current : Data} {results : Results}
      {name : String} (name_eq : step.pluginName index = .ok name) (plugin_eq : e.registry.get? name = none) :
      Proceeded eval e (between index (step :: left) current results)
        (stepped index step left current results (.error (.pluginNotFound (Text.trim name)))) e
  | started {index : Nat} {step : Step} {left : List Step} {current : Data} {results : Results}
      {name : String} {p : CompiledPlugin} (name_eq : step.pluginName index = .ok name)
      (plugin_eq : e.registry.get? name = some p) :
      Proceeded eval e (between index (step :: left) current results) (within index step left current results p)
        { e with gauge := e.gauge.enter }
  | finished {index : Nat} {step : Step} {left : List Step} {current : Data} {results : Results}
      {p : CompiledPlugin} :
      Proceeded eval e (within index step left current results p)
        (stepped index step left current results
          ((eval index p current step.paramsData).mapError ExecutionError.toFailure)) e.finish
  | gathered {steps : List Step} {input : Data} {gate : Gate} {workers : List Worker} {results : Results}
      (recorded : ∀ w ∈ workers, w.isRecorded = true) :
      Proceeded eval e (sideBySide steps input gate workers results)
        (returned (.report (.ok (.ofResults results)))) e

theorem proceeded_of_proceed (h : phase.proceed eval e = some (next, e')) :
    Proceeded eval e phase next e' := by
  cases phase with
  | ready call =>
    cases call with
    | task task input =>
      rw [proceed] at h
      split at h
      · next why hvalid =>
        cases h
        exact .invalid hvalid
      · next hvalid =>
        split at h
        · next hparallel =>
          split at h
          · next hwide =>
            cases h
            exact .noGate hvalid hparallel hwide
          · next hwide =>
            cases h
            exact .opened hvalid hparallel (Nat.not_lt.1 hwide)
        · next hparallel =>
          cases h
          exact .begun hvalid (Bool.eq_false_iff.2 hparallel)
    | plugin run =>
      rw [proceed] at h
      rcases e.start_cases run.name with ⟨hget, hstart⟩ | ⟨p, hget, hstart⟩
      · rw [hstart] at h
        cases h
        exact .missing hget
      · rw [hstart] at h
        cases h
        exact .found hget
  | running run p =>
    cases h
    exact .answered
  | between index left current results =>
    cases left with
    | nil =>
      cases h
      exact .through
    | cons step left =>
      rw [proceed] at h
      split at h
      · next f hname =>
        cases h
        exact .unnamed hname
      · next name hname =>
        rcases e.start_cases name with ⟨hget, hstart⟩ | ⟨p, hget, hstart⟩
        · rw [hstart] at h
          cases h
          exact .notFound hname hget
        · rw [hstart] at h
          cases h
          exact .started hname hget
  | within index step left current results p =>
    cases h
    exact .finished
  | sideBySide steps input gate workers results =>
    rw [proceed] at h
    split at h
    · next hall =>
      cases h
      exact .gathered (List.all_eq_true.1 hall)
    · cases h
  | returned reply => cases h

/-! ## What every move leaves true -/

/-- How a call can look while it is under way, and the gate that its workers have. -/
def Fits (width : Nat) (call : EngineCall) : RunPhase → Prop
  | ready c => c = call
  | running run _ => call = .plugin run
  | between _ _ _ _ | within _ _ _ _ _ _ => ∃ task input, call = .task task input ∧ task.parallel = false
  | sideBySide steps input gate workers _ =>
    ∃ task, call = .task task input ∧ task.parallel = true ∧ task.steps = steps ∧
      gate.Keeps width steps workers
  | returned _ => True

/-- No call has more plugins running than it may. -/
theorem Fits.executing_le (h : phase.Fits width call) (hwidth : 0 < width) :
    phase.executing ≤ call.bound width := by
  have hpos : 1 ≤ call.bound width := by
    cases call with
    | task t input =>
      rw [EngineCall.bound]
      split
      · exact hwidth
      · exact Nat.le_refl 1
    | plugin run => exact Nat.le_refl 1
  cases phase with
  | sideBySide steps input gate workers results =>
    obtain ⟨task, rfl, hparallel, -, hkeeps⟩ := h
    rw [EngineCall.bound, if_pos hparallel]
    exact hkeeps.countP_isRunning_le
  | running run p => exact hpos
  | within index step left current results p => exact hpos
  | ready c => exact Nat.zero_le _
  | between index left current results => exact Nat.zero_le _
  | returned reply => exact Nat.zero_le _

/-- What a move of a call leaves of the engine, and of what is running. -/
structure Kept (asked : Option String) (phase : RunPhase) (e : Engine) (next : RunPhase) (e' : Engine) :
    Prop where
  counts : Counts asked e.registry e.gauge phase.executing e'.gauge next.executing
  width_eq : e'.maxParallel = e.maxParallel
  fits : ∀ {call}, phase.Fits e.maxParallel call → next.Fits e.maxParallel call

theorem executing_stepped (index : Nat) (step : Step) (left : List Step) (current : Data) (results : Results)
    (r : Except StepFailure Data) : (stepped index step left current results r).executing = 0 := by
  cases r <;> rfl

theorem fits_stepped {index : Nat} {step : Step} {left : List Step} {current : Data} {results : Results}
    {r : Except StepFailure Data} :
    (stepped index step left current results r).Fits width call ↔
      ∃ task input, call = .task task input ∧ task.parallel = false := by
  cases r <;> rfl

theorem Proceeded.kept (h : Proceeded eval e phase next e') : Kept phase.asks phase e next e' := by
  cases h with
  | invalid => exact ⟨.idle rfl, rfl, fun _ => trivial⟩
  | noGate => exact ⟨.idle rfl, rfl, fun _ => trivial⟩
  | @opened task input _ hparallel =>
    exact ⟨.idle (Worker.countP_waiting rfl _), rfl,
      fun hfits => ⟨task, hfits.symm, hparallel, rfl, .start _ _⟩⟩
  | @begun task input _ hparallel =>
    exact ⟨.idle rfl, rfl, fun hfits => ⟨task, input, hfits.symm, hparallel⟩⟩
  | missing hget => exact ⟨.quiet (fun name hname => by cases hname; exact hget) rfl rfl, rfl, fun _ => trivial⟩
  | found hget => exact ⟨.begun rfl hget rfl rfl, rfl, fun hfits => hfits.symm⟩
  | answered => exact ⟨.ended rfl rfl rfl, rfl, fun _ => trivial⟩
  | through => exact ⟨.idle rfl, rfl, fun _ => trivial⟩
  | unnamed hname =>
    refine ⟨.quiet (fun name hasked => ?_) rfl rfl, rfl, fun hfits => hfits⟩
    rw [asks, hname] at hasked
    cases hasked
  | notFound hname hget =>
    refine ⟨.quiet (fun name hasked => ?_) rfl rfl, rfl, fun hfits => hfits⟩
    rw [asks, hname] at hasked
    cases hasked
    exact hget
  | started hname hget => exact ⟨.begun (by rw [asks, hname]; rfl) hget rfl rfl, rfl, fun hfits => hfits⟩
  | finished => exact ⟨.ended rfl rfl (by rw [executing_stepped]; rfl), rfl, fits_stepped.2⟩
  | gathered hrecorded =>
    refine ⟨.idle (Eq.symm ?_), rfl, fun _ => trivial⟩
    refine List.countP_eq_zero.2 fun w hw hrunning => ?_
    have hw' := hrecorded w hw
    cases w with
    | running p => cases hw'
    | _ => cases hrunning

/-- A move of a worker is one of its task, on the engine of all calls. -/
theorem exists_moved (h : phase.moveWorker eval e m = some (next, e')) :
    ∃ (steps : List Step) (input : Data) (gate : Gate) (workers : List Worker) (results : Results) (s : FanOut),
      phase = sideBySide steps input gate workers results ∧
      FanOut.Moved eval steps input ⟨e, gate, workers, results⟩ m s ∧
      next = sideBySide steps input s.gate s.workers s.results ∧ e' = s.engine := by
  cases phase with
  | sideBySide steps input gate workers results =>
    obtain ⟨s, hmove, hs⟩ := Option.map_eq_some_iff.1 h
    cases hs
    exact ⟨steps, input, gate, workers, results, s, rfl, FanOut.moved_of_move hmove, rfl, rfl⟩
  | _ => cases h

theorem keeps_of_moved {steps : List Step} {input : Data} {s s' : FanOut}
    (h : FanOut.Moved eval steps input s m s') (hkeeps : s.gate.Keeps width steps s.workers) :
    s'.gate.Keeps width steps s'.workers := by
  obtain ⟨hopen, hplaces⟩ := h.places_eq hkeeps.gate_open
  obtain ⟨_, w', _, hworkers, _⟩ := h.exists_worker
  refine ⟨hopen, hplaces.trans hkeeps.places, ?_⟩
  rw [hworkers, List.length_set]
  exact hkeeps.length_eq

theorem counts_of_moved {steps : List Step} {input : Data} {s s' : FanOut}
    (h : FanOut.Moved eval steps input s m s') :
    Counts ((sideBySide steps input s.gate s.workers s.results).workerAsks m) s.engine.registry s.engine.gauge
      (s.workers.countP Worker.isRunning) s'.engine.gauge (s'.workers.countP Worker.isRunning) := by
  -- a worker that does not run before nor after leaves the number of those that run as it is
  have hsame : ∀ {i : Nat} {w : Worker} (w' : Worker), s.workers[i]? = some w → w.isRunning = w'.isRunning →
      (s.workers.set i w').countP Worker.isRunning = s.workers.countP Worker.isRunning := by
    intro i w w' hw hrunning
    have hcount := countP_set_add hw Worker.isRunning w'
    rw [hrunning] at hcount
    exact Nat.add_right_cancel hcount
  cases h with
  | refused hw => exact .idle (hsame _ hw rfl)
  | admitted hw => exact .idle (hsame _ hw rfl)
  | unnamed hw hs hname =>
    refine .quiet (fun name hasked => ?_) rfl (hsame _ hw rfl)
    simp only [workerAsks, hs, Option.bind_eq_bind, Option.bind_some, hname] at hasked
    cases hasked
  | notFound hw hs hname hget =>
    refine .quiet (fun name hasked => ?_) rfl (hsame _ hw rfl)
    simp only [workerAsks, hs, Option.bind_eq_bind, Option.bind_some, hname] at hasked
    cases hasked
    exact hget
  | @started i step name p hw hs hname hget =>
    refine .begun ?_ hget rfl (countP_set_add hw Worker.isRunning (.running p))
    simp only [workerAsks, hs, Option.bind_eq_bind, Option.bind_some, hname]
    rfl
  | finished hw => exact .ended rfl rfl (countP_set_add hw Worker.isRunning (.done _)).symm
  | recorded hw => exact .idle (hsame _ hw rfl)

theorem kept_of_moveWorker (h : phase.moveWorker eval e m = some (next, e')) :
    Kept (phase.workerAsks m) phase e next e' := by
  obtain ⟨steps, input, gate, workers, results, s, rfl, hmoved, rfl, rfl⟩ := exists_moved h
  refine ⟨counts_of_moved hmoved, ?_, ?_⟩
  · cases hmoved <;> rfl
  · rintro call ⟨task, rfl, hparallel, hsteps, hkeeps⟩
    exact ⟨task, rfl, hparallel, hsteps, keeps_of_moved hmoved hkeeps⟩

/-! ## There is a way on -/

/-- As long as a call has not returned, it can move, or one of its workers can. -/
theorem exists_next (eval : Nat → Evaluator) (hfits : phase.Fits width call) (hwidth : 0 < width)
    (hreturned : phase.isReturned = false) (e : Engine) :
    (∃ next e', phase.proceed eval e = some (next, e')) ∨
      ∃ m next e', phase.moveWorker eval e m = some (next, e') := by
  cases phase with
  | ready c =>
    refine Or.inl ?_
    cases c with
    | task task input =>
      rw [proceed]
      split
      · exact ⟨_, _, rfl⟩
      · split
        · split <;> exact ⟨_, _, rfl⟩
        · exact ⟨_, _, rfl⟩
    | plugin run =>
      rw [proceed]
      split <;> exact ⟨_, _, rfl⟩
  | running run p => exact Or.inl ⟨_, _, rfl⟩
  | between index left current results =>
    refine Or.inl ?_
    cases left with
    | nil => exact ⟨_, _, rfl⟩
    | cons step left =>
      rw [proceed]
      split
      · exact ⟨_, _, rfl⟩
      · split <;> exact ⟨_, _, rfl⟩
  | within index step left current results p => exact Or.inl ⟨_, _, rfl⟩
  | sideBySide steps input gate workers results =>
    obtain ⟨task, -, -, -, hkeeps⟩ := hfits
    -- the call itself goes on when its workers are through, and until then one of these can move
    by_cases hfinished : FanOut.Finished ⟨e, gate, workers, results⟩
    · refine Or.inl ⟨_, _, if_pos ?_⟩
      rw [List.all_eq_true]
      intro w hw
      obtain ⟨r, rfl⟩ := hfinished w hw
      rfl
    · obtain ⟨m, hmove⟩ : ∃ m, (FanOut.move eval steps input ⟨e, gate, workers, results⟩ m).isSome = true :=
        FanOut.exists_move hkeeps.length_eq hkeeps.gate_open (hkeeps.places.symm ▸ hwidth) hfinished
      obtain ⟨s, hs⟩ := Option.isSome_iff_exists.1 hmove
      exact Or.inr ⟨m, _, _, by rw [moveWorker, hs]; rfl⟩
  | returned reply => cases hreturned

end RunPhase

/-! ## What holds wherever turns lead -/

namespace Overlap

variable {eval : Nat → Nat → Evaluator} {t t' : Overlap} {turn : OverlapTurn} {turns : List OverlapTurn}
  {i width : Nat} {calls : List EngineCall} {phase next : RunPhase} {e : Engine}

/-- The plugins of all calls that are running. -/
def executing (t : Overlap) : Nat := total RunPhase.executing t.phases

structure Sound (calls : List EngineCall) (width : Nat) (t : Overlap) : Prop where
  width_eq : t.engine.maxParallel = width
  length_eq : t.phases.length = calls.length
  fits : ∀ {i : Nat} {call : EngineCall} {phase : RunPhase}, calls[i]? = some call → t.phases[i]? = some phase →
    phase.Fits width call
  current_eq : t.engine.gauge.current = t.executing
  peak_le : t.engine.gauge.peak ≤ total (EngineCall.bound width) calls

/-- All that a turn can do. -/
theorem turn_cases (h : t.turn eval turn = some t') :
    (∃ r, turn = .change r ∧ t' = { t with engine := { t.engine with registry := r } }) ∨
      ∃ (i : Nat) (phase next : RunPhase) (e : Engine), t.phases[i]? = some phase ∧
        t' = ⟨e, t.phases.set i next⟩ ∧ phase.Kept (t.asks turn) t.engine next e := by
  cases turn with
  | call i =>
    obtain ⟨phase, next, e, hi, hproceed, rfl⟩ := exists_of_moveCall h
    refine Or.inr ⟨i, phase, next, e, hi, rfl, ?_⟩
    rw [asks, hi]
    exact (RunPhase.proceeded_of_proceed hproceed).kept
  | worker i m =>
    obtain ⟨phase, next, e, hi, hmove, rfl⟩ := exists_of_moveCall h
    refine Or.inr ⟨i, phase, next, e, hi, rfl, ?_⟩
    rw [asks, hi]
    exact RunPhase.kept_of_moveWorker hmove
  | change r =>
    cases h
    exact Or.inl ⟨r, rfl, rfl⟩

/-- A turn does to the gauge what it does to the number of plugins that are running. -/
theorem counts_turn (h : t.turn eval turn = some t') :
    Counts (t.asks turn) t.engine.registry t.engine.gauge t.executing t'.engine.gauge t'.executing := by
  rcases turn_cases h with ⟨r, rfl, rfl⟩ | ⟨i, phase, next, e, hi, rfl, hkept⟩
  · exact .idle rfl
  · exact hkept.counts.of_part (total_set_add hi RunPhase.executing next)

theorem sound_begin {e : Engine} (hgauge : e.gauge = {}) (calls : List EngineCall) :
    Sound calls e.maxParallel (begin_ e calls) where
  width_eq := rfl
  length_eq := List.length_map _
  fits := by
    intro i call phase hcall hphase
    rw [begin_, List.getElem?_map, hcall] at hphase
    cases hphase
    exact rfl
  current_eq := by
    rw [begin_, hgauge, executing, total_eq_zero]
    intro phase hphase
    obtain ⟨call, _, rfl⟩ := List.mem_map.1 hphase
    rfl
  peak_le := by
    rw [begin_, hgauge]
    exact Nat.zero_le _

namespace Sound

theorem executing_le (h : Sound calls width t) (hwidth : 0 < width) :
    t.executing ≤ total (EngineCall.bound width) calls :=
  total_le_total h.length_eq fun _ _ _ hphase hcall => (h.fits hcall hphase).executing_le hwidth

theorem turned (h : Sound calls width t) (hwidth : 0 < width) (hturn : t.turn eval turn = some t') :
    Sound calls width t' := by
  have hcounts := counts_turn hturn
  rcases turn_cases hturn with ⟨r, rfl, rfl⟩ | ⟨i, phase, next, e, hi, rfl, hkept⟩
  · exact ⟨h.width_eq, h.length_eq, h.fits, h.current_eq, h.peak_le⟩
  · have hlength : (t.phases.set i next).length = calls.length := by
      rw [List.length_set]
      exact h.length_eq
    have hfits : ∀ {j : Nat} {call : EngineCall} {other : RunPhase}, calls[j]? = some call →
        (t.phases.set i next)[j]? = some other → other.Fits width call := by
      intro j call other hcall hother
      -- the call that moved, or one that looks as it did before
      rcases getElem?_set_cases hother with ⟨rfl, rfl⟩ | ⟨_, hother⟩
      · have hphase := h.fits hcall hi
        rw [← h.width_eq] at hphase ⊢
        exact hkept.fits hphase
      · exact h.fits hcall hother
    have hexecuting : executing ⟨e, t.phases.set i next⟩ ≤ total (EngineCall.bound width) calls :=
      total_le_total hlength fun _ _ _ hphase hcall => (hfits hcall hphase).executing_le hwidth
    exact ⟨hkept.width_eq.trans h.width_eq, hlength, hfits, hcounts.current_eq h.current_eq,
      hcounts.peak_le h.current_eq h.peak_le hexecuting⟩

theorem after (h : Sound calls width t) (hwidth : 0 < width) (hafter : t.after eval turns = some t') :
    Sound calls width t' :=
  foldlM_keeps (fun h hturn => h.turned hwidth hturn) h hafter

/-- There is a way on for every call that has not returned. -/
theorem exists_turn (h : Sound calls width t) (hwidth : 0 < width) (eval : Nat → Nat → Evaluator)
    {call : EngineCall} (hcall : calls[i]? = some call) (hi : t.phases[i]? = some phase)
    (hreturned : phase.isReturned = false) : ∃ turn t', turn.IsOf i ∧ t.turn eval turn = some t' := by
  rcases RunPhase.exists_next (eval i) (h.fits hcall hi) hwidth hreturned t.engine with
    ⟨next, e, hnext⟩ | ⟨m, next, e, hnext⟩
  · exact ⟨.call i, _, rfl, moveCall_of_some hi hnext⟩
  · exact ⟨.worker i m, _, rfl, moveCall_of_some hi hnext⟩

/-- Nothing is running when all calls have returned. -/
theorem current_of_returned (h : Sound calls width t) (hreturned : ∀ phase ∈ t.phases, phase.isReturned = true) :
    t.engine.gauge.current = 0 := by
  rw [h.current_eq, executing, total_eq_zero]
  intro phase hphase
  have hend := hreturned phase hphase
  cases phase with
  | returned reply => rfl
  | _ => cases hend

end Sound

/-- **Calls that overlap lose no capacity.**  Whatever turns there were, and whatever the plugins came to:

* no call has more plugins running than it may, and there is a way on for it until it has returned;
* the gate of a task whose steps run side by side has `width` places, each of them free or taken by a worker
  whose step is not done, so that no more of its steps are running, and whoever waits finds a place free or
  somebody inside;
* the gauge counts the plugins that are running: a turn raises it where it finds a plugin, never where there
  is none, and lowers it only where a plugin comes to an end that was counted;
* when all calls have returned it counts nothing, and its peak is no more than what the calls may have
  running together. -/
theorem capacity (settings : Settings) (limits : Limits) (registry : Registry) (calls : List EngineCall)
    (eval : Nat → Nat → Evaluator) (turns : List OverlapTurn) (t : Overlap)
    (h : (begin_ { Engine.ofSettings settings limits with registry } calls).after eval turns = some t) :
    let width := max 1 settings.maxParallel
    (∀ (i : Nat) (call : EngineCall), calls[i]? = some call →
      ∃ phase, t.phases[i]? = some phase ∧ phase.Fits width call ∧ phase.executing ≤ call.bound width ∧
        (phase.isReturned = false → ∃ turn t', turn.IsOf i ∧ t.turn eval turn = some t')) ∧
      (∀ (i : Nat) (steps : List Step) (input : Data) (gate : Gate) (workers : List Worker) (results : Results),
        t.phases[i]? = some (.sideBySide steps input gate workers results) →
          gate.free + workers.countP Worker.isInside = width ∧ workers.countP Worker.isRunning ≤ width ∧
            (0 < gate.free ∨ ∃ w ∈ workers, w.isInside = true)) ∧
      t.engine.gauge.current = t.executing ∧
      (∀ turn t', t.turn eval turn = some t' →
        Counts (t.asks turn) t.engine.registry t.engine.gauge t.executing t'.engine.gauge t'.executing) ∧
      ((∀ phase ∈ t.phases, phase.isReturned = true) →
        t.engine.gauge.current = 0 ∧ t.engine.gauge.peak ≤ total (EngineCall.bound width) calls) := by
  intro width
  have hwidth : 0 < width := Nat.lt_of_lt_of_le Nat.one_pos (Nat.le_max_left 1 _)
  have hsound : Sound calls width t :=
    (sound_begin (e := { Engine.ofSettings settings limits with registry }) rfl calls).after hwidth h
  refine ⟨fun i call hcall => ?_, fun i steps input gate workers results hi => ?_, hsound.current_eq,
    fun turn t' hturn => counts_turn hturn, fun hreturned => ⟨hsound.current_of_returned hreturned, hsound.peak_le⟩⟩
  · have hlt : i < t.phases.length := hsound.length_eq ▸ (List.getElem?_eq_some_iff.1 hcall).1
    have hi := List.getElem?_eq_getElem hlt
    have hfits := hsound.fits hcall hi
    exact ⟨_, hi, hfits, hfits.executing_le hwidth, hsound.exists_turn hwidth eval hcall hi⟩
  · have hlt : i < calls.length := hsound.length_eq ▸ (List.getElem?_eq_some_iff.1 hi).1
    obtain ⟨task, -, -, -, hkeeps⟩ := hsound.fits (List.getElem?_eq_getElem hlt) hi
    exact ⟨hkeeps.places, hkeeps.countP_isRunning_le, hkeeps.exists_isInside hwidth⟩

/-- A task of two steps in a gate of one place, beside a call of one plugin.  The plugin of the second step is
missing, and the other runs out of time. -/
theorem capacity_after_failures :
    let registry : Registry := { plugins := [("a", default)] }
    let calls : List EngineCall :=
      [.task ⟨"pair", "", [.running "a", .running "b"], true⟩ .null, .plugin ⟨"a", .null, .null, none, true⟩]
    let turns : List OverlapTurn := [.call 0, .worker 0 (.enter 0), .worker 0 (.start 0), .call 1,
      .worker 0 (.finish 0), .worker 0 (.enter 1), .worker 0 (.start 1), .worker 0 (.record 1),
      .worker 0 (.record 0), .call 0, .call 1]
    ∃ t, (begin_ { Engine.ofSettings { maxParallel := 0 } .standard with registry } calls).after
        (fun _ _ _ _ _ => .error (.timeout (.ofMillis 1))) turns = some t ∧
      (∀ phase ∈ t.phases, phase.isReturned = true) ∧ t.engine.gauge.current = 0 ∧ t.engine.gauge.peak ≤ 2 := by
  intro registry calls turns
  obtain ⟨t, hafter, hreturned⟩ :
      ∃ t, (begin_ { Engine.ofSettings { maxParallel := 0 } .standard with registry } calls).after
        (fun _ _ _ _ _ => .error (.timeout (.ofMillis 1))) turns = some t ∧
      ∀ phase ∈ t.phases, phase.isReturned = true := ⟨_, rfl, List.all_eq_true.1 rfl⟩
  exact ⟨t, hafter, hreturned,
    (capacity { maxParallel := 0 } .standard registry calls _ turns t hafter).2.2.2.2 hreturned⟩

end Overlap

end PluginChain
