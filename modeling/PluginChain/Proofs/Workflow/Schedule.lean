import PluginChain.Proofs.Row
import PluginChain.Proofs.Workflow.Step

/-!
# Schedules of steps that run side by side

In a `FanOut` the workers move in any order, and plugins are installed and removed between two moves.
A schedule is a list of such `Turn`s, and `after` is where it leads, if every move in it is possible.

What a schedule does can be read off it: `lookUps` are the registries in which the worker of a step
looked its plugin up, and `writers` the steps in the order in which their outcomes were entered.
`Sound` relates both to how far each worker is, and to the outcomes that are there.  It holds at the
start and is kept by every turn, so it holds wherever a schedule leads (`sound_after`).
-/

set_option autoImplicit false

namespace PluginChain

/-- What happens while steps run side by side. -/
inductive Turn
  | move (m : Move)
  /-- Plugins are installed or removed. -/
  | change (registry : Registry)

namespace Turn

/-- The plugins there are after a turn. -/
def registry (before : Registry) : Turn → Registry
  | .move _ => before
  | .change r => r

def isMove : Turn → Bool
  | .move _ => true
  | .change _ => false

/-- Whether the worker of the step at an index starts. -/
def starts (i : Nat) : Turn → Bool
  | .move (.start j) => j = i
  | _ => false

/-- The step whose outcome is entered. -/
def writer? : Turn → Option Nat
  | .move (.record i) => some i
  | _ => none

end Turn

/-- The plugins there are after a schedule. -/
def registryAfter (before : Registry) (turns : List Turn) : Registry := turns.foldl Turn.registry before

/-- The steps in the order in which their outcomes are entered. -/
def writers (turns : List Turn) : List Nat := turns.filterMap Turn.writer?

/-- Whether the step at an index names a plugin. -/
def namesPlugin (steps : List Step) (i : Nat) : Bool :=
  match steps[i]? with
  | some step => (step.pluginName i).isOk
  | none => false

/-- The registries in which the worker of the step at an index looks its plugin up. -/
def lookUps (steps : List Step) (i : Nat) : Registry → List Turn → List Registry
  | _, [] => []
  | r, t :: rest =>
    (if t.starts i && namesPlugin steps i then [r] else []) ++ lookUps steps i (t.registry r) rest

theorem lookUps_append (steps : List Step) (i : Nat) (r : Registry) (turns more : List Turn) :
    lookUps steps i r (turns ++ more) =
      lookUps steps i r turns ++ lookUps steps i (registryAfter r turns) more := by
  induction turns generalizing r with
  | nil => rfl
  | cons t turns ih =>
    rw [List.cons_append, lookUps, lookUps, ih, List.append_assoc]
    rfl

/-- What the last turn adds to the registries that were looked into. -/
theorem lookUps_concat (steps : List Step) (i : Nat) (r : Registry) (turns : List Turn) (t : Turn) :
    lookUps steps i r (turns ++ [t]) =
      lookUps steps i r turns ++
        if t.starts i && namesPlugin steps i then [registryAfter r turns] else [] := by
  rw [lookUps_append, lookUps, lookUps, List.append_nil]

theorem lookUps_concat_of_not (steps : List Step) {i : Nat} {t : Turn}
    (h : t.starts i = false ∨ namesPlugin steps i = false) (r : Registry) (turns : List Turn) :
    lookUps steps i r (turns ++ [t]) = lookUps steps i r turns := by
  have hnot : (t.starts i && namesPlugin steps i) = false := by
    rcases h with h | h <;> rw [h]
    · rfl
    · exact Bool.and_false _
  rw [lookUps_concat, hnot]
  exact List.append_nil _

theorem registryAfter_concat (r : Registry) (turns : List Turn) (t : Turn) :
    registryAfter r (turns ++ [t]) = t.registry (registryAfter r turns) := by
  rw [registryAfter, List.foldl_append]
  rfl

theorem writers_concat (turns : List Turn) (t : Turn) :
    writers (turns ++ [t]) = writers turns ++ t.writer?.toList := by
  rw [writers, List.filterMap_append, List.filterMap_cons]
  cases t.writer? <;> rfl

/-! ## How far a worker is -/

/-- A number that grows with every move of a worker. -/
def Worker.rank : Worker → Nat
  | .waiting => 0
  | .inside => 1
  | .running _ => 2
  | .done _ => 3
  | .recorded _ => 4

/-- The ranks of several workers taken together. -/
def Worker.ranks : List Worker → Nat
  | [] => 0
  | w :: ws => w.rank + ranks ws

/-- Whether a worker takes up a place inside the gate. -/
def Worker.isInside : Worker → Bool
  | .inside | .running _ => true
  | _ => false

/-- At first all workers are before the gate. -/
theorem Worker.countP_waiting {p : Worker → Bool} (h : p .waiting = false) (steps : List Step) :
    (steps.map fun _ => Worker.waiting).countP p = 0 := by
  rw [List.countP_eq_zero]
  intro w hw
  obtain ⟨_, -, rfl⟩ := List.mem_map.1 hw
  exact Bool.eq_false_iff.1 h

theorem Worker.rank_le (w : Worker) : w.rank ≤ 4 := by
  cases w <;> simp [rank]

/-- The index of the step whose worker moves. -/
def Move.index : Move → Nat
  | .enter i | .start i | .finish i | .record i => i

private theorem ranks_eq_total (ws : List Worker) : Worker.ranks ws = total Worker.rank ws := by
  induction ws with
  | nil => rfl
  | cons w ws ih => rw [Worker.ranks, total, ih]

private theorem ranks_set_add {ws : List Worker} {i : Nat} {w : Worker} (h : ws[i]? = some w)
    (w' : Worker) : Worker.ranks (ws.set i w') + w.rank = Worker.ranks ws + w'.rank := by
  rw [ranks_eq_total, ranks_eq_total]
  exact total_set_add h Worker.rank w'

/-! ## What a move can do -/

namespace FanOut

variable (eval : Nat → Evaluator) (steps : List Step) (input : Data)

/-- A move, with what makes it possible and the state it leads to. -/
inductive Moved (s : FanOut) : Move → FanOut → Prop
  | refused {i : Nat} (worker : s.workers[i]? = some .waiting) (gate : s.gate.closed = true) :
      Moved s (.enter i) (s.setWorker i (.done (.error Gate.refusal)))
  | admitted {i : Nat} (worker : s.workers[i]? = some .waiting) (gate : s.gate.closed = false)
      (free : 0 < s.gate.free) :
      Moved s (.enter i) { s.setWorker i .inside with gate := s.gate.takeIn }
  | unnamed {i : Nat} {step : Step} {f : StepFailure} (worker : s.workers[i]? = some .inside)
      (step_eq : steps[i]? = some step) (name_eq : step.pluginName i = .error f) :
      Moved s (.start i) (s.leave i (.error f))
  | notFound {i : Nat} {step : Step} {name : String} (worker : s.workers[i]? = some .inside)
      (step_eq : steps[i]? = some step) (name_eq : step.pluginName i = .ok name)
      (plugin_eq : s.engine.registry.get? name = none) :
      Moved s (.start i) (s.leave i (.error (.pluginNotFound (Text.trim name))))
  | started {i : Nat} {step : Step} {name : String} {p : CompiledPlugin}
      (worker : s.workers[i]? = some .inside) (step_eq : steps[i]? = some step)
      (name_eq : step.pluginName i = .ok name) (plugin_eq : s.engine.registry.get? name = some p) :
      Moved s (.start i) { s.setWorker i (.running p) with
        engine := { s.engine with gauge := s.engine.gauge.enter } }
  | finished {i : Nat} {step : Step} {p : CompiledPlugin} (worker : s.workers[i]? = some (.running p))
      (step_eq : steps[i]? = some step) :
      Moved s (.finish i) ({ s with engine := s.engine.finish }.leave i
        ((eval i p input step.paramsData).mapError ExecutionError.toFailure))
  | recorded {i : Nat} {step : Step} {r : Except StepFailure Data}
      (worker : s.workers[i]? = some (.done r)) (step_eq : steps[i]? = some step) :
      Moved s (.record i) { s.setWorker i (.recorded r) with results := s.results.record i step r }

variable {eval steps input}

theorem moved_of_move {s s' : FanOut} {m : Move} (h : s.move eval steps input m = some s') :
    Moved eval steps input s m s' := by
  cases m with
  | enter i =>
    rw [move] at h
    split at h
    · next hw =>
      split at h
      · next hc =>
        cases h
        exact .refused hw hc
      · next hc =>
        split at h
        · cases h
        · next hf =>
          cases h
          exact .admitted hw (Bool.eq_false_iff.2 hc) (Nat.pos_of_ne_zero hf)
    · cases h
  | start i =>
    rw [move] at h
    split at h
    · next step hw hs =>
      split at h
      · next f hn =>
        cases h
        exact .unnamed hw hs hn
      · next name hn =>
        rw [Engine.start] at h
        cases hg : s.engine.registry.get? name with
        | none =>
          rw [hg] at h
          cases h
          exact .notFound hw hs hn hg
        | some p =>
          rw [hg] at h
          cases h
          exact .started hw hs hn hg
    · cases h
  | finish i =>
    rw [move] at h
    split at h
    · next p step hw hs =>
      cases h
      exact .finished hw hs
    · cases h
  | record i =>
    rw [move] at h
    split at h
    · next r step hw hs =>
      cases h
      exact .recorded hw hs
    · cases h

/-! ## Schedules -/

/-- The state after a turn, if it is possible. -/
def turn (eval : Nat → Evaluator) (steps : List Step) (input : Data) (s : FanOut) :
    Turn → Option FanOut
  | .move m => s.move eval steps input m
  | .change r => some { s with engine := { s.engine with registry := r } }

/-- The state after a schedule, if all of its turns are possible. -/
def after (eval : Nat → Evaluator) (steps : List Step) (input : Data) (s : FanOut)
    (turns : List Turn) : Option FanOut :=
  turns.foldlM (turn eval steps input) s

/-! ## What every move leaves true -/

section Kept

variable {s s' : FanOut} {m : Move}

theorem Moved.registry_eq (h : Moved eval steps input s m s') :
    s'.engine.registry = s.engine.registry := by
  cases h <;> rfl

/-- A move is that of one worker, which gets further. -/
theorem Moved.exists_worker (h : Moved eval steps input s m s') :
    ∃ w w', s.workers[m.index]? = some w ∧ s'.workers = s.workers.set m.index w' ∧
      w.rank < w'.rank := by
  cases h with
  | refused hw => exact ⟨_, _, hw, rfl, by decide⟩
  | admitted hw => exact ⟨_, _, hw, rfl, by decide⟩
  | unnamed hw => exact ⟨_, _, hw, rfl, by simp [Worker.rank]⟩
  | notFound hw => exact ⟨_, _, hw, rfl, by simp [Worker.rank]⟩
  | started hw => exact ⟨_, _, hw, rfl, by simp [Worker.rank]⟩
  | finished hw => exact ⟨_, _, hw, rfl, by simp [Worker.rank]⟩
  | recorded hw => exact ⟨_, _, hw, rfl, by simp [Worker.rank]⟩

/-- A worker that leaves gives its place back. -/
theorem places_leave {i : Nat} {w : Worker} (hw : s.workers[i]? = some w) (hin : w.isInside = true)
    (r : Except StepFailure Data) :
    (s.leave i r).gate.free + (s.leave i r).workers.countP Worker.isInside =
      s.gate.free + s.workers.countP Worker.isInside := by
  have hcount := countP_set_add hw Worker.isInside (.done r)
  rw [hin] at hcount
  simp only [leave, setWorker, Gate.letOut, Worker.isInside, Bool.toNat_true, Bool.toNat_false]
    at hcount ⊢
  omega

/-- Whoever goes through an open gate takes a place, and gives it back when leaving. -/
theorem Moved.places_eq (h : Moved eval steps input s m s') (hopen : s.gate.closed = false) :
    s'.gate.closed = false ∧
      s'.gate.free + s'.workers.countP Worker.isInside =
        s.gate.free + s.workers.countP Worker.isInside := by
  cases h with
  | refused _ hclosed =>
    rw [hopen] at hclosed
    cases hclosed
  | admitted hw _ hfree =>
    have hcount := countP_set_add hw Worker.isInside .inside
    refine ⟨hopen, ?_⟩
    simp only [setWorker, Gate.takeIn, Worker.isInside, Bool.toNat_true, Bool.toNat_false] at hcount ⊢
    omega
  | unnamed hw => exact ⟨hopen, places_leave hw rfl _⟩
  | notFound hw => exact ⟨hopen, places_leave hw rfl _⟩
  | finished hw => exact ⟨hopen, places_leave (s := { s with engine := s.engine.finish }) hw rfl _⟩
  | @started i step name p hw =>
    have hcount := countP_set_add hw Worker.isInside (.running p)
    refine ⟨hopen, ?_⟩
    simp only [setWorker, Worker.isInside, Bool.toNat_true] at hcount ⊢
    omega
  | @recorded i step r hw =>
    have hcount := countP_set_add hw Worker.isInside (.recorded r)
    refine ⟨hopen, ?_⟩
    simp only [setWorker, Worker.isInside, Bool.toNat_false] at hcount ⊢
    omega

end Kept

/-! ## How workers and outcomes follow from a schedule -/

section Story

variable (eval : Nat → Evaluator) (steps : List Step) (input : Data) (r₀ : Registry)
  (turns : List Turn)

/-- What a step came to on a schedule: nothing is looked up for one that names no plugin, and for any
other the plugin is looked up once. -/
def CameTo (i : Nat) (step : Step) (r : Except StepFailure Data) : Prop :=
  match step.pluginName i with
  | .error f => lookUps steps i r₀ turns = [] ∧ r = .error f
  | .ok _ => ∃ registry, lookUps steps i r₀ turns = [registry] ∧
      r = step.outcomeIn registry (eval i) i input

/-- What a schedule did for the step at an index, by how far its worker is. -/
def Story (i : Nat) (step : Step) : Worker → Prop
  | .waiting | .inside => lookUps steps i r₀ turns = [] ∧ i ∉ writers turns
  | .running p => (∃ registry name, step.pluginName i = .ok name ∧
      lookUps steps i r₀ turns = [registry] ∧ registry.get? name = some p) ∧ i ∉ writers turns
  | .done r => CameTo eval steps input r₀ turns i step r ∧ i ∉ writers turns
  | .recorded r => CameTo eval steps input r₀ turns i step r ∧ i ∈ writers turns

/-- The outcomes there are were entered in the order of the schedule. -/
structure Logged (s : FanOut) (visits : List Visit) : Prop where
  indices : visits.map (·.index) = writers turns
  steps_eq : ∀ v ∈ visits, steps[v.index]? = some v.step
  workers_eq : ∀ v ∈ visits, s.workers[v.index]? = some (.recorded v.result)
  results_eq : s.results = Results.recordAll [] visits

/-- What holds wherever a schedule leads that began with so many places inside the gate. -/
structure Sound (width : Nat) (s : FanOut) : Prop where
  registry_eq : s.engine.registry = registryAfter r₀ turns
  gate_open : s.gate.closed = false
  places : s.gate.free + s.workers.countP Worker.isInside = width
  length_eq : s.workers.length = steps.length
  moves_le : turns.countP Turn.isMove ≤ Worker.ranks s.workers
  story : ∀ {i step w}, steps[i]? = some step → s.workers[i]? = some w →
    Story eval steps input r₀ turns i step w
  nodup : (writers turns).Nodup
  logged : ∃ visits, Logged steps turns s visits

end Story

section Steps

variable {r₀ : Registry} {turns : List Turn} {t : Turn} {i : Nat} {step : Step}

/-- A turn that neither starts a step nor enters its outcome adds nothing to its story. -/
theorem Story.concat {w : Worker} (h : Story eval steps input r₀ turns i step w)
    (hlook : t.starts i = false) (hwrite : t.writer? ≠ some i) :
    Story eval steps input r₀ (turns ++ [t]) i step w := by
  have hl := lookUps_concat_of_not steps (Or.inl hlook) r₀ turns
  have hw : i ∈ writers (turns ++ [t]) ↔ i ∈ writers turns := by
    rw [writers_concat, List.mem_append, Option.mem_toList]
    exact ⟨fun h => h.resolve_right hwrite, Or.inl⟩
  cases w <;> simpa only [Story, CameTo, hl, hw] using h

/-- A step that names a plugin is looked up when it starts. -/
theorem lookUps_start (hs : steps[i]? = some step) {name : String}
    (hname : step.pluginName i = .ok name) (h : lookUps steps i r₀ turns = []) :
    lookUps steps i r₀ (turns ++ [.move (.start i)]) = [registryAfter r₀ turns] := by
  have hnames : namesPlugin steps i = true := by
    simp only [namesPlugin, hs, hname]
    rfl
  have hstarts : Turn.starts i (.move (.start i)) = true := decide_eq_true rfl
  rw [lookUps_concat, h, hnames, hstarts]
  rfl

/-- A step that names no plugin is not looked up when it starts. -/
theorem lookUps_start_of_error (hs : steps[i]? = some step) {f : StepFailure}
    (hname : step.pluginName i = .error f) (h : lookUps steps i r₀ turns = []) :
    lookUps steps i r₀ (turns ++ [.move (.start i)]) = [] := by
  have hnames : namesPlugin steps i = false := by
    simp only [namesPlugin, hs, hname]
    rfl
  rw [lookUps_concat_of_not steps (Or.inr hnames), h]

theorem not_mem_writers_concat (h : i ∉ writers turns) (ht : t.writer? = none) :
    i ∉ writers (turns ++ [t]) := by
  rw [writers_concat, ht]
  simpa using h

/-- A step that names no plugin came to that, without a look-up. -/
theorem cameTo_of_error {f : StepFailure} (hname : step.pluginName i = .error f)
    (hl : lookUps steps i r₀ turns = []) : CameTo eval steps input r₀ turns i step (.error f) := by
  rw [CameTo, hname]
  exact ⟨hl, rfl⟩

/-- A step that names a plugin came to what a run with the plugins of its one look-up gives. -/
theorem cameTo_of_lookUp {name : String} (hname : step.pluginName i = .ok name) {registry : Registry}
    (hl : lookUps steps i r₀ turns = [registry]) :
    CameTo eval steps input r₀ turns i step (step.outcomeIn registry (eval i) i input) := by
  rw [CameTo, hname]
  exact ⟨registry, hl, rfl⟩

/-- The story of the worker that moves. -/
theorem Moved.story {s s' : FanOut} {m : Move} (h : Moved eval steps input s m s')
    (hopen : s.gate.closed = false) (hr : s.engine.registry = registryAfter r₀ turns)
    (hs : steps[m.index]? = some step)
    (hstory : ∀ w, s.workers[m.index]? = some w →
      Story eval steps input r₀ turns m.index step w) :
    ∃ w', s'.workers = s.workers.set m.index w' ∧
      Story eval steps input r₀ (turns ++ [.move m]) m.index step w' := by
  cases h with
  | refused _ hclosed =>
    rw [hopen] at hclosed
    cases hclosed
  | admitted hold =>
    obtain ⟨hl, hn⟩ := hstory _ hold
    exact ⟨.inside, rfl, (lookUps_concat_of_not steps (Or.inl rfl) _ _).trans hl, not_mem_writers_concat hn rfl⟩
  | unnamed hold hs' hname =>
    obtain ⟨hl, hn⟩ := hstory _ hold
    cases hs.symm.trans hs'
    exact ⟨_, rfl, cameTo_of_error hname (lookUps_start_of_error hs hname hl), not_mem_writers_concat hn rfl⟩
  | notFound hold hs' hname hg =>
    obtain ⟨hl, hn⟩ := hstory _ hold
    cases hs.symm.trans hs'
    have hcame : CameTo eval steps input r₀ _ _ step _ := cameTo_of_lookUp hname (lookUps_start hs hname hl)
    rw [← hr, Step.outcomeIn, hname] at hcame
    simp only [hg] at hcame
    exact ⟨_, rfl, hcame, not_mem_writers_concat hn rfl⟩
  | started hold hs' hname hg =>
    obtain ⟨hl, hn⟩ := hstory _ hold
    cases hs.symm.trans hs'
    exact ⟨_, rfl, ⟨_, _, hname, lookUps_start hs hname hl, hr ▸ hg⟩, not_mem_writers_concat hn rfl⟩
  | @finished i _ _ hold hs' =>
    obtain ⟨⟨registry, name, hname, hl, hg⟩, hn⟩ := hstory _ hold
    cases hs.symm.trans hs'
    have hl' : lookUps steps i r₀ (turns ++ [.move (.finish i)]) = [registry] :=
      (lookUps_concat_of_not steps (Or.inl rfl) _ _).trans hl
    have hcame : CameTo eval steps input r₀ _ i step _ := cameTo_of_lookUp hname hl'
    rw [Step.outcomeIn, hname] at hcame
    simp only [hg] at hcame
    exact ⟨_, rfl, hcame, not_mem_writers_concat hn rfl⟩
  | @recorded i _ r hold hs' =>
    obtain ⟨hcame, -⟩ := hstory _ hold
    cases hs.symm.trans hs'
    have hl := lookUps_concat_of_not steps (i := i) (t := .move (.record i)) (Or.inl rfl) r₀ turns
    refine ⟨.recorded r, rfl, ?_, ?_⟩
    · simpa only [CameTo, Move.index, hl] using hcame
    · rw [writers_concat]
      exact List.mem_append_right _ List.mem_cons_self

theorem Moved.starts_eq {s s' : FanOut} {m : Move} (_ : Moved eval steps input s m s') {j : Nat}
    (hj : m.index ≠ j) : (Turn.move m).starts j = false ∧ (Turn.move m).writer? ≠ some j := by
  cases m with
  | enter i => exact ⟨rfl, nofun⟩
  | start i => exact ⟨decide_eq_false hj, nofun⟩
  | finish i => exact ⟨rfl, nofun⟩
  | record i => exact ⟨rfl, fun h => hj (Option.some_inj.1 h)⟩

/-- The log after a move. -/
theorem Moved.logged {s s' : FanOut} {m : Move} (h : Moved eval steps input s m s')
    {visits : List Visit} (hlog : Logged steps turns s visits) :
    ∃ visits', Logged steps (turns ++ [.move m]) s' visits' := by
  obtain ⟨w, w', hw, hset, hrank⟩ := h.exists_worker
  have hkept : ∀ v ∈ visits, s'.workers[v.index]? = some (.recorded v.result) := by
    intro v hv
    have hold := hlog.workers_eq v hv
    have hne : m.index ≠ v.index := by
      intro heq
      rw [heq, hold, Option.some_inj] at hw
      subst hw
      exact absurd hrank (Nat.not_lt.2 (Worker.rank_le w'))
    rw [hset, List.getElem?_set_ne hne, hold]
  have hquiet : (Turn.move m).writer? = none → s'.results = s.results →
      Logged steps (turns ++ [.move m]) s' visits := by
    intro hw hr
    refine ⟨?_, hlog.steps_eq, hkept, hr.trans hlog.results_eq⟩
    rw [writers_concat, hw]
    exact hlog.indices.trans (List.append_nil _).symm
  cases h with
  | refused | admitted | unnamed | notFound | started | finished =>
    exact ⟨visits, hquiet rfl rfl⟩
  | @recorded i step r hold hs =>
    refine ⟨visits ++ [⟨i, step, input, r⟩], ?_, ?_, ?_, ?_⟩
    · rw [List.map_append, hlog.indices, writers_concat]
      rfl
    · intro v hv
      rcases List.mem_append.1 hv with hv | hv
      · exact hlog.steps_eq v hv
      · obtain rfl := List.mem_singleton.1 hv
        exact hs
    · intro v hv
      rcases List.mem_append.1 hv with hv | hv
      · exact hkept v hv
      · obtain rfl := List.mem_singleton.1 hv
        exact List.getElem?_set_self (List.getElem?_eq_some_iff.1 hold).1
    · rw [Results.recordAll_append, ← hlog.results_eq]
      rfl

/-- An outcome is entered once. -/
theorem Moved.not_mem_writers {s s' : FanOut} {m : Move} (h : Moved eval steps input s m s')
    (hstory : ∀ {i step w}, steps[i]? = some step → s.workers[i]? = some w →
      Story eval steps input r₀ turns i step w) {j : Nat} (hj : (Turn.move m).writer? = some j) :
    j ∉ writers turns := by
  cases h with
  | refused | admitted | unnamed | notFound | started | finished => cases hj
  | recorded hold hs =>
    cases hj
    exact (hstory hs hold).2

theorem sound_begin (e : Engine) : Sound eval steps input e.registry [] e.maxParallel
    (begin_ e steps) := by
  refine ⟨rfl, rfl, ?_, List.length_map _, Nat.zero_le _, ?_, List.nodup_nil, [], rfl, nofun, nofun, rfl⟩
  · rw [begin_, Worker.countP_waiting rfl]
    rfl
  · intro i step w _ hw
    rw [begin_, List.getElem?_map, Option.map_eq_some_iff] at hw
    obtain ⟨_, -, rfl⟩ := hw
    exact ⟨rfl, nofun⟩

/-- A turn keeps what holds on the way. -/
theorem Sound.turn {width : Nat} {s s' : FanOut}
    (h : Sound eval steps input r₀ turns width s) (ht : s.turn eval steps input t = some s') :
    Sound eval steps input r₀ (turns ++ [t]) width s' := by
  cases t with
  | change r =>
    cases ht
    have hwriters : writers (turns ++ [.change r]) = writers turns := by
      rw [writers_concat]
      exact List.append_nil _
    obtain ⟨visits, hlog⟩ := h.logged
    refine ⟨(registryAfter_concat r₀ turns (.change r)).symm, h.gate_open, h.places, h.length_eq, ?_, ?_, ?_,
      visits, hlog.indices.trans hwriters.symm, hlog.steps_eq, hlog.workers_eq, hlog.results_eq⟩
    · rw [List.countP_append]
      exact h.moves_le
    · intro i step w hs hw
      exact (h.story hs hw).concat rfl nofun
    · rw [hwriters]
      exact h.nodup
  | move m =>
    have hm : Moved eval steps input s m s' := moved_of_move ht
    obtain ⟨w, w', hw, hset, hrank⟩ := hm.exists_worker
    obtain ⟨hopen, hplaces⟩ := hm.places_eq h.gate_open
    obtain ⟨visits, hlog⟩ := h.logged
    have hlen : s'.workers.length = steps.length := by
      rw [hset, List.length_set, h.length_eq]
    refine ⟨?_, hopen, hplaces.trans h.places, hlen, ?_, ?_, ?_, hm.logged hlog⟩
    · rw [hm.registry_eq, h.registry_eq, registryAfter_concat]
      rfl
    · have hsum := ranks_set_add hw w'
      have hle := h.moves_le
      rw [List.countP_append, hset]
      simp only [List.countP_singleton, Turn.isMove, if_true]
      omega
    · intro i step w₁ hs hw₁
      by_cases hi : m.index = i
      · subst hi
        obtain ⟨w₂, hset₂, hstory⟩ := hm.story h.gate_open h.registry_eq hs fun w hw => h.story hs hw
        rw [hset₂, List.getElem?_set_self (List.getElem?_eq_some_iff.1 hw).1, Option.some_inj] at hw₁
        exact hw₁ ▸ hstory
      · obtain ⟨hlook, hwrite⟩ := hm.starts_eq hi
        rw [hset, List.getElem?_set_ne hi] at hw₁
        exact (h.story hs hw₁).concat hlook hwrite
    · rw [writers_concat, List.nodup_append]
      refine ⟨h.nodup, by cases (Turn.move m).writer? <;> simp, ?_⟩
      intro j hj k hk heq
      subst heq
      exact hm.not_mem_writers h.story (Option.mem_toList.1 hk) hj

theorem Sound.after {width : Nat} {s s' : FanOut} (more : List Turn)
    (h : Sound eval steps input r₀ turns width s)
    (hs : s.after eval steps input more = some s') :
    Sound eval steps input r₀ (turns ++ more) width s' := by
  induction more generalizing turns s with
  | nil =>
    cases hs
    rw [List.append_nil]
    exact h
  | cons t more ih =>
    obtain ⟨s₁, h₁, h₂⟩ := Option.bind_eq_some_iff.1 hs
    rw [List.append_cons]
    exact ih (h.turn h₁) h₂

end Steps

/-- Wherever a schedule leads, the workers and the outcomes follow from it. -/
theorem sound_after {e : Engine} {turns : List Turn} {s : FanOut}
    (h : (begin_ e steps).after eval steps input turns = some s) :
    Sound eval steps input e.registry turns e.maxParallel s :=
  (sound_begin e).after turns h

end FanOut

end PluginChain
