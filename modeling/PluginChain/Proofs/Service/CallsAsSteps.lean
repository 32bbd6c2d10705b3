import PluginChain.Proofs.Service.Calls
import PluginChain.Proofs.Workflow.Halves

/-!
# Calls on a job and the steps of a task

Plugins run one on the result of another in two places.  The calls on a job go on behind one that failed,
and are told by the trimmed name of their plugin; the steps of a task stop there, and are told by a name
of their own.  `Makes` says that a step does what a call does: it runs the plugin of the call on the same
parameters, and is named after it.

* `entries_trail`: what such steps enter into the outcomes is what the calls come to, up to the first one
  that fails.
* `haltsAt_firstFailure`: that is where the chain of the steps halts.
* `Service.calls_as_steps`: the report of a task therefore tells what the calls on a job come to up to
  their first failure, and the two reports are the same where nothing fails.
-/

set_option autoImplicit false

namespace PluginChain

/-! ## One call and one step -/

/-- The step runs the plugin of the call, and is named after it.  What it refers to is left open. -/
structure Step.Makes (step : Step) (call : Invocation) : Prop where
  name : step.name = some call.name
  plugin : step.plugin = some call.name
  params : step.params = call.params

/-- The call names a plugin. -/
def Invocation.IsNamed (call : Invocation) : Prop := (Text.nonBlank? call.name).isSome = true

instance (call : Invocation) : Decidable call.IsNamed := inferInstanceAs (Decidable (_ = true))

theorem Invocation.IsNamed.nonBlank?_eq {call : Invocation} (h : call.IsNamed) :
    Text.nonBlank? call.name = some (Text.trim call.name) := by
  rw [IsNamed, Text.nonBlank?] at h
  rw [Text.nonBlank?]
  split
  · next hempty => rw [if_pos hempty] at h; cases h
  · rfl

namespace Step.Makes

variable {step : Step} {call : Invocation}

theorem displayName_eq (h : step.Makes call) (hnamed : call.IsNamed) (i : Nat) :
    step.displayName i = Text.trim call.name := by
  rw [displayName, h.name, Option.bind_some, hnamed.nonBlank?_eq]

theorem outcomeIn_eq (h : step.Makes call) (hnamed : call.IsNamed) (r : Registry) (eval : Evaluator)
    (i : Nat) (input : Data) : step.outcomeIn r eval i input = call.outcomeIn r eval input := by
  have hname : step.pluginName i = .ok (Text.trim call.name) := by
    rw [pluginName, h.plugin, Option.bind_some, hnamed.nonBlank?_eq]
  have hget : r.get? (Text.trim call.name) = r.get? call.name := by
    rw [Registry.get?, Registry.get?, Text.trim_trim]
  rw [outcomeIn, hname, Invocation.outcomeIn, paramsData, h.params]
  dsimp only
  rw [hget, Text.trim_trim]
  cases r.get? call.name <;> rfl

end Step.Makes

/-! ## All of them -/

/-- The place of the first outcome that is a failure, or how many outcomes there are. -/
def firstFailure (outcomes : List (String × Outcome)) : Nat := outcomes.findIdx fun o => !o.2.isOk

theorem length_callOutcomes (r : Registry) (eval : Evaluator) (calls : List Invocation) (current : Data) :
    (callOutcomes r eval calls current).length = calls.length := by
  have hnames := congrArg List.length (names_callOutcomes r eval calls current)
  rwa [Entries.names, List.length_map, List.length_map] at hnames

/-- Later calls take no part in what earlier ones come to. -/
theorem callOutcomes_take (r : Registry) (eval : Evaluator) (n : Nat) (calls : List Invocation)
    (current : Data) :
    callOutcomes r eval (calls.take n) current = (callOutcomes r eval calls current).take n := by
  induction calls generalizing n current with
  | nil => rw [List.take_nil, callOutcomes, List.take_nil]
  | cons call calls ih =>
    cases n with
    | zero => rfl
    | succ n => exact congrArg ((Text.trim call.name, _) :: ·) (ih n _)

section Simulation

variable {e : Engine} {steps : List Step} {calls : List Invocation} {input : Data}

/-- **Steps do what calls do, up to the first that fails.** -/
theorem entries_trail (e : Engine) (h : List.Forall₂ Step.Makes steps calls)
    (hnamed : ∀ call ∈ calls, call.IsNamed) (i : Nat) (input : Data) :
    let outcomes := callOutcomes e.registry (e.evaluator none) calls input
    (trail e.stepResult i steps input).map Visit.entry = outcomes.take (firstFailure outcomes + 1) := by
  induction h generalizing i input with
  | nil => rfl
  | @cons step call steps calls hmakes _ ih =>
    intro outcomes
    have hcall := hnamed call List.mem_cons_self
    have hresult : e.stepResult i step input = call.outcomeIn e.registry (e.evaluator none) input :=
      hmakes.outcomeIn_eq hcall e.registry (e.evaluator none) i input
    have hentry : Visit.entry ⟨i, step, input, e.stepResult i step input⟩ =
        (Text.trim call.name, .ofExcept (call.outcomeIn e.registry (e.evaluator none) input)) := by
      rw [Visit.entry, Visit.name, hmakes.displayName_eq hcall, hresult]
    rw [trail, List.map_cons, hentry, hresult]
    simp only [outcomes, callOutcomes, List.take_succ_cons, firstFailure, List.findIdx_cons]
    refine congrArg (_ :: ·) ?_
    cases call.outcomeIn e.registry (e.evaluator none) input with
    | error f => rfl
    | ok output => exact ih (fun c hc => hnamed c (List.mem_cons_of_mem _ hc)) (i + 1) output

/-- What the steps up to the first failure come to, one by one. -/
theorem entry_chainVisit (h : List.Forall₂ Step.Makes steps calls)
    (hnamed : ∀ call ∈ calls, call.IsNamed) (input : Data) {i : Nat}
    (hi : i ≤ firstFailure (callOutcomes e.registry (e.evaluator none) calls input)) :
    (chainVisit e.stepResult steps input i).map Visit.entry =
      (callOutcomes e.registry (e.evaluator none) calls input)[i]? := by
  rw [← getElem?_trail_zero, ← List.getElem?_map, entries_trail e h hnamed,
    List.getElem?_take_of_lt (by omega)]

/-- The chain of the steps halts where the first call fails. -/
theorem haltsAt_firstFailure (h : List.Forall₂ Step.Makes steps calls)
    (hnamed : ∀ call ∈ calls, call.IsNamed) (input : Data) :
    HaltsAt e.stepResult steps input
      (firstFailure (callOutcomes e.registry (e.evaluator none) calls input)) := by
  have hlength := (length_callOutcomes e.registry (e.evaluator none) calls input).trans h.length_eq.symm
  have hvisit := fun i hi => entry_chainVisit (e := e) h hnamed input (i := i) hi
  generalize callOutcomes e.registry (e.evaluator none) calls input = outcomes at hlength hvisit
  have hle : firstFailure outcomes ≤ outcomes.length := List.findIdx_le_length
  -- The step at each place there is was executed, and its outcome is that of the call.
  have hcame : ∀ i ≤ firstFailure outcomes, ∀ hi : i < outcomes.length, ∃ r,
      chainOutcome e.stepResult steps input i = some r ∧ outcomes[i].2 = .ofExcept r := by
    intro i hi hlt
    have hmap := hvisit i hi
    rw [List.getElem?_eq_getElem hlt] at hmap
    obtain ⟨v, hv, hentry⟩ := Option.map_eq_some_iff.1 hmap
    exact ⟨v.result, by rw [chainOutcome, hv]; rfl, by rw [← hentry]; rfl⟩
  refine ⟨hlength ▸ hle, fun i hi => ?_, fun hlt => ?_⟩
  · obtain ⟨r, hr, heq⟩ := hcame i (Nat.le_of_lt hi) (Nat.lt_of_lt_of_le hi hle)
    have hok : outcomes[i].2.isOk = true := by simpa using List.not_of_lt_findIdx hi
    rw [heq, Outcome.isOk_ofExcept] at hok
    obtain ⟨d, rfl⟩ := hok
    exact ⟨d, hr⟩
  · rw [← hlength] at hlt
    obtain ⟨r, hr, heq⟩ := hcame _ (Nat.le_refl _) hlt
    have hfailed : (!(outcomes[firstFailure outcomes]).2.isOk) = true := List.findIdx_getElem (w := hlt)
    rw [heq] at hfailed
    cases r with
    | ok d => cases hfailed
    | error f => exact ⟨f, hr⟩

/-- The steps enter into their report what the calls come to up to the first failure. -/
theorem chainReport_eq (h : List.Forall₂ Step.Makes steps calls)
    (hnamed : ∀ call ∈ calls, call.IsNamed) (input : Data) :
    let outcomes := callOutcomes e.registry (e.evaluator none) calls input
    chainReport e.stepResult steps input =
      .ofResults (Entries.ofList (outcomes.take (firstFailure outcomes + 1))) := by
  intro outcomes
  rw [chainReport, Results.recordAll_nil_eq, entries_trail e h hnamed]

end Simulation

theorem Task.validate_of_makes {task : Task} {calls : List Invocation}
    (hname : (Text.nonBlank? task.name).isSome = true) (h : List.Forall₂ Step.Makes task.steps calls)
    (hcalls : calls ≠ []) : task.validate = .ok () := by
  have hsteps : task.steps ≠ [] := fun hnil => hcalls (List.forall₂_nil_left_iff.1 (hnil ▸ h))
  rw [validate, if_neg (by rw [Option.isSome_iff_ne_none] at hname; simpa using hname),
    if_neg (by simpa using hsteps)]

/-! ## The two reports -/

namespace Service

section Reports

variable {s : Service} {id : Uuid} {job : Job} {task : Task} {calls : List Invocation}

/-- The report of the steps tells what the calls come to up to the first failure. -/
theorem runTask_of_makes (hnamed : ∀ call ∈ calls, call.IsNamed)
    (hname : (Text.nonBlank? task.name).isSome = true) (hcalls : calls ≠ []) (hturn : task.parallel = false)
    (hsteps : List.Forall₂ Step.Makes task.steps calls) (e : Engine) (input : Data) :
    let outcomes := callOutcomes e.registry (e.evaluator none) calls input
    (e.runTask task input).1 =
      .ok (.ofResults (Entries.ofList (outcomes.take (firstFailure outcomes + 1)))) := by
  intro outcomes
  rw [Engine.runTask_in_turn (Task.validate_of_makes hname hsteps hcalls) hturn,
    chainReport_eq hsteps hnamed]

/-- Where no call fails but the last, there is one report for both. -/
theorem exists_same_report (now : Instant) (hready : s.store.Ready s.files) (hjob : s.HasJob id job)
    (hnamed : ∀ call ∈ calls, call.IsNamed) (hname : (Text.nonBlank? task.name).isSome = true)
    (hcalls : calls ≠ []) (hturn : task.parallel = false)
    (hsteps : List.Forall₂ Step.Makes task.steps calls)
    (hlast : calls.length ≤
      firstFailure (callOutcomes s.engine.registry (s.engine.evaluator none) calls job.input) + 1) :
    ∃ report s', process now id calls s = .ok report s' ∧
      (s.engine.runTask task job.input).1 = .ok report := by
  obtain ⟨s', hprocess⟩ := exists_process now id calls hready hjob
  refine ⟨_, s', hprocess, ?_⟩
  rw [runTask_of_makes hnamed hname hcalls hturn hsteps,
    List.take_of_length_le ((length_callOutcomes _ _ calls job.input).trans_le hlast)]

/-- **Calls on a job and the steps of a task agree.**  The steps run the plugins of the calls, under the
names of the calls and on the same parameters.  Call by call the outcomes are the same up to and including
the first failure, which is where the task ends: that many calls, made on the job, and that many steps
come to one report.  If no call fails, the report of all calls is that of the task. -/
theorem calls_as_steps (now : Instant) (hready : s.store.Ready s.files) (hjob : s.HasJob id job)
    (hcalls : calls ≠ []) (hnamed : ∀ call ∈ calls, call.IsNamed)
    (hname : (Text.nonBlank? task.name).isSome = true) (hturn : task.parallel = false)
    (hsteps : List.Forall₂ Step.Makes task.steps calls) :
    let outcomes := callOutcomes s.engine.registry (s.engine.evaluator none) calls job.input
    let k := firstFailure outcomes
    ∃ report s' ran, process now id calls s = .ok report s' ∧
      (s.engine.runTask task job.input).1 = .ok ran ∧
      report = .ofResults (Entries.ofList outcomes) ∧
      ran = .ofResults (Entries.ofList (outcomes.take (k + 1))) ∧
      HaltsAt s.engine.stepResult task.steps job.input k ∧
      (∀ i ≤ k, (chainVisit s.engine.stepResult task.steps job.input i).map Visit.entry = outcomes[i]?) ∧
      (∀ n, 0 < n → n ≤ k + 1 → ∃ report s', process now id (calls.take n) s = .ok report s' ∧
        (s.engine.runTask { task with steps := task.steps.take n } job.input).1 = .ok report) ∧
      ((∀ o ∈ outcomes, o.2.isOk = true) → ran = report) := by
  intro outcomes k
  have hlength : outcomes.length = calls.length := length_callOutcomes _ _ calls job.input
  obtain ⟨s', hprocess⟩ := exists_process now id calls hready hjob
  refine ⟨_, s', _, hprocess, runTask_of_makes hnamed hname hcalls hturn hsteps s.engine job.input, rfl,
    rfl, haltsAt_firstFailure hsteps hnamed job.input,
    fun i hi => entry_chainVisit hsteps hnamed job.input hi, fun n hpos hn => ?_, fun hall => ?_⟩
  · have htake : calls.take n ≠ [] := by
      rw [ne_eq, List.take_eq_nil_iff]
      exact fun h => h.elim (Nat.ne_of_gt hpos) hcalls
    refine exists_same_report now hready hjob
      (fun call hcall => hnamed call (List.mem_of_mem_take hcall)) hname htake hturn
      (List.forall₂_take n hsteps) ?_
    have hlen : (calls.take n).length ≤ n := List.length_take_le n calls
    rw [callOutcomes_take, firstFailure, List.findIdx_take]
    change _ ≤ min n k + 1
    omega
  · have hk : k = outcomes.length := List.findIdx_eq_length.2 fun o ho => by simp [hall o ho]
    have hle : outcomes.length ≤ k + 1 := hk ▸ Nat.le_succ _
    exact congrArg (fun os => Report.ofResults (Entries.ofList os)) (List.take_of_length_le hle)

end Reports

/-- Padded calls of one plugin, the second of which fails.  The task ends there, while the job shows what
the last call came to. -/
theorem calls_as_steps_padded :
    let calls : List Invocation := [⟨"p", [("fail", .flag false)]⟩, ⟨" p ", [("fail", .flag true)]⟩,
      ⟨"p\t", [("fail", .flag false)]⟩]
    let task : Task := ⟨"calls", "",
      calls.map fun call => { name := some call.name, plugin := some call.name, params := call.params }, false⟩
    ∃ (s s' : Service) (job : Job) (report ran : Report), s.store.Ready s.files ∧ s.HasJob ⟨1⟩ job ∧
      process ⟨0, 0⟩ ⟨1⟩ calls s = .ok report s' ∧ (s.engine.runTask task job.input).1 = .ok ran ∧
      HaltsAt s.engine.stepResult task.steps job.input 1 ∧
      report.status = .completed ∧ ran.status = .completedWithErrors := by
  intro calls task
  let engine : Engine := { (default : Engine) with registry := ({} : Registry).insert picky }
  obtain ⟨files, hupload⟩ := exists_upload ⟨0, 0⟩ ⟨1⟩ .null (ready_fresh engine)
  have hready : (fresh engine).store.Ready files :=
    Store.Ready.textChange (ready_fresh engine) ((keeps_upload ⟨0, 0⟩ ⟨1⟩ .null).ok hupload).2
  have hjob := hasJob_upload hupload Instant.representable_epoch (by decide) .null (by decide)
  have hsteps : List.Forall₂ Step.Makes task.steps calls :=
    .cons ⟨rfl, rfl, rfl⟩ (.cons ⟨rfl, rfl, rfl⟩ (.cons ⟨rfl, rfl, rfl⟩ .nil))
  obtain ⟨report, s', ran, hprocess, hran, hreport, hran', hhalts, -⟩ :=
    calls_as_steps (s := { fresh engine with files }) ⟨0, 0⟩ hready hjob (by decide) (by decide +kernel)
      (by decide +kernel) (by rfl) hsteps
  let outcomes := callOutcomes engine.registry (engine.evaluator none) calls .null
  have hk : firstFailure outcomes = 1 := by decide +kernel
  have hlast : RunStatus.ofResults (Entries.ofList outcomes) = .completed := by decide +kernel
  have hfirst : RunStatus.ofResults (Entries.ofList (outcomes.take (firstFailure outcomes + 1))) =
      .completedWithErrors := by decide +kernel
  exact ⟨_, s', _, report, ran, hready, hjob, hprocess, hran, hk ▸ hhalts, hreport ▸ hlast, hran' ▸ hfirst⟩

end Service

end PluginChain
