import PluginChain.Proofs.Service.Submission
import PluginChain.Proofs.Workflow.Halves

/-!
# Tasks that go on with the job of another one

The first half of a task is submitted, and its second half refers to what the last step of the first one
gave in the job that was kept.  The reference finds just this: the last outcome under a name is the one
that is kept, the job is read back under the id it was given, and so the second half does in its own
submission what it does where the task is submitted as a whole (`submit_in_halves`).
-/

set_option autoImplicit false

namespace PluginChain

/-- What the last step of a chain gave is what comes out at its end. -/
theorem HaltsAt.outcome?_getLast {result : StepResult} {steps : List Step} {input d : Data} {last : Step}
    (h : HaltsAt result steps input steps.length) (hlast : steps.getLast? = some last)
    (hd : chainInput result steps input steps.length = some d) :
    (chainReport result steps input).outcome? (last.displayName (steps.length - 1)) = some (.ok d) := by
  rw [List.getLast?_eq_getElem?] at hlast
  have hlt := (List.getElem?_eq_some_iff.1 hlast).1
  obtain ⟨x, hx⟩ := h.exists_chainVisit (Nat.sub_le _ 1) hlast
  have hlength : steps.length - 1 + 1 = steps.length := by omega
  have hout : (chainOutcome result steps input (steps.length - 1)).bind Except.toOption = some d := by
    rw [← chainInput_succ, hlength, hd]
  rw [h.outcome?_last hx (Or.inr hlength)]
  rw [chainOutcome, hx, Option.map_some, Option.bind_some] at hout
  revert hout
  dsimp only
  cases result (steps.length - 1) last x with
  | ok d' =>
    intro hout
    cases hout
    rfl
  | error f =>
    intro hout
    cases hout

theorem Task.steps_ne_nil {task : Task} (h : task.validate = .ok ()) : task.steps ≠ [] := by
  intro hnil
  rw [validate, hnil] at h
  split at h <;> cases h

namespace Service

variable {s : Service} {whole first second : Task} {reference : InputRef} {given : Option Data} {input : Data}

/-- A task works on the same input as its first half. -/
theorem WorksOn.of_first (hcut : whole.Cut first second reference) (h : WorksOn s first given input) :
    WorksOn s whole given input := by
  obtain ⟨rest, hwhole, -⟩ := hcut.steps
  have hinput : whole.initialInput? = first.initialInput? := by
    rw [Task.initialInput?, Task.initialInput?, hwhole,
      List.head?_append_of_ne_nil _ (Task.steps_ne_nil hcut.valid_first)]
  cases h with
  | referenced hreference hd => exact .referenced (hinput.trans hreference) hd
  | given hnone => exact .given (hinput.trans hnone)

theorem initialInput?_second (hcut : whole.Cut first second reference) :
    second.initialInput? = some reference := by
  obtain ⟨rest, -, hsecond⟩ := hcut.steps
  cases rest with
  | nil => exact absurd hsecond (Task.steps_ne_nil hcut.valid_second)
  | cons step rest =>
    rw [Task.initialInput?, hsecond]
    rfl

/-- A task whose steps take turns is run and kept, and the plugins stay. -/
theorem submit_in_turn {task : Task} (now : Instant) (taskId jobId : Uuid)
    (hready : s.store.Ready s.files) (hvalid : task.validate = .ok ()) (hturn : task.parallel = false)
    (hworks : WorksOn s task given input) {result : StepResult} (hresult : s.engine.stepResult = result) :
    ∃ s', submit now taskId jobId task given s = .ok ⟨jobId, chainReport result task.steps input⟩ s' ∧
      s.engine.SamePlugins s'.engine ∧ s'.store.Ready s'.files ∧
      Added s taskId task (jobOf now jobId task input (chainReport result task.steps input)) s' := by
  have hreport := Engine.runTask_in_turn (e := s.engine) hvalid hturn input
  rw [hresult] at hreport
  obtain ⟨s', hsubmit, hengine, hadded⟩ := submit_of_report hready hvalid hworks hreport
  refine ⟨s', hsubmit, hengine ▸ Engine.samePlugins_runTask hvalid hturn input, ?_, hadded⟩
  rw [hadded.store]
  exact hready.textChange ((keeps_submit now taskId jobId task given).ok hsubmit).2

/-- **A task can be submitted in two halves.**  If all steps of the first half succeed, the second one,
whose first step refers to what the last step before it gave in the job of the first half, does the same
as in the whole task.  This is so whenever it is submitted, as long as the plugins and the job stay. -/
theorem submit_in_halves {last : Step} {jobId₁ : Uuid} (now₁ : Instant) (taskId₁ : Uuid)
    (hcut : whole.Cut first second
      (.output jobId₁.toText (last.displayName (first.steps.length - 1))))
    (hlast : first.steps.getLast? = some last)
    (hready : s.store.Ready s.files) (hid : jobId₁.value < 2 ^ 128) (hworks : WorksOn s first given input)
    (hsucceeds : HaltsAt s.engine.stepResult first.steps input first.steps.length)
    (hback : ∀ report, (s.engine.runTask first input).1 = .ok report →
      Job.codec.ofJson (Job.codec.toJson (jobOf now₁ jobId₁ first input report)) =
        .ok (jobOf now₁ jobId₁ first input report)) :
    ∃ report₁ s₁ d, submit now₁ taskId₁ jobId₁ first given s = .ok ⟨jobId₁, report₁⟩ s₁ ∧
      s.engine.SamePlugins s₁.engine ∧ s₁.store.Ready s₁.files ∧
      s₁.HasJob jobId₁ (jobOf now₁ jobId₁ first input report₁) ∧
      report₁.status = .completed ∧
      report₁.outcome? (last.displayName (first.steps.length - 1)) = some (.ok d) ∧
      ∀ (s₂ s₀ : Service) (now₂ now : Instant) (taskId₂ jobId₂ taskId jobId : Uuid)
        (given₂ given₀ : Option Data),
        s.engine.SamePlugins s₂.engine → s₂.store.Ready s₂.files →
        s₂.HasJob jobId₁ (jobOf now₁ jobId₁ first input report₁) →
        s.engine.SamePlugins s₀.engine → s₀.store.Ready s₀.files → WorksOn s₀ first given₀ input →
        ∃ report₂ s₂' report s₀',
          submit now₂ taskId₂ jobId₂ second given₂ s₂ = .ok ⟨jobId₂, report₂⟩ s₂' ∧
          Added s₂ taskId₂ second (jobOf now₂ jobId₂ second d report₂) s₂' ∧
          submit now taskId jobId whole given₀ s₀ = .ok ⟨jobId, report⟩ s₀' ∧
          Added s₀ taskId whole (jobOf now jobId whole input report) s₀' ∧
          InHalves s.engine whole first second input d report₂ report := by
  obtain ⟨d, hd⟩ := Option.isSome_iff_exists.1 (hsucceeds.isSome_chainInput (Nat.le_refl _))
  have houtcome := hsucceeds.outcome?_getLast hlast hd
  have hreport₁ := Engine.runTask_in_turn (e := s.engine) hcut.valid_first hcut.turn_first input
  obtain ⟨s₁, hsubmit₁, hsame₁, hready₁, hadded₁⟩ :=
    submit_in_turn now₁ taskId₁ jobId₁ hready hcut.valid_first hcut.turn_first hworks rfl
  refine ⟨_, s₁, d, hsubmit₁, hsame₁, hready₁,
    StoreM.recordAt?_eq_some_iff.2 ⟨_, hadded₁.holds, hback _ hreport₁⟩,
    hsucceeds.ofResults_eq.trans (if_neg (Nat.lt_irrefl _)), houtcome, ?_⟩
  intro s₂ s₀ now₂ now taskId₂ jobId₂ taskId jobId given₂ given₀ hsame₂ hready₂ hjob hsame₀ hready₀ hworks₀
  have hparse : Uuid.parse (Text.trim jobId₁.toText) = .ok jobId₁ := by
    rw [jobId₁.isTrimmed_toText]
    exact Uuid.parse_toText hid
  have hworks₂ : WorksOn s₂ second given₂ d :=
    .referenced (initialInput?_second hcut) (.output hparse hjob houtcome)
  obtain ⟨s₂', hsubmit₂, -, -, hadded₂⟩ := submit_in_turn now₂ taskId₂ jobId₂ hready₂ hcut.valid_second
    hcut.turn_second hworks₂ hsame₂.stepResult_eq
  obtain ⟨s₀', hsubmit₀, -, -, hadded₀⟩ := submit_in_turn now taskId jobId hready₀ hcut.valid_whole
    hcut.turn_whole (hworks₀.of_first hcut) hsame₀.stepResult_eq
  exact ⟨_, s₂', _, s₀', hsubmit₂, hadded₂, hsubmit₀, hadded₀, hcut.inHalves hsucceeds hd⟩

/-- A plugin that puts its input into brackets. -/
def bracketing : CompiledPlugin where
  program := ⟨[.expr (.list [.variable "input" .none] .none)], []⟩
  digest := ""
  name := "p"
  description := ""
  compiledAt := ⟨0, 0⟩

theorem evaluator_bracketing {e : Engine} (h : e.sandbox = {}) {n : Nat} (hn : n < 2) :
    e.evaluator none bracketing (nest n) (.table []) = .ok (nest (n + 1)) := by
  rw [Engine.evaluator, h]
  obtain rfl | rfl : n = 0 ∨ n = 1 := by omega
  · rfl
  · rfl

/-- A second half whose last step fails, behind two steps of one name. -/
theorem submit_in_halves_one_name :
    let step := Step.running "p"
    let first : Task := ⟨"first", "", [step.named "x", step.named "x"], false⟩
    let second : Task := ⟨"second", "", [step.withInput (.output (Uuid.toText ⟨1⟩) "x"), {}], false⟩
    let whole : Task := ⟨"whole", "", first.steps ++ [step, {}], false⟩
    ∃ (s s₁ s₂ s₀ : Service) (report₁ report₂ report : Report) (d : Data),
      s.engine.registry.get? "p" = some bracketing ∧ s.store.Ready s.files ∧
      submit ⟨0, 0⟩ ⟨11⟩ ⟨1⟩ first (some (nest 0)) s = .ok ⟨⟨1⟩, report₁⟩ s₁ ∧
      report₁.outcome? "x" = some (.ok d) ∧
      submit ⟨0, 0⟩ ⟨12⟩ ⟨2⟩ second none s₁ = .ok ⟨⟨2⟩, report₂⟩ s₂ ∧
      submit ⟨0, 0⟩ ⟨13⟩ ⟨3⟩ whole (some (nest 0)) s = .ok ⟨⟨3⟩, report⟩ s₀ ∧
      InHalves s.engine whole first second (nest 0) d report₂ report := by
  intro step first second whole
  let engine : Engine := ⟨({} : Registry).insert bracketing, {}, 1, {}⟩
  have hcut : whole.Cut first second (.output (Uuid.toText ⟨1⟩) "x") :=
    ⟨by decide +kernel, by decide +kernel, by decide +kernel, rfl, rfl, rfl, _, rfl, rfl⟩
  have hplugin : Text.nonBlank? "p" = some "p" := by decide +kernel
  have hname : Text.nonBlank? "x" = some "x" := by decide +kernel
  have hget : engine.registry.get? "p" = some bracketing := by rw [Registry.get?_insert]; rfl
  have hstep : ∀ {n}, n < 2 → ∀ i, engine.stepResult i (step.named "x") (nest n) = .ok (nest (n + 1)) := by
    intro n hn i
    have heval := evaluator_bracketing (e := engine) rfl hn
    simp only [Engine.stepResult, resultAmid, Step.outcomeIn, Step.pluginName, step, Step.named,
      Step.running, Option.bind_some, hplugin, hget, Step.paramsData, heval]
    rfl
  have hinput : chainInput engine.stepResult first.steps (nest 0) 1 = some (nest 1) :=
    congrArg Except.toOption (hstep Nat.zero_lt_two 0)
  have hsucceeds : HaltsAt engine.stepResult first.steps (nest 0) first.steps.length := by
    refine ⟨Nat.le_refl _, fun i hi => ?_, fun hlt => absurd hlt (Nat.lt_irrefl _)⟩
    have hi : i < 2 := hi
    obtain rfl | rfl : i = 0 ∨ i = 1 := by omega
    · exact ⟨nest 1, (chainOutcome_of_input rfl rfl).trans (congrArg some (hstep Nat.zero_lt_two 0))⟩
    · exact ⟨nest 2, (chainOutcome_of_input rfl hinput).trans (congrArg some (hstep Nat.one_lt_two 1))⟩
  have hback : ∀ report, (engine.runTask first (nest 0)).1 = .ok report →
      Job.codec.ofJson (Job.codec.toJson (jobOf ⟨0, 0⟩ ⟨1⟩ first (nest 0) report)) =
        .ok (jobOf ⟨0, 0⟩ ⟨1⟩ first (nest 0) report) := by
    intro report hreport
    have hresults : report = ⟨[("x", .ok (nest 2))], .completed⟩ := by
      rw [Engine.runTask_in_turn hcut.valid_first rfl, chainReport, trail, hstep Nat.zero_lt_two]
        at hreport
      dsimp only at hreport
      rw [trail, hstep Nat.one_lt_two] at hreport
      have hdisplay : ∀ i, (step.named "x").displayName i = "x" := fun i => by
        simp only [Step.displayName, step, Step.named, Option.bind_some, hname]
      cases hreport
      simp only [trail, Results.recordAll, List.foldl, Results.record, hdisplay]
      rfl
    subst hresults
    have hplain : Results.Plain [("x", .ok (nest 2))] := by
      refine ⟨List.pairwise_singleton _ _, fun name d hd => ?_⟩
      cases List.mem_singleton.1 hd
      exact plain_nest 2
    refine (Job.ofJson_toJson ⟨by decide, plain_nest 0, hplain, Instant.representable_epoch,
      Instant.representable_epoch⟩).1 ⟨Nat.zero_le _, fun name d hd => ?_⟩
    cases List.mem_singleton.1 hd
    decide
  have hready := ready_fresh engine
  have hworks : WorksOn (fresh engine) first (some (nest 0)) (nest 0) := .given rfl
  obtain ⟨report₁, s₁, d, hsubmit₁, hsame, hready₁, hjob, -, houtcome, hrest⟩ :=
    submit_in_halves ⟨0, 0⟩ ⟨11⟩ hcut rfl hready (by decide) hworks hsucceeds hback
  obtain ⟨report₂, s₂, report, s₀, hsubmit₂, -, hsubmit, -, hhalves⟩ :=
    hrest s₁ (fresh engine) ⟨0, 0⟩ ⟨0, 0⟩ ⟨12⟩ ⟨2⟩ ⟨13⟩ ⟨3⟩ none (some (nest 0)) hsame hready₁ hjob (.refl _)
      hready hworks
  exact ⟨_, s₁, s₂, s₀, report₁, report₂, report, d, rfl, hready, hsubmit₁, houtcome, hsubmit₂, hsubmit,
    hhalves⟩

end Service

end PluginChain
