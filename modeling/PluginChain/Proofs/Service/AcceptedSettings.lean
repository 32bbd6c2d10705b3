import PluginChain.Proofs.Configuration
import PluginChain.Proofs.Workflow.Endings

/-!
# Which settings run

What a configuration and a service ask of the number of steps that may run at once is only that it is not
zero: a number that the environment gives is taken as it is, however large.  The gate that steps go through
when they run side by side has a width of its own that it cannot pass (`Engine.gateLimit`), and nothing
compares the two before a task is run.

* `Service.accepted_settings_run` says of every accepted number which tasks come to a report, also when calls
  overlap.
* `Service.no_report_of_accepted_settings` is a number that is accepted and gives no report.
-/

set_option autoImplicit false

namespace PluginChain

/-! ## The engine of a service -/

/-- A service has the engine that its settings ask for, since one step can always run. -/
theorem Service.engine_of_ofSettings {settings : Settings} {limits : Limits} {store : Store} {files : FileTree}
    {s : Service} (h : Service.ofSettings settings limits store files = .ok s) :
    s.engine.gauge = {} ∧ s.engine.maxParallel = settings.maxParallel ∧ 1 ≤ settings.maxParallel := by
  rw [Service.ofSettings] at h
  by_cases hvalid : settings.validate = .ok ()
  · rw [hvalid] at h
    cases h
    have hpos : 1 ≤ settings.maxParallel := ((Settings.validate_eq_ok_iff settings).1 hvalid).2
    exact ⟨rfl, Nat.max_eq_right hpos, hpos⟩
  · cases hsettings : settings.validate with
    | ok => exact absurd hsettings hvalid
    | error why =>
      rw [hsettings] at h
      cases h

/-! ## Calls on it -/

namespace Overlap

variable {eval : Nat → Nat → Evaluator} {e : Engine} {calls : List EngineCall} {turns : List OverlapTurn}
  {t : Overlap} {i : Nat} {task : Task} {input : Data}

/-- A task of an engine makes no more than so many moves, has a way on until it has returned, and returns
with what its width decides. -/
theorem task_ends (hgauge : e.gauge = {}) (hwidth : 1 ≤ e.maxParallel)
    (hafter : (begin_ e calls).after eval turns = some t) (hcall : calls[i]? = some (.task task input)) :
    turns.countP (OverlapTurn.IsOf i) ≤ 4 * task.steps.length + 2 ∧
      ∃ phase, t.phases[i]? = some phase ∧
        (phase.isReturned = false → ∃ turn t', turn.IsOf i ∧ t.turn eval turn = some t') ∧
        ∀ reply, phase = .returned reply → EngineCall.EndsIn e.maxParallel task reply := by
  obtain ⟨budget, ⟨-, phase, hphase, hon, -⟩, hbudget⟩ := (stands_begin hcall e).after hafter
  have hsound := (sound_begin hgauge calls).after hwidth hafter
  refine ⟨by omega, phase, hphase, hsound.exists_turn hwidth eval hcall hphase, ?_⟩
  rintro reply rfl
  exact hon

end Overlap

/-! ## Settings that are accepted -/

/-- **Which settings run.**  A configuration takes the number of steps that may run at once from the
environment, the file or neither, and a service can be started on it.  On a service that could be started
the number is not zero, and a task that is valid comes to a report just if it is a chain or the number is
within the limit of a gate.  So it is also where calls overlap, plugins come and go and a plugin gives
whatever it gives: the call of the task returns after so many turns of its own, with a report or, where
there can be no gate, with that fault. -/
theorem Service.accepted_settings_run (t : FileTree) (current : Place) (env : Environment) (settings : Settings)
    (limits : Limits) (store : Store) (files : FileTree) :
    (∀ c, Configuration.load t current env = .ok c →
      (∀ f, Configuration.Says t current f →
        env.Decides "SCRIPTFLOW_MAX_PARALLEL" f.maxParallel 10 c.settings.maxParallel) ∧
      ∃ s, Service.ofSettings c.settings c.limits store files = .ok s) ∧
    ∀ s, Service.ofSettings settings limits store files = .ok s →
      1 ≤ settings.maxParallel ∧
      ∀ (registry : Registry) (task : Task), task.validate = .ok () →
        let engine := { s.engine with registry }
        (∀ input, (∃ report, (engine.runTask task input).1 = .ok report) ↔
          (task.parallel = true → settings.maxParallel ≤ Engine.gateLimit)) ∧
        ∀ (calls : List EngineCall) (eval : Nat → Nat → Evaluator) (turns : List OverlapTurn) (t : Overlap)
          (i : Nat) (input : Data), (Overlap.begin_ engine calls).after eval turns = some t →
          calls[i]? = some (.task task input) →
            turns.countP (OverlapTurn.IsOf i) ≤ 4 * task.steps.length + 2 ∧
            ∃ phase, t.phases[i]? = some phase ∧
              (phase.isReturned = false → ∃ turn t', turn.IsOf i ∧ t.turn eval turn = some t') ∧
              ∀ reply, phase = .returned reply → EngineCall.EndsIn settings.maxParallel task reply := by
  refine ⟨fun c hload => ?_, fun s hs => ?_⟩
  · obtain ⟨-, f, hsays, -, hdecides, -, hvalid⟩ := Configuration.load_eq_ok hload
    refine ⟨fun g hg => ?_, ?_⟩
    · obtain rfl := hsays.unique hg
      exact hdecides
    · rw [Service.ofSettings, hvalid]
      exact ⟨_, rfl⟩
  · obtain ⟨hgauge, hwidth, hpos⟩ := Service.engine_of_ofSettings hs
    refine ⟨hpos, fun registry task hvalid => ?_⟩
    intro engine
    have hengine : engine.maxParallel = settings.maxParallel := hwidth
    refine ⟨fun input => hengine ▸ engine.exists_report_iff hvalid input,
      fun calls eval turns t i input hafter hcall => ?_⟩
    rw [← hengine] at hpos ⊢
    exact Overlap.task_ends hgauge hpos hafter hcall

/-- A number from the environment that is accepted, and beyond the limit of a gate.  A task whose steps run
side by side gets no report, alone or as a call among others. -/
theorem Service.no_report_of_accepted_settings :
    let env : Environment :=
      ⟨[("SCRIPTFLOW_HOME", "/h"), ("SCRIPTFLOW_MAX_PARALLEL", "2305843009213693952")], none⟩
    let task : Task := ⟨"pair", "", [.running "a", .running "b"], true⟩
    ∃ c s, Configuration.load ⟨[]⟩ [] env = .ok c ∧
      Service.ofSettings c.settings c.limits ⟨[]⟩ ⟨[]⟩ = .ok s ∧
      (¬ ∃ report, (s.engine.runTask task .null).1 = .ok report) ∧
      ∃ t, (Overlap.begin_ s.engine [.task task .null]).after (fun _ _ _ _ _ => .ok .null) [.call 0] = some t ∧
        t.phases[0]? = some (.returned (.report (.error (.gate 2305843009213693952)))) := by
  intro env task
  obtain ⟨c, hload, hnumber⟩ : ∃ c, (Configuration.load ⟨[]⟩ [] env).toOption = some c ∧
      c.settings.maxParallel = 2305843009213693952 := by
    refine ⟨⟨"/h", none, ⟨.ofMillis 5000, 2305843009213693952⟩, .standard⟩, ?_, rfl⟩
    simp only [Configuration.load, Configuration.findFile, FileTree.isThereAt, FileTree.locate_eq]
    decide +kernel
  replace hload := eq_ok_of_toOption hload
  obtain ⟨hconfiguration, hservice⟩ :=
    Service.accepted_settings_run ⟨[]⟩ [] env c.settings c.limits ⟨[]⟩ ⟨[]⟩
  obtain ⟨s, hs⟩ := (hconfiguration c hload).2
  obtain ⟨-, htask⟩ := hservice s hs
  have hvalid : task.validate = .ok () := by decide +kernel
  have hwide : Engine.gateLimit < c.settings.maxParallel := by
    rw [hnumber]
    decide
  obtain ⟨hreport, -⟩ := htask s.engine.registry task hvalid
  refine ⟨c, s, hload, hs, fun h => Nat.not_le.2 hwide ((hreport .null).1 h rfl), ?_⟩
  have hengine : s.engine.maxParallel = 2305843009213693952 :=
    (Service.engine_of_ofSettings hs).2.1.trans hnumber
  have hfault : (RunPhase.ready (.task task .null)).proceed (fun _ _ _ _ => .ok .null) s.engine =
      some (.returned (.report (.error (.gate 2305843009213693952))), s.engine) := by
    simp only [RunPhase.proceed, hvalid, hengine]
    rw [if_pos rfl, if_pos (by decide)]
  have hturn : (Overlap.begin_ s.engine [.task task .null]).turn (fun _ _ _ _ _ => .ok .null) (.call 0) =
      some ⟨s.engine, [.returned (.report (.error (.gate 2305843009213693952)))]⟩ :=
    Overlap.moveCall_of_some rfl hfault
  refine ⟨⟨s.engine, [.returned (.report (.error (.gate 2305843009213693952)))]⟩, ?_, rfl⟩
  rw [Overlap.after, List.foldlM_cons, hturn]
  rfl

end PluginChain
