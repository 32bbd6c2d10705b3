import PluginChain.Proofs.Service.Handover
import PluginChain.Proofs.Workflow.Status

/-!
# Under which names outputs are found again

The outcome of a step is entered under its trimmed name, while the name in a reference to it is looked up as
it stands.  So a later task that refers to a step by the name that the step was given finds its output just
when that name has no blanks around it, and is refused otherwise (`Service.found_by_name`).

All this is about the outcomes that a run leaves, in whatever order they were entered: the steps of the
earlier task may have taken turns or have run side by side, on any schedule, and plugins may have come and gone
meanwhile (`Engine.Visits`).
-/

set_option autoImplicit false

namespace PluginChain

open Operation

/-! ## Names of steps -/

/-- The name of a step as its task has it.  A step that was given none goes by its place. -/
def Step.writtenName (step : Step) (index : Nat) : String :=
  match step.name with
  | some name => if (Text.nonBlank? name).isSome then name else s!"step_{index}"
  | none => s!"step_{index}"

theorem Step.isTrimmed_place (index : Nat) : Text.IsTrimmed s!"step_{index}" := by
  refine Text.isTrimmed_of_not_blank fun c hc => ?_
  rw [String.toList_append, List.mem_append] at hc
  rcases hc with hc | hc
  · have hletters : "step_".toList.all (! Text.isBlank ·) = true := by decide
    simpa only [Bool.not_eq_true'] using List.all_eq_true.1 hletters c hc
  · have hdigits : c ∈ Nat.toDigits 10 index := by
      simpa only [Nat.toString_eq_repr, Nat.toList_repr] using hc
    exact Instant.isBlank_of_isDigit (Nat.isDigit_of_mem_toDigits (by decide) (by decide) hdigits)

/-- The name under which the outcome of a step is entered is its name without the blanks around it. -/
theorem Step.trim_writtenName (step : Step) (index : Nat) :
    Text.trim (step.writtenName index) = step.displayName index := by
  have hplace := Step.isTrimmed_place index
  rw [writtenName, displayName]
  cases step.name with
  | none => exact hplace
  | some name =>
    dsimp only [Option.bind_some]
    rw [Text.nonBlank?]
    by_cases hempty : (Text.trim name).isEmpty = true
    · rw [if_pos hempty]
      exact hplace
    · rw [if_neg hempty]
      rfl

theorem Step.isTrimmed_displayName (step : Step) (index : Nat) : Text.IsTrimmed (step.displayName index) := by
  rw [← trim_writtenName]
  exact Text.isTrimmed_trim _

/-! ## What a run leaves -/

/-- The steps that are executed when a task is run, in the order in which their outcomes are entered.  What
happens to the plugins meanwhile is left open. -/
inductive Engine.Visits (e : Engine) (task : Task) (input : Data) : List Visit → Prop
  | inTurn (hturn : task.parallel = false) (registries : Nat → Registry) :
    Visits e task input (trail (resultAmid (fun _ => e.evaluator none) registries) 0 task.steps input)
  | sideBySide (hside : task.parallel = true) {turns : List Turn} {s : FanOut} {visits : List Visit}
    (hs : (FanOut.begin_ e task.steps).after (fun _ => e.evaluator none) task.steps input turns = some s)
    (hlog : FanOut.Logged task.steps turns s visits) : Visits e task input visits

/-- What is visited are steps of the task. -/
theorem Engine.Visits.step_eq {e : Engine} {task : Task} {input : Data} {visits : List Visit}
    (h : e.Visits task input visits) {v : Visit} (hv : v ∈ visits) : task.steps[v.index]? = some v.step := by
  cases h with
  | inTurn _ registries =>
    obtain ⟨i, hi⟩ := List.mem_iff_getElem?.1 hv
    rw [getElem?_trail_zero] at hi
    obtain ⟨rfl, hstep, -⟩ := chainVisit_eq_some.1 hi
    exact hstep
  | sideBySide _ _ hlog => exact hlog.steps_eq v hv

/-- A report is that of the steps that were executed. -/
theorem Engine.exists_visits {e : Engine} {task : Task} {input : Data} {report : Report}
    (h : (e.runTask task input).1 = .ok report) :
    ∃ visits, e.Visits task input visits ∧ report = .ofResults (Results.recordAll [] visits) := by
  cases hvalid : task.validate with
  | error why =>
    rw [runTask, Task.run, hvalid] at h
    cases h
  | ok u =>
    cases hparallel : task.parallel with
    | false =>
      rw [runTask_in_turn hvalid hparallel] at h
      cases h
      exact ⟨_, .inTurn hparallel fun _ => e.registry, rfl⟩
    | true =>
      obtain ⟨turns, -, hs⟩ := @FanOut.exists_turns_of_tryMove (fun _ => e.evaluator none) task.steps input
        ((List.range task.steps.length).flatMap FanOut.movesOf) (FanOut.begin_ e task.steps)
      obtain ⟨visits, hlog⟩ := (FanOut.sound_after hs).logged
      refine ⟨visits, .sideBySide hparallel hs hlog, ?_⟩
      rw [← hlog.results_eq]
      rw [runTask, Task.run, hvalid] at h
      simp only [hparallel, if_true] at h
      change (runFanOut (fun _ => e.evaluator none) task.steps input e).1.map Report.ofResults = .ok report at h
      rw [runFanOut] at h
      split at h
      · cases h
      · cases h
        rfl

/-- No outcome is entered under the name of a visit after its own. -/
def Visit.IsLastIn (v : Visit) (visits : List Visit) : Prop :=
  ∃ before later, visits = before ++ v :: later ∧ ∀ u ∈ later, u.name ≠ v.name

/-- All that is entered is entered under trimmed names. -/
theorem Results.get?_recordAll_of_not_isTrimmed {name : String} (h : ¬ Text.IsTrimmed name) (visits : List Visit) :
    Entries.get? name (recordAll [] visits) = none := by
  have hne : ∀ v ∈ visits, v.name ≠ name := by
    rintro v - rfl
    exact h (v.step.isTrimmed_displayName v.index)
  exact get?_recordAll_of_ne hne []

/-- **What is found under a name** that is that of a step, but for the blanks around it. -/
theorem Results.get?_recordAll_iff {visits : List Visit} {v : Visit} {d : Data} (hlast : v.IsLastIn visits)
    (hd : v.result = .ok d) {name : String} (hname : Text.trim name = v.name) (d' : Data) :
    Entries.get? name (recordAll [] visits) = some (.ok d') ↔ Text.IsTrimmed name ∧ d' = d := by
  by_cases htrimmed : Text.IsTrimmed name
  · obtain ⟨before, later, rfl, hlater⟩ := hlast
    have hname : name = v.name := htrimmed.symm.trans hname
    rw [hname, get?_recordAll [] before v hlater, hd]
    constructor
    · intro h
      cases h
      exact ⟨hname ▸ htrimmed, rfl⟩
    · rintro ⟨-, rfl⟩
      rfl
  · rw [get?_recordAll_of_not_isTrimmed htrimmed]
    exact ⟨nofun, fun h => absurd h.1 htrimmed⟩

namespace Service

variable {s s' : Service} {now : Instant} {taskId jobId : Uuid} {task : Task} {given : Option Data}

/-! ## References by name -/

/-- A task that works on an output of a job, in a service that has the job. -/
structure Refers (s : Service) (task : Task) (id : Uuid) (job : Job) (step : String) : Prop where
  ready : s.store.Ready s.files
  hasJob : s.HasJob id job
  valid : task.validate = .ok ()
  reference : ∃ text, Uuid.parse (Text.trim text) = .ok id ∧ task.initialInput? = some (.output text step)

variable {id : Uuid} {job : Job} {step : String}

/-- What a task works on that refers to an output. -/
theorem Refers.worksOn_iff (h : Refers s task id job step) {d : Data} :
    WorksOn s task given d ↔ Entries.get? step job.results = some (.ok d) := by
  obtain ⟨text, hid, hreference⟩ := h.reference
  constructor
  · intro hworks
    cases hworks with
    | given hnone => cases hnone.symm.trans hreference
    | referenced hreference' hresolves =>
      cases hreference.symm.trans hreference'
      cases hresolves with
      | output hid' hjob hstep =>
        cases hid.symm.trans hid'
        cases h.hasJob.symm.trans hjob
        exact hstep
  · exact fun hstep => .referenced hreference (.output hid h.hasJob hstep)

/-- A task that refers to an output that is not there is refused. -/
theorem Refers.refused (h : Refers s task id job step) (hstep : ∀ d, Entries.get? step job.results ≠ some (.ok d)) :
    Refused s now taskId jobId task given (.noOutput id step) := by
  obtain ⟨text, hid, hreference⟩ := h.reference
  exact refused_of_dangling h.ready h.valid hreference (.noOutput hid h.hasJob hstep)

/-- A task that refers to an output that is there is run on it. -/
theorem Refers.exists_submit (h : Refers s task id job step) {d : Data}
    (hstep : Entries.get? step job.results = some (.ok d))
    (hgate : task.parallel = true → s.engine.maxParallel ≤ Engine.gateLimit) :
    ∃ report s', submit now taskId jobId task given s = .ok ⟨jobId, report⟩ s' ∧
      Added s taskId task (jobOf now jobId task d report) s' := by
  obtain ⟨report, hreport⟩ := s.engine.exists_report h.valid hgate d
  obtain ⟨s', hsubmit, -, hadded⟩ := submit_of_report h.ready h.valid (h.worksOn_iff.2 hstep) hreport
  exact ⟨report, s', hsubmit, hadded⟩

/-- **Under which names outputs are found again.**  The job of a task that was submitted has the outcomes of
the steps that were executed.  A later task that refers to the output of one of them, which succeeded and was
the last of its name, gets just this output if it refers to it by the trimmed name of the step, and is refused
if there are blanks around the name, also where the step was given this very name. -/
theorem found_by_name {sub : Submission} (h : submit now taskId jobId task given s = .ok sub s') :
    ∃ input, WorksOn s task given input ∧
      (∃ visits, s.engine.Visits task input visits ∧ sub = ⟨jobId, .ofResults (.recordAll [] visits)⟩) ∧
      s'.Holds jobId (jobOf now jobId task input sub.report) ∧
      ((jobOf now jobId task input sub.report).Plain → (jobOf now jobId task input sub.report).Shallow →
        s'.HasJob jobId (jobOf now jobId task input sub.report)) ∧
      ∀ visits, s.engine.Visits task input visits → ∀ (v : Visit) (d : Data), v.IsLastIn visits → v.result = .ok d →
        task.steps[v.index]? = some v.step ∧ Text.trim (v.step.writtenName v.index) = v.name ∧
        ∀ name, Text.trim name = v.name → ∀ (later : Service) (second : Task),
          Refers later second jobId (jobOf now jobId task input (.ofResults (.recordAll [] visits))) name →
          (∀ given₂ d₂, WorksOn later second given₂ d₂ ↔ Text.IsTrimmed name ∧ d₂ = d) ∧
          (Text.IsTrimmed name → (second.parallel = true → later.engine.maxParallel ≤ Engine.gateLimit) →
            ∀ now₂ taskId₂ jobId₂ given₂, ∃ report s₂,
              submit now₂ taskId₂ jobId₂ second given₂ later = .ok ⟨jobId₂, report⟩ s₂ ∧
              Added later taskId₂ second (jobOf now₂ jobId₂ second d report) s₂) ∧
          (¬ Text.IsTrimmed name → ∀ now₂ taskId₂ jobId₂ given₂,
            Refused later now₂ taskId₂ jobId₂ second given₂ (.noOutput jobId name)) := by
  obtain ⟨hid, input, hinput, hreport, hholds⟩ := holds_submit h
  obtain ⟨visits, hvisits, hresults⟩ := Engine.exists_visits hreport
  rw [forTask_applyResults (Engine.report_runTask hreport).2] at hholds
  obtain ⟨_, report⟩ := sub
  obtain rfl : _ = jobId := hid
  refine ⟨input, (inputOf_eq_ok_iff.1 hinput).2, ⟨visits, hvisits, congrArg (Submission.mk _) hresults⟩, hholds,
    hholds.hasJob, ?_⟩
  intro visits hvisits v d hlast hd
  have hmem : v ∈ visits := by
    obtain ⟨before, later, rfl, -⟩ := hlast
    simp
  refine ⟨hvisits.step_eq hmem, v.step.trim_writtenName v.index, fun name hname later second hrefers => ?_⟩
  have hfound := fun d' => Results.get?_recordAll_iff hlast hd hname d'
  exact ⟨fun given₂ d₂ => hrefers.worksOn_iff.trans (hfound d₂),
    fun htrimmed hgate now₂ taskId₂ jobId₂ given₂ => hrefers.exists_submit ((hfound d).2 ⟨htrimmed, rfl⟩) hgate,
    fun hnot now₂ taskId₂ jobId₂ given₂ => hrefers.refused fun d' hd' => hnot ((hfound d').1 hd').1⟩

/-- The output of a step that was named with blanks is not found under the name it was given, but under that
without them. -/
theorem found_by_name_padded :
    let first : Task := ⟨"first", "", [(Step.running "p").named " a "], false⟩
    let second (name : String) : Task :=
      ⟨"second", "", [(Step.running "p").withInput (.output (Uuid.toText ⟨1⟩) name)], false⟩
    ∃ s s' : Service, s.engine.registry.get? "p" = some bracketing ∧
      submit ⟨0, 0⟩ ⟨11⟩ ⟨1⟩ first (some (nest 0)) s = .ok ⟨⟨1⟩, ⟨[("a", .ok (nest 1))], .completed⟩⟩ s' ∧
      Refused s' ⟨0, 0⟩ ⟨12⟩ ⟨2⟩ (second " a ") none (.noOutput ⟨1⟩ " a ") ∧
      ∃ report s₂, submit ⟨0, 0⟩ ⟨12⟩ ⟨2⟩ (second "a") none s' = .ok ⟨⟨2⟩, report⟩ s₂ ∧
        Added s' ⟨12⟩ (second "a") (jobOf ⟨0, 0⟩ ⟨2⟩ (second "a") (nest 1) report) s₂ := by
  intro first second
  let engine : Engine := ⟨({} : Registry).insert bracketing, {}, 1, {}⟩
  have hplugin : Text.nonBlank? "p" = some "p" := by decide +kernel
  have hname : Text.nonBlank? " a " = some "a" := by decide +kernel
  have hget : engine.registry.get? "p" = some bracketing := by rw [Registry.get?_insert]; rfl
  have hstep : engine.stepResult 0 ((Step.running "p").named " a ") (nest 0) = .ok (nest 1) := by
    have heval := evaluator_bracketing (e := engine) rfl Nat.zero_lt_two
    simp only [Engine.stepResult, resultAmid, Step.outcomeIn, Step.pluginName, Step.named,
      Step.running, Option.bind_some, hplugin, hget, Step.paramsData, heval]
    rfl
  let v : Visit := ⟨0, (Step.running "p").named " a ", nest 0, .ok (nest 1)⟩
  have htrail : trail engine.stepResult 0 first.steps (nest 0) = [v] := by
    rw [trail, hstep]
    rfl
  have hv : v.name = "a" := by
    simp only [Visit.name, v, Step.displayName, Step.named, Option.bind_some, hname]
  have hreport : chainReport engine.stepResult first.steps (nest 0) = ⟨[("a", .ok (nest 1))], .completed⟩ := by
    rw [chainReport, htrail, Results.recordAll_nil_eq]
    simp only [List.map, Visit.entry, hv]
    rfl
  have hsame : Report.ofResults (.recordAll [] [v]) = ⟨[("a", .ok (nest 1))], .completed⟩ := by
    rw [← hreport, chainReport, htrail]
  have hready := ready_fresh engine
  have hworks : WorksOn (fresh engine) first (some (nest 0)) (nest 0) := .given rfl
  obtain ⟨s', hsubmit, -, hready', -⟩ :=
    submit_in_turn ⟨0, 0⟩ ⟨11⟩ ⟨1⟩ hready (by decide +kernel) rfl hworks (rfl : _ = engine.stepResult)
  rw [hreport] at hsubmit
  obtain ⟨input, hinput, -, -, hback, hfound⟩ := found_by_name hsubmit
  obtain rfl : input = nest 0 := by
    cases hinput with
    | given _ => rfl
    | referenced hreference _ => cases hreference
  have hok : ∀ name d, (name, Outcome.ok d) ∈ [("a", Outcome.ok (nest 1))] → d = nest 1 := by simp
  have hjob : s'.HasJob ⟨1⟩ (jobOf ⟨0, 0⟩ ⟨1⟩ first (nest 0) ⟨[("a", .ok (nest 1))], .completed⟩) := hback
    ⟨by decide, plain_nest 0, ⟨List.pairwise_singleton _ _, fun name d hd => hok name d hd ▸ plain_nest 1⟩,
      Instant.representable_epoch, Instant.representable_epoch⟩
    ⟨Nat.zero_le _, fun name d hd => hok name d hd ▸ by decide⟩
  have hrefers : ∀ name, (second name).validate = .ok () → Refers s' (second name) ⟨1⟩
      (jobOf ⟨0, 0⟩ ⟨1⟩ first (nest 0) (.ofResults (.recordAll [] [v]))) name := by
    intro name hvalid
    refine ⟨hready', ?_, hvalid, Uuid.toText ⟨1⟩, ?_, rfl⟩
    · rw [hsame]
      exact hjob
    · rw [Uuid.isTrimmed_toText]
      exact Uuid.parse_toText (by decide)
  obtain ⟨-, -, hnames⟩ := hfound [v] (htrail ▸ .inTurn rfl fun _ => engine.registry) v (nest 1)
    ⟨[], [], rfl, List.forall_mem_nil _⟩ rfl
  have hpadded : Text.trim " a " = "a" := by decide +kernel
  have hplain : Text.trim "a" = "a" := by decide +kernel
  obtain ⟨-, -, hrefused⟩ := hnames " a " (hpadded.trans hv.symm) s' _ (hrefers _ (by decide +kernel))
  obtain ⟨-, hsubmits, -⟩ := hnames "a" (hplain.trans hv.symm) s' _ (hrefers _ (by decide +kernel))
  refine ⟨_, s', hget, hsubmit, hrefused (fun h => ?_) _ _ _ _, hsubmits hplain (absurd · Bool.false_ne_true) _ _ _ _⟩
  exact absurd (hpadded.symm.trans h) (by decide)

end Service

end PluginChain
