import PluginChain.Proofs.Workflow.FanOut

/-!
# Which failures the state of a run shows

The state of a run is read off its outcomes, and of the outcomes of one name only the last is there to be
read.  So a run has errors just when some failure is the last outcome of its name
(`RunStatus.ofResults_ofList_iff`), and a failure that is followed by a success of the same name does not
show.

Steps that run side by side may share a name, and then it is the order in which they happen to end that
decides what is told about the run (`FanOut.state_side_by_side`).  Nothing is hidden where all names
differ.
-/

set_option autoImplicit false

namespace PluginChain

theorem RunStatus.ofResults_eq_completedWithErrors_iff (results : Results) :
    ofResults results = .completedWithErrors ↔ ∃ name f, (name, Outcome.failed f) ∈ results := by
  constructor
  · intro h
    rw [ofResults] at h
    split at h
    · cases h
    · next hall =>
      obtain ⟨⟨name, o⟩, hmem, ho⟩ : ∃ e ∈ results, ¬ e.2.isOk = true := by simpa using hall
      cases o with
      | ok d => exact absurd rfl ho
      | failed f => exact ⟨name, f, hmem⟩
  · rintro ⟨name, f, hmem⟩
    rw [ofResults, if_neg]
    intro hall
    cases List.all_eq_true.1 hall _ hmem

theorem RunStatus.ofResults_ne_completedWithErrors_iff (results : Results) :
    ofResults results ≠ .completedWithErrors ↔ ofResults results = .completed := by
  rw [ofResults]
  split <;> simp

/-- **A run has errors just when a failure is the last outcome of its name.** -/
theorem RunStatus.ofResults_ofList_iff (outcomes : List (String × Outcome)) :
    ofResults (Entries.ofList outcomes) = .completedWithErrors ↔
      ∃ name f, Entries.IsLast outcomes (name, .failed f) := by
  rw [ofResults_eq_completedWithErrors_iff]
  simp only [Entries.mem_ofList_iff]

/-- What a visit enters into the outcomes of a run. -/
def Visit.entry (v : Visit) : String × Outcome := (v.name, .ofExcept v.result)

theorem Results.recordAll_nil_eq (visits : List Visit) :
    recordAll [] visits = Entries.ofList (visits.map Visit.entry) := by
  rw [Entries.ofList, List.foldl_map]
  rfl

theorem Outcome.ofExcept_eq_failed_iff {r : Except StepFailure Data} {f : StepFailure} :
    Outcome.ofExcept r = .failed f ↔ r = .error f := by
  cases r <;> simp [Outcome.ofExcept]

namespace FanOut

variable {eval : Nat → Evaluator} {steps : List Step} {input : Data} {r₀ : Registry}
  {turns : List Turn} {width : Nat} {s : FanOut}

/-- No outcome is entered under the name of a step after its own. -/
def WroteLast (steps : List Step) (turns : List Turn) (i : Nat) (step : Step) : Prop :=
  ∃ before later, writers turns = before ++ i :: later ∧
    ∀ j ∈ later, ∀ other : Step, steps[j]? = some other → other.displayName j ≠ step.displayName i

/-- A step comes to one thing only. -/
theorem CameTo.unique {i : Nat} {step : Step} {r r' : Except StepFailure Data}
    (h : CameTo eval steps input r₀ turns i step r) (h' : CameTo eval steps input r₀ turns i step r') :
    r = r' := by
  rw [CameTo] at h h'
  cases hname : step.pluginName i with
  | error f =>
    rw [hname] at h h'
    exact h.2.trans h'.2.symm
  | ok name =>
    rw [hname] at h h'
    obtain ⟨registry, hl, rfl⟩ := h
    obtain ⟨registry', hl', rfl⟩ := h'
    obtain rfl := List.singleton_inj.1 (hl.symm.trans hl')
    rfl

/-- Where all workers are through, each step has come to something. -/
theorem Sound.exists_cameTo (h : Sound eval steps input r₀ turns width s) (hf : s.Finished) {i : Nat}
    {step : Step} (hs : steps[i]? = some step) :
    ∃ r, s.workers[i]? = some (.recorded r) ∧ CameTo eval steps input r₀ turns i step r := by
  have hi : i < s.workers.length := h.length_eq ▸ (List.getElem?_eq_some_iff.1 hs).1
  obtain ⟨r, hr⟩ := hf _ (List.getElem_mem hi)
  have hw := List.getElem?_eq_getElem hi
  rw [hr] at hw
  exact ⟨r, hw, (h.story hs hw).1⟩

theorem Sound.completedWithErrors_iff (h : Sound eval steps input r₀ turns width s) :
    RunStatus.ofResults s.results = .completedWithErrors ↔
      ∃ (i : Nat) (step : Step) (f : StepFailure), steps[i]? = some step ∧
        CameTo eval steps input r₀ turns i step (.error f) ∧ WroteLast steps turns i step := by
  obtain ⟨visits, hlog⟩ := h.logged
  rw [hlog.results_eq, Results.recordAll_nil_eq, RunStatus.ofResults_ofList_iff]
  constructor
  · rintro ⟨name, f, before, later, hsplit, hlater⟩
    obtain ⟨visits₁, visits₂, rfl, rfl, hrest⟩ := List.map_eq_append_iff.1 hsplit
    obtain ⟨v, visits₃, rfl, hv, rfl⟩ := List.map_eq_cons_iff.1 hrest
    obtain ⟨rfl, hfailed⟩ := Prod.mk.inj hv
    have hmem : v ∈ visits₁ ++ v :: visits₃ := by simp
    have hcame := (h.story (hlog.steps_eq v hmem) (hlog.workers_eq v hmem)).1
    rw [Outcome.ofExcept_eq_failed_iff.1 hfailed] at hcame
    refine ⟨v.index, v.step, f, hlog.steps_eq v hmem, hcame, visits₁.map (·.index),
      visits₃.map (·.index), by rw [← hlog.indices, List.map_append, List.map_cons], ?_⟩
    intro j hj other hother
    obtain ⟨u, hu, rfl⟩ := List.mem_map.1 hj
    have humem : u ∈ visits₁ ++ v :: visits₃ := by simp [hu]
    cases hother.symm.trans (hlog.steps_eq u humem)
    exact hlater u.entry (List.mem_map_of_mem hu)
  · rintro ⟨i, step, f, hs, hcame, before, later, hsplit, hlater⟩
    rw [← hlog.indices] at hsplit
    obtain ⟨visits₁, visits₂, rfl, rfl, hrest⟩ := List.map_eq_append_iff.1 hsplit
    obtain ⟨v, visits₃, rfl, rfl, rfl⟩ := List.map_eq_cons_iff.1 hrest
    have hmem : v ∈ visits₁ ++ v :: visits₃ := by simp
    cases hs.symm.trans (hlog.steps_eq v hmem)
    have hresult : v.result = .error f :=
      ((h.story (hlog.steps_eq v hmem) (hlog.workers_eq v hmem)).1).unique hcame
    refine ⟨v.name, f, visits₁.map Visit.entry, visits₃.map Visit.entry, ?_, ?_⟩
    · rw [List.map_append, List.map_cons]
      simp only [Visit.entry, hresult, Outcome.ofExcept]
    · intro e he
      obtain ⟨u, hu, rfl⟩ := List.mem_map.1 he
      exact hlater u.index (List.mem_map_of_mem hu) u.step (hlog.steps_eq u (by simp [hu]))

/-- A step whose name is its own is the last of its name to write. -/
theorem Sound.wroteLast_of_unique (h : Sound eval steps input r₀ turns width s) (hf : s.Finished)
    {i : Nat} {step : Step} (hs : steps[i]? = some step)
    (hunique : ∀ (j : Nat) (other : Step), steps[j]? = some other →
      other.displayName j = step.displayName i → j = i) : WroteLast steps turns i step := by
  have hmem := (h.mem_writers_iff hf i).2 (List.getElem?_eq_some_iff.1 hs).1
  obtain ⟨before, later, hsplit⟩ := List.append_of_mem hmem
  refine ⟨before, later, hsplit, fun j hj other hother hname => ?_⟩
  have hnodup := h.nodup
  rw [hsplit, List.nodup_append] at hnodup
  exact (List.nodup_cons.1 hnodup.2.1).1 (hunique j other hother hname ▸ hj)

/-- **What the state of a parallel run shows.**  On every schedule that brings all workers through, the
run has errors just when a step failed that is the last of its name to write, and it is completed just
when all those that are the last of their names succeeded.  If the names of the steps all differ, the run
has errors just when some step failed. -/
theorem state_side_by_side (eval : Nat → Evaluator) (e : Engine) (places : Nat) (task : Task)
    (input : Data) (turns : List Turn) (s : FanOut)
    (h : (begin_ { e with maxParallel := max 1 places } task.steps).after eval task.steps input turns =
      some s) (hf : s.Finished) :
    ((Report.ofResults s.results).status = .completedWithErrors ↔
      ∃ (i : Nat) (step : Step) (f : StepFailure), task.steps[i]? = some step ∧
        CameTo eval task.steps input e.registry turns i step (.error f) ∧
          WroteLast task.steps turns i step) ∧
    ((Report.ofResults s.results).status = .completed ↔
      ∀ (i : Nat) (step : Step), task.steps[i]? = some step → WroteLast task.steps turns i step →
        ∃ d, CameTo eval task.steps input e.registry turns i step (.ok d)) ∧
    ((∀ (i j : Nat) (step other : Step), task.steps[i]? = some step → task.steps[j]? = some other →
        other.displayName j = step.displayName i → j = i) →
      ((Report.ofResults s.results).status = .completedWithErrors ↔
        ∃ (i : Nat) (step : Step) (f : StepFailure), task.steps[i]? = some step ∧
          CameTo eval task.steps input e.registry turns i step (.error f))) := by
  have hsound : Sound eval task.steps input e.registry turns (max 1 places) s := sound_after h
  have herrors := hsound.completedWithErrors_iff
  refine ⟨herrors, ?_, fun hnames => herrors.trans ?_⟩
  · refine (RunStatus.ofResults_ne_completedWithErrors_iff s.results).symm.trans ?_
    constructor
    · intro hnone i step hs hlast
      obtain ⟨r, -, hcame⟩ := hsound.exists_cameTo hf hs
      cases r with
      | ok d => exact ⟨d, hcame⟩
      | error f => exact absurd (herrors.2 ⟨i, step, f, hs, hcame, hlast⟩) hnone
    · intro hall hsome
      obtain ⟨i, step, f, hs, hcame, hlast⟩ := herrors.1 hsome
      obtain ⟨d, hd⟩ := hall i step hs hlast
      cases hcame.unique hd
  · constructor
    · rintro ⟨i, step, f, hs, hcame, -⟩
      exact ⟨i, step, f, hs, hcame⟩
    · rintro ⟨i, step, f, hs, hcame⟩
      exact ⟨i, step, f, hs, hcame,
        hsound.wroteLast_of_unique hf hs fun j other hother => hnames i j step other hs hother⟩

/-- A step that names no plugin fails, and a later one of its name covers this up. -/
theorem state_side_by_side_covered :
    let p : CompiledPlugin := { (default : CompiledPlugin) with name := "b" }
    let e : Engine := { (default : Engine) with registry := ({} : Registry).insert p }
    let eval : Nat → Evaluator := fun _ _ _ _ => .ok .null
    let task : Task := ⟨"pair", "", [{ name := "a" }, { name := "a", plugin := "b" }], true⟩
    let turns : List Turn := [.move (.enter 0), .move (.start 0), .move (.record 0), .move (.enter 1),
      .move (.start 1), .move (.finish 1), .move (.record 1)]
    ∃ s, (begin_ { e with maxParallel := max 1 0 } task.steps).after eval task.steps .null turns = some s ∧
      s.Finished ∧
      CameTo eval task.steps .null e.registry turns 0 { name := "a" }
        (.error (.invalidStep "a" "plugin name not specified in step")) ∧
      (Report.ofResults s.results).status = .completed := by
  intro p e eval task turns
  obtain ⟨s, hs, hf⟩ : ∃ s, (begin_ { e with maxParallel := max 1 0 } task.steps).after eval task.steps
      .null turns = some s ∧ s.Finished := by
    refine ⟨_, rfl, fun w hw => ?_⟩
    rcases List.mem_cons.1 hw with rfl | hw
    · exact ⟨_, rfl⟩
    · exact ⟨_, List.mem_singleton.1 hw⟩
  have hwriters : writers turns = [0, 1] := rfl
  refine ⟨s, hs, hf, ⟨rfl, rfl⟩, ?_⟩
  refine (state_side_by_side eval e 0 task .null turns s hs hf).2.1.2 fun i step hstep hlast => ?_
  obtain ⟨before, later, hsplit, hlater⟩ := hlast
  match i, hstep with
  | 0, hstep =>
    cases hstep
    cases before with
    | nil =>
      cases hsplit
      exact absurd rfl (hlater 1 List.mem_cons_self { name := "a", plugin := "b" } rfl)
    | cons j before =>
      obtain ⟨-, hrest⟩ := List.cons.inj (hwriters.symm.trans hsplit)
      have hmem : 0 ∈ [1] := hrest ▸ List.mem_append_right before List.mem_cons_self
      exact absurd (List.mem_singleton.1 hmem) (by decide)
  | 1, hstep =>
    cases hstep
    exact ⟨.null, e.registry, rfl, rfl⟩

end FanOut

end PluginChain
