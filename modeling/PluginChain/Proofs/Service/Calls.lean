import PluginChain.Proofs.Service.Jobs
import PluginChain.Proofs.Workflow.Status

/-!
# Which failures the state of a job shows

The calls that are made on a job go on after one that failed, and what each of them gave is collected
under the name of its plugin.  `callOutcomes` are the outcomes of all calls, in their order; nothing is
lost there.

In the job the outcomes of a plugin that is called more than once come down to the last of them
(`Service.callAll_nil_eq`).  Its state is that of what is left, so that a call which failed shows just
when it is the last one of its plugin (`Service.state_of_calls`).
-/

set_option autoImplicit false

namespace PluginChain

open Operation

/-- What a call comes to on an input, with the plugins of a registry. -/
def Invocation.outcomeIn (r : Registry) (eval : Evaluator) (call : Invocation) (input : Data) :
    Except StepFailure Data :=
  match r.get? call.name with
  | some p => (eval p input (.table call.params)).mapError ExecutionError.toFailure
  | none => .error (.pluginNotFound (Text.trim call.name))

/-- What the calls come to one after the other, each under the name of its plugin.  One that fails leaves
the value on which the next one works. -/
def callOutcomes (r : Registry) (eval : Evaluator) : List Invocation → Data → List (String × Outcome)
  | [], _ => []
  | call :: rest, current =>
    let result := call.outcomeIn r eval current
    (Text.trim call.name, .ofExcept result) :: callOutcomes r eval rest (result.toOption.getD current)

theorem names_callOutcomes (r : Registry) (eval : Evaluator) (calls : List Invocation) (current : Data) :
    Entries.names (callOutcomes r eval calls current) = calls.map fun call => Text.trim call.name := by
  induction calls generalizing current with
  | nil => rfl
  | cons call calls ih => exact congrArg (Text.trim call.name :: ·) (ih _)

theorem Engine.runPlugin_eq (e : Engine) (eval : Evaluator) (call : Invocation) (input : Data) :
    (e.runPlugin eval (Text.trim call.name) input (.table call.params)).1 =
      call.outcomeIn e.registry eval input := by
  have hget : e.registry.get? (Text.trim call.name) = e.registry.get? call.name := by
    rw [Registry.get?, Registry.get?, Text.trim_trim]
  simp only [runPlugin, start, Invocation.outcomeIn, hget, Text.trim_trim]
  cases e.registry.get? call.name <;> rfl

namespace Service

variable {s s' : Service}

/-- Calls enter what they come to into the outcomes, one after the other. -/
theorem callAll_eq (eval : Evaluator) (calls : List Invocation) (current : Data) (results : Results)
    (e : Engine) :
    (callAll eval calls current results e).1 =
      (callOutcomes e.registry eval calls current).foldl (fun acc o => Entries.put o.1 o.2 acc) results := by
  induction calls generalizing current results e with
  | nil => rfl
  | cons call calls ih =>
    rw [callAll_cons, ih, e.registry_runPlugin, e.runPlugin_eq]
    rfl

/-- Of several calls of a plugin the outcome of the last one is kept. -/
theorem callAll_nil_eq (eval : Evaluator) (calls : List Invocation) (current : Data) (e : Engine) :
    (callAll eval calls current [] e).1 = Entries.ofList (callOutcomes e.registry eval calls current) :=
  callAll_eq eval calls current [] e

/-- Calls can be made on every job that can be read. -/
theorem exists_process (now : Instant) (id : Uuid) (calls : List Invocation) {job : Job}
    (h : s.store.Ready s.files) (hjob : s.HasJob id job) :
    ∃ s', process now id calls s = .ok (.ofResults (Entries.ofList
      (callOutcomes s.engine.registry (s.engine.evaluator none) calls job.input))) s' := by
  have hinput : onStore (fun store => store.jobInput id) (jobError .noJob) s = .ok job.input s :=
    onStore_jobInput_eq_ok_iff.2 ⟨rfl, job, hjob, rfl⟩
  obtain ⟨results, e, hrun⟩ : ∃ results e, callAll (s.engine.evaluator none) calls job.input [] s.engine =
      (results, e) := ⟨_, _, rfl⟩
  have hresults := callAll_nil_eq (s.engine.evaluator none) calls job.input s.engine
  rw [hrun] at hresults
  have hengine : onEngine (fun e => callAll (e.evaluator none) calls job.input [] e) s =
      .ok results { s with engine := e } := by
    simp only [onEngine, hrun]
  obtain ⟨files, hupdate⟩ := Store.exists_updateJob now results (.ofResults results) h hjob
  have hstore : onStore (fun store => store.updateJob now id (Report.ofResults results).results
      (Report.ofResults results).status) .store { s with engine := e } =
      .ok () { s with engine := e, files } :=
    onStore_of_ok (s := { s with engine := e })
      (f := fun store => store.updateJob now id results (.ofResults results)) hupdate _
  refine ⟨{ s with engine := e, files }, ?_⟩
  rw [process, bind_of_ok hinput, bind_of_ok hengine, bind_of_ok hstore, ← hresults]
  rfl

/-- **What the state of a job shows of the calls made on it.**  Calls on a job that can be read come to a
report, which is entered into the job.  Its state tells of errors just when a call failed that is the
last one of its plugin, and it is completed just when all these succeeded.  Where every plugin is called
once only, it tells of errors just when some call failed. -/
theorem state_of_calls (now : Instant) (id : Uuid) (calls : List Invocation) {job : Job}
    (h : s.store.Ready s.files)
    (hjob : s.HasJob id job) :
    let outcomes := callOutcomes s.engine.registry (s.engine.evaluator none) calls job.input
    ∃ report s', process now id calls s = .ok report s' ∧
      s'.Holds id (job.applyResults now report.results report.status) ∧
      (report.status = .completedWithErrors ↔ ∃ name f, Entries.IsLast outcomes (name, .failed f)) ∧
      (report.status = .completed ↔ ∀ name o, Entries.IsLast outcomes (name, o) → o.isOk = true) ∧
      ((calls.map fun call => Text.trim call.name).Nodup →
        (report.status = .completedWithErrors ↔ ∃ name f, (name, .failed f) ∈ outcomes)) := by
  intro outcomes
  obtain ⟨s', hprocess⟩ := exists_process now id calls h hjob
  obtain ⟨-, job', hjob', hholds⟩ := holds_process hprocess
  cases hjob.symm.trans hjob'
  have herrors : RunStatus.ofResults (Entries.ofList outcomes) = .completedWithErrors ↔
      ∃ name f, Entries.IsLast outcomes (name, .failed f) := RunStatus.ofResults_ofList_iff outcomes
  refine ⟨_, s', hprocess, hholds, herrors, ?_, fun hnodup => herrors.trans ?_⟩
  · refine (RunStatus.ofResults_eq_completed_iff (Entries.ofList outcomes)).trans ?_
    simp only [Entries.mem_ofList_iff]
    exact ⟨fun hall name o ho => hall (name, o) ho, fun hall e he => hall e.1 e.2 he⟩
  · rw [← names_callOutcomes s.engine.registry (s.engine.evaluator none) calls job.input] at hnodup
    exact exists_congr fun name => exists_congr fun f => Entries.isLast_iff_mem hnodup (name, .failed f)

/-- A plugin that fails where its parameter `fail` says so. -/
def picky : CompiledPlugin where
  program := ⟨[.choose (.chain (.variable "params" .none) [.property "fail" ⟨.none, false⟩ .none])
    ⟨[.throw_ none .none], .none⟩ ⟨[], .none⟩ .none], []⟩
  digest := ""
  name := "p"
  description := ""
  compiledAt := ⟨0, 0⟩

/-- The first of two calls of a plugin fails, and the second covers this up. -/
theorem state_of_calls_covered :
    let calls : List Invocation := [⟨"p", [("fail", .flag true)]⟩, ⟨" p ", [("fail", .flag false)]⟩]
    ∃ (s s' : Service) (job : Job) (report : Report) (f : StepFailure),
      s.store.Ready s.files ∧ s.HasJob ⟨1⟩ job ∧
      ("p", .failed f) ∈ callOutcomes s.engine.registry (s.engine.evaluator none) calls job.input ∧
      process ⟨0, 0⟩ ⟨1⟩ calls s = .ok report s' ∧ report.status = .completed := by
  intro calls
  let engine : Engine := { (default : Engine) with registry := ({} : Registry).insert picky }
  obtain ⟨files, hupload⟩ := exists_upload ⟨0, 0⟩ ⟨1⟩ .null (ready_fresh engine)
  have hready : (fresh engine).store.Ready files :=
    Store.Ready.textChange (ready_fresh engine) ((keeps_upload ⟨0, 0⟩ ⟨1⟩ .null).ok hupload).2
  have hjob := hasJob_upload hupload Instant.representable_epoch (by decide) .null (by decide)
  have houtcomes : (callOutcomes engine.registry (engine.evaluator none) calls .null).map
      (fun o => (o.1, o.2.isOk)) = [("p", false), ("p", true)] := by decide +kernel
  obtain ⟨⟨first, o⟩, rest, hsplit, hfirst, hrest⟩ := List.map_eq_cons_iff.1 houtcomes
  obtain ⟨⟨second, o'⟩, rest, rfl, hsecond, hrest⟩ := List.map_eq_cons_iff.1 hrest
  obtain rfl := List.map_eq_nil_iff.1 hrest
  obtain ⟨rfl, ho⟩ := Prod.mk.inj hfirst
  obtain ⟨rfl, ho'⟩ := Prod.mk.inj hsecond
  obtain ⟨report, s', hprocess, -, -, hcompleted, -⟩ :=
    state_of_calls (s := { fresh engine with files }) ⟨0, 0⟩ ⟨1⟩ calls hready hjob
  cases o with
  | ok d => cases ho
  | failed f =>
    have hmem : ("p", .failed f) ∈ callOutcomes engine.registry (engine.evaluator none) calls .null :=
      hsplit ▸ List.mem_cons_self
    refine ⟨{ fresh engine with files }, s', .uploaded ⟨1⟩ ⟨0, 0⟩ .null, report, f, hready, hjob, hmem,
      hprocess,
      hcompleted.2 fun name last hlast => ?_⟩
    have hlast' : Entries.IsLast [("p", .failed f), ("p", o')] (name, last) := hsplit ▸ hlast
    rw [← Entries.mem_ofList_iff] at hlast'
    have hkept : Entries.ofList [("p", .failed f), ("p", o')] = [("p", o')] := by
      simp [Entries.ofList, Entries.put]
    rw [hkept] at hlast'
    cases List.mem_singleton.1 hlast'
    exact ho'

end Service

end PluginChain
