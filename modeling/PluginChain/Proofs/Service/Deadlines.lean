import PluginChain.Proofs.Deadline
import PluginChain.Proofs.Service.LifeCycle
import PluginChain.Proofs.Service.References
import PluginChain.Proofs.Workflow.Origin

/-!
# Nothing is made of scripts that were cut

A script that is cut at its deadline gives something, too, but no caller takes that up.  So what the steps of
a task come to, and what is kept in jobs, is what scripts came to undisturbed, or tells a timeout
(`JobTraffic.Traced.after`).  Runs are left as open as they are: each run of a plugin may give any answer that
a caller may have been given for it (`Evaluator.Within`), steps run side by side on any schedule, plugins come
and go, and requests overlap (`Runner.underDeadlines`).
-/

set_option autoImplicit false

namespace PluginChain

variable {R : Registry → Prop} {P : Except ExecutionError Data → Prop}

/-! ## Calls in turn -/

/-- Calls plugins one after the other, while these change.  `eval i` runs the plugin of the call at an index. -/
def Service.callInTurn (eval : Nat → Evaluator) (changes : Nat → Registry → Registry) :
    Nat → List Invocation → Data → Results → StateM Engine Results
  | _, [], _, results => return results
  | i, call :: rest, current, results => do
    let key := Text.trim call.name
    let r ← modifyGet fun e =>
      { e with registry := changes i e.registry }.runPlugin (eval i) key current (.table call.params)
    let results := Entries.put key (.ofExcept r) results
    match r with
    | .ok output => callInTurn eval changes (i + 1) rest output results
    | .error _ => callInTurn eval changes (i + 1) rest current results

/-- Where nothing changes, calls in turn are the calls of the service. -/
theorem Service.callInTurn_const (eval : Evaluator) (i : Nat) (calls : List Invocation) (current : Data)
    (results : Results) :
    callInTurn (fun _ => eval) (fun _ => id) i calls current results = callAll eval calls current results := by
  induction calls generalizing i current results with
  | nil => rfl
  | cons call rest ih =>
    simp only [callInTurn, callAll, ih]
    rfl

theorem Service.cameFrom_callInTurn {eval : Nat → Evaluator} {changes : Nat → Registry → Registry}
    (heval : ∀ i, (eval i).Gives R P) (hchanges : ∀ i r, R (changes i r)) (calls : List Invocation) (i : Nat)
    (current : Data) {results : Results} (hresults : results.CameFrom P) (e : Engine) :
    Results.CameFrom P (callInTurn eval changes i calls current results e).1 := by
  induction calls generalizing i current results e with
  | nil => exact hresults
  | cons call rest ih =>
    have hcall := cameFrom_runPlugin (e := { e with registry := changes i e.registry }) (heval i)
      (hchanges i e.registry) (Text.trim call.name) current (.table call.params)
    simp only [callInTurn, bind, StateT.bind, modifyGet, MonadStateOf.modifyGet, StateT.modifyGet, pure]
    generalize Engine.runPlugin _ (eval i) (Text.trim call.name) current (.table call.params) = run at hcall ⊢
    obtain ⟨r, e'⟩ := run
    have hput := hresults.put (Text.trim call.name) hcall
    cases r with
    | ok output => exact ih (i + 1) output hput e'
    | error f => exact ih (i + 1) current hput e'

/-! ## Runs -/

namespace Runner

/-- All that comes of a run came from runs of plugins. -/
structure Gives (run : Runner) (P : Except ExecutionError Data → Prop) : Prop where
  step : ∀ index step input e, CameFrom P (run.step index step input e).1
  sideBySide : ∀ steps input e results, (run.sideBySide steps input e).1 = .ok results → results.CameFrom P
  calls : ∀ calls input e, Results.CameFrom P (run.calls calls input e).1

theorem Gives.report {run : Runner} (h : run.Gives P) {task : Task} {input : Data} {e : Engine} {report : Report}
    (hreport : (run.runTask task input e).1 = .ok report) : report.results.CameFrom P := by
  rw [runTask, Task.run] at hreport
  cases hvalid : task.validate with
  | error why =>
    rw [hvalid] at hreport
    cases hreport
  | ok u =>
    rw [hvalid] at hreport
    by_cases hparallel : task.parallel = true
    · simp only [hparallel, if_true] at hreport
      change (run.sideBySide task.steps input e).1.map Report.ofResults = .ok report at hreport
      cases hside : (run.sideBySide task.steps input e).1 with
      | ok results =>
        rw [hside] at hreport
        cases hreport
        exact h.sideBySide _ _ _ _ hside
      | error fault =>
        rw [hside] at hreport
        cases hreport
    · simp only [hparallel] at hreport
      cases hreport
      exact Results.cameFrom_chain h.step task.steps 0 input Results.cameFrom_nil e

/-- Runs in which each run of a plugin may give something else, while plugins come and go: before each step
of a chain, before each call and before steps that run side by side the plugins change, and these then run on a
schedule. -/
def underDeadlines (eval : Nat → Evaluator) (changes : Nat → Registry → Registry) (turns : List Turn) : Runner :=
  let run := onSchedule eval changes turns
  { run with
    sideBySide := fun steps input e => run.sideBySide steps input { e with registry := changes 0 e.registry }
    calls := fun calls input => Service.callInTurn eval changes 0 calls input []
    ne_invalid := fun steps input e => run.ne_invalid steps input { e with registry := changes 0 e.registry } }

theorem cameFrom_runFanOut {eval : Nat → Evaluator} (heval : ∀ i, (eval i).Gives R P) {steps : List Step}
    {input : Data} {e : Engine} (he : R e.registry) {results : Results}
    (h : (Engine.runFanOut eval steps input e).1 = .ok results) : results.CameFrom P := by
  rw [Engine.runFanOut] at h
  split at h
  · cases h
  · cases h
    exact FanOut.cameFrom_run heval he steps input

theorem gives_underDeadlines {eval : Nat → Evaluator} {changes : Nat → Registry → Registry} {turns : List Turn}
    (heval : ∀ i, (eval i).Gives R P) (hchanges : ∀ i r, R (changes i r))
    (hturns : ∀ r, Turn.change r ∈ turns → R r) :
    (underDeadlines eval changes turns).Gives P where
  step index step input e :=
    cameFrom_runStep (e := { e with registry := changes index e.registry }) heval (hchanges index _) index step input
  sideBySide steps input e results h := by
    let e' : Engine := { e with registry := changes 0 e.registry }
    have he' : R e'.registry := hchanges 0 e.registry
    change (Engine.runOnSchedule eval turns steps input e').1 = .ok results at h
    rw [Engine.runOnSchedule] at h
    split at h
    · cases h
    · split at h
      · exact cameFrom_runFanOut heval he' h
      · next s hs =>
        split at h
        · cases h
          exact ((FanOut.traced_begin he' steps).after heval hturns hs).results
        · exact cameFrom_runFanOut heval he' h
  calls calls input e := Service.cameFrom_callInTurn heval hchanges calls 0 input Results.cameFrom_nil e

end Runner

/-! ## Requests about jobs -/

/-- The outcomes that come with a reply. -/
def JobReply.CameFrom (P : Except ExecutionError Data → Prop) (reply : JobReply) : Prop :=
  ∀ report, reply.report? = some report → report.results.CameFrom P

/-- The outcomes that an edit brings, and those it is answered with. -/
def Edit.CameFrom (P : Except ExecutionError Data → Prop) : Edit → Prop
  | .save job reply => job.results.CameFrom P ∧ ∀ r, reply = .ok r → r.CameFrom P
  | .enter _ _ report => report.results.CameFrom P

theorem Edit.CameFrom.reply {e : Edit} (h : e.CameFrom P) {r : JobReply} (hr : e.reply = .ok r) : r.CameFrom P := by
  cases e with
  | save job reply => exact h.2 r hr
  | enter now id report =>
    cases hr
    exact fun report' hreport => Option.some.inj hreport ▸ h

theorem Store.results_withRun (job : Job) (now : Instant) (results : Results) (status : RunStatus) :
    (withRun job now results status).results = results := by
  rw [withRun]
  split <;> rfl

/-- The outcomes of an edit take the place of those that were there. -/
theorem Edit.CameFrom.drafted {e : Edit} {s : Service} {job : Job} (h : e.CameFrom P) (hdrafted : e.Drafted s job) :
    job.results.CameFrom P := by
  cases e with
  | save saved reply =>
    cases hdrafted
    exact h.1
  | enter now id report =>
    obtain ⟨old, -, rfl⟩ := hdrafted
    rw [Store.results_withRun]
    exact h

namespace JobStage

/-- The outcomes that a request has, at a stage. -/
def CameFrom (P : Except ExecutionError Data → Prop) : JobStage → Prop
  | submitted _ _ task _ | resolved _ _ task _ => task.validate = .ok ()
  | opening e | waiting e | locked e | placed e => e.CameFrom P
  | drafted e job | written e job => e.CameFrom P ∧ job.results.CameFrom P
  | returned r => ∀ reply, r = .ok reply → reply.CameFrom P
  | ready _ | loaded .. | listing .. => True

theorem Moved.cameFrom {run : Runner} (hrun : run.Gives P) {s s' : Service} {stage next : JobStage}
    (hmoved : Moved run s stage next s') (h : stage.CameFrom P) : next.CameFrom P := by
  cases hmoved with
  | upload => exact ⟨Results.cameFrom_nil, fun r hr => by cases hr; exact nofun⟩
  | submit hvalid => exact hvalid
  | resolve => exact h
  | finish hreport =>
    refine ⟨hrun.report hreport, fun r hr => ?_⟩
    cases hr
    exact fun report' hreport' => Option.some.inj hreport' ▸ hrun.report hreport
  | refuse hreport => exact absurd hreport (run.runTask_ne_invalid h _)
  | load => trivial
  | call hresults => exact hresults ▸ hrun.calls _ _ _
  | touch => exact h
  | lock => exact h
  | draft hdrafted => exact ⟨h, h.drafted hdrafted⟩
  | write => exact h
  | put => exact h.1
  | answer hreply =>
    intro r hr
    cases hr
    exact h.reply hreply
  | fail => exact nofun
  | look => trivial
  | read => trivial
  | skip => trivial
  | get | sort =>
    intro r hr
    cases hr
    exact nofun

theorem CameFrom.reply? {stage : JobStage} (h : stage.CameFrom P) {reply : JobReply}
    (hreply : stage.reply? = some reply) : reply.CameFrom P := by
  cases stage with
  | placed e =>
    rw [JobStage.reply?] at hreply
    cases hr : e.reply with
    | ok r =>
      rw [hr] at hreply
      cases hreply
      exact Edit.CameFrom.reply h hr
    | error why =>
      rw [hr] at hreply
      cases hreply
  | returned r =>
    cases r with
    | ok r =>
      cases hreply
      exact h reply rfl
    | error why => cases hreply
  | _ => cases hreply

end JobStage

namespace JobTraffic

/-- The outcomes that any request has, and those of the jobs that were put in place. -/
structure Traced (P : Except ExecutionError Data → Prop) (t : JobTraffic) : Prop where
  stages : ∀ stage ∈ t.stages, stage.CameFrom P
  written : ∀ job ∈ t.written, job.results.CameFrom P

variable {runs : Nat → Runner} {t t' : JobTraffic}

theorem traced_begin (s : Service) (requests : List JobRequest) : (begin_ s requests).Traced P where
  stages stage hstage := by
    obtain ⟨request, -, rfl⟩ := List.mem_map.1 hstage
    trivial
  written _ hjob := absurd hjob List.not_mem_nil

theorem Traced.move (h : t.Traced P) (hruns : ∀ i, (runs i).Gives P) {i : Nat} (hmove : t.move runs i = some t') :
    t'.Traced P := by
  obtain ⟨stage, next, s', hi, hmoved, -, rfl⟩ := move_eq_some hmove
  have hstage := h.stages stage (List.mem_of_getElem? hi)
  refine ⟨fun stage' hstage' => ?_, fun job hjob => ?_⟩
  · obtain hold | rfl := List.mem_or_eq_of_mem_set hstage'
    · exact h.stages stage' hold
    · exact hmoved.cameFrom (hruns i) hstage
  · obtain hold | hput := List.mem_append.1 hjob
    · exact h.written job hold
    · have hput : stage.puts? next = some job := Option.mem_toList.1 hput
      obtain ⟨e, rfl, rfl⟩ := hmoved.of_puts? hput
      exact hstage.2

theorem Traced.after (h : t.Traced P) (hruns : ∀ i, (runs i).Gives P) {turns : List Nat}
    (hafter : t.after runs turns = some t') : t'.Traced P := by
  induction turns generalizing t with
  | nil =>
    cases hafter
    exact h
  | cons i turns ih =>
    obtain ⟨t₁, hmove, hrest⟩ := Option.bind_eq_some_iff.1 hafter
    exact ih (h.move hruns hmove) hrest

end JobTraffic

/-! ## Answers within a time -/

/-- Each run of a plugin gives one of the answers that its caller may be given. -/
def Evaluator.Within (eval : Evaluator) (box : Sandbox) (time : Duration) : Prop :=
  ∀ p input params, (⟨box, p.program, input, params, time⟩ : Errand).CanAnswer (eval p input params)

/-- The plugins of an engine are given their time. -/
theorem Engine.within_evaluator (e : Engine) (time : Option Duration) :
    (e.evaluator time).Within e.sandbox (time.getD e.sandbox.timeout) :=
  fun p input params => Errand.canAnswer_run ⟨e.sandbox, p.program, input, params, time.getD e.sandbox.timeout⟩

/-- The property of timeouts and of all that the plugins there may be come to undisturbed. -/
structure Sandbox.Allows (box : Sandbox) (time : Duration) (R : Registry → Prop)
    (P : Except ExecutionError Data → Prop) : Prop where
  timeout : P (.error (.timeout time))
  undisturbed : ∀ p : CompiledPlugin, p.IsIn R → ∀ input params a,
    (⟨box, p.program, input, params, time⟩ : Errand).ComesTo a → P a

theorem Evaluator.Within.gives {eval : Evaluator} {box : Sandbox} {time : Duration} (h : eval.Within box time)
    (hP : box.Allows time R P) : eval.Gives R P := by
  intro p hp input params
  obtain hcomes | htimeout := Errand.comesTo_of_canAnswer (h p input params)
  · exact hP.undisturbed p hp input params _ hcomes
  · exact htimeout ▸ hP.timeout

/-- The runs of an engine are those in which plugins give what the sandbox gives, and nothing changes. -/
theorem Runner.ofEngine_eq (e : Engine) :
    ofEngine e = underDeadlines (fun _ => e.evaluator none) (fun _ => id) [] := by
  have hside : Engine.runFanOut (fun _ => e.evaluator none) = Engine.runOnSchedule (fun _ => e.evaluator none) [] := by
    funext steps input e'
    by_cases hgate : Engine.gateLimit < e'.maxParallel
    · simp [Engine.runFanOut, Engine.runOnSchedule, hgate]
    · cases steps with
      | nil => simp [Engine.runFanOut, Engine.runOnSchedule, hgate, FanOut.after, FanOut.run, FanOut.begin_]
      | cons step rest =>
        simp [Engine.runOnSchedule, Engine.runFanOut, hgate, FanOut.after, FanOut.begin_, Worker.isRecorded]
  have hcalls : (fun calls input => Service.callAll (e.evaluator none) calls input []) =
      fun calls input => Service.callInTurn (fun _ => e.evaluator none) (fun _ => id) 0 calls input [] := by
    funext calls input
    rw [Service.callInTurn_const]
  simp only [ofEngine, underDeadlines, onSchedule, hside, hcalls]
  rfl

/-- **Answered or timed out.**  However the moves of a worker, its caller and the clock fall, the caller has at
most one answer, and comes to one when the worker is through or the time is over.  The flag is up just if the
answer is a timeout of the time that was given; otherwise it is what the script comes to undisturbed, from a
worker that was not cut.  Once the flag is up the worker passes no more operations.

So whatever is true of timeouts and of all that plugins come to undisturbed, is true of what runs of plugins
give to steps, to reports and to jobs: nothing is ever made of a script that was cut. -/
theorem answered_or_timed_out (e : Errand) (moves more : List TimedMove) (box : Sandbox) (time : Duration) :
    (∀ a, (e.after moves).answer? = some a →
      (e.after (moves ++ more)).answer? = some a ∧
      ((e.after moves).flag = true ↔ a = .error (.timeout e.time)) ∧
      ((e.after moves).flag = false → (e.after moves).worker = .finished a ∧ e.ComesTo a)) ∧
    ((e.after moves).flag = true → (e.after moves).elapsed = true ∧
      (e.after (moves ++ more)).flag = true ∧ (e.after (moves ++ more)).passed = (e.after moves).passed) ∧
    ((e.after moves).worker = .cut → (e.after moves).flag = true) ∧
    ((e.after moves).elapsed = true ∨ (e.after moves).worker.result?.isSome = true →
      4 ≤ more.count .caller → ∃ a, (e.after (moves ++ more)).answer? = some a) ∧
    ∀ R P, box.Allows time R P →
      (∀ (eval : Evaluator) (engine : Engine) (name : String) (input params : Data), eval.Within box time →
        R engine.registry → CameFrom P (engine.runPlugin eval name input params).1) ∧
      ∀ (eval : Nat → Nat → Evaluator) (changes : Nat → Nat → Registry → Registry) (turns : Nat → List Turn),
        (∀ i j, (eval i j).Within box time) → (∀ i j r, R (changes i j r)) →
        (∀ i r, Turn.change r ∈ turns i → R r) →
        (∀ i task input engine report,
          ((Runner.underDeadlines (eval i) (changes i) (turns i)).runTask task input engine).1 = .ok report →
            report.results.CameFrom P) ∧
        ∀ s requests order t, (JobTraffic.begin_ s requests).after
            (fun i => .underDeadlines (eval i) (changes i) (turns i)) order = some t →
          (∀ job ∈ t.written, job.results.CameFrom P) ∧
          ∀ stage ∈ t.stages, ∀ reply report, stage.reply? = some reply → reply.report? = some report →
            report.results.CameFrom P := by
  have hsound := Errand.sound_after e moves
  have hfollows : Errand.Follows (e.after moves) (e.after (moves ++ more)) := by
    rw [Errand.after, Errand.after, Errand.run_append]
    exact Errand.follows_run e _ more
  refine ⟨fun a ha => ?_, fun hflag => ?_, hsound.cut, fun hdue hmore => ?_, fun R P hP => ⟨?_, ?_⟩⟩
  · have hcaller := TimedRun.answer?_eq_some_iff.1 ha
    refine ⟨TimedRun.answer?_eq_some_iff.2 (hfollows.answered a hcaller), ?_⟩
    have hfits := hsound.caller
    rw [hcaller] at hfits
    obtain ⟨hflag, hfinished⟩ | ⟨hflag, -, rfl⟩ := hfits
    · have hcomes := hsound.finished a hfinished
      exact ⟨by simp [hflag, hcomes.ne_timeout], fun _ => ⟨hfinished, hcomes⟩⟩
    · exact ⟨by simp [hflag], by simp [hflag]⟩
  · exact ⟨hsound.elapsed_of_flag hflag, hfollows.flag hflag⟩
  · rw [Errand.after, Errand.run_append]
    exact Errand.exists_answer_of_isDue hdue hmore
  · intro eval engine name input params heval hengine
    exact cameFrom_runPlugin (heval.gives hP) hengine name input params
  · intro eval changes turns heval hchanges hturns
    have hruns : ∀ i, (Runner.underDeadlines (eval i) (changes i) (turns i)).Gives P := fun i =>
      Runner.gives_underDeadlines (fun j => (heval i j).gives hP) (hchanges i) (hturns i)
    refine ⟨fun i task input engine report => (hruns i).report, fun s requests order t ht => ?_⟩
    have htraced := (JobTraffic.traced_begin s requests).after hruns ht
    exact ⟨htraced.written, fun stage hstage reply report hreply =>
      (htraced.stages stage hstage).reply? hreply report⟩

/-- A script without an end is cut at its second operation, and its caller hears of the timeout alone.  A script
without statements gives nothing but a unit or a timeout, to a job that it is called for as well. -/
theorem answered_or_timed_out_in_a_loop :
    let loop : Script.Stmt :=
      .whileLoop (.const .unit Script.Position.none) ⟨[], Script.Position.none⟩ Script.Position.none
    let e : Errand := ⟨{}, ⟨[loop], []⟩, .null, .null, .ofMillis 5⟩
    let moves : List TimedMove := [.worker, .worker, .caller, .clock, .caller, .caller, .worker]
    let box : Sandbox := (default : Engine).sandbox
    let P : Except ExecutionError Data → Prop := fun a => a = .ok .null ∨ a = .error (.timeout box.timeout)
    (e.after moves).worker = .cut ∧ (e.after (moves ++ List.replicate 4 .caller)).passed = 1 ∧
      (e.after (moves ++ List.replicate 4 .caller)).answer? = some (.error (.timeout e.time)) ∧
      ∃ (runs : Nat → Runner) (s : Service) (t : JobTraffic) (job : Job),
        (JobTraffic.begin_ s [.call (.process ⟨0, 0⟩ ⟨1⟩ [⟨"p", []⟩])]).after runs (List.replicate 8 0) = some t ∧
          job ∈ t.written ∧ job.results.CameFrom P := by
  intro loop e moves box P
  let p : CompiledPlugin :=
    { program := ⟨[], []⟩, digest := "", name := "p", description := "", compiledAt := ⟨0, 0⟩ }
  let registry : Registry := ({} : Registry).insert p
  let R : Registry → Prop := (· = registry)
  have hallows : box.Allows box.timeout R P := by
    refine ⟨.inr rfl, ?_⟩
    rintro p' ⟨_, name, rfl, hp'⟩ input params a ha
    rw [Registry.get?_insert] at hp'
    split at hp'
    · cases hp'
      have hnone : (⟨box, ⟨[], []⟩, input, params, box.timeout⟩ : Errand).nextHook? 0 = none := rfl
      exact .inl (ha.unique (Errand.comesTo_answerAt hnone))
    · cases hp'
  obtain ⟨-, hflag, -, hdue, htold⟩ :=
    answered_or_timed_out e moves (List.replicate 4 .caller) box box.timeout
  obtain ⟨-, hup, hpassed⟩ := hflag rfl
  obtain ⟨a, ha⟩ := hdue (.inl rfl) (by decide)
  obtain ⟨-, hanswer, -⟩ := (answered_or_timed_out e (moves ++ List.replicate 4 .caller) [] box box.timeout).1 a ha
  refine ⟨rfl, hpassed, (hanswer.1 hup) ▸ ha, ?_⟩
  let old := Job.uploaded ⟨1⟩ ⟨0, 0⟩ .null
  obtain ⟨files, hsave⟩ := Store.exists_saveJob old (Service.ready_fresh default)
  let s : Service := { Service.fresh default with files }
  have hready : s.store.Ready s.files :=
    (Service.ready_fresh default).textChange (((Service.fresh default).store.keeps_saveJob old).ok hsave)
  have hfile := (Store.lookup_of_saveJob hsave ((Service.fresh default).store.lock_ne_jobFile ⟨1⟩)).trans (if_pos rfl)
  have hplain : old.Plain := Service.plain_uploaded Instant.representable_epoch (by decide) .null
  have hback := (Job.ofJson_toJson hplain).1 ⟨by decide, fun _ _ h => absurd h List.not_mem_nil⟩
  have hold : s.HasJob ⟨1⟩ old := StoreM.recordAt?_eq_some_iff.2 ⟨_, hfile, hback⟩
  let eval : Evaluator := (default : Engine).evaluator none
  let runs : Nat → Runner := fun _ => .underDeadlines (fun _ => eval) (fun _ _ => registry) []
  let call : JobRequest := .call (.process ⟨0, 0⟩ ⟨1⟩ [⟨"p", []⟩])
  obtain ⟨engine, files', -, hprocess⟩ := JobTraffic.exists_after_process runs [.ready call] ⟨0, 0⟩ [⟨"p", []⟩]
    (i := 0) Nat.zero_lt_one hready hold (fun _ => rfl) []
  have hafter : (JobTraffic.begin_ s [call]).after runs (List.replicate 8 0) = some _ := hprocess
  have hwritten := ((htold R P hallows).2 (fun _ _ => eval) (fun _ _ _ => registry) (fun _ => [])
    (fun _ _ => Engine.within_evaluator default none) (fun _ _ _ => rfl) (fun _ _ => nofun)).2 _ _ _ _ hafter
  exact ⟨runs, s, _, _, hafter, List.mem_singleton_self _, hwritten.1 _ (List.mem_singleton_self _)⟩

end PluginChain
