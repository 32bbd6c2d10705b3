import PluginChain.Proofs.Service.JobTraffic

/-!
# What a step of a request does

`JobStage.Moved` has a case for each step that a request about jobs can do, with what the step read or
changed, and one for the steps that fail (`moved_proceed`).  All that is said of steps here is read off
these cases.

* A step changes at most one file, and none if it fails.  Only the two steps that write a job touch the
  directory of jobs (`Moved.sameDirectory`), and both are done behind the lock (`Moved.hasLock`).
* `JobStage.Knows` is what a request knows at a stage about what it is doing, and each step keeps it up
  (`Moved.knows`).  The job that is about to be put in place stands beside its file.
* Of the files that are named like records only one is ever changed, by the step that puts a job in place
  (`Moved.lookup_cases`).
* A request that nothing comes between gets through (`JobTraffic.exists_after_upload`,
  `JobTraffic.exists_after_process`).
-/

set_option autoImplicit false

namespace PluginChain

open Operation

namespace Service

/-- No file in the directory of jobs is changed. -/
structure SameDirectory (s s' : Service) : Prop where
  store : s'.store = s.store
  files : ∀ name, s'.files.lookup (s.store.jobs ++ [name]) = s.files.lookup (s.store.jobs ++ [name])

variable {s s' : Service} {files : FileTree}

theorem SameDirectory.refl (s : Service) : s.SameDirectory s := ⟨rfl, fun _ => rfl⟩

theorem SameDirectory.sameJobs (h : s.SameDirectory s') : s.SameJobs s' := ⟨h.store, fun _ => h.files _⟩

theorem sameDirectory_of_saveTask {taskId : Uuid} {text : String}
    (h : (Change.write (s.store.taskFile taskId) text).apply s.files = .ok files) :
    s.SameDirectory { s with files } := by
  refine ⟨rfl, fun name => ?_⟩
  exact ((FileTree.lookup_of_write h).2 _).trans (if_neg (s.store.tasks_append_ne_jobs_append _ _))

theorem sameDirectory_of_lock (h : s.store.lock.apply s.files = .ok files) :
    s.SameDirectory { s with files } :=
  ⟨rfl, fun name => FileTree.lookup_of_touch h (s.store.lock_ne_jobs_append name)⟩

end Service

/-! ## Edits -/

namespace Edit

/-- The job that an edit puts in place, where the files of a service were read. -/
def Drafted (s : Service) (job : Job) : Edit → Prop
  | save saved _ => job = saved
  | enter now id report => ∃ old, s.HasJob id old ∧ job = Store.withRun old now report.results report.status

/-- The edits that a request can come to. -/
inductive Of : JobRequest → Edit → Prop
  | upload {now : Instant} {id : Uuid} {input : Data} : Of (.call (.upload now id input))
      (save (.uploaded id now input) (.ok (.job (.uploaded id now input))))
  | submit {now : Instant} {taskId jobId : Uuid} {task : Task} {given : Option Data} (input : Data)
      {report : Report} (h : report.status = .ofResults report.results) :
      Of (.call (.submit now taskId jobId task given))
        (save (Service.jobOf now jobId task input report) (.ok (.submission ⟨jobId, report⟩)))
  | process {now : Instant} {id : Uuid} {calls : List Invocation} {report : Report}
      (h : report.status = .ofResults report.results) :
      Of (.call (.process now id calls)) (enter now id report)

variable {s s' : Service} {e : Edit} {job : Job}

theorem looksOnly_draft (store : Store) (e : Edit) : LooksOnly (e.draft store) := by
  cases e with
  | save saved reply => exact looksOnly_pure _
  | enter now id report => exact (StoreM.looksOnly_readRecord _ _ _).bind fun _ => looksOnly_pure _

theorem drafted_of_draft (h : Service.onStore (fun store => e.draft store) .store s = .ok job s) :
    e.Drafted s job := by
  obtain ⟨files, hdraft, -⟩ := Service.onStore_eq_ok h
  cases e with
  | save saved reply =>
    cases hdraft
    rfl
  | enter now id report =>
    obtain ⟨old, t, hread, hpure⟩ := bind_eq_ok hdraft
    obtain ⟨-, hold⟩ := StoreM.readRecord_eq_ok hread
    cases hpure
    exact ⟨old, hold, rfl⟩

/-- The draft of a job depends on the jobs only. -/
theorem Drafted.sameJobs (h : e.Drafted s job) (hsame : s.SameJobs s') : e.Drafted s' job := by
  cases e with
  | save saved reply => exact h
  | enter now id report =>
    obtain ⟨old, hold, hjob⟩ := h
    exact ⟨old, hsame.hasJob.2 hold, hjob⟩

end Edit

/-! ## What requests give -/

namespace JobReply

/-- The report that comes with a reply. -/
def report? : JobReply → Option Report
  | submission sub => some sub.report
  | report r => some r
  | job _ | jobs _ => none

/-- The jobs that a reply shows. -/
def seen : JobReply → List Job
  | job j => [j]
  | jobs js => js
  | submission _ | report _ => []

end JobReply

namespace JobStage

/-- What a request gives, from when its job is in place. -/
def reply? : JobStage → Option JobReply
  | placed e => e.reply.toOption
  | returned r => r.toOption
  | _ => none

/-- The jobs that a request has come to see. -/
def seen : JobStage → List Job
  | listing _ found => found
  | stage => stage.reply?.elim [] JobReply.seen

/-! ## Steps -/

/-- What a stage comes to in a step. -/
inductive Moved (run : Runner) (s : Service) : JobStage → JobStage → Service → Prop
  | upload {now : Instant} {id : Uuid} {input : Data} :
      Moved run s (ready (.call (.upload now id input)))
        (opening (.save (.uploaded id now input) (.ok (.job (.uploaded id now input))))) s
  | submit {now : Instant} {taskId jobId : Uuid} {task : Task} {given : Option Data} {files : FileTree}
      (hvalid : task.validate = .ok ())
      (h : (Change.write (s.store.taskFile taskId) (Task.codec.toYaml task)).apply s.files = .ok files) :
      Moved run s (ready (.call (.submit now taskId jobId task given))) (submitted now jobId task given)
        { s with files }
  | resolve {now : Instant} {jobId : Uuid} {task : Task} {given : Option Data} (input : Data) :
      Moved run s (submitted now jobId task given) (resolved now jobId task input) s
  | finish {now : Instant} {jobId : Uuid} {task : Task} {input : Data} {report : Report} {engine : Engine}
      (h : (run.runTask task input s.engine).1 = .ok report) :
      Moved run s (resolved now jobId task input)
        (opening (.save (Service.jobOf now jobId task input report) (.ok (.submission ⟨jobId, report⟩))))
        { s with engine }
  | refuse {now : Instant} {jobId : Uuid} {task : Task} {input : Data} {why : TaskError} {e : Edit}
      {engine : Engine} (h : (run.runTask task input s.engine).1 = .error (.invalid why)) :
      Moved run s (resolved now jobId task input) (opening e) { s with engine }
  | load {now : Instant} {id : Uuid} {calls : List Invocation} (input : Data) :
      Moved run s (ready (.call (.process now id calls))) (loaded now id calls input) s
  | call {now : Instant} {id : Uuid} {calls : List Invocation} {input : Data} {results : Results}
      {engine : Engine} (h : (run.calls calls input s.engine).1 = results) :
      Moved run s (loaded now id calls input) (opening (.enter now id (.ofResults results)))
        { s with engine }
  | touch {e : Edit} {files : FileTree} (h : s.store.lock.apply s.files = .ok files) :
      Moved run s (opening e) (waiting e) { s with files }
  | lock {e : Edit} : Moved run s (waiting e) (locked e) s
  | draft {e : Edit} {job : Job} (h : e.Drafted s job) : Moved run s (locked e) (drafted e job) s
  | write {e : Edit} {job : Job} {files : FileTree}
      (h : s.files.write (StoreM.besideOf (s.store.jobFile e.id)) (Job.codec.toJson job) = .ok files) :
      Moved run s (drafted e job) (written e job) { s with files }
  | put {e : Edit} {job : Job} {files : FileTree}
      (h : s.files.rename (StoreM.besideOf (s.store.jobFile e.id)) (s.store.jobFile e.id) = .ok files) :
      Moved run s (written e job) (placed e) { s with files }
  | answer {e : Edit} {reply : JobReply} (h : e.reply = .ok reply) :
      Moved run s (placed e) (returned (.ok reply)) s
  | get {id : Uuid} {job : Job} (h : s.HasJob id job) :
      Moved run s (ready (.get id)) (returned (.ok (.job job))) s
  | look {names : List String} (h : ∀ name ∈ names, FileTree.suffix? name = some "json") :
      Moved run s (ready .list) (listing names []) s
  | read {name : String} {left : List String} {found : List Job} {job : Job}
      (h : StoreM.recordAt? Job.codec s.files (s.store.jobs ++ [name]) = some job) :
      Moved run s (listing (name :: left) found) (listing left (found ++ [job])) s
  | skip {name : String} {left : List String} {found : List Job} :
      Moved run s (listing (name :: left) found) (listing left found) s
  | sort {found : List Job} : Moved run s (listing [] found)
      (returned (.ok (.jobs (found.mergeSort fun a b => (b.createdAt.compare a.createdAt).isLE)))) s
  | fail {stage : JobStage} {e : ChainError} {s' : Service} (hreply : stage.reply? = none)
      (h : s.SameDirectory s') : Moved run s stage (returned (.error e)) s'

variable {run : Runner} {s s' : Service} {stage next : JobStage}

theorem proceed_of_ok (h : stage.advance run s = .ok next s') : stage.proceed run s = (next, s') := by
  rw [proceed, h]

theorem proceed_of_error {e : ChainError} (h : stage.advance run s = .error e s') :
    stage.proceed run s = (returned (.error e), s') := by
  rw [proceed, h]

/-- A step that looks at something and goes on with what it saw. -/
theorem moved_of_look {α : Type} {f : ServiceM α} {g : α → JobStage}
    (hadvance : stage.advance run = f >>= fun a => return g a) (hlooks : LooksOnly f)
    (hreply : stage.reply? = none) (hok : ∀ a, f s = .ok a s → Moved run s stage (g a) s) :
    Moved run s stage (stage.proceed run s).1 (stage.proceed run s).2 := by
  rcases hlooks.cases s with ⟨a, ha⟩ | ⟨e, he⟩
  · have hstep : stage.advance run s = .ok (g a) s := by
      rw [hadvance, bind_of_ok ha]
      rfl
    rw [proceed_of_ok hstep]
    exact hok a ha
  · have hstep : stage.advance run s = .error e s := by
      rw [hadvance, bind_of_error he]
    rw [proceed_of_error hstep]
    exact .fail hreply (.refl s)

/-- A step that makes a change of the store. -/
theorem moved_of_change {f : Store → Change} {next : JobStage}
    (hadvance : stage.advance run =
      Service.onStore (fun store => StoreM.perform [f store]) .store >>= fun _ => return next)
    (hreply : stage.reply? = none)
    (hok : ∀ files, (f s.store).apply s.files = .ok files → Moved run s stage next { s with files }) :
    Moved run s stage (stage.proceed run s).1 (stage.proceed run s).2 := by
  rcases Service.onStore_perform_cases f .store s with ⟨files, happly, hs⟩ | ⟨e, he⟩
  · have hstep : stage.advance run s = .ok next { s with files } := by
      rw [hadvance, bind_of_ok hs]
      rfl
    rw [proceed_of_ok hstep]
    exact hok files happly
  · have hstep : stage.advance run s = .error e s := by
      rw [hadvance, bind_of_error he]
    rw [proceed_of_error hstep]
    exact .fail hreply (.refl s)

theorem moved_submit {now : Instant} {taskId jobId : Uuid} {task : Task} {given : Option Data} :
    let stage := ready (.call (.submit now taskId jobId task given))
    Moved run s stage (stage.proceed run s).1 (stage.proceed run s).2 := by
  intro stage
  cases hvalid : task.validate with
  | error why =>
    have hstep : stage.advance run s = .error (.structural (.invalid why)) s := by
      simp only [stage, advance, hvalid]
      rfl
    rw [proceed_of_error hstep]
    exact .fail rfl (.refl s)
  | ok u =>
    have hadvance : stage.advance run =
        Service.onStore (fun store => store.saveTask taskId task) .store >>= fun _ =>
          return submitted now jobId task given := by
      simp only [stage, advance, hvalid]
      rfl
    exact moved_of_change hadvance rfl fun files h => .submit hvalid h

theorem moved_resolved {now : Instant} {jobId : Uuid} {task : Task} {input : Data} :
    let stage := resolved now jobId task input
    Moved run s stage (stage.proceed run s).1 (stage.proceed run s).2 := by
  intro stage
  let engine := (run.runTask task input s.engine).2
  cases hrun : (run.runTask task input s.engine).1 with
  | ok report =>
    have hengine := Service.onEngine_of_fst (s := s) hrun
    have hstep : stage.advance run s = .ok (opening (.save (Service.jobOf now jobId task input report)
        (.ok (.submission ⟨jobId, report⟩)))) { s with engine } := by
      simp only [stage, advance, bind_of_ok hengine, Service.forTask_applyResults (run.status_runTask hrun)]
      rfl
    rw [proceed_of_ok hstep]
    exact .finish hrun
  | error fault =>
    have hengine := Service.onEngine_of_fst (s := s) hrun
    cases fault with
    | invalid why =>
      have hstep : ∃ e, stage.advance run s = .ok (opening e) { s with engine } := by
        simp only [stage, advance, bind_of_ok hengine]
        exact ⟨_, rfl⟩
      obtain ⟨e, hstep⟩ := hstep
      rw [proceed_of_ok hstep]
      exact .refuse hrun
    | gate places =>
      have hstep : stage.advance run s = .error (.gate places) { s with engine } := by
        simp only [stage, advance, bind_of_ok hengine]
        rfl
      rw [proceed_of_error hstep]
      exact .fail rfl ⟨rfl, fun _ => rfl⟩

theorem moved_placed {e : Edit} :
    Moved run s (placed e) ((placed e).proceed run s).1 ((placed e).proceed run s).2 := by
  cases hreply : e.reply with
  | ok reply =>
    have hstep : (placed e).advance run s = .ok (returned (.ok reply)) s := by
      simp only [advance, hreply]
      rfl
    rw [proceed_of_ok hstep]
    exact .answer hreply
  | error why =>
    have hstep : (placed e).advance run s = .error why s := by
      simp only [advance, hreply]
      rfl
    rw [proceed_of_error hstep]
    exact .fail (by rw [reply?, hreply]; rfl) (.refl s)

theorem moved_listing {left : List String} {found : List Job} :
    let stage := listing left found
    Moved run s stage (stage.proceed run s).1 (stage.proceed run s).2 := by
  intro stage
  cases left with
  | nil => exact .sort
  | cons name left =>
    have hlooks : LooksOnly (Service.onStore (fun _ => StoreM.look fun t =>
        t.read (s.store.jobs ++ [name])) .store) :=
      Service.looksOnly_onStore (fun _ => StoreM.looksOnly_look _) _
    rcases hlooks.cases s with ⟨text, htext⟩ | ⟨e, he⟩
    · obtain ⟨files, hlook, -⟩ := Service.onStore_eq_ok htext
      have hfile := FileTree.lookup_of_read (StoreM.look_eq_ok hlook)
      cases hjob : Job.codec.ofJson text with
      | ok job =>
        have hstep : stage.advance run s = .ok (listing left (found ++ [job])) s := by
          refine (bind_of_ok htext _).trans ?_
          simp only [hjob]
          rfl
        rw [proceed_of_ok hstep]
        exact .read (StoreM.recordAt?_eq_some_iff.2 ⟨text, hfile, hjob⟩)
      | error why =>
        have hstep : stage.advance run s = .ok (listing left found) s := by
          refine (bind_of_ok htext _).trans ?_
          simp only [hjob]
          rfl
        rw [proceed_of_ok hstep]
        exact .skip
    · have hstep : stage.advance run s = .error e s := by
        simp only [stage, advance]
        exact bind_of_error he _
      rw [proceed_of_error hstep]
      exact .fail rfl (.refl s)

/-- **A step is one of these.** -/
theorem moved_proceed (hstage : ∀ r, stage ≠ returned r) :
    Moved run s stage (stage.proceed run s).1 (stage.proceed run s).2 := by
  cases stage with
  | ready r =>
    cases r with
    | call c =>
      cases c with
      | upload now id input => exact .upload
      | submit now taskId jobId task given => exact moved_submit
      | process now id calls =>
        have hlooks := Service.looksOnly_onStore (fun store => Service.looksOnly_jobInput store id)
          (Service.jobError .noJob)
        exact moved_of_look rfl hlooks rfl fun input _ => .load input
    | get id =>
      refine moved_of_look rfl (Service.looksOnly_onStore (fun store => StoreM.looksOnly_readRecord _ _ _) _)
        rfl fun job h => ?_
      exact .get (Service.onStore_getJob_eq_ok_iff.1 h).2
    | list =>
      refine moved_of_look rfl (Service.looksOnly_onStore (fun store => StoreM.looksOnly_look _) _) rfl
        fun names h => ?_
      obtain ⟨files, hlook, -⟩ := Service.onStore_eq_ok h
      exact .look fun name hname => StoreM.suffix?_of_mem_recordNames (StoreM.look_eq_ok hlook) hname
  | submitted now jobId task given =>
    exact moved_of_look rfl (Service.looksOnly_inputOf task given) rfl fun input _ => .resolve input
  | resolved now jobId task input => exact moved_resolved
  | loaded now id calls input => exact .call rfl
  | opening e => exact moved_of_change rfl rfl fun files h => .touch h
  | waiting e => exact .lock
  | locked e =>
    exact moved_of_look rfl (Service.looksOnly_onStore (fun store => e.looksOnly_draft store) _) rfl
      fun job h => .draft (Edit.drafted_of_draft h)
  | drafted e job => exact moved_of_change rfl rfl fun files h => .write h
  | written e job => exact moved_of_change rfl rfl fun files h => .put h
  | placed e => exact moved_placed
  | listing left found => exact moved_listing
  | returned r => exact absurd rfl (hstage r)

/-! ## What steps have in common -/

namespace Moved

theorem store (h : Moved run s stage next s') : s'.store = s.store := by
  cases h with
  | fail hreply h => exact h.store
  | _ => rfl

/-- Who does not have the lock does not touch the directory of jobs. -/
theorem sameDirectory (h : Moved run s stage next s') (hlock : stage.hasLock = false) :
    s.SameDirectory s' := by
  cases h with
  | submit hvalid h => exact Service.sameDirectory_of_saveTask h
  | touch h => exact Service.sameDirectory_of_lock h
  | write h => cases hlock
  | put h => cases hlock
  | fail hreply h => exact h
  | _ => exact ⟨rfl, fun _ => rfl⟩

/-- The lock is only come to by waiting for it. -/
theorem hasLock (h : Moved run s stage next s') (hnext : next.hasLock = true) :
    stage.hasLock = true ∨ stage.isWaiting = true := by
  cases h with
  | lock => exact Or.inr rfl
  | draft h => exact Or.inl rfl
  | write h => exact Or.inl rfl
  | put h => exact Or.inl rfl
  | _ => cases hnext

/-- What a request gives is settled once its job is in place. -/
theorem reply? (h : Moved run s stage next s') {reply : JobReply} (hreply : stage.reply? = some reply) :
    next.reply? = some reply := by
  cases h with
  | answer h =>
    rw [JobStage.reply?, h] at hreply
    exact hreply
  | fail hnone h =>
    rw [hnone] at hreply
    cases hreply
  | _ => cases hreply

theorem of_puts? (h : Moved run s stage next s') {job : Job} (hput : stage.puts? next = some job) :
    ∃ e, stage = written e job ∧ next = placed e := by
  cases h with
  | put h =>
    cases hput
    exact ⟨_, rfl, rfl⟩
  | fail hreply h => cases stage <;> cases hput
  | _ => cases hput

end Moved

/-! ## What a request knows -/

/-- What a request knows at a stage. -/
def Knows (request : JobRequest) (s : Service) : JobStage → Prop
  | ready r => r = request
  | submitted now jobId task _ | resolved now jobId task _ => task.validate = .ok () ∧
      ∃ taskId given, request = .call (.submit now taskId jobId task given)
  | loaded now id calls _ => request = .call (.process now id calls)
  | opening e | waiting e | locked e | placed e => Edit.Of request e
  | drafted e job => Edit.Of request e ∧ e.Drafted s job
  | written e job => Edit.Of request e ∧ e.Drafted s job ∧
      s.files.lookup (StoreM.besideOf (s.store.jobFile e.id)) = some (.file (Job.codec.toJson job))
  | listing left _ => ∀ name ∈ left, FileTree.suffix? name = some "json"
  | returned _ => True

variable {request : JobRequest} {job : Job}

theorem Moved.knows (h : Moved run s stage next s') (hknows : stage.Knows request s) :
    next.Knows request s' := by
  cases h with
  | upload => exact hknows ▸ .upload
  | submit hvalid h => exact ⟨hvalid, _, _, hknows.symm⟩
  | resolve input => exact hknows
  | finish h =>
    obtain ⟨-, taskId, given, rfl⟩ := hknows
    exact .submit _ (run.status_runTask h)
  | refuse h => exact absurd h (run.runTask_ne_invalid hknows.1 _)
  | load input => exact hknows.symm
  | call h => exact hknows ▸ .process rfl
  | touch h => exact hknows
  | lock => exact hknows
  | draft h => exact ⟨hknows, h⟩
  | @write e job files h =>
    have hlookup := (FileTree.lookup_of_write h).2
    have hsame : s.SameJobs { s with files } :=
      ⟨rfl, fun id => (hlookup _).trans
        (if_neg (Store.besideOf_ne_of_suffix? (Store.suffix?_jobName id) e.id))⟩
    exact ⟨hknows.1, hknows.2.sameJobs hsame, (hlookup _).trans (if_pos rfl)⟩
  | put h => exact hknows.1
  | answer h => trivial
  | get h => trivial
  | look h => exact h
  | read h => exact fun name hname => hknows name (List.mem_cons_of_mem _ hname)
  | skip => exact fun name hname => hknows name (List.mem_cons_of_mem _ hname)
  | sort => trivial
  | fail hreply h => trivial

/-- What a request knows stays true while others do not touch the directory of jobs. -/
theorem Knows.sameDirectory (h : stage.Knows request s) (hsame : s.SameDirectory s') :
    stage.Knows request s' := by
  cases stage with
  | drafted e job => exact ⟨h.1, h.2.sameJobs hsame.sameJobs⟩
  | written e job =>
    refine ⟨h.1, h.2.1.sameJobs hsame.sameJobs, ?_⟩
    rw [hsame.store, Store.jobFile, StoreM.besideOf_append, hsame.files, ← StoreM.besideOf_append]
    exact h.2.2
  | _ => exact h

/-- Only who has the lock knows of the files. -/
theorem Knows.of_hasLock_eq_false (h : stage.Knows request s) (hlock : stage.hasLock = false) :
    stage.Knows request s' := by
  cases stage with
  | drafted e job => cases hlock
  | written e job => cases hlock
  | _ => exact h

/-- Of the files that are named like records a step changes at most the one of the job that it puts in
place. -/
theorem Moved.lookup_cases (h : Moved run s stage next s') (hknows : stage.Knows request s) {name : String}
    (hname : FileTree.suffix? name = some "json") :
    s'.files.lookup (s.store.jobs ++ [name]) = s.files.lookup (s.store.jobs ++ [name]) ∨
      ∃ e job, stage = written e job ∧ next = placed e ∧ s.store.jobFile e.id = s.store.jobs ++ [name] ∧
        s'.files.lookup (s.store.jobs ++ [name]) = some (.file (Job.codec.toJson job)) := by
  cases h with
  | @write e job files h =>
    exact Or.inl (((FileTree.lookup_of_write h).2 _).trans
      (if_neg (Store.besideOf_ne_of_suffix? hname e.id)))
  | @put e job files h =>
    have hlookup := (FileTree.lookup_of_rename h).2.2 (s.store.jobs ++ [name])
    rw [if_neg (Store.besideOf_ne_of_suffix? hname e.id), hknows.2.2] at hlookup
    by_cases hfile : s.store.jobFile e.id = s.store.jobs ++ [name]
    · exact Or.inr ⟨e, job, rfl, rfl, hfile, hlookup.trans (if_pos hfile)⟩
    · exact Or.inl (hlookup.trans (if_neg hfile))
  | submit hvalid h => exact Or.inl ((Service.sameDirectory_of_saveTask h).files name)
  | touch h => exact Or.inl ((Service.sameDirectory_of_lock h).files name)
  | fail hreply h => exact Or.inl (h.files name)
  | _ => exact Or.inl rfl

end JobStage

/-! ## Edits that nothing comes between -/

namespace JobTraffic

variable {runs : Nat → Runner} {i : Nat} {stages : List JobStage} {s s' : Service} {written : List Job}

theorem after_cons {t t' : JobTraffic} (h : t.move runs i = some t') (turns : List Nat) :
    t.after runs (i :: turns) = t'.after runs turns := by
  rw [after, List.foldlM_cons, h]
  rfl

theorem move_set {stage next : JobStage} {written' : List Job} (hi : i < stages.length)
    (h : stage.advance (runs i) s = .ok next s') (hstage : stage.isReturned = false)
    (hfree : (stage.isWaiting && (stages.set i stage).any JobStage.hasLock) = false)
    (hwritten : written ++ (stage.puts? next).toList = written') :
    move runs ⟨s, stages.set i stage, written⟩ i = some ⟨s', stages.set i next, written'⟩ := by
  have hself : (stages.set i stage)[i]? = some stage := List.getElem?_set_self hi
  rw [move]
  split
  · next hnone =>
    rw [hself] at hnone
    cases hnone
  · next r hreturned =>
    rw [hself] at hreturned
    cases hreturned
    cases hstage
  · next other _ hother =>
    obtain rfl := Option.some.inj (hself.symm.trans hother)
    simp only [hfree, JobStage.proceed_of_ok h, List.set_set, hwritten]
    rfl

/-- **An edit that nothing comes between** puts one job in place. -/
theorem exists_after_edit (runs : Nat → Runner) (hi : i < stages.length) {e : Edit} {reply : JobReply}
    (hreply : e.reply = .ok reply)
    (hfree : (stages.set i (.waiting e)).any JobStage.hasLock = false) {files : FileTree}
    (h : e.carryOut s.store s.files = .ok () files) (written : List Job) :
    ∃ job, e.Drafted s job ∧ after runs ⟨s, stages.set i (.opening e), written⟩ (List.replicate 6 i) =
      some ⟨{ s with files }, stages.set i (.returned (.ok reply)), written ++ [job]⟩ := by
  rw [Edit.carryOut_eq] at h
  obtain ⟨_, t₁, hlock, h⟩ := bind_eq_ok h
  obtain ⟨job, t₂, hdraft, h⟩ := bind_eq_ok h
  obtain ⟨_, t₃, hwrite, hrename⟩ := bind_eq_ok h
  obtain rfl := (e.looksOnly_draft s.store).ok hdraft
  have hlock' : s.store.lock.apply s.files = .ok t₂ := by
    obtain ⟨t, happly, hend⟩ := StoreM.perform_cons_eq_ok hlock
    cases hend
    exact happly
  have hdraft' : Service.onStore (fun store => e.draft store) .store { s with files := t₂ } =
      .ok job { s with files := t₂ } :=
    Service.onStore_of_ok (s := { s with files := t₂ }) (f := fun store => e.draft store) hdraft _
  have hopening : (JobStage.opening e).advance (runs i) s = .ok (.waiting e) { s with files := t₂ } :=
    bind_of_ok (Service.onStore_of_ok (f := fun store => StoreM.perform [store.lock]) hlock _) _
  have hwaiting : (JobStage.waiting e).advance (runs i) { s with files := t₂ } =
      .ok (.locked e) { s with files := t₂ } := rfl
  have hlocked : (JobStage.locked e).advance (runs i) { s with files := t₂ } =
      .ok (.drafted e job) { s with files := t₂ } := bind_of_ok hdraft' _
  have hdrafted : (JobStage.drafted e job).advance (runs i) { s with files := t₂ } =
      .ok (.written e job) { s with files := t₃ } :=
    bind_of_ok (Service.onStore_of_ok (s := { s with files := t₂ }) (f := fun store =>
      StoreM.perform [.write (StoreM.besideOf (store.jobFile e.id)) (Job.codec.toJson job)]) hwrite _) _
  have hwritten : (JobStage.written e job).advance (runs i) { s with files := t₃ } =
      .ok (.placed e) { s with files } :=
    bind_of_ok (Service.onStore_of_ok (s := { s with files := t₃ }) (f := fun store =>
      StoreM.perform [.rename (StoreM.besideOf (store.jobFile e.id)) (store.jobFile e.id)]) hrename _) _
  have hplaced : (JobStage.placed e).advance (runs i) { s with files } =
      .ok (.returned (.ok reply)) { s with files } := by
    rw [JobStage.advance, hreply]
    rfl
  have hsame : Service.SameDirectory { s with files := t₂ } s :=
    ⟨rfl, fun name => ((Service.sameDirectory_of_lock hlock').files name).symm⟩
  refine ⟨job, (Edit.drafted_of_draft hdraft').sameJobs hsame.sameJobs, ?_⟩
  change after runs _ [i, i, i, i, i, i] = _
  rw [after_cons (move_set hi hopening rfl rfl (List.append_nil _)),
    after_cons (move_set hi hwaiting rfl hfree (List.append_nil _)),
    after_cons (move_set hi hlocked rfl rfl (List.append_nil _)),
    after_cons (move_set hi hdrafted rfl rfl (List.append_nil _)),
    after_cons (move_set hi hwritten rfl rfl rfl),
    after_cons (move_set hi hplaced rfl rfl (List.append_nil _))]
  rfl

/-- An upload that nothing comes between. -/
theorem exists_after_upload (runs : Nat → Runner) (stages : List JobStage) (now : Instant) (id : Uuid)
    (input : Data) (hi : i < stages.length) (hready : s.store.Ready s.files)
    (hfree : ∀ e, (stages.set i (.waiting e)).any JobStage.hasLock = false) (written : List Job) :
    ∃ files, s.store.saveJob (.uploaded id now input) s.files = .ok () files ∧
      after runs ⟨s, stages.set i (.ready (.call (.upload now id input))), written⟩ (List.replicate 7 i) =
        some ⟨{ s with files }, stages.set i (.returned (.ok (.job (.uploaded id now input)))),
          written ++ [.uploaded id now input]⟩ := by
  obtain ⟨files, hsave⟩ := Store.exists_saveJob (.uploaded id now input) hready
  let e : Edit := .save (.uploaded id now input) (.ok (.job (.uploaded id now input)))
  have hstart : (JobStage.ready (.call (.upload now id input))).advance (runs i) s = .ok (.opening e) s := rfl
  obtain ⟨_, rfl, hafter⟩ := exists_after_edit runs hi (e := e) rfl (hfree e) hsave written
  refine ⟨files, hsave, ?_⟩
  rw [List.replicate_succ, after_cons (move_set hi hstart rfl rfl (List.append_nil _))]
  exact hafter

/-- A call that runs on a job, and that nothing comes between. -/
theorem exists_after_process (runs : Nat → Runner) (stages : List JobStage) (now : Instant) {id : Uuid}
    (calls : List Invocation) {old : Job} (hi : i < stages.length) (hready : s.store.Ready s.files)
    (hold : s.HasJob id old)
    (hfree : ∀ e, (stages.set i (.waiting e)).any JobStage.hasLock = false) (written : List Job) :
    let results := ((runs i).calls calls old.input s.engine).1
    let job := Store.withRun old now results (.ofResults results)
    ∃ engine files, files.lookup (s.store.jobFile id) = some (.file (Job.codec.toJson job)) ∧
      after runs ⟨s, stages.set i (.ready (.call (.process now id calls))), written⟩ (List.replicate 8 i) =
        some ⟨{ s with engine, files }, stages.set i (.returned (.ok (.report (.ofResults results)))),
          written ++ [job]⟩ := by
  intro results job
  let engine := ((runs i).calls calls old.input s.engine).2
  let e : Edit := .enter now id (.ofResults results)
  have hold' : Service.HasJob { s with engine } id old := hold
  obtain ⟨files, hupdate⟩ := Store.exists_updateJob now results (.ofResults results) hready hold
  obtain ⟨other, hother, hfile⟩ := Store.lookup_of_updateJob hupdate
  obtain rfl : other = old := Option.some.inj (hother.symm.trans hold)
  have hload : (JobStage.ready (.call (.process now id calls))).advance (runs i) s =
      .ok (.loaded now id calls other.input) s :=
    bind_of_ok (Service.onStore_jobInput_eq_ok_iff.2 ⟨rfl, other, hold, rfl⟩) _
  have hcall : (JobStage.loaded now id calls other.input).advance (runs i) s =
      .ok (.opening e) { s with engine } := rfl
  obtain ⟨_, ⟨again, hagain, rfl⟩, hafter⟩ := exists_after_edit runs (s := { s with engine }) hi (e := e)
    rfl (hfree e) hupdate written
  obtain rfl : again = other := Option.some.inj (hagain.symm.trans hold')
  refine ⟨engine, files, hfile, ?_⟩
  rw [List.replicate_succ, after_cons (move_set hi hload rfl rfl (List.append_nil _)),
    List.replicate_succ, after_cons (move_set hi hcall rfl rfl (List.append_nil _))]
  exact hafter

end JobTraffic

end PluginChain
