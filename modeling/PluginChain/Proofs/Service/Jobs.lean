import PluginChain.Proofs.Service.Input
import PluginChain.Proofs.Workflow.Report

/-!
# Where jobs can be read back

An operation on jobs that succeeds tells what became of a job.  Whether the job can be read back from
then on, and is found in the list of all jobs, is decided by how deep its data is nested: it is just when
the job is `Shallow` (`Service.read_back`).

No operation checks this.  Data of any depth is taken in (`Service.exists_upload`), scripts may return
more than they were given, and a job that was readable is lost when outcomes too deep for it are entered.
The list of all jobs does not mention what it cannot read.
-/

set_option autoImplicit false

namespace PluginChain

open Operation

namespace Service

variable {α : Type} {s s' s'' : Service}

/-! ## Operations of the store -/

/-- The store stays where it is, and only texts change in it. -/
def TextChange (s s' : Service) : Prop := s'.store = s.store ∧ FileTree.TextChange s.files s'.files

theorem TextChange.refl (s : Service) : TextChange s s := ⟨rfl, .refl _⟩

theorem TextChange.trans (h : TextChange s s') (h' : TextChange s' s'') : TextChange s s'' :=
  ⟨h'.1.trans h.1, h.2.trans h'.2⟩

theorem textChange_onStore {f : Store → StoreM α} (h : ∀ store, Keeps FileTree.TextChange (f store))
    (wrap : StoreError → ChainError) : Keeps TextChange (onStore f wrap) :=
  keeps_onStore (r := fun _ => FileTree.TextChange) h wrap

theorem keeps_onEngine (f : Engine → α × Engine) : Keeps TextChange (onEngine f) :=
  fun s => ⟨rfl, .refl s.files⟩

/-! ## What the operations on jobs keep -/

theorem keeps_upload (now : Instant) (id : Uuid) (input : Data) :
    Keeps TextChange (upload now id input) :=
  (textChange_onStore (fun store => store.keeps_saveJob _) _).bind (fun _ _ _ => .trans) fun _ =>
    keeps_pure .refl _

theorem keeps_process (now : Instant) (id : Uuid) (calls : List Invocation) :
    Keeps TextChange (process now id calls) := by
  refine ((looksOnly_onStore (fun store => looksOnly_jobInput store id) _).keeps .refl).bind
    (fun _ _ _ => .trans) fun input => ?_
  refine (keeps_onEngine _).bind (fun _ _ _ => .trans) fun results => ?_
  exact (textChange_onStore (fun store => store.keeps_updateJob _ _ _ _) _).bind (fun _ _ _ => .trans)
    fun _ => keeps_pure .refl _

theorem keeps_submit (now : Instant) (taskId jobId : Uuid) (task : Task) (given : Option Data) :
    Keeps TextChange (submit now taskId jobId task given) := by
  refine (keeps_ofExcept .refl _).bind (fun _ _ _ => .trans) fun _ => ?_
  refine (textChange_onStore (fun store => store.keeps_saveTask _ _) _).bind (fun _ _ _ => .trans) fun _ => ?_
  refine ((looksOnly_inputOf task given).keeps .refl).bind (fun _ _ _ => .trans) fun input => ?_
  refine (keeps_onEngine _).bind (fun _ _ _ => .trans) fun r => ?_
  have hsave : ∀ job : Job, Keeps TextChange (onStore fun store => store.saveJob job) :=
    fun job => textChange_onStore (fun store => store.keeps_saveJob job) _
  split
  · exact (hsave _).bind (fun _ _ _ => .trans) fun _ => keeps_pure .refl _
  · exact (hsave _).bind (fun _ _ _ => .trans) fun _ => keeps_throw .refl _
  · exact keeps_throw .refl _

/-! ## Calls -/

/-- A call of an operation on jobs, with the reading of the clock and the new ids it uses. -/
inductive JobCall
  | upload (now : Instant) (id : Uuid) (input : Data)
  | submit (now : Instant) (taskId jobId : Uuid) (task : Task) (given : Option Data)
  | process (now : Instant) (id : Uuid) (calls : List Invocation)

/-- What a call that succeeds tells of a job. -/
structure Told where
  id : Uuid
  results : Results
  runStatus : Option RunStatus
  status : JobStatus

/-- The job is as it was told. -/
structure Told.Of (told : Told) (job : Job) : Prop where
  results : job.results = told.results
  runStatus : job.runStatus = told.runStatus
  status : job.status = told.status

namespace JobCall

def run : JobCall → ServiceM Told
  | upload now id input => do
    let job ← Service.upload now id input
    return ⟨job.id, job.results, job.runStatus, job.status⟩
  | submit now taskId jobId task given => do
    let sub ← Service.submit now taskId jobId task given
    return ⟨sub.jobId, sub.report.results, some sub.report.status, .ofRun sub.report.status⟩
  | process now id calls => do
    let report ← Service.process now id calls
    return ⟨id, report.results, some report.status, .ofRun report.status⟩

/-- The clock can be written, and so can the id of a new job. -/
def Fits : JobCall → Prop
  | upload now id _ => now.Representable ∧ id.value < 2 ^ 128
  | submit now _ jobId _ _ => now.Representable ∧ jobId.value < 2 ^ 128
  | process now _ _ => now.Representable

/-- The input of the job of a call that begins in a service. -/
def HasInput (s : Service) (input : Data) : JobCall → Prop
  | upload _ _ data => data = input
  | submit _ _ _ task given => inputOf task given s = .ok input s
  | process _ id _ => onStore (fun store => store.jobInput id) .store s = .ok input s

end JobCall

/-- The service after calls, some of which may have failed. -/
def after (s : Service) (calls : List JobCall) : Service :=
  calls.foldl (fun s call => stateOf (call.run s)) s

theorem JobCall.keeps_run (call : JobCall) : Keeps TextChange call.run := by
  cases call with
  | upload now id input =>
    exact (keeps_upload _ _ _).bind (fun _ _ _ => .trans) fun _ => keeps_pure .refl _
  | submit now taskId jobId task given =>
    exact (keeps_submit _ _ _ _ _).bind (fun _ _ _ => .trans) fun _ => keeps_pure .refl _
  | process now id calls =>
    exact (keeps_process _ _ _).bind (fun _ _ _ => .trans) fun _ => keeps_pure .refl _

theorem textChange_after (s : Service) (calls : List JobCall) : TextChange s (s.after calls) := by
  induction calls generalizing s with
  | nil => exact .refl s
  | cons call calls ih => exact (call.keeps_run s).trans (ih (stateOf (call.run s)))

/-- All files named like jobs are texts. -/
def Tidy (s : Service) : Prop := StoreM.Tidy s.files s.store.jobs

theorem Tidy.textChange (h : Tidy s) (hchange : TextChange s s') : Tidy s' := by
  rw [Tidy, hchange.1]
  exact StoreM.Tidy.textChange h hchange.2

/-! ## What a call that succeeds leaves -/

/-- A job stands in the file of an id. -/
def Holds (s : Service) (id : Uuid) (job : Job) : Prop :=
  s.files.lookup (s.store.jobFile id) = some (.file (Job.codec.toJson job))

/-- All of a job but its data fits a document. -/
structure Storable (job : Job) : Prop where
  id : job.id.value < 2 ^ 128
  results : Entries.Sorted job.results
  createdAt : job.createdAt.Representable
  updatedAt : job.updatedAt.Representable

theorem upload_eq_ok {now : Instant} {id : Uuid} {input : Data} {job : Job}
    (h : upload now id input s = .ok job s') :
    job = .uploaded id now input ∧ ∃ files, s' = { s with files } ∧
      s.store.saveJob job s.files = .ok () files := by
  obtain ⟨_, s₁, hsave, hpure⟩ := bind_eq_ok h
  obtain ⟨files, hfiles, rfl⟩ := onStore_eq_ok hsave
  cases hpure
  exact ⟨rfl, files, rfl, hfiles⟩

theorem holds_upload {now : Instant} {id : Uuid} {input : Data} {job : Job}
    (h : upload now id input s = .ok job s') :
    job = .uploaded id now input ∧ s'.Holds id job := by
  obtain ⟨rfl, files, rfl, hfiles⟩ := upload_eq_ok h
  have hfile := Store.lookup_of_saveJob hfiles (s.store.lock_ne_jobFile id)
  exact ⟨rfl, hfile.trans (if_pos rfl)⟩

/-- A call is made, and then the others are, on what it gave or else on what it worked on. -/
theorem callAll_cons (eval : Evaluator) (call : Invocation) (calls : List Invocation) (current : Data)
    (results : Results) (e : Engine) :
    let run := e.runPlugin eval (Text.trim call.name) current (.table call.params)
    callAll eval (call :: calls) current results e = callAll eval calls (run.1.toOption.getD current)
      (Entries.put (Text.trim call.name) (.ofExcept run.1) results) run.2 := by
  simp only [callAll, bind, StateT.bind, modifyGet, MonadStateOf.modifyGet, StateT.modifyGet, pure]
  obtain ⟨r, e'⟩ := e.runPlugin eval (Text.trim call.name) current (.table call.params)
  cases r <;> rfl

/-- Calls of plugins leave their outcomes in the order of the names. -/
theorem sorted_callAll (eval : Evaluator) (calls : List Invocation) (current : Data) {results : Results}
    (h : Entries.Sorted results) (e : Engine) :
    Entries.Sorted (callAll eval calls current results e).1 := by
  induction calls generalizing current results e with
  | nil => exact h
  | cons call calls ih =>
    rw [callAll_cons]
    exact ih _ (h.put _ _) _

/-- The parts of a submission that succeeds: a copy of the task is kept, its input is found, the task is run
on it, and what it gave is kept as a job. -/
theorem submit_eq_ok {now : Instant} {taskId jobId : Uuid} {task : Task} {given : Option Data}
    {sub : Submission} (h : submit now taskId jobId task given s = .ok sub s') :
    sub.jobId = jobId ∧ ∃ input files files',
      s.store.saveTask taskId task s.files = .ok () files ∧
      inputOf task given { s with files } = .ok input { s with files } ∧
      (s.engine.runTask task input).1 = .ok sub.report ∧
      s.store.saveJob ((Job.forTask jobId now task.name task.description input).applyResults now
        sub.report.results sub.report.status) files = .ok () files' ∧
      s' = { s with engine := (s.engine.runTask task input).2, files := files' } := by
  obtain ⟨_, s₁, hvalid, hkeep⟩ := bind_eq_ok h
  obtain ⟨-, rfl⟩ := ofExcept_eq_ok hvalid
  obtain ⟨_, s₂, htask, hresolve⟩ := bind_eq_ok hkeep
  obtain ⟨files, hwrite, rfl⟩ := onStore_eq_ok htask
  obtain ⟨input, s₃, hinput, hrun⟩ := bind_eq_ok hresolve
  obtain rfl := (looksOnly_inputOf task given).ok hinput
  obtain ⟨r, s₄, hengine, hend⟩ := bind_eq_ok hrun
  obtain ⟨hreport, rfl⟩ := onEngine_eq_ok hengine
  cases r with
  | ok report =>
    obtain ⟨_, s₅, hsave, hpure⟩ := bind_eq_ok hend
    obtain ⟨files', hfiles, rfl⟩ := onStore_eq_ok hsave
    cases hpure
    exact ⟨rfl, input, files, files', hwrite, hinput, hreport, hfiles, rfl⟩
  | error fault =>
    cases fault with
    | invalid why =>
      obtain ⟨_, s₅, -, hthrow⟩ := bind_eq_ok hend
      cases hthrow
    | gate places => cases hend

/-- The job of a submission stands in its file, with the report of the run. -/
theorem holds_submit {now : Instant} {taskId jobId : Uuid} {task : Task} {given : Option Data}
    {sub : Submission} (h : submit now taskId jobId task given s = .ok sub s') :
    sub.jobId = jobId ∧ ∃ input, inputOf task given s = .ok input s ∧
      (s.engine.runTask task input).1 = .ok sub.report ∧
        s'.Holds jobId ((Job.forTask jobId now task.name task.description input).applyResults now
          sub.report.results sub.report.status) := by
  obtain ⟨hid, input, files, files', hwrite, hinput, hreport, hsave, rfl⟩ := submit_eq_ok h
  have hsame : SameJobs s { s with files } := by
    refine ⟨rfl, fun id => ?_⟩
    obtain ⟨t, hfirst, hlast⟩ := StoreM.perform_cons_eq_ok hwrite
    cases hlast
    rw [(FileTree.lookup_of_write hfirst).2, if_neg (s.store.taskFile_ne_jobFile taskId id)]
  have hhere : inputOf task given s = .ok input s :=
    inputOf_eq_ok_iff.2 ⟨rfl, hsame.worksOn.1 (inputOf_eq_ok_iff.1 hinput).2⟩
  have hfile := Store.lookup_of_saveJob hsave (s.store.lock_ne_jobFile jobId)
  exact ⟨hid, input, hhere, hreport, hfile.trans (if_pos rfl)⟩

/-- A run with outcomes makes a job processed. -/
theorem ofRun_ofResults (results : Results) : JobStatus.ofRun (.ofResults results) = .processed := by
  rw [RunStatus.ofResults]
  split <;> rfl

/-- A run with outcomes does not fail a job. -/
theorem withRun_ofResults (job : Job) (now : Instant) (results : Results) :
    Store.withRun job now results (.ofResults results) =
      job.applyResults now results (.ofResults results) := by
  have hne : (job.applyResults now results (.ofResults results)).status ≠ .failed := by
    rw [Job.applyResults, ofRun_ofResults]
    intro h
    cases h
  rw [Store.withRun, if_neg hne]

/-- A report is given when its outcomes were entered into the job. -/
theorem process_eq_ok {now : Instant} {id : Uuid} {calls : List Invocation} {report : Report}
    (h : process now id calls s = .ok report s') :
    Entries.Sorted report.results ∧ report.status = .ofResults report.results ∧
      ∃ engine files, s' = { s with engine, files } ∧
        s.store.updateJob now id report.results report.status s.files = .ok () files := by
  obtain ⟨input, s₁, hinput, hrun⟩ := bind_eq_ok h
  obtain ⟨rfl, -⟩ := onStore_jobInput_eq_ok_iff.1 hinput
  obtain ⟨results, s₂, hengine, hend⟩ := bind_eq_ok hrun
  obtain ⟨_, s₃, hupdate, hpure⟩ := bind_eq_ok hend
  obtain ⟨files, hfiles, rfl⟩ := onStore_eq_ok hupdate
  obtain ⟨hresults, rfl⟩ := onEngine_eq_ok hengine
  have hsorted : Entries.Sorted results := by
    rw [← hresults]
    exact sorted_callAll _ _ _ Entries.sorted_nil _
  cases hpure
  exact ⟨hsorted, rfl, _, files, rfl, hfiles⟩

theorem holds_process {now : Instant} {id : Uuid} {calls : List Invocation} {report : Report}
    (h : process now id calls s = .ok report s') :
    Entries.Sorted report.results ∧
      ∃ job, s.HasJob id job ∧ s'.Holds id (job.applyResults now report.results report.status) := by
  obtain ⟨hsorted, hstatus, engine, files, rfl, hupdate⟩ := process_eq_ok h
  obtain ⟨job, hjob, hfile⟩ := Store.lookup_of_updateJob hupdate
  rw [hstatus, withRun_ofResults, ← hstatus] at hfile
  exact ⟨hsorted, job, hjob, hfile⟩

/-- Behind every call that succeeds there is a job in its file, which is as it was told. -/
theorem holds_run {call : JobCall} (hcall : call.Fits) {told : Told} (h : call.run s = .ok told s') :
    ∃ job, call.HasInput s job.input ∧ told.Of job ∧ Storable job ∧ s'.Holds told.id job := by
  cases call with
  | upload now id input =>
    obtain ⟨job, s₁, hupload, hpure⟩ := bind_eq_ok h
    cases hpure
    obtain ⟨rfl, hholds⟩ := holds_upload hupload
    exact ⟨.uploaded id now input, rfl, ⟨rfl, rfl, rfl⟩,
      ⟨hcall.2, Entries.sorted_nil, hcall.1, hcall.1⟩, hholds⟩
  | submit now taskId jobId task given =>
    obtain ⟨sub, s₁, hsubmit, hpure⟩ := bind_eq_ok h
    cases hpure
    obtain ⟨hid, input, hinput, hreport, hholds⟩ := holds_submit hsubmit
    have hsorted := (Engine.report_runTask hreport).1
    refine ⟨(Job.forTask jobId now task.name task.description input).applyResults now
      sub.report.results sub.report.status, hinput, ⟨rfl, rfl, rfl⟩,
      ⟨hcall.2, hsorted, hcall.1, hcall.1⟩, ?_⟩
    rw [hid]
    exact hholds
  | process now id calls =>
    obtain ⟨report, s₁, hprocess, hpure⟩ := bind_eq_ok h
    cases hpure
    obtain ⟨hsorted, job, hjob, hholds⟩ := holds_process hprocess
    obtain ⟨text, -, htext⟩ := StoreM.recordAt?_eq_some_iff.1 hjob
    obtain ⟨hid, hcreated, -⟩ := Job.fits_of_ofJson htext
    have hinput : onStore (fun store => store.jobInput id) .store s = .ok job.input s :=
      onStore_jobInput_eq_ok_iff.2 ⟨rfl, job, hjob, rfl⟩
    exact ⟨job.applyResults now report.results report.status, hinput, ⟨rfl, rfl, rfl⟩,
      ⟨hid, hsorted, hcreated, hcall⟩, hholds⟩

/-- Data of any depth is taken in. -/
theorem exists_upload (now : Instant) (id : Uuid) (input : Data) (h : s.store.Ready s.files) :
    ∃ files, upload now id input s = .ok (.uploaded id now input) { s with files } := by
  obtain ⟨files, hsave⟩ := Store.exists_saveJob (.uploaded id now input) h
  refine ⟨files, ?_⟩
  rw [upload, bind_of_ok (onStore_of_ok (f := fun store => store.saveJob _) hsave _)]
  rfl

theorem plain_uploaded {now : Instant} {id : Uuid} {input : Data} (hnow : now.Representable)
    (hid : id.value < 2 ^ 128) (hplain : input.Plain) : (Job.uploaded id now input).Plain :=
  ⟨hid, hplain, ⟨Entries.sorted_nil, nofun⟩, hnow, hnow⟩

/-- A job that is shallow is found in its file. -/
theorem Holds.hasJob {id : Uuid} {job : Job} (h : s.Holds id job) (hplain : job.Plain) (hshallow : job.Shallow) :
    s.HasJob id job :=
  StoreM.recordAt?_eq_some_iff.2 ⟨_, h, (Job.ofJson_toJson hplain).1 hshallow⟩

/-- Data that is no deeper than a document can hold is found again. -/
theorem hasJob_upload {now : Instant} {id : Uuid} {input : Data} {job : Job}
    (h : upload now id input s = .ok job s') (hnow : now.Representable) (hid : id.value < 2 ^ 128)
    (hplain : input.Plain) (hdepth : input.depth ≤ 126) :
    s'.HasJob id (.uploaded id now input) := by
  obtain ⟨rfl, hholds⟩ := holds_upload h
  exact hholds.hasJob (plain_uploaded hnow hid hplain) ⟨hdepth, nofun⟩

/-- All other jobs are as they were. -/
theorem lookup_upload {now : Instant} {id : Uuid} {input : Data} {job : Job}
    (h : upload now id input s = .ok job s') (other : Uuid)
    (hother : s.store.jobFile id ≠ s.store.jobFile other) :
    s'.files.lookup (s.store.jobFile other) = s.files.lookup (s.store.jobFile other) := by
  obtain ⟨rfl, files, rfl, hsave⟩ := upload_eq_ok h
  refine (Store.lookup_of_saveJob hsave (s.store.lock_ne_jobFile other)).trans ?_
  exact (if_neg hother).trans (if_neg (Store.besideOf_ne_of_suffix? (Store.suffix?_jobName other) id))

theorem JobsReadable.upload (h : s.JobsReadable) {now : Instant} {id : Uuid} {input : Data} {job : Job}
    (hupload : upload now id input s = .ok job s') (hjob : s'.HasJob id job) : s'.JobsReadable := by
  obtain ⟨-, files, rfl, -⟩ := upload_eq_ok hupload
  intro other
  by_cases hother : s.store.jobFile id = s.store.jobFile other
  · refine Or.inr ⟨job, ?_⟩
    change StoreM.recordAt? Job.codec files (s.store.jobFile other) = some job
    rw [← hother]
    exact hjob
  · have hsame : files.lookup (s.store.jobFile other) = _ := lookup_upload hupload other hother
    change files.lookup (s.store.jobFile other) = none ∨
      ∃ job, StoreM.recordAt? Job.codec files (s.store.jobFile other) = some job
    rw [StoreM.recordAt?, hsame]
    exact h other

/-! ## Reading back -/

/-- A job is found under an id, and among all jobs. -/
def Readable (s : Service) (id : Uuid) (job : Job) : Prop :=
  getJob id s = .ok job s ∧ ∃ jobs, listJobs s = .ok jobs s ∧ job ∈ jobs

/-- The file of an id cannot be read, and every job that is listed comes from another file. -/
def Lost (s : Service) (id : Uuid) : Prop :=
  (∃ why, getJob id s = .error (.store (.unreadable why)) s) ∧
    ∃ jobs, listJobs s = .ok jobs s ∧ ∀ job ∈ jobs, ∃ name,
      s.store.jobs ++ [name] ≠ s.store.jobFile id ∧
        StoreM.recordAt? Job.codec s.files (s.store.jobs ++ [name]) = some job

theorem exists_listJobs (h : s.Tidy) :
    ∃ jobs, listJobs s = .ok jobs s ∧ ∀ job, job ∈ jobs ↔
      ∃ name, FileTree.suffix? name = some "json" ∧
        StoreM.recordAt? Job.codec s.files (s.store.jobs ++ [name]) = some job := by
  obtain ⟨jobs, hjobs, hmem⟩ := Store.exists_listJobs h
  exact ⟨jobs, onStore_of_ok (f := Store.listJobs) hjobs _, hmem⟩

theorem Holds.readable (htidy : s.Tidy) {id : Uuid} {job : Job} (h : s.Holds id job)
    (hread : Job.codec.ofJson (Job.codec.toJson job) = .ok job) : s.Readable id job := by
  have hrecord : s.HasJob id job := StoreM.recordAt?_eq_some_iff.2 ⟨_, h, hread⟩
  obtain ⟨jobs, hjobs, hmem⟩ := exists_listJobs htidy
  exact ⟨onStore_getJob_eq_ok_iff.2 ⟨rfl, hrecord⟩, jobs, hjobs,
    (hmem job).2 ⟨_, Store.suffix?_jobName id, hrecord⟩⟩

theorem Holds.lost (htidy : s.Tidy) {id : Uuid} {job : Job} (h : s.Holds id job) {why : Json.Fault}
    (hread : Job.codec.ofJson (Job.codec.toJson job) = .error why) : s.Lost id := by
  have hget : s.store.getJob id s.files = .error (.unreadable why) s.files :=
    StoreM.readRecord_of_error h hread _
  obtain ⟨jobs, hjobs, hmem⟩ := exists_listJobs htidy
  refine ⟨⟨why, ?_⟩, jobs, hjobs, fun other hother => ?_⟩
  · exact onStore_of_error (f := fun store => store.getJob id) hget _
  · obtain ⟨name, -, hrecord⟩ := (hmem other).1 hother
    refine ⟨name, fun hname => ?_, hrecord⟩
    obtain ⟨text, htext, hok⟩ := StoreM.recordAt?_eq_some_iff.1 hrecord
    rw [hname, h] at htext
    cases htext
    rw [hread] at hok
    cases hok

/-- **Where jobs can be read back.**  After any calls, a call that succeeds leaves a job as it was told.
If the data of the job fits documents, the job can be read back just when it is shallow, and is lost
otherwise. -/
theorem read_back (htidy : s.Tidy) (earlier : List JobCall) {call : JobCall} (hcall : call.Fits)
    {told : Told} (h : call.run (s.after earlier) = .ok told s') :
    ∃ job, call.HasInput (s.after earlier) job.input ∧ told.Of job ∧
      (job.input.Plain → (∀ name d, (name, .ok d) ∈ told.results → d.Plain) →
        (job.Shallow → s'.Readable told.id job) ∧ (¬ job.Shallow → s'.Lost told.id)) := by
  have htidy' : s'.Tidy := (htidy.textChange (textChange_after s earlier)).textChange (call.keeps_run.ok h)
  obtain ⟨job, hinput, htold, hstorable, hholds⟩ := holds_run hcall h
  refine ⟨job, hinput, htold, fun hplain hresults => ?_⟩
  have hresults' : Results.Plain job.results := ⟨hstorable.results, htold.results ▸ hresults⟩
  have hjob : job.Plain :=
    ⟨hstorable.id, hplain, hresults', hstorable.createdAt, hstorable.updatedAt⟩
  obtain ⟨hshallow, hdeep⟩ := Job.ofJson_toJson hjob
  constructor
  · exact fun hs => hholds.readable htidy' (hshallow hs)
  · intro hs
    obtain ⟨why, hwhy⟩ := hdeep hs
    exact hholds.lost htidy' hwhy

/-- Nothing, within so many brackets. -/
def nest : Nat → Data
  | 0 => .null
  | n + 1 => .list [nest n]

theorem depth_nest (n : Nat) : (nest n).depth = n := by
  induction n with
  | zero => rfl
  | succ n ih => rw [nest, Data.depth, Data.depth.depthOfItems, Data.depth.depthOfItems, ih, Nat.max_zero]

theorem plain_nest (n : Nat) : (nest n).Plain := by
  induction n with
  | zero => exact .null
  | succ n ih => exact .list (by simpa using ih)

/-- A service with nothing kept yet. -/
def fresh (engine : Engine) : Service :=
  ⟨engine, ⟨[]⟩, ⟨[(["jobs"], .directory), (["tasks"], .directory)]⟩⟩

/-- Nothing is kept inside the two directories. -/
theorem lookup_fresh (engine : Engine) {p : Place} (hp : 1 < p.length) :
    (fresh engine).files.lookup p = none := by
  match p, hp with
  | _ :: _ :: _, _ => simp [fresh, FileTree.lookup]

theorem ready_fresh (engine : Engine) : (fresh engine).store.Ready (fresh engine).files := by
  have hinside : ∀ {p : Place}, 1 < p.length → (fresh engine).files.lookup p ≠ some .directory := by
    intro p hp
    rw [lookup_fresh engine hp]
    exact nofun
  refine ⟨fun p hp => ?_, rfl, rfl, by simp [fresh, FileTree.lookup], fun id => hinside ?_,
    fun id => hinside ?_, fun id => hinside ?_⟩
  · rw [List.prefix_nil.1 hp]
    rfl
  · exact Nat.one_lt_two
  · exact Nat.one_lt_two
  · exact Nat.one_lt_two

theorem readable_fresh (engine : Engine) : (fresh engine).JobsReadable :=
  fun _ => Or.inl (lookup_fresh engine Nat.one_lt_two)

theorem tidy_fresh (engine : Engine) : (fresh engine).Tidy :=
  ⟨(ready_fresh engine).jobs, fun _ _ => Or.inl (lookup_fresh engine Nat.one_lt_two)⟩

/-- Data that is nested 127 deep is taken in, and then neither found nor listed. -/
theorem lost_nest : ∃ (told : Told) (s : Service),
    (JobCall.upload ⟨0, 0⟩ ⟨1⟩ (nest 127)).run ((fresh default).after []) = .ok told s ∧ s.Lost told.id := by
  have hfits : (JobCall.upload ⟨0, 0⟩ ⟨1⟩ (nest 127)).Fits := ⟨Instant.representable_epoch, by decide⟩
  obtain ⟨files, hupload⟩ := exists_upload ⟨0, 0⟩ ⟨1⟩ (nest 127) (ready_fresh default)
  have hrun : (JobCall.upload ⟨0, 0⟩ ⟨1⟩ (nest 127)).run ((fresh default).after []) =
      .ok ⟨⟨1⟩, [], none, .uploaded⟩ { fresh default with files } := by
    change (JobCall.upload ⟨0, 0⟩ ⟨1⟩ (nest 127)).run (fresh default) = _
    rw [JobCall.run, bind_of_ok hupload]
    rfl
  obtain ⟨job, hinput, -, hread⟩ := read_back (tidy_fresh default) [] hfits hrun
  have hdepth : ¬ job.Shallow := by
    intro hs
    have := hs.input
    rw [← hinput, depth_nest] at this
    exact absurd this (by decide)
  exact ⟨_, _, hrun, (hread (hinput ▸ plain_nest 127) nofun).2 hdepth⟩

end Service

end PluginChain
