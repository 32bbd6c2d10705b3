import PluginChain.Proofs.Service.JobMoves

/-!
# The life of a job

Requests about jobs may be under way at the same time and move in any order.  In all that can be reached
from a store without jobs each job is `Job.Whole`: either it is as it was uploaded, or it is processed and
has all of the report of one request that ran on it.  No job is ever seen that is half made, or that has
parts of two reports (`JobTraffic.life_of_jobs`).

What carries this is the lock.  An edit that is drafted knows the job it was drafted from, and from then
on until it is put in place no other request touches the directory of jobs; so what is put in place takes
the place of what was read.  Who only reads needs no lock, for a job is put in place in one step.

* `JobTraffic.Sound` is the invariant, kept by every move (`Sound.move`) and so by every run
  (`Sound.after`).
* A job that was put in place stays: what it was made with never changes, and once it is processed it is
  never uploaded again (`Job.Continues`).
-/

set_option autoImplicit false

namespace PluginChain

open Operation

/-! ## Jobs that go on -/

/-- The same job later on. -/
structure Job.Continues (job later : Job) : Prop where
  id : later.id = job.id
  name : later.name = job.name
  description : later.description = job.description
  input : later.input = job.input
  createdAt : later.createdAt = job.createdAt
  processed : job.status = .processed → later.status = .processed

namespace Job.Continues

variable {job later last : Job}

theorem refl (job : Job) : job.Continues job := ⟨rfl, rfl, rfl, rfl, rfl, fun h => h⟩

theorem trans (h : job.Continues later) (h' : later.Continues last) : job.Continues last :=
  ⟨h'.id.trans h.id, h'.name.trans h.name, h'.description.trans h.description, h'.input.trans h.input,
    h'.createdAt.trans h.createdAt, fun hp => h'.processed (h.processed hp)⟩

end Job.Continues

/-- A job goes on when outcomes are entered into it. -/
theorem Job.continues_withRun (job : Job) (now : Instant) (results : Results) :
    job.Continues (Store.withRun job now results (.ofResults results)) := by
  rw [Service.withRun_ofResults]
  exact ⟨rfl, rfl, rfl, rfl, rfl, fun _ => Service.ofRun_ofResults results⟩

namespace Service

/-- All jobs of a service go on in another. -/
def JobsContinue (s s' : Service) : Prop :=
  ∀ id job, s.HasJob id job → ∃ later, s'.HasJob id later ∧ job.Continues later

theorem JobsContinue.refl (s : Service) : s.JobsContinue s := fun _ job h => ⟨job, h, .refl job⟩

theorem JobsContinue.trans {s s' s'' : Service} (h : s.JobsContinue s') (h' : s'.JobsContinue s'') :
    s.JobsContinue s'' := by
  intro id job hjob
  obtain ⟨later, hlater, hcontinues⟩ := h id job hjob
  obtain ⟨last, hlast, hcontinues'⟩ := h' id later hlater
  exact ⟨last, hlast, hcontinues.trans hcontinues'⟩

/-! ## Jobs in their files -/

/-- The files that are named like records hold jobs that were put in place, each in its own. -/
def Kept (s : Service) (written : List Job) : Prop :=
  ∀ name, FileTree.suffix? name = some "json" →
    s.files.lookup (s.store.jobs ++ [name]) = none ∨
      ∃ job ∈ written, s.store.jobFile job.id = s.store.jobs ++ [name] ∧
        s.files.lookup (s.store.jobs ++ [name]) = some (.file (Job.codec.toJson job))

/-- All jobs are read back as they were written. -/
def ReadBack (written : List Job) : Prop :=
  ∀ job ∈ written, Job.codec.ofJson (Job.codec.toJson job) = .ok job

variable {s : Service} {written : List Job} {name : String} {job : Job}

theorem ReadBack.id_lt (h : ReadBack written) (hjob : job ∈ written) : job.id.value < 2 ^ 128 :=
  (Job.fits_of_ofJson (h job hjob)).1

/-- What is read is one of the jobs that were put in place, and in its own file. -/
theorem Kept.of_recordAt? (h : s.Kept written) (hread : ReadBack written)
    (hname : FileTree.suffix? name = some "json")
    (hjob : StoreM.recordAt? Job.codec s.files (s.store.jobs ++ [name]) = some job) :
    job ∈ written ∧ s.store.jobFile job.id = s.store.jobs ++ [name] := by
  obtain ⟨text, htext, hok⟩ := StoreM.recordAt?_eq_some_iff.1 hjob
  rcases h name hname with hnone | ⟨other, hmem, hfile, hother⟩
  · rw [hnone] at htext
    cases htext
  · rw [hother] at htext
    cases htext
    cases (hread other hmem).symm.trans hok
    exact ⟨hmem, hfile⟩

theorem Kept.of_hasJob (h : s.Kept written) (hread : ReadBack written) {id : Uuid} (hjob : s.HasJob id job) :
    job ∈ written ∧ s.store.jobFile job.id = s.store.jobFile id :=
  h.of_recordAt? hread (Store.suffix?_jobName id) hjob

end Service

/-- The jobs that a step shows were put in place, the last of them maybe by this step. -/
theorem JobStage.Moved.seen {run : Runner} {s s' : Service} {stage next : JobStage} {request : JobRequest}
    {written : List Job} (h : JobStage.Moved run s stage next s') (hknows : stage.Knows request s)
    (hkept : s.Kept written) (hread : Service.ReadBack written) (hseen : ∀ job ∈ stage.seen, job ∈ written) :
    ∀ job ∈ next.seen, job ∈ written ++ (stage.puts? next).toList := by
  intro job hjob
  cases h with
  | @put e new files h =>
    obtain ⟨hof, hdrafted, -⟩ := hknows
    cases hof with
    | upload =>
      obtain rfl := List.mem_singleton.1 hjob
      obtain rfl : new = _ := hdrafted
      exact List.mem_append_right _ List.mem_cons_self
    | submit input hreport => cases hjob
    | process hreport => cases hjob
  | @answer e reply h =>
    refine List.mem_append_left _ (hseen job ?_)
    change job ∈ e.reply.toOption.elim [] JobReply.seen
    rw [h]
    exact hjob
  | get h =>
    obtain rfl := List.mem_singleton.1 hjob
    exact List.mem_append_left _ (hkept.of_hasJob hread h).1
  | read h =>
    refine List.mem_append_left _ ?_
    rcases List.mem_append.1 hjob with hfound | hnew
    · exact hseen job hfound
    · obtain rfl := List.mem_singleton.1 hnew
      exact (hkept.of_recordAt? hread (hknows _ List.mem_cons_self) h).1
  | skip => exact List.mem_append_left _ (hseen job hjob)
  | sort => exact List.mem_append_left _ (hseen job ((List.mergeSort_perm _ _).mem_iff.1 hjob))
  | _ => cases hjob

/-! ## Whole jobs -/

namespace JobRequest

/-- The id that a request was given for a new job. -/
def newId? : JobRequest → Option Uuid
  | call (.upload _ id _) | call (.submit _ _ id _ _) => some id
  | _ => none

/-- The job that a request enters outcomes into. -/
def runsOn? : JobRequest → Option Uuid
  | call (.submit _ _ id _ _) | call (.process _ id _) => some id
  | _ => none

/-- An id has no more than 128 bits. -/
def Fits : JobRequest → Prop
  | call (.process _ id _) => id.value < 2 ^ 128
  | _ => True

/-- No id is given twice for a new job. -/
def FreshIds (requests : List JobRequest) : Prop := (requests.filterMap newId?).Nodup

instance (requests : List JobRequest) : Decidable (FreshIds requests) :=
  inferInstanceAs (Decidable (List.Nodup _))

theorem FreshIds.index_eq {requests : List JobRequest} (h : FreshIds requests) {i j : Nat}
    {request other : JobRequest} (hi : requests[i]? = some request) (hj : requests[j]? = some other)
    {id : Uuid} (hid : request.newId? = some id) (hid' : other.newId? = some id) : i = j := by
  have hpairs := List.pairwise_iff_getElem.1 (List.pairwise_filterMap.1 h)
  obtain ⟨hilt, rfl⟩ := List.getElem?_eq_some_iff.1 hi
  obtain ⟨hjlt, rfl⟩ := List.getElem?_eq_some_iff.1 hj
  rcases Nat.lt_trichotomy i j with hlt | heq | hlt
  · exact absurd rfl (hpairs i j hilt hjlt hlt id hid id hid')
  · exact heq
  · exact absurd rfl (hpairs j i hjlt hilt hlt id hid' id hid)

end JobRequest

/-- What the request at an index gave, if its job is in place. -/
def replyAt? (stages : List JobStage) (i : Nat) : Option JobReply := stages[i]?.bind JobStage.reply?

/-- The request that was given this id for a new job has put it in place. -/
def Made (requests : List JobRequest) (stages : List JobStage) (id : Uuid) : Prop :=
  ∃ i request, requests[i]? = some request ∧ request.newId? = some id ∧ replyAt? stages i ≠ none

/-- A request that ran on a job gave this report. -/
def Ran (requests : List JobRequest) (stages : List JobStage) (id : Uuid) (report : Report) : Prop :=
  ∃ i request reply, requests[i]? = some request ∧ request.runsOn? = some id ∧
    replyAt? stages i = some reply ∧ reply.report? = some report

/-- A job is as it was uploaded, or it has all of one report on it. -/
structure Job.Whole (requests : List JobRequest) (stages : List JobStage) (job : Job) : Prop where
  made : Made requests stages job.id
  error : job.error = none
  state : (job.status = .uploaded ∧ job.runStatus = none ∧ job.results = []) ∨
    (job.status = .processed ∧ job.runStatus = some (.ofResults job.results) ∧
      ∃ report, Ran requests stages job.id report ∧ job.results = report.results ∧
        job.runStatus = some report.status)

section Whole

variable {requests : List JobRequest} {stages stages' : List JobStage} {job : Job} {i : Nat}
  {request : JobRequest} {e : Edit}

/-- Replies stay what they are, and so do whole jobs. -/
theorem Job.Whole.mono (h : job.Whole requests stages)
    (hmono : ∀ j reply, replyAt? stages j = some reply → replyAt? stages' j = some reply) :
    job.Whole requests stages' := by
  have hmade : Made requests stages' job.id := by
    obtain ⟨j, other, hj, hid, hreply⟩ := h.made
    obtain ⟨reply, hreply⟩ := Option.ne_none_iff_exists'.1 hreply
    refine ⟨j, other, hj, hid, ?_⟩
    rw [hmono j reply hreply]
    exact nofun
  refine ⟨hmade, h.error, h.state.imp_right ?_⟩
  rintro ⟨hstatus, hrun, report, ⟨j, other, reply, hj, hid, hreply, hreport⟩, hof⟩
  exact ⟨hstatus, hrun, report, ⟨j, other, reply, hj, hid, hmono j reply hreply, hreport⟩, hof⟩

/-- A job with all of a report on it. -/
theorem whole_of_ran {report : Report} (hmade : Made requests stages job.id)
    (hran : Ran requests stages job.id report) (hreport : report.status = .ofResults report.results)
    (herror : job.error = none) (hstatus : job.status = .processed) (hresults : job.results = report.results)
    (hrun : job.runStatus = some report.status) : job.Whole requests stages :=
  ⟨hmade, herror, Or.inr ⟨hstatus, by rw [hrun, hreport, hresults], report, hran, hresults, hrun⟩⟩

/-- **What is put in place is whole**, if the job it was drafted from was. -/
theorem whole_of_edit {s : Service} {written : List Job} (hi : requests[i]? = some request)
    (hplaced : replyAt? stages i = e.reply.toOption) (hof : Edit.Of request e) (hjob : e.Drafted s job)
    (hfits : request.Fits) (hkept : s.Kept written) (hread : Service.ReadBack written)
    (hwhole : ∀ old ∈ written, old.Whole requests stages) :
    job.Whole requests stages ∧ job.id = e.id := by
  cases hof with
  | upload =>
    subst hjob
    exact ⟨⟨⟨i, _, hi, rfl, hplaced ▸ nofun⟩, rfl, Or.inl ⟨rfl, rfl, rfl⟩⟩, rfl⟩
  | submit input hreport =>
    subst hjob
    exact ⟨whole_of_ran ⟨i, _, hi, rfl, hplaced ▸ nofun⟩ ⟨i, _, _, hi, rfl, hplaced, rfl⟩ hreport rfl rfl
      rfl rfl, rfl⟩
  | @process now id calls report hreport =>
    obtain ⟨old, hold, rfl⟩ := hjob
    obtain ⟨hmem, hfile⟩ := hkept.of_hasJob hread hold
    obtain rfl : old.id = id := (Store.jobFile_inj (hread.id_lt hmem) hfits).1 hfile
    have hold' := hwhole old hmem
    rw [hreport, Service.withRun_ofResults]
    refine ⟨whole_of_ran hold'.made ⟨i, _, _, hi, rfl, hplaced, rfl⟩ hreport hold'.error ?_ rfl ?_, rfl⟩
    · exact Service.ofRun_ofResults _
    · rw [hreport]
      rfl

end Whole

/-! ## The invariant -/

namespace JobTraffic

/-- What holds of requests under way from a store without jobs. -/
structure Sound (requests : List JobRequest) (t : JobTraffic) : Prop where
  length : t.stages.length = requests.length
  knows : ∀ {i : Nat} {request : JobRequest} {stage : JobStage}, requests[i]? = some request →
    t.stages[i]? = some stage → stage.Knows request t.service
  /-- At most one request has the lock. -/
  lock : ∀ {i j : Nat} {stage other : JobStage}, t.stages[i]? = some stage → t.stages[j]? = some other →
    stage.hasLock = true → other.hasLock = true → i = j
  kept : t.service.Kept t.written
  seen : ∀ stage ∈ t.stages, ∀ job ∈ stage.seen, job ∈ t.written
  whole : ∀ job ∈ t.written, job.Whole requests t.stages

variable {requests : List JobRequest} {runs : Nat → Runner} {t t' : JobTraffic} {i : Nat}

/-- A request that can move does one of the steps. -/
theorem move_eq_some (h : t.move runs i = some t') : ∃ stage next s', t.stages[i]? = some stage ∧
    JobStage.Moved (runs i) t.service stage next s' ∧
    (stage.isWaiting = true → t.stages.any JobStage.hasLock = false) ∧
    t' = ⟨s', t.stages.set i next, t.written ++ (stage.puts? next).toList⟩ := by
  unfold move at h
  split at h
  · cases h
  · cases h
  · next stage hstage hi =>
    split at h
    · cases h
    · next hfree =>
      cases h
      refine ⟨stage, _, _, hi, JobStage.moved_proceed hstage, fun hwaiting => ?_, rfl⟩
      rw [hwaiting, Bool.true_and] at hfree
      exact Bool.eq_false_of_not_eq_true hfree

theorem sound_begin {s : Service} (hempty : ∀ name, s.files.lookup (s.store.jobs ++ [name]) = none)
    (requests : List JobRequest) : Sound requests (begin_ s requests) where
  length := List.length_map _
  knows := by
    intro i request stage hi hstage
    rw [begin_, List.getElem?_map, hi] at hstage
    cases hstage
    rfl
  lock := by
    intro i j stage other hstage hother hlock
    rw [begin_, List.getElem?_map] at hstage
    obtain ⟨request, -, rfl⟩ := Option.map_eq_some_iff.1 hstage
    cases hlock
  kept := fun name _ => Or.inl (hempty name)
  seen := by
    intro stage hstage job hjob
    obtain ⟨request, -, rfl⟩ := List.mem_map.1 hstage
    cases hjob
  whole := fun job hjob => absurd hjob List.not_mem_nil

/-- Replies stay. -/
theorem replyAt?_set {stages : List JobStage} {stage next : JobStage} (hi : stages[i]? = some stage)
    (h : ∀ reply, stage.reply? = some reply → next.reply? = some reply) {j : Nat} {reply : JobReply}
    (hreply : replyAt? stages j = some reply) : replyAt? (stages.set i next) j = some reply := by
  by_cases hij : i = j
  · subst hij
    rw [replyAt?, hi] at hreply
    rw [replyAt?, List.getElem?_set_self (List.getElem?_eq_some_iff.1 hi).1]
    exact h reply hreply
  · rw [replyAt?, List.getElem?_set_ne hij]
    exact hreply

section Move

variable {stage next : JobStage} {request : JobRequest} {s' : Service}

/-- The files that a request knows of are changed by no other. -/
theorem Sound.knows_set (h : Sound requests t) (hi : t.stages[i]? = some stage)
    (hrequest : requests[i]? = some request) (hmoved : JobStage.Moved (runs i) t.service stage next s')
    {j : Nat} {request' : JobRequest} {other : JobStage} (hj : requests[j]? = some request')
    (hother : (t.stages.set i next)[j]? = some other) : other.Knows request' s' := by
  by_cases hij : i = j
  · subst hij
    rw [List.getElem?_set_self (List.getElem?_eq_some_iff.1 hi).1] at hother
    cases hother
    cases hrequest.symm.trans hj
    exact hmoved.knows (h.knows hrequest hi)
  · rw [List.getElem?_set_ne hij] at hother
    have hknows := h.knows hj hother
    cases hlock : stage.hasLock with
    | false => exact hknows.sameDirectory (hmoved.sameDirectory hlock)
    | true =>
      refine hknows.of_hasLock_eq_false (Bool.eq_false_iff.2 fun hlock' => hij ?_)
      exact h.lock hi hother hlock hlock'

theorem Sound.not_hasLock (h : Sound requests t) (hi : t.stages[i]? = some stage)
    (hmoved : JobStage.Moved (runs i) t.service stage next s')
    (hwaiting : stage.isWaiting = true → t.stages.any JobStage.hasLock = false) (hnext : next.hasLock = true)
    {j : Nat} {other : JobStage} (hij : i ≠ j) (hother : t.stages[j]? = some other) :
    other.hasLock ≠ true := by
  intro hlock
  rcases hmoved.hasLock hnext with hstage | hwait
  · exact hij (h.lock hi hother hstage hlock)
  · exact List.any_eq_false.1 (hwaiting hwait) other (List.mem_of_getElem? hother) hlock

/-- The lock is given to one request at a time. -/
theorem Sound.lock_set (h : Sound requests t) (hi : t.stages[i]? = some stage)
    (hmoved : JobStage.Moved (runs i) t.service stage next s')
    (hwaiting : stage.isWaiting = true → t.stages.any JobStage.hasLock = false)
    {j k : Nat} {a b : JobStage} (ha : (t.stages.set i next)[j]? = some a)
    (hb : (t.stages.set i next)[k]? = some b) (hlock : a.hasLock = true) (hlock' : b.hasLock = true) :
    j = k := by
  have hself := List.getElem?_set_self (a := next) (List.getElem?_eq_some_iff.1 hi).1
  by_cases hj : i = j
  · by_cases hk : i = k
    · exact hj.symm.trans hk
    · subst hj
      cases hself.symm.trans ha
      rw [List.getElem?_set_ne hk] at hb
      exact absurd hlock' (h.not_hasLock hi hmoved hwaiting hlock hk hb)
  · rw [List.getElem?_set_ne hj] at ha
    by_cases hk : i = k
    · subst hk
      cases hself.symm.trans hb
      exact absurd hlock (h.not_hasLock hi hmoved hwaiting hlock' hj ha)
    · rw [List.getElem?_set_ne hk] at hb
      exact h.lock ha hb hlock hlock'

/-- A job that is put in place is whole, and its file is that of the edit. -/
theorem Sound.whole_put {e : Edit} {job : Job} (h : Sound requests t)
    (hfits : ∀ request ∈ requests, request.Fits) (hi : t.stages[i]? = some (.written e job))
    (hrequest : requests[i]? = some request) (hread : Service.ReadBack t.written) :
    job.Whole requests (t.stages.set i (.placed e)) ∧ job.id = e.id := by
  obtain ⟨hof, hdrafted, -⟩ := h.knows hrequest hi
  have hnone : ∀ reply, (JobStage.written e job).reply? = some reply →
      (JobStage.placed e).reply? = some reply := by
    intro reply hreply
    cases hreply
  refine whole_of_edit hrequest ?_ hof hdrafted (hfits _ (List.mem_of_getElem? hrequest)) h.kept hread
    fun old hold => (h.whole old hold).mono fun j reply => replyAt?_set hi hnone
  rw [replyAt?, List.getElem?_set_self (List.getElem?_eq_some_iff.1 hi).1]
  rfl

theorem Sound.whole_set (h : Sound requests t) (hfits : ∀ request ∈ requests, request.Fits)
    (hi : t.stages[i]? = some stage) (hrequest : requests[i]? = some request)
    (hmoved : JobStage.Moved (runs i) t.service stage next s') (hread : Service.ReadBack t.written) :
    ∀ job ∈ t.written ++ (stage.puts? next).toList, job.Whole requests (t.stages.set i next) := by
  intro job hjob
  rcases List.mem_append.1 hjob with hold | hnew
  · exact (h.whole job hold).mono fun j reply => replyAt?_set hi fun _ => hmoved.reply?
  · obtain ⟨e, rfl, rfl⟩ := hmoved.of_puts? (Option.mem_toList.1 hnew)
    exact (h.whole_put hfits hi hrequest hread).1

/-- The files of jobs hold what was put in place, also after a move. -/
theorem Sound.kept_set (h : Sound requests t) (hfits : ∀ request ∈ requests, request.Fits)
    (hi : t.stages[i]? = some stage) (hrequest : requests[i]? = some request)
    (hmoved : JobStage.Moved (runs i) t.service stage next s') (hread : Service.ReadBack t.written) :
    s'.Kept (t.written ++ (stage.puts? next).toList) := by
  intro name hname
  rw [hmoved.store]
  rcases hmoved.lookup_cases (h.knows hrequest hi) hname with hsame | ⟨e, job, rfl, rfl, hfile, hnew⟩
  · rw [hsame]
    refine (h.kept name hname).imp_right ?_
    rintro ⟨job, hjob, hplace⟩
    exact ⟨job, List.mem_append_left _ hjob, hplace⟩
  · refine Or.inr ⟨job, List.mem_append_right _ List.mem_cons_self, ?_, hnew⟩
    rw [(h.whole_put hfits hi hrequest hread).2]
    exact hfile

/-- A request that has not put its job in place yet has an id that no job has. -/
theorem Sound.id_ne_newId (h : Sound requests t) (hfresh : JobRequest.FreshIds requests)
    (hi : t.stages[i]? = some stage) (hrequest : requests[i]? = some request) (hreply : stage.reply? = none)
    {job : Job} (hjob : job ∈ t.written) : request.newId? ≠ some job.id := by
  intro hid
  obtain ⟨j, other, hj, hid', hplaced⟩ := (h.whole job hjob).made
  obtain rfl := hfresh.index_eq hrequest hj hid hid'
  rw [replyAt?, hi] at hplaced
  exact hplaced hreply

/-- A job goes on in every move, for what takes its place was drafted from it. -/
theorem Sound.jobsContinue (h : Sound requests t) (hfits : ∀ request ∈ requests, request.Fits)
    (hfresh : JobRequest.FreshIds requests) (hi : t.stages[i]? = some stage)
    (hrequest : requests[i]? = some request) (hmoved : JobStage.Moved (runs i) t.service stage next s')
    (hread : Service.ReadBack (t.written ++ (stage.puts? next).toList)) : t.service.JobsContinue s' := by
  have hread' : Service.ReadBack t.written := fun job hjob => hread job (List.mem_append_left _ hjob)
  intro id job hjob
  have hname := Store.suffix?_jobName id
  rcases hmoved.lookup_cases (h.knows hrequest hi) hname with hsame | ⟨e, new, rfl, rfl, hfile, hnew⟩
  · refine ⟨job, ?_, .refl job⟩
    rw [Service.HasJob, StoreM.recordAt?, hmoved.store, Store.jobFile, hsame]
    exact hjob
  · have hback := hread new (List.mem_append_right _ List.mem_cons_self)
    refine ⟨new, ?_, ?_⟩
    · rw [Service.HasJob, hmoved.store]
      exact StoreM.recordAt?_eq_some_iff.2 ⟨_, hnew, hback⟩
    · obtain ⟨hmem, hplace⟩ := h.kept.of_hasJob hread' hjob
      have hnewId := (h.whole_put hfits hi hrequest hread').2
      have hid : new.id = job.id := by
        refine (Store.jobFile_inj (s := t.service.store) (Job.fits_of_ofJson hback).1
          (hread'.id_lt hmem)).1 ?_
        rw [hnewId]
        exact hfile.trans hplace.symm
      have hne := h.id_ne_newId hfresh hi hrequest rfl hmem
      obtain ⟨hof, hdrafted, -⟩ := h.knows hrequest hi
      cases hof with
      | upload => exact absurd (congrArg some (hnewId.symm.trans hid)) hne
      | submit input hreport => exact absurd (congrArg some (hnewId.symm.trans hid)) hne
      | @process now id' calls report hreport =>
        obtain ⟨old, hold, rfl⟩ := hdrafted
        have hsame : old = job := by
          have hfile : t.service.store.jobFile id' = t.service.store.jobFile id := hfile
          rw [Service.HasJob, ← hfile] at hjob
          exact Option.some.inj (hold.symm.trans hjob)
        rw [hreport, hsame]
        exact job.continues_withRun _ _

end Move

/-- **Every move keeps the invariant**, and all jobs go on in it. -/
theorem Sound.move (h : Sound requests t) (hfits : ∀ request ∈ requests, request.Fits)
    (hfresh : JobRequest.FreshIds requests) (hmove : t.move runs i = some t')
    (hread : Service.ReadBack t'.written) :
    Sound requests t' ∧ t.service.JobsContinue t'.service := by
  obtain ⟨stage, next, s', hi, hmoved, hwaiting, rfl⟩ := move_eq_some hmove
  have hlt : i < requests.length := h.length ▸ (List.getElem?_eq_some_iff.1 hi).1
  have hrequest : requests[i]? = some requests[i] := List.getElem?_eq_getElem hlt
  have hread' : Service.ReadBack t.written := fun job hjob => hread job (List.mem_append_left _ hjob)
  refine ⟨⟨?_, h.knows_set hi hrequest hmoved, h.lock_set hi hmoved hwaiting,
    h.kept_set hfits hi hrequest hmoved hread', ?_,
    h.whole_set hfits hi hrequest hmoved hread'⟩,
    h.jobsContinue hfits hfresh hi hrequest hmoved hread⟩
  · rw [List.length_set]
    exact h.length
  · intro other hother job hjob
    rcases List.mem_or_eq_of_mem_set hother with hold | rfl
    · exact List.mem_append_left _ (h.seen other hold job hjob)
    · exact hmoved.seen (h.knows hrequest hi) h.kept hread' (h.seen stage (List.mem_of_getElem? hi)) job hjob

theorem written_subset_of_move (h : t.move runs i = some t') : t.written ⊆ t'.written := by
  obtain ⟨stage, next, s', -, -, -, rfl⟩ := move_eq_some h
  exact List.subset_append_left _ _

theorem written_subset {turns : List Nat} (h : t.after runs turns = some t') : t.written ⊆ t'.written :=
  foldlM_keeps (fun hsubset hmove => List.Subset.trans hsubset (written_subset_of_move hmove))
    (List.Subset.refl _) h

/-- Every run keeps the invariant, and all jobs go on in it. -/
theorem Sound.after {turns : List Nat} (h : Sound requests t) (hfits : ∀ request ∈ requests, request.Fits)
    (hfresh : JobRequest.FreshIds requests) (hafter : t.after runs turns = some t')
    (hread : Service.ReadBack t'.written) :
    Sound requests t' ∧ t.service.JobsContinue t'.service := by
  induction turns generalizing t with
  | nil =>
    cases hafter
    exact ⟨h, .refl _⟩
  | cons i turns ih =>
    obtain ⟨t₁, hmove, hrest⟩ := Option.bind_eq_some_iff.1 hafter
    have hread₁ : Service.ReadBack t₁.written := fun job hjob => hread job (written_subset hrest hjob)
    obtain ⟨h₁, hcontinue⟩ := h.move hfits hfresh hmove hread₁
    obtain ⟨h', hcontinue'⟩ := ih h₁ hrest
    exact ⟨h', hcontinue.trans hcontinue'⟩

/-- **The life of a job.**  Requests about jobs begin with a store that has no jobs, are given ids of their
own for new ones, and move in any order; what was written of jobs is read back.  Then in all that they
come to, every file that is named like a record holds the whole job of its id, and all jobs that a request
has come to see are whole.  From then on a job keeps what it was made with, and if it is processed it stays
so. -/
theorem life_of_jobs {s : Service} {turns more : List Nat}
    (hempty : ∀ name, s.files.lookup (s.store.jobs ++ [name]) = none)
    (hfits : ∀ request ∈ requests, request.Fits) (hfresh : JobRequest.FreshIds requests)
    (h : (begin_ s requests).after runs turns = some t) (h' : t.after runs more = some t')
    (hread : Service.ReadBack t'.written) :
    (∀ name, FileTree.suffix? name = some "json" →
      t.service.files.lookup (t.service.store.jobs ++ [name]) = none ∨
        ∃ job, t.service.store.jobFile job.id = t.service.store.jobs ++ [name] ∧
          t.service.HasJob job.id job ∧ job.Whole requests t.stages) ∧
    (∀ stage ∈ t.stages, ∀ job ∈ stage.seen, job.Whole requests t.stages) ∧
    t.service.JobsContinue t'.service := by
  have hread' : Service.ReadBack t.written := fun job hjob => hread job (written_subset h' hjob)
  have hsound := ((sound_begin hempty requests).after hfits hfresh h hread').1
  refine ⟨fun name hname => (hsound.kept name hname).imp_right ?_,
    fun stage hstage job hjob => hsound.whole job (hsound.seen stage hstage job hjob),
    (hsound.after hfits hfresh h' hread).2⟩
  rintro ⟨job, hjob, hfile, htext⟩
  refine ⟨job, hfile, ?_, hsound.whole job hjob⟩
  rw [Service.HasJob, hfile]
  exact StoreM.recordAt?_eq_some_iff.2 ⟨_, htext, hread' job hjob⟩

/-- Data is uploaded, and then a call without plugins runs on it. -/
theorem life_of_jobs_called :
    let now : Instant := ⟨0, 0⟩
    let requests : List JobRequest := [.call (.upload now ⟨1⟩ .null), .call (.process now ⟨1⟩ [])]
    let runs : Nat → Runner := fun _ => .ofEngine default
    let job := Job.uploaded ⟨1⟩ now .null
    ∃ turns more t t', (begin_ (Service.fresh default) requests).after runs turns = some t ∧
      t.after runs more = some t' ∧ t.service.HasJob ⟨1⟩ job ∧ job.Whole requests t.stages ∧
      ∃ later, t'.service.HasJob ⟨1⟩ later ∧ later.status = .processed ∧ job.Continues later := by
  intro now requests runs job
  let ran := job.applyResults now [] (.ofResults [])
  have hplain : job.Plain := Service.plain_uploaded Instant.representable_epoch (by decide) .null
  have hplain' : ran.Plain :=
    ⟨hplain.id, hplain.input, hplain.results, hplain.createdAt, Instant.representable_epoch⟩
  have hback := (Job.ofJson_toJson hplain).1 ⟨by decide, fun _ _ h => absurd h List.not_mem_nil⟩
  have hback' := (Job.ofJson_toJson hplain').1 ⟨by decide, fun _ _ h => absurd h List.not_mem_nil⟩
  let s := Service.fresh default
  let second : JobStage := .ready (.call (.process now ⟨1⟩ []))
  let done : JobStage := .returned (.ok (.job job))
  obtain ⟨files, hsave, hupload⟩ := exists_after_upload runs [.ready (.call (.upload now ⟨1⟩ .null)), second]
    now ⟨1⟩ .null (i := 0) (s := s) Nat.zero_lt_two (Service.ready_fresh default) (fun _ => rfl) []
  have hfile := (Store.lookup_of_saveJob hsave (s.store.lock_ne_jobFile ⟨1⟩)).trans (if_pos rfl)
  have hready : s.store.Ready files :=
    (Service.ready_fresh default).textChange ((s.store.keeps_saveJob job).ok hsave)
  have hjob : Service.HasJob { s with files } ⟨1⟩ job := StoreM.recordAt?_eq_some_iff.2 ⟨_, hfile, hback⟩
  obtain ⟨engine, files', hfile', hprocess⟩ := exists_after_process runs [done, second] now [] (i := 1)
    (s := { s with files }) Nat.one_lt_two hready hjob (fun _ => rfl) [job]
  let t : JobTraffic := ⟨{ s with files }, [done, second], [job]⟩
  let t' : JobTraffic := ⟨{ s with engine, files := files' },
    [done, .returned (.ok (.report (.ofResults [])))], [job, ran]⟩
  have hafter : (begin_ s requests).after runs (List.replicate 7 0) = some t := hupload
  have hafter' : t.after runs (List.replicate 8 1) = some t' := hprocess
  have hread : Service.ReadBack t'.written :=
    List.forall_mem_cons.2 ⟨hback, List.forall_mem_singleton.2 hback'⟩
  have hlt : (⟨1⟩ : Uuid).value < 2 ^ 128 := by decide
  have hfits : ∀ request ∈ requests, request.Fits :=
    List.forall_mem_cons.2 ⟨trivial, List.forall_mem_singleton.2 hlt⟩
  obtain ⟨-, hseen, hcontinue⟩ := life_of_jobs (fun name => Service.lookup_fresh default Nat.one_lt_two)
    hfits (by decide) hafter hafter' hread
  obtain ⟨later, hlater, hcontinues⟩ := hcontinue ⟨1⟩ job hjob
  have hran : Service.HasJob t'.service ⟨1⟩ ran := StoreM.recordAt?_eq_some_iff.2 ⟨_, hfile', hback'⟩
  obtain rfl : later = ran := Option.some.inj (hlater.symm.trans hran)
  exact ⟨_, _, t, t', hafter, hafter', hjob, hseen done List.mem_cons_self job List.mem_cons_self, ran, hran,
    rfl, hcontinues⟩

end JobTraffic

end PluginChain
