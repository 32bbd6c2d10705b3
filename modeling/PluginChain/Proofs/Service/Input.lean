import PluginChain.Proofs.Service.Parts

/-!
# What a task works on

The first step of a task may refer to an earlier job, and then it is what is kept of that job that
decides on the input.  A reference `Resolves` to the input of the job or to what one of its steps gave;
or it is `Dangling`, because its id cannot be read, or there is no such job, or no success is found under
just this name.  Where all jobs can be read it is one or the other (`resolves_or_dangling`).

`WorksOn` is the input of a task.  What was given along with the task counts only if there is no
reference.  All this is read off the files of jobs and nothing else (`SameJobs.worksOn`).
-/

set_option autoImplicit false

namespace PluginChain

open Operation

/-- The id of the job that a reference is about, as it was given. -/
def InputRef.jobId? : InputRef → Option String
  | .output jobId _ | .job jobId => some jobId
  | .inline _ => none

namespace Service

variable {s s' : Service} {reference : InputRef} {task : Task} {given : Option Data} {d : Data}

/-! ## Looking for jobs -/

/-- A job can be read in the file of an id. -/
def HasJob (s : Service) (id : Uuid) (job : Job) : Prop :=
  StoreM.recordAt? Job.codec s.files (s.store.jobFile id) = some job

/-- All files of jobs can be read. -/
def JobsReadable (s : Service) : Prop :=
  ∀ id, s.files.lookup (s.store.jobFile id) = none ∨ ∃ job, s.HasJob id job

theorem looksOnly_jobInput (store : Store) (id : Uuid) : LooksOnly (store.jobInput id) :=
  (StoreM.looksOnly_readRecord _ _ _).bind fun _ => looksOnly_pure _

theorem onStore_getJob_eq_ok_iff {id : Uuid} {wrap : StoreError → ChainError} {job : Job} :
    onStore (fun store => store.getJob id) wrap s = .ok job s' ↔
      s' = s ∧ s.HasJob id job := by
  constructor
  · intro h
    obtain ⟨files, hread, rfl⟩ := onStore_eq_ok h
    obtain ⟨rfl, hjob⟩ := StoreM.readRecord_eq_ok hread
    exact ⟨rfl, hjob⟩
  · rintro ⟨rfl, hjob⟩
    exact onStore_of_ok (StoreM.readRecord_of_recordAt? hjob _) wrap

theorem onStore_jobInput_eq_ok_iff {id : Uuid} {wrap : StoreError → ChainError} {input : Data} :
    onStore (fun store => store.jobInput id) wrap s = .ok input s' ↔
      s' = s ∧ ∃ job, s.HasJob id job ∧
        job.input = input := by
  constructor
  · intro h
    obtain ⟨files, hinput, rfl⟩ := onStore_eq_ok h
    obtain ⟨job, files', hread, hpure⟩ := bind_eq_ok hinput
    obtain ⟨rfl, hjob⟩ := StoreM.readRecord_eq_ok hread
    cases hpure
    exact ⟨rfl, job, hjob, rfl⟩
  · rintro ⟨rfl, job, hjob, rfl⟩
    have hread : s'.store.getJob id s'.files = .ok job s'.files := StoreM.readRecord_of_recordAt? hjob _
    have hinput : s'.store.jobInput id s'.files = .ok job.input s'.files := by
      rw [Store.jobInput, bind_of_ok hread]
      rfl
    exact onStore_of_ok hinput wrap

theorem referencedId_eq_ok_iff {text : String} {id : Uuid} :
    referencedId text s = .ok id s' ↔ s' = s ∧ Uuid.parse (Text.trim text) = .ok id := by
  rw [referencedId]
  cases Uuid.parse (Text.trim text) with
  | ok id' =>
    constructor
    · intro h
      cases h
      exact ⟨rfl, rfl⟩
    · rintro ⟨rfl, h⟩
      cases h
      rfl
  | error e => exact ⟨nofun, fun h => nomatch h.2⟩

theorem referencedId_of_error {text : String} {why : UuidError}
    (h : Uuid.parse (Text.trim text) = .error why) :
    referencedId text s = .error (.structural (.badReference text)) s := by
  simp only [referencedId, h]
  rfl

theorem looksOnly_referencedId (given : String) : LooksOnly (referencedId given) := by
  rw [referencedId]
  split
  · exact looksOnly_pure _
  · exact looksOnly_throw _

/-! ## References -/

/-- What a reference stands for. -/
inductive Resolves (s : Service) : InputRef → Data → Prop
  | inline (value : Data) : Resolves s (.inline value) value
  | job {text : String} {id : Uuid} {job : Job} (hid : Uuid.parse (Text.trim text) = .ok id)
      (hjob : s.HasJob id job) : Resolves s (.job text) job.input
  | output {text step : String} {id : Uuid} {job : Job} {d : Data}
      (hid : Uuid.parse (Text.trim text) = .ok id) (hjob : s.HasJob id job)
      (hstep : Entries.get? step job.results = some (.ok d)) : Resolves s (.output text step) d

/-- Why a reference stands for nothing. -/
inductive Dangling (s : Service) : InputRef → StructuralError → Prop
  | badId {reference : InputRef} {text : String} {why : UuidError} (htext : reference.jobId? = some text)
      (hid : Uuid.parse (Text.trim text) = .error why) : Dangling s reference (.badReference text)
  | noJob {reference : InputRef} {text : String} {id : Uuid} (htext : reference.jobId? = some text)
      (hid : Uuid.parse (Text.trim text) = .ok id) (hjob : s.files.lookup (s.store.jobFile id) = none) :
      Dangling s reference (.noReferencedJob (Store.noJob id))
  | noOutput {text step : String} {id : Uuid} {job : Job} (hid : Uuid.parse (Text.trim text) = .ok id)
      (hjob : s.HasJob id job) (hstep : ∀ d, Entries.get? step job.results ≠ some (.ok d)) :
      Dangling s (.output text step) (.noOutput id step)

theorem value?_get?_eq_some_iff {step : String} {results : Results} :
    (Entries.get? step results).bind Outcome.value? = some d ↔
      Entries.get? step results = some (.ok d) := by
  rw [Option.bind_eq_some_iff]
  constructor
  · rintro ⟨o, ho, hd⟩
    cases o with
    | ok d' =>
      cases hd
      exact ho
    | failed f => cases hd
  · exact fun h => ⟨.ok d, h, rfl⟩

/-- A reference is resolved to what it stands for. -/
theorem resolveInput_eq_ok_iff :
    resolveInput reference s = .ok d s' ↔ s' = s ∧ Resolves s reference d := by
  cases reference with
  | inline value =>
    constructor
    · intro h
      cases h
      exact ⟨rfl, .inline _⟩
    · rintro ⟨rfl, hresolves⟩
      cases hresolves
      rfl
  | job text =>
    constructor
    · intro h
      obtain ⟨id, s₁, hfirst, hinput⟩ := bind_eq_ok h
      obtain ⟨rfl, hid⟩ := referencedId_eq_ok_iff.1 hfirst
      obtain ⟨rfl, job, hjob, rfl⟩ := onStore_jobInput_eq_ok_iff.1 hinput
      exact ⟨rfl, .job hid hjob⟩
    · rintro ⟨rfl, hresolves⟩
      cases hresolves with
      | job hid hjob =>
        rw [resolveInput, bind_of_ok (referencedId_eq_ok_iff.2 ⟨rfl, hid⟩)]
        exact onStore_jobInput_eq_ok_iff.2 ⟨rfl, _, hjob, rfl⟩
  | output text step =>
    constructor
    · intro h
      obtain ⟨id, s₁, hfirst, hrest⟩ := bind_eq_ok h
      obtain ⟨rfl, hid⟩ := referencedId_eq_ok_iff.1 hfirst
      obtain ⟨job, s₂, hget, hvalue⟩ := bind_eq_ok hrest
      obtain ⟨rfl, hjob⟩ := onStore_getJob_eq_ok_iff.1 hget
      cases hstep : (Entries.get? step job.results).bind Outcome.value? with
      | some value =>
        simp only [hstep] at hvalue
        cases hvalue
        exact ⟨rfl, .output hid hjob (value?_get?_eq_some_iff.1 hstep)⟩
      | none =>
        simp only [hstep] at hvalue
        cases hvalue
    · rintro ⟨rfl, hresolves⟩
      cases hresolves with
      | output hid hjob hstep =>
        rw [resolveInput, bind_of_ok (referencedId_eq_ok_iff.2 ⟨rfl, hid⟩),
          bind_of_ok (onStore_getJob_eq_ok_iff.2 ⟨rfl, hjob⟩)]
        simp only [value?_get?_eq_some_iff.2 hstep]
        rfl

theorem looksOnly_resolveInput (reference : InputRef) : LooksOnly (resolveInput reference) := by
  cases reference with
  | inline value => exact looksOnly_pure _
  | job jobId =>
    exact (looksOnly_referencedId jobId).bind fun id =>
      looksOnly_onStore (fun store => looksOnly_jobInput store id) _
  | output jobId step =>
    refine (looksOnly_referencedId jobId).bind fun id => ?_
    refine (looksOnly_onStore (fun store => StoreM.looksOnly_readRecord _ _ _) _).bind fun job => ?_
    split
    · exact looksOnly_pure _
    · exact looksOnly_throw _

/-- A reference that stands for nothing is an error, which tells why. -/
theorem resolveInput_of_dangling (h : s.store.Ready s.files) {why : StructuralError}
    (hdangling : Dangling s reference why) :
    resolveInput reference s = .error (.structural why) s := by
  cases hdangling with
  | badId htext hid =>
    cases reference with
    | inline value => cases htext
    | job text =>
      cases htext
      exact bind_of_error (referencedId_of_error hid) _
    | output text step =>
      cases htext
      exact bind_of_error (referencedId_of_error hid) _
  | @noJob _ text id htext hid hjob =>
    have hmissing : s.store.getJob id s.files = .error (Store.noJob id) s.files := h.getJob_of_missing hjob
    cases reference with
    | inline value => cases htext
    | job text =>
      cases htext
      have hinput : s.store.jobInput id s.files = .error (Store.noJob id) s.files :=
        bind_of_error hmissing _
      rw [resolveInput, bind_of_ok (referencedId_eq_ok_iff.2 ⟨rfl, hid⟩)]
      exact onStore_of_error (f := fun store => store.jobInput id) hinput _
    | output text step =>
      cases htext
      have hget := onStore_of_error (f := fun store => store.getJob id) hmissing
        (jobError .noReferencedJob)
      rw [resolveInput, bind_of_ok (referencedId_eq_ok_iff.2 ⟨rfl, hid⟩), bind_of_error hget]
      rfl
  | @noOutput text step id job hid hjob hstep =>
    have hnone : (Entries.get? step job.results).bind Outcome.value? = none :=
      Option.eq_none_iff_forall_ne_some.2 fun d hd => hstep d (value?_get?_eq_some_iff.1 hd)
    rw [resolveInput, bind_of_ok (referencedId_eq_ok_iff.2 ⟨rfl, hid⟩),
      bind_of_ok (onStore_getJob_eq_ok_iff.2 ⟨rfl, hjob⟩)]
    simp only [hnone]
    rfl

/-- **A reference stands for something, or there is a reason why not.** -/
theorem resolves_or_dangling (h : s.JobsReadable) (reference : InputRef) :
    (∃ d, Resolves s reference d) ∨ ∃ why, Dangling s reference why := by
  have hfound : ∀ text, reference.jobId? = some text → (∃ why, Dangling s reference why) ∨
      ∃ id job, Uuid.parse (Text.trim text) = .ok id ∧ s.HasJob id job := by
    intro text htext
    cases hid : Uuid.parse (Text.trim text) with
    | error why => exact Or.inl ⟨_, .badId htext hid⟩
    | ok id =>
      rcases h id with hnone | ⟨job, hjob⟩
      · exact Or.inl ⟨_, .noJob htext hid hnone⟩
      · exact Or.inr ⟨id, job, rfl, hjob⟩
  cases reference with
  | inline value => exact Or.inl ⟨value, .inline value⟩
  | job text =>
    rcases hfound text rfl with hdangling | ⟨id, job, hid, hjob⟩
    · exact Or.inr hdangling
    · exact Or.inl ⟨_, .job hid hjob⟩
  | output text step =>
    rcases hfound text rfl with hdangling | ⟨id, job, hid, hjob⟩
    · exact Or.inr hdangling
    · by_cases hstep : ∃ d, Entries.get? step job.results = some (.ok d)
      · obtain ⟨d, hd⟩ := hstep
        exact Or.inl ⟨d, .output hid hjob hd⟩
      · exact Or.inr ⟨_, .noOutput hid hjob fun d hd => hstep ⟨d, hd⟩⟩

/-! ## Inputs -/

/-- The input of a task that is submitted along with some data. -/
inductive WorksOn (s : Service) (task : Task) (given : Option Data) : Data → Prop
  | referenced {reference : InputRef} {d : Data} (hreference : task.initialInput? = some reference)
      (hd : Resolves s reference d) : WorksOn s task given d
  | given (hnone : task.initialInput? = none) : WorksOn s task given (given.getD .null)

theorem inputOf_eq_ok_iff : inputOf task given s = .ok d s' ↔ s' = s ∧ WorksOn s task given d := by
  rw [inputOf]
  cases hreference : task.initialInput? with
  | none =>
    constructor
    · intro h
      cases h
      exact ⟨rfl, .given hreference⟩
    · rintro ⟨rfl, hworks⟩
      cases hworks with
      | referenced h _ => cases hreference.symm.trans h
      | given _ => rfl
  | some reference =>
    refine resolveInput_eq_ok_iff.trans (and_congr_right fun _ => ?_)
    constructor
    · exact fun h => .referenced hreference h
    · intro hworks
      cases hworks with
      | referenced h hd =>
        cases hreference.symm.trans h
        exact hd
      | given h => cases hreference.symm.trans h

theorem looksOnly_inputOf (task : Task) (given : Option Data) : LooksOnly (inputOf task given) := by
  rw [inputOf]
  split
  · exact looksOnly_resolveInput _
  · exact looksOnly_pure _

theorem inputOf_of_dangling (h : s.store.Ready s.files) (hreference : task.initialInput? = some reference)
    {why : StructuralError} (hdangling : Dangling s reference why) :
    inputOf task given s = .error (.structural why) s := by
  simp only [inputOf, hreference]
  exact resolveInput_of_dangling h hdangling

/-- What was given along with a task that has a reference does not matter. -/
theorem inputOf_of_reference (hreference : task.initialInput? ≠ none) (given given' : Option Data) :
    inputOf task given = inputOf task given' := by
  obtain ⟨reference, h⟩ := Option.ne_none_iff_exists'.1 hreference
  simp only [inputOf, h]

/-! ## Other files do not matter -/

/-- The same jobs are kept in the same store. -/
structure SameJobs (s s' : Service) : Prop where
  store : s'.store = s.store
  jobs : ∀ id, s'.files.lookup (s.store.jobFile id) = s.files.lookup (s.store.jobFile id)

theorem SameJobs.symm (h : SameJobs s s') : SameJobs s' s :=
  ⟨h.store.symm, fun id => by rw [h.store]; exact (h.jobs id).symm⟩

theorem SameJobs.hasJob (h : SameJobs s s') {id : Uuid} {job : Job} : s'.HasJob id job ↔ s.HasJob id job := by
  rw [HasJob, HasJob, StoreM.recordAt?, h.store, h.jobs]
  rfl

theorem SameJobs.resolves (h : SameJobs s s') (hresolves : Resolves s reference d) :
    Resolves s' reference d := by
  cases hresolves with
  | inline => exact .inline _
  | job hid hjob => exact .job hid (h.hasJob.2 hjob)
  | output hid hjob hstep => exact .output hid (h.hasJob.2 hjob) hstep

theorem SameJobs.dangling (h : SameJobs s s') {why : StructuralError}
    (hdangling : Dangling s reference why) : Dangling s' reference why := by
  cases hdangling with
  | badId htext hid => exact .badId htext hid
  | noJob htext hid hjob => exact .noJob htext hid (by rw [h.store, h.jobs]; exact hjob)
  | noOutput hid hjob hstep => exact .noOutput hid (h.hasJob.2 hjob) hstep

/-- The input of a task depends on the jobs only. -/
theorem SameJobs.worksOn (h : SameJobs s s') : WorksOn s' task given d ↔ WorksOn s task given d := by
  constructor
  · intro hworks
    cases hworks with
    | referenced hreference hd => exact .referenced hreference (h.symm.resolves hd)
    | given hnone => exact .given hnone
  · intro hworks
    cases hworks with
    | referenced hreference hd => exact .referenced hreference (h.resolves hd)
    | given hnone => exact .given hnone

end Service

end PluginChain
