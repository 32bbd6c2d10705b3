import PluginChain.Proofs.Job
import PluginChain.Proofs.Json.Tree
import PluginChain.Task
import PluginChain.Workflow

/-!
# The kept types are decoded from their trees

For each type that is kept in files, `accept_encode` says which normal form the tree of a value has for
the shape of the type, and `ofData?_encode` that the value is decoded from it.  The trees of steps, tasks
and jobs leave out what is not there; their normal forms name everything (`Step.completed`,
`Task.completed`, `Job.completed`).

Data is kept as it is when its tables are in order (`Data.Settled`).
-/

set_option autoImplicit false

namespace PluginChain

/-! ## Data that is in order -/

/-- The tables in the data have their names in order, each of them once. -/
def Data.Settled (d : Data) : Prop := d.settle = d

theorem Data.settleEntries_eq_map (es : List (String × Data)) :
    settle.settleEntries es = es.map fun e => (e.1, e.2.settle) := by
  induction es with
  | nil => rfl
  | cons e es ih =>
    obtain ⟨n, x⟩ := e
    rw [settle.settleEntries, ih]
    rfl

namespace Shape

theorem accept_any {d : Data} (h : d.Settled) : accept .any d = some d := by
  rw [accept, h]

/-- A table of data of any kind is settled like data. -/
theorem accept_table_any {es : List (String × Data)} (h : (Data.table es).Settled) :
    accept (.table .any) (.table es) = some (.table es) := by
  have hitems : (es.mapM fun e => (accept .any e.2).map (e.1, ·)) =
      some (es.map fun e => (e.1, e.2.settle)) := mapM_eq_map fun e _ => rfl
  rw [accept, hitems, ← Data.settleEntries_eq_map]
  exact congrArg some h

/-- A record whose fields each come once and have their shapes. -/
theorem accept_record (name : String) {fields : List (String × Shape × Option Data)}
    {es es' : List (String × Data)} (g : String × Data → Data) (hnodup : (Entries.names es).Nodup)
    (h : ∀ e ∈ es, ∃ field, Entries.get? e.1 fields = some field ∧ field.1.accept e.2 = some (g e))
    (hcomplete : complete (es.map fun e => (e.1, g e)) fields = .ok es') :
    accept (.record name fields) (.table es) = some (.table es') := by
  have htaken : acceptFields (fieldTakers fields) es = some (es.map fun e => (e.1, g e)) := by
    rw [acceptFields, if_pos hnodup]
    refine mapM_eq_map fun e he => ?_
    obtain ⟨field, hfield, haccept⟩ := h e he
    rw [get?_fieldTakers, hfield, Option.map_some, Option.bind_some]
    exact congrArg (Option.map (e.1, ·)) haccept
  rw [accept, htaken, Option.bind_some, hcomplete]
  rfl

end Shape

namespace Codec

variable {α : Type}

theorem ofData?_of_accept {c : Codec α} {a : α} {d : Data} (h : c.shape.accept (c.encode a) = some d)
    (hdecode : c.decode? d = some a) : c.ofData? (c.encode a) = some a := by
  rw [ofData?, h, Option.bind_some, hdecode]

end Codec

/-! ## Outcomes and reports -/

namespace StepFailure

theorem accept_encode (f : StepFailure) : codec.shape.accept (codec.encode f) = some (codec.encode f) := by
  cases f with
  | timeout millis =>
    have hlt : millis.toNat < 2 ^ 64 := millis.toNat_lt
    have hfits : (0 : Int) ≤ (millis.toNat : Int) ∧ (millis.toNat : Int) ≤ maxNatural := by
      rw [maxNatural]
      omega
    simp [codec, Shape.accept, Entries.names, Entries.get?, Shape.fieldsOf, Json.wholeEntries,
      Shape.knownField, Leaf.accept, hfits, pure, Except.pure, bind, Except.bind, Except.toOption]
  | _ => rfl

theorem ofData?_encode (f : StepFailure) : codec.ofData? (codec.encode f) = some f :=
  Codec.ofData?_of_accept f.accept_encode f.decode?_encode

end StepFailure

namespace Outcome

/-- The data in an outcome is in order. -/
def Settled (o : Outcome) : Prop := ∀ d, o = .ok d → d.Settled

theorem accept_encode {o : Outcome} (h : o.Settled) :
    codec.shape.accept (codec.encode o) = some (codec.encode o) := by
  cases o with
  | ok d =>
    have hd := Shape.accept_any (h d rfl)
    change ((Shape.accept .any d).map fun d => Data.table [("ok", d)]) = _
    rw [hd]
    rfl
  | failed f =>
    change ((StepFailure.codec.shape.accept (StepFailure.codec.encode f)).map fun d =>
      Data.table [("err", d)]) = _
    rw [f.accept_encode]
    rfl

theorem ofData?_encode {o : Outcome} (h : o.Settled) : codec.ofData? (codec.encode o) = some o :=
  Codec.ofData?_of_accept (accept_encode h) o.decode?_encode

end Outcome

theorem RunStatus.accept_encode (s : RunStatus) :
    codec.shape.accept (codec.encode s) = some (codec.encode s) := by
  cases s <;> rfl

theorem RunStatus.ofData?_encode (s : RunStatus) : codec.ofData? (codec.encode s) = some s :=
  Codec.ofData?_of_accept s.accept_encode (ofWord?_word s)

theorem JobStatus.accept_encode (s : JobStatus) :
    codec.shape.accept (codec.encode s) = some (codec.encode s) := by
  cases s <;> rfl

namespace Results

/-- The outcomes are in the order of their names, and their data is. -/
structure Settled (results : Results) : Prop where
  sorted : Entries.Sorted results
  outcomes : ∀ e ∈ results, e.2.Settled

theorem accept_encode {results : Results} (h : Settled results) :
    codec.shape.accept (codec.encode results) = some (codec.encode results) := by
  have hsorted : Entries.Sorted (results.map fun e => (e.1, Outcome.codec.encode e.2)) := by
    rw [Entries.Sorted, List.pairwise_map]
    exact h.sorted
  have hitems : ((results.map fun e => (e.1, Outcome.codec.encode e.2)).mapM fun e =>
      (Outcome.codec.shape.accept e.2).map (e.1, ·)) =
      some ((results.map fun e => (e.1, Outcome.codec.encode e.2)).map fun e => e) := by
    refine mapM_eq_map fun e he => ?_
    obtain ⟨⟨name, o⟩, ho, rfl⟩ := List.mem_map.1 he
    rw [Outcome.accept_encode (h.outcomes _ ho)]
    rfl
  change Option.map (fun es => Data.table (Entries.ofList es)) (List.mapM _ _) = _
  rw [hitems, List.map_id', Option.map_some, Entries.ofList_eq_self hsorted]
  rfl

end Results

namespace Report

/-- The outcomes of a report are in order. -/
def Settled (r : Report) : Prop := Results.Settled r.results

theorem ofData?_encode {r : Report} (h : r.Settled) : codec.ofData? (codec.encode r) = some r := by
  have haccept : codec.shape.accept (codec.encode r) = some (codec.encode r) := by
    refine Shape.accept_record "WorkflowReport" Prod.snd (by simp [Entries.names]) ?_ rfl
    simp only [List.forall_mem_cons]
    exact ⟨⟨_, rfl, Results.accept_encode h⟩, ⟨_, rfl, r.status.accept_encode⟩, List.forall_mem_nil _⟩
  refine Codec.ofData?_of_accept haccept ?_
  have hresults := Results.decode?_encode r.results
  have hstatus : RunStatus.codec.decode? (RunStatus.codec.encode r.status) = some r.status :=
    RunStatus.ofWord?_word r.status
  simp [codec, toData, Data.field?, Entries.get?, hresults, hstatus]

end Report

/-! ## Records of the store -/

theorem Shape.accept_uuid {id : Uuid} (h : id.value < 2 ^ 128) :
    accept .uuid (.text id.toText) = some (.text id.toText) := by
  rw [accept, Uuid.parse_toText h]
  rfl

theorem Shape.accept_instant {i : Instant} (h : i.Representable) :
    accept .instant (.text i.toText) = some (.text i.toText) := by
  rw [accept, Instant.parse_toText h]
  rfl

namespace PluginRecord

/-- The instants of a record are those of a calendar. -/
structure Settled (r : PluginRecord) : Prop where
  createdAt : r.createdAt.Representable
  updatedAt : r.updatedAt.Representable

theorem ofData?_encode {r : PluginRecord} (h : r.Settled) : codec.ofData? (codec.encode r) = some r := by
  have haccept : codec.shape.accept (codec.encode r) = some (codec.encode r) := by
    refine Shape.accept_record "PluginRecord" Prod.snd (by simp [Entries.names]) ?_ rfl
    simp only [List.forall_mem_cons]
    exact ⟨⟨_, rfl, rfl⟩, ⟨_, rfl, rfl⟩, ⟨_, rfl, rfl⟩, ⟨_, rfl, Shape.accept_instant h.createdAt⟩,
      ⟨_, rfl, Shape.accept_instant h.updatedAt⟩, List.forall_mem_nil _⟩
  refine Codec.ofData?_of_accept haccept ?_
  simp [codec, Data.field?, Entries.get?, Data.text?, Job.instantOf?, Instant.parse_toText h.createdAt,
    Instant.parse_toText h.updatedAt, Except.toOption]

end PluginRecord

namespace Job

/-- A job as the program keeps it: an id of 128 bits, data in order, and instants of a calendar. -/
structure Settled (job : Job) : Prop where
  id : job.id.value < 2 ^ 128
  input : job.input.Settled
  results : Results.Settled job.results
  createdAt : job.createdAt.Representable
  updatedAt : job.updatedAt.Representable

theorem accept_entries {job : Job} (h : job.Settled) :
    ∀ e ∈ job.entries, ∃ f, Entries.get? e.1 fields = some f ∧ f.1.accept e.2 = some e.2 := by
  simp only [entries, List.forall_mem_append, List.forall_mem_cons, Data.forall_mem_optional]
  exact ⟨⟨⟨⟨⟨⟨_, rfl, Shape.accept_uuid h.id⟩, ⟨_, rfl, rfl⟩, ⟨_, rfl, rfl⟩,
    ⟨_, rfl, Shape.accept_any h.input⟩, ⟨_, rfl, job.status.accept_encode⟩, List.forall_mem_nil _⟩,
    fun s _ => ⟨_, rfl, s.accept_encode⟩⟩, ⟨_, rfl, Results.accept_encode h.results⟩, List.forall_mem_nil _⟩,
    fun s _ => ⟨_, rfl, rfl⟩⟩, ⟨_, rfl, Shape.accept_instant h.createdAt⟩,
    ⟨_, rfl, Shape.accept_instant h.updatedAt⟩, List.forall_mem_nil _⟩

theorem ofData?_encode {job : Job} (h : job.Settled) : codec.ofData? (codec.encode job) = some job := by
  refine Codec.ofData?_of_accept (d := .table job.completed) ?_
    (decode?_completed ⟨h.id, h.createdAt, h.updatedAt⟩)
  refine Shape.accept_record "Job" Prod.snd job.nodup_names_entries (accept_entries h) ?_
  rw [List.map_id']
  exact job.complete_entries

end Job

/-! ## Tasks -/

namespace InputRef

/-- The data that a reference gives itself is in order. -/
def Settled (r : InputRef) : Prop := ∀ d, r = .inline d → d.Settled

/-- None of the forms of a reference is taken for another. -/
theorem accept_encode {r : InputRef} (h : r.Settled) :
    codec.shape.accept (codec.encode r) = some (codec.encode r) := by
  cases r with
  | output jobId step => rfl
  | job jobId => rfl
  | inline d =>
    have hd : d.settle = d := h d rfl
    simp [codec, Shape.accept, Shape.formsOf, Shape.formOf?, Shape.fieldsOf, Json.wholeEntries,
      Shape.knownField, Entries.get?, Leaf.accept, hd, pure, Except.pure, bind, Except.bind,
      Except.toOption]

theorem decode?_encode (r : InputRef) : codec.decode? (codec.encode r) = some r := by
  cases r <;> rfl

theorem encode_ne_null (r : InputRef) : codec.encode r ≠ .null := by
  cases r <;> exact nofun

end InputRef

namespace Step

/-- The data in a step is in order. -/
structure Settled (step : Step) : Prop where
  params : (Data.table step.params).Settled
  input : ∀ r, step.input = some r → r.Settled

/-- The entries of a step when it was read: what there is not is nothing. -/
def completed (step : Step) : List (String × Data) := [
  ("name", (step.name.map Data.text).getD .null),
  ("plugin", (step.plugin.map Data.text).getD .null),
  ("params", .table step.params),
  ("input", (step.input.map InputRef.codec.encode).getD .null)]

theorem accept_encode {step : Step} (h : step.Settled) :
    codec.shape.accept (codec.encode step) = some (.table step.completed) := by
  refine Shape.accept_record "Step" Prod.snd ?_ ?_ ?_
  · obtain ⟨name, plugin, params, input⟩ := step
    cases name <;> cases plugin <;> cases input <;> simp [Data.optional, Entries.names]
  · simp only [List.forall_mem_append, List.forall_mem_cons, Data.forall_mem_optional]
    refine ⟨⟨⟨fun s _ => ⟨_, rfl, rfl⟩, fun s _ => ⟨_, rfl, rfl⟩⟩,
      ⟨_, rfl, Shape.accept_table_any h.params⟩, List.forall_mem_nil _⟩, fun r hr => ⟨_, rfl, ?_⟩⟩
    exact (Shape.accept_maybe r.encode_ne_null _).trans (InputRef.accept_encode (h.input r hr))
  · obtain ⟨name, plugin, params, input⟩ := step
    cases name <;> cases plugin <;> cases input <;>
      simp [Data.optional, completed, Shape.complete, Entries.get?]

theorem decode?_completed (step : Step) : codec.decode? (.table step.completed) = some step := by
  have hname : Data.optionalField? "name" Data.text? step.completed = some step.name :=
    Data.optionalField?_getD "name" rfl (fun _ => rfl) fun _ => nofun
  have hplugin : Data.optionalField? "plugin" Data.text? step.completed = some step.plugin :=
    Data.optionalField?_getD "plugin" rfl (fun _ => rfl) fun _ => nofun
  have hinput : Data.optionalField? "input" InputRef.codec.decode? step.completed = some step.input :=
    Data.optionalField?_getD "input" rfl InputRef.decode?_encode InputRef.encode_ne_null
  simp only [codec, hname, hplugin, hinput]
  rfl

end Step

namespace Task

/-- The data in the steps of a task is in order. -/
def Settled (task : Task) : Prop := ∀ step ∈ task.steps, step.Settled

/-- The entries of a task when it was read. -/
def completed (task : Task) : List (String × Data) := [
  ("name", .text task.name),
  ("description", .text task.description),
  ("steps", .list (task.steps.map fun step => .table step.completed)),
  ("parallel", .flag task.parallel)]

theorem accept_encode {task : Task} (h : task.Settled) :
    codec.shape.accept (codec.encode task) = some (.table task.completed) := by
  have hsteps : (task.steps.map Step.codec.encode).mapM Step.codec.shape.accept =
      some (task.steps.map fun step => .table step.completed) := by
    rw [List.mapM_map]
    exact mapM_eq_map fun step hstep => Step.accept_encode (h step hstep)
  let normal (e : String × Data) : Data :=
    if e.1 = "steps" then .list (task.steps.map fun step => .table step.completed) else e.2
  refine Shape.accept_record "TaskDefinition" normal (by simp [Entries.names]) ?_ rfl
  simp only [List.forall_mem_cons]
  refine ⟨⟨_, rfl, rfl⟩, ⟨_, rfl, rfl⟩, ⟨_, rfl, ?_⟩, ⟨_, rfl, rfl⟩, List.forall_mem_nil _⟩
  exact congrArg (Option.map Data.list) hsteps

theorem ofData?_encode {task : Task} (h : task.Settled) :
    codec.ofData? (codec.encode task) = some task := by
  refine Codec.ofData?_of_accept (accept_encode h) ?_
  have hsteps : Step.codec.list.decode? (.list (task.steps.map fun step => .table step.completed)) =
      some task.steps := by
    change List.mapM _ _ = _
    rw [List.mapM_map, mapM_eq_map (g := id) fun step _ => step.decode?_completed, List.map_id]
  simp [codec, completed, Data.field?, Entries.get?, Data.text?, Data.flag?, hsteps]

end Task

end PluginChain
