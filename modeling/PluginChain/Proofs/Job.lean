import PluginChain.Plugin
import PluginChain.Proofs.Instant
import PluginChain.Proofs.Json.Extent
import PluginChain.Proofs.Uuid

/-!
# Records are read back

A job is written as a document of its codec, and so is a plugin.  A plugin is always read back
(`PluginRecord.ofJson_toJson`).  A job is read back just when it is `Shallow`: its document puts the input
one level deeper than it was, and the data of an outcome three levels, so that data which was fit to be
handed in, or to be returned by a script, may no longer be fit to be read (`Job.ofJson_toJson`).

Of the data nothing need be known to say that all else of a job is read as it was written
(`Job.exists_of_ofJson_toJson`).
-/

set_option autoImplicit false

namespace PluginChain

open Json

/-! ## Optional fields -/

namespace Data

variable {α : Type}

theorem forall_mem_optional (name : String) (encode : α → Data) (a : Option α)
    (p : String × Data → Prop) :
    (∀ e ∈ optional name encode a, p e) ↔ ∀ x, a = some x → p (name, encode x) := by
  cases a with
  | none => simp [optional]
  | some x => simp [optional]

/-- A field that may be absent is read from its value, or from nothing. -/
theorem optionalField?_getD (name : String) {encode : α → Data} {decode? : Data → Option α}
    {a : Option α} {es : List (String × Data)}
    (hget : Entries.get? name es = some ((a.map encode).getD .null))
    (hdecode : ∀ x, decode? (encode x) = some x) (hnull : ∀ x, encode x ≠ .null) :
    optionalField? name decode? es = some a := by
  rw [optionalField?, hget]
  cases a with
  | none => rfl
  | some x =>
    rw [Option.map_some, Option.getD_some]
    split
    · next h => cases h
    · next h => exact absurd (Option.some.inj h) (hnull x)
    · next d _ h =>
      cases h
      rw [hdecode]
      rfl

theorem exists_of_field? {name : String} {decode? : Data → Option α} {es : List (String × Data)} {a : α}
    (h : field? name decode? es = some a) : ∃ d, decode? d = some a := by
  obtain ⟨d, -, hd⟩ := Option.bind_eq_some_iff.1 h
  exact ⟨d, hd⟩

end Data

theorem Codec.exists_of_ofJson {α : Type} {c : Codec α} {text : String} {a : α}
    (h : c.ofJson text = .ok a) : ∃ d, read c.shape text = .ok d ∧ c.decode? d = some a := by
  unfold ofJson at h
  split at h
  · cases h
  · next d hread =>
    split at h
    · next hd =>
      cases h
      exact ⟨d, hread, hd⟩
    · cases h

/-! ## Outcomes -/

namespace StepFailure

theorem decode?_encode (f : StepFailure) : codec.decode? (codec.encode f) = some f := by
  cases f with
  | pluginNotFound plugin => simp [codec, Data.field?, Entries.get?, Data.text?]
  | invalidStep step reason => simp [codec, Data.field?, Entries.get?, Data.text?]
  | timeout millis =>
    have hlt : millis.toNat < 18446744073709551616 := millis.toNat_lt
    have hnat : (millis.toNat : Int).toNat? = some millis.toNat := rfl
    simp [codec, Data.field?, Entries.get?, Data.text?, Data.natural?, hnat, hlt]
  | runtime message => simp [codec, Data.field?, Entries.get?, Data.text?]

theorem reads (f : StepFailure) : Reads (readerOf codec.shape) (codec.encode f) (codec.encode f) := by
  cases f with
  | pluginNotFound plugin =>
    refine reads_keyed "StepFailure" rfl ?_ ?_ rfl
    · simp
    · simpa using Data.Printable.text plugin
  | invalidStep step reason =>
    refine reads_keyed "StepFailure" rfl ?_ ?_ rfl
    · simp
    · simpa using ⟨Data.Printable.text step, Data.Printable.text reason⟩
  | timeout millis =>
    have hlt : millis.toNat < 2 ^ 64 := millis.toNat_lt
    have hprint : (Data.int millis.toNat).Printable := .int (by omega) (by omega)
    refine reads_keyed "StepFailure" rfl ?_ ?_ ?_
    · simp
    · simpa using hprint
    · have hfits : (0 : Int) ≤ (millis.toNat : Int) ∧ (millis.toNat : Int) ≤ maxNatural := by
        rw [maxNatural]
        omega
      simp [Shape.fieldsOf, wholeEntries, Shape.knownField, Entries.get?, Leaf.accept, hfits, pure,
        Except.pure, bind, Except.bind]
  | runtime message =>
    refine reads_keyed "StepFailure" rfl ?_ ?_ rfl
    · simp
    · simpa using Data.Printable.text message

theorem depth_encode (f : StepFailure) : (codec.encode f).depth = 1 := by
  cases f <;> rfl

end StepFailure

namespace Outcome

theorem decode?_encode (o : Outcome) : codec.decode? (codec.encode o) = some o := by
  cases o with
  | ok d => rfl
  | failed f =>
    exact congrArg (Option.map Outcome.failed) f.decode?_encode

theorem reads {o : Outcome} (h : ∀ d, o = .ok d → d.Plain) :
    Reads (readerOf codec.shape) (codec.encode o) (codec.encode o) := by
  cases o with
  | ok d => exact reads_tagged "StepOutcome" rfl (reads_any (h d rfl))
  | failed f => exact reads_tagged "StepOutcome" rfl f.reads

/-- An outcome goes as far as its text, whatever its data. -/
theorem goesBy (o : Outcome) {b : Nat} (level : Nat) :
    GoesBy (readerOf codec.shape) b (textAt level (codec.encode o)) := by
  cases o with
  | ok d => exact goesBy_tagged "StepOutcome" rfl fun _ => goesBy_any (b - 1) (level + 1) d
  | failed f => exact goesBy_tagged "StepOutcome" rfl fun h2 => f.reads.goesBy (level + 1) (by omega)

theorem depth_encode_lt_iff (o : Outcome) :
    (codec.encode o).depth < 126 ↔ ∀ d, o = .ok d → d.depth ≤ 124 := by
  cases o with
  | ok d =>
    rw [show codec.encode (.ok d) = .table [("ok", d)] from rfl, Data.depth_table_lt_iff,
      List.forall_mem_singleton]
    constructor
    · rintro ⟨-, hd⟩ d' hd'
      cases hd'
      exact Nat.le_of_lt_succ hd
    · exact fun h => ⟨by decide, Nat.lt_succ_of_le (h d rfl)⟩
  | failed f =>
    rw [show codec.encode (.failed f) = .table [("err", StepFailure.codec.encode f)] from rfl,
      Data.depth_table_lt_iff, List.forall_mem_singleton, StepFailure.depth_encode]
    exact ⟨fun _ d hd => Outcome.noConfusion hd, fun _ => by decide⟩

end Outcome

namespace Results

/-- The data in outcomes is fit for documents. -/
def Plain (results : Results) : Prop :=
  Entries.Sorted results ∧ ∀ name d, (name, Outcome.ok d) ∈ results → d.Plain

theorem decode?_encode (results : Results) : codec.decode? (codec.encode results) = some results := by
  change (results.map fun e => (e.1, Outcome.codec.encode e.2)).mapM
    (fun e => (Outcome.codec.decode? e.2).map fun o => (e.1, o)) = some results
  induction results with
  | nil => rfl
  | cons e results ih =>
    rw [List.map_cons, List.mapM_cons, ih, Outcome.decode?_encode]
    rfl

theorem reads {results : Results} (h : results.Plain) :
    Reads (readerOf codec.shape) (codec.encode results) (codec.encode results) := by
  refine reads_table ?_ ?_
  · rw [Entries.Sorted, List.pairwise_map]
    exact h.1
  · intro e he
    obtain ⟨⟨name, o⟩, ho, rfl⟩ := List.mem_map.1 he
    refine Outcome.reads fun d hd => h.2 name d ?_
    rw [← hd]
    exact ho

theorem goesBy (results : Results) (b level : Nat) :
    GoesBy (readerOf codec.shape) b (textAt level (codec.encode results)) := by
  refine goesBy_table fun _ e he => ?_
  obtain ⟨e, -, rfl⟩ := List.mem_map.1 he
  exact e.2.goesBy (level + 1)

theorem depth_encode_lt_iff (results : Results) :
    (codec.encode results).depth < 127 ↔ ∀ name d, (name, Outcome.ok d) ∈ results → d.depth ≤ 124 := by
  rw [show codec.encode results = .table (results.map fun e => (e.1, Outcome.codec.encode e.2)) from rfl,
    Data.depth_table_lt_iff, List.forall_mem_map]
  constructor
  · rintro ⟨-, h⟩ name d hd
    exact (Outcome.depth_encode_lt_iff (.ok d)).1 (h _ hd) d rfl
  · intro h
    refine ⟨by decide, fun e he => (Outcome.depth_encode_lt_iff e.2).2 fun d hd => h e.1 d ?_⟩
    rw [← hd]
    exact he

end Results

/-! ## Jobs -/

namespace Job

/-- A job that a document can hold. -/
structure Plain (job : Job) : Prop where
  id : job.id.value < 2 ^ 128
  input : job.input.Plain
  results : Results.Plain job.results
  createdAt : job.createdAt.Representable
  updatedAt : job.updatedAt.Representable

/-- The data of a job leaves room for what is around it in the document of the job. -/
structure Shallow (job : Job) : Prop where
  input : job.input.depth ≤ 126
  results : ∀ name d, (name, Outcome.ok d) ∈ job.results → d.depth ≤ 124

/-- Where a job is not too deep for its document to be read. -/
theorem depth_encode_lt_iff (job : Job) : (codec.encode job).depth < 128 ↔ job.Shallow := by
  have htext : ∀ s, (Data.text s).depth < 127 := fun s => by
    change 0 < 127
    decide
  have hentries : (∀ e ∈ job.entries, e.2.depth < 127) ↔
      job.input.depth < 127 ∧ (Results.codec.encode job.results).depth < 127 := by
    simp only [entries, List.forall_mem_append, List.forall_mem_cons, Data.forall_mem_optional, htext,
      JobStatus.codec, RunStatus.codec, List.not_mem_nil, false_implies, implies_true, true_and,
      and_true]
  rw [show codec.encode job = .table job.entries from rfl, Data.depth_table_lt_iff, hentries,
    Results.depth_encode_lt_iff]
  exact ⟨fun h => ⟨Nat.le_of_lt_succ h.2.1, h.2.2⟩,
    fun h => ⟨by decide, Nat.lt_succ_of_le h.input, h.results⟩⟩

/-- The entries of a job when it was read, with this for its input and its results.  What there is not is
nothing. -/
def completedAs (job : Job) (input results : Data) : List (String × Data) := [
  ("id", .text job.id.toText),
  ("name", .text job.name),
  ("description", .text job.description),
  ("input_data", input),
  ("status", JobStatus.codec.encode job.status),
  ("run_status", (job.runStatus.map RunStatus.codec.encode).getD .null),
  ("results", results),
  ("error", (job.error.map Data.text).getD .null),
  ("created_at", .text job.createdAt.toText),
  ("updated_at", .text job.updatedAt.toText)]

def completed (job : Job) : List (String × Data) :=
  job.completedAs job.input (Results.codec.encode job.results)

theorem complete_entries (job : Job) : Shape.complete job.entries fields = .ok job.completed := by
  obtain ⟨id, name, description, input, status, runStatus, results, error, createdAt, updatedAt⟩ := job
  cases runStatus <;> cases error <;>
    simp [entries, completed, completedAs, Data.optional, fields, Shape.complete, Entries.get?]

theorem nodup_names_entries (job : Job) : (Entries.names job.entries).Nodup := by
  obtain ⟨id, name, description, input, status, runStatus, results, error, createdAt, updatedAt⟩ := job
  cases runStatus <;> cases error <;> simp [entries, Data.optional, Entries.names]

/-- An identity and instants that can be written. -/
structure Dated (job : Job) : Prop where
  id : job.id.value < 2 ^ 128
  createdAt : job.createdAt.Representable
  updatedAt : job.updatedAt.Representable

theorem Plain.dated {job : Job} (h : job.Plain) : job.Dated := ⟨h.id, h.createdAt, h.updatedAt⟩

/-- All entries of a job but its input and its results are without brackets, and are read as themselves. -/
theorem entries_cases {job : Job} (h : job.Dated) : ∀ e ∈ job.entries,
    e = ("input_data", job.input) ∨ e = ("results", Results.codec.encode job.results) ∨
      e.1 ≠ "input_data" ∧ e.1 ≠ "results" ∧ e.2.depth = 0 ∧
        ∃ f, Entries.get? e.1 fields = some f ∧ Reads (readerOf f.1) e.2 e.2 := by
  have hinstant : ∀ {i : Instant}, i.Representable →
      Reads (readerOf .instant) (.text i.toText) (.text i.toText) :=
    fun hi => reads_instant (Instant.parse_toText hi)
  have hstatus : ∀ s : JobStatus, s.word ∈ JobStatus.all.map JobStatus.word := by
    rintro (_ | _) <;> decide
  have hrun : ∀ s : RunStatus, s.word ∈ RunStatus.all.map RunStatus.word := by
    rintro (_ | _) <;> decide
  have hentry : ∀ {name : String} {d : Data} {f : Shape × Option Data}, name ≠ "input_data" → name ≠ "results" →
      d.depth = 0 → Entries.get? name fields = some f → Reads (readerOf f.1) d d →
      (name, d) = ("input_data", job.input) ∨ (name, d) = ("results", Results.codec.encode job.results) ∨
        name ≠ "input_data" ∧ name ≠ "results" ∧ d.depth = 0 ∧
          ∃ f, Entries.get? name fields = some f ∧ Reads (readerOf f.1) d d :=
    fun hinput hresults hdepth hget hreads => Or.inr (Or.inr ⟨hinput, hresults, hdepth, _, hget, hreads⟩)
  simp only [entries, List.forall_mem_append, List.forall_mem_cons, Data.forall_mem_optional]
  refine ⟨⟨⟨⟨⟨?_, ?_, ?_, Or.inl trivial, ?_, nofun⟩, fun s _ => ?_⟩, Or.inr (Or.inl trivial), nofun⟩,
    fun s _ => ?_⟩, ?_, ?_, nofun⟩
  · exact hentry (by decide) (by decide) rfl rfl (reads_uuid (Uuid.parse_toText h.id))
  · exact hentry (by decide) (by decide) rfl rfl (reads_text _)
  · exact hentry (by decide) (by decide) rfl rfl (reads_text _)
  · exact hentry (by decide) (by decide) rfl rfl (reads_choice _ (hstatus _))
  · exact hentry (by decide) (by decide) rfl rfl (reads_maybe (reads_choice _ (hrun s)))
  · exact hentry (by decide) (by decide) rfl rfl (reads_maybe (reads_text s))
  · exact hentry (by decide) (by decide) rfl rfl (hinstant h.createdAt)
  · exact hentry (by decide) (by decide) rfl rfl (hinstant h.updatedAt)

theorem reads_entries {job : Job} (h : job.Plain) :
    ∀ e ∈ job.entries, ∃ f, Entries.get? e.1 fields = some f ∧ Reads (readerOf f.1) e.2 e.2 := by
  intro e he
  rcases entries_cases h.dated e he with rfl | rfl | ⟨-, -, -, hread⟩
  · exact ⟨_, rfl, reads_any h.input⟩
  · exact ⟨_, rfl, Results.reads h.results⟩
  · exact hread

theorem decode?_completedAs {job : Job} (h : job.Dated) (input results : Data) :
    codec.decode? (.table (job.completedAs input results)) =
      (Results.codec.decode? results).map fun results => { job with input, results } := by
  have hid : idOf? (.text job.id.toText) = some job.id := by
    rw [idOf?, Data.text?, Option.bind_some, Uuid.parse_toText h.id]
    rfl
  have hinstant : ∀ {i : Instant}, i.Representable → instantOf? (.text i.toText) = some i := by
    intro i hi
    rw [instantOf?, Data.text?, Option.bind_some, Instant.parse_toText hi]
    rfl
  have hstatus : JobStatus.codec.decode? (JobStatus.codec.encode job.status) = some job.status :=
    JobStatus.ofWord?_word job.status
  have hrunStatus : Data.optionalField? "run_status" RunStatus.codec.decode? (job.completedAs input results) =
      some job.runStatus :=
    Data.optionalField?_getD "run_status" rfl RunStatus.ofWord?_word fun _ => nofun
  have herror : Data.optionalField? "error" Data.text? (job.completedAs input results) = some job.error :=
    Data.optionalField?_getD "error" rfl (fun _ => rfl) fun _ => nofun
  simp only [codec, hrunStatus, herror]
  cases hresults : Results.codec.decode? results <;>
    simp [completedAs, Data.field?, Entries.get?, hid, hinstant h.createdAt, hinstant h.updatedAt, hstatus,
      hresults, Data.text?]

theorem decode?_completed {job : Job} (h : job.Dated) : codec.decode? (.table job.completed) = some job := by
  rw [completed, decode?_completedAs h, Results.decode?_encode]
  rfl

/-- **A job is read back just when it is shallow**, and otherwise it cannot be read at all. -/
theorem ofJson_toJson {job : Job} (h : job.Plain) :
    (job.Shallow → codec.ofJson (codec.toJson job) = .ok job) ∧
      (¬ job.Shallow → ∃ f, codec.ofJson (codec.toJson job) = .error f) := by
  have hreads : Reads (readerOf codec.shape) (codec.encode job) (.table job.completed) :=
    reads_record "Job" job.nodup_names_entries (reads_entries h) job.complete_entries
  obtain ⟨hshallow, hdeep⟩ := read_pretty hreads
  rw [depth_encode_lt_iff] at hshallow hdeep
  constructor
  · intro hs
    rw [Codec.ofJson, Codec.toJson, hshallow hs]
    simp only [decode?_completed h.dated]
  · intro hs
    obtain ⟨f, hf⟩ := hdeep hs
    rw [Codec.ofJson, Codec.toJson, hf]
    exact ⟨f, rfl⟩

/-- What is read of a document of a job differs from the job in its data at most, that is in its input and
in its outcomes. -/
theorem exists_of_ofJson_toJson {job job' : Job} (h : job.Dated)
    (hread : codec.ofJson (codec.toJson job) = .ok job') : ∃ input results, job' = { job with input, results } := by
  obtain ⟨input, hinput⟩ := goesBy_any 127 1 job.input
  obtain ⟨results, hresults⟩ := job.results.goesBy 127 1
  let value (e : String × Data) : Option Data :=
    if e.1 = "input_data" then input else if e.1 = "results" then results else some e.2
  have hvalue : ∀ e ∈ job.entries, ∃ f, Entries.get? e.1 fields = some f ∧
      ReadsAs (readerOf f.1) 127 (textAt 1 e.2) (value e) := by
    intro e he
    rcases entries_cases h e he with rfl | rfl | ⟨hi, hr, hdepth, f, hget, hreads⟩
    · exact ⟨_, rfl, hinput⟩
    · exact ⟨_, rfl, hresults⟩
    · refine ⟨f, hget, ?_⟩
      have h127 := hreads 127 1 (by decide)
      rwa [if_pos (by omega), show some e.2 = value e by simp [value, hi, hr]] at h127
  have hdoc : (read codec.shape (codec.toJson job)).toOption = _ :=
    toOption_read_pretty (readsAs_record "Job" value job.nodup_names_entries fun _ => hvalue)
  obtain ⟨d, hd, hdecode⟩ := Codec.exists_of_ofJson hread
  rw [hd, if_pos (by decide)] at hdoc
  obtain ⟨got, hgot, hcomplete⟩ := Option.bind_eq_some_iff.1 hdoc.symm
  obtain ⟨es, hes, rfl⟩ := Option.map_eq_some_iff.1 hcomplete
  obtain ⟨rfl, -⟩ := eq_map_of_mapM_entries hgot .null
  have hcompleted : es = job.completedAs (input.getD .null) (results.getD .null) := by
    obtain ⟨id, name, description, input, status, runStatus, results, error, createdAt, updatedAt⟩ := job
    have hok := eq_ok_of_toOption hes
    cases runStatus <;> cases error <;>
      simpa [value, entries, completedAs, Data.optional, fields, Shape.complete, Entries.get?, eq_comm] using hok
  rw [hcompleted, decode?_completedAs h] at hdecode
  obtain ⟨results, -, rfl⟩ := Option.map_eq_some_iff.1 hdecode
  exact ⟨_, results, rfl⟩

/-! ### What is read fits -/

theorem value_lt_of_idOf? {d : Data} {id : Uuid} (h : idOf? d = some id) : id.value < 2 ^ 128 := by
  obtain ⟨s, -, hs⟩ := Option.bind_eq_some_iff.1 h
  cases hp : Uuid.parse s with
  | error e =>
    rw [hp] at hs
    cases hs
  | ok u =>
    rw [hp] at hs
    cases hs
    exact Uuid.value_lt_of_parse hp

theorem representable_of_instantOf? {d : Data} {i : Instant} (h : instantOf? d = some i) :
    i.Representable := by
  obtain ⟨s, -, hs⟩ := Option.bind_eq_some_iff.1 h
  cases hp : Instant.parse s with
  | error e =>
    rw [hp] at hs
    cases hs
  | ok u =>
    rw [hp] at hs
    cases hs
    exact Instant.representable_of_parse hp

/-- A job that was read has an identity and instants that can be written. -/
theorem fits_of_ofJson {text : String} {job : Job} (h : codec.ofJson text = .ok job) :
    job.id.value < 2 ^ 128 ∧ job.createdAt.Representable ∧ job.updatedAt.Representable := by
  obtain ⟨d, -, hd⟩ := Codec.exists_of_ofJson h
  cases d with
  | table es =>
    simp only [codec, Option.bind_eq_bind, Option.bind_eq_some_iff] at hd
    obtain ⟨id, hid, _, -, _, -, _, -, _, -, _, -, _, -, _, -, createdAt, hcreated, updatedAt, hupdated, hd⟩ :=
      hd
    cases hd
    obtain ⟨_, hid⟩ := Data.exists_of_field? hid
    obtain ⟨_, hcreated⟩ := Data.exists_of_field? hcreated
    obtain ⟨_, hupdated⟩ := Data.exists_of_field? hupdated
    exact ⟨value_lt_of_idOf? hid, representable_of_instantOf? hcreated,
      representable_of_instantOf? hupdated⟩
  | _ => cases hd

end Job

/-! ## Plugins -/

namespace PluginRecord

/-- A plugin that was read has instants that can be written. -/
theorem representable_of_ofJson {text : String} {r : PluginRecord} (h : codec.ofJson text = .ok r) :
    r.createdAt.Representable ∧ r.updatedAt.Representable := by
  obtain ⟨d, -, hd⟩ := Codec.exists_of_ofJson h
  cases d with
  | table es =>
    simp only [codec, Option.bind_eq_bind, Option.bind_eq_some_iff] at hd
    obtain ⟨_, -, _, -, _, -, createdAt, hcreated, updatedAt, hupdated, hd⟩ := hd
    cases hd
    obtain ⟨_, hcreated⟩ := Data.exists_of_field? hcreated
    obtain ⟨_, hupdated⟩ := Data.exists_of_field? hupdated
    exact ⟨Job.representable_of_instantOf? hcreated, Job.representable_of_instantOf? hupdated⟩
  | _ => cases hd

/-- **A plugin is read back.** -/
theorem ofJson_toJson {r : PluginRecord} (hcreated : r.createdAt.Representable)
    (hupdated : r.updatedAt.Representable) : codec.ofJson (codec.toJson r) = .ok r := by
  have hinstant : ∀ {i : Instant}, i.Representable →
      Reads (readerOf .instant) (.text i.toText) (.text i.toText) :=
    fun hi => reads_instant (Instant.parse_toText hi)
  have hreads : Reads (readerOf codec.shape) (codec.encode r) (codec.encode r) := by
    refine reads_record "PluginRecord" ?_ ?_ rfl
    · simp [Entries.names]
    · simp only [List.forall_mem_cons]
      exact ⟨⟨_, rfl, reads_text _⟩, ⟨_, rfl, reads_text _⟩, ⟨_, rfl, reads_text _⟩,
        ⟨_, rfl, hinstant hcreated⟩, ⟨_, rfl, hinstant hupdated⟩,
        fun _ h => absurd h List.not_mem_nil⟩
  have hdecode : codec.decode? (codec.encode r) = some r := by
    simp [codec, Data.field?, Entries.get?, Data.text?, Job.instantOf?, Instant.parse_toText hcreated,
      Instant.parse_toText hupdated, Except.toOption]
  have hflat : (codec.encode r).depth < 128 := by
    change 1 < 128
    decide
  rw [Codec.ofJson, Codec.toJson, (read_pretty hreads).1 hflat]
  simp only [hdecode]

end PluginRecord

end PluginChain
