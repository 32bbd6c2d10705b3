import PluginChain.Outcome
import PluginChain.Instant
import PluginChain.Uuid

/-!
# Jobs

A job is a piece of data with what became of it.  It starts as *uploaded*, or as *processing* when it
is made for a task, and is *processed* once the outcomes of a run are entered (`applyResults`).
-/

set_option autoImplicit false

namespace PluginChain

inductive JobStatus
  | uploaded
  | processing
  | processed
  | failed
  deriving Repr, DecidableEq, Inhabited

namespace JobStatus

def word : JobStatus → String
  | .uploaded => "uploaded"
  | .processing => "processing"
  | .processed => "processed"
  | .failed => "failed"

def all : List JobStatus := [.uploaded, .processing, .processed, .failed]

def ofWord? (w : String) : Option JobStatus := all.find? (·.word = w)

theorem ofWord?_word (s : JobStatus) : ofWord? s.word = some s := by
  cases s <;> decide

def codec : Codec JobStatus where
  shape := .choice "JobStatus" (all.map word)
  encode s := .text s.word
  decode? d := d.text?.bind ofWord?

/-- The state of a job whose run is in a state. -/
def ofRun : RunStatus → JobStatus
  | .pending | .running => .processing
  | .completed | .completedWithErrors => .processed
  | .failed => .failed

end JobStatus

structure Job where
  id : Uuid
  name : String
  description : String
  input : Data
  status : JobStatus
  runStatus : Option RunStatus
  results : Results
  error : Option String
  createdAt : Instant
  updatedAt : Instant
  deriving Inhabited

namespace Job

/-- A job for data that was handed in. -/
def uploaded (id : Uuid) (now : Instant) (input : Data) : Job where
  id
  name := s!"Job-{now.seconds}"
  description := "Uploaded data job"
  input
  status := .uploaded
  runStatus := none
  results := []
  error := none
  createdAt := now
  updatedAt := now

/-- A job for the run of a task. -/
def forTask (id : Uuid) (now : Instant) (name description : String) (input : Data) : Job :=
  { uploaded id now input with
    name, description, status := .processing, runStatus := some .running }

/-- The job with the outcomes of a run in place of those it had. -/
def applyResults (job : Job) (now : Instant) (results : Results) (status : RunStatus) : Job :=
  { job with status := .ofRun status, runStatus := some status, results, updatedAt := now }

/-- The job after a run that broke off. -/
def markFailed (job : Job) (now : Instant) (error : String) : Job :=
  { job with status := .failed, runStatus := some .failed, error := some error, updatedAt := now }

def instantOf? (d : Data) : Option Instant :=
  d.text?.bind fun s => (Instant.parse s).toOption

def idOf? (d : Data) : Option Uuid :=
  d.text?.bind fun s => (Uuid.parse s).toOption

/-- The fields of the document of a job. -/
def fields : List (String × Shape × Option Data) := [
  ("id", .uuid, none),
  ("name", .text, none),
  ("description", .text, some (.text "")),
  ("input_data", .any, none),
  ("status", JobStatus.codec.shape, none),
  ("run_status", .maybe RunStatus.codec.shape, some .null),
  ("results", Results.codec.shape, some (.table [])),
  ("error", .maybe .text, some .null),
  ("created_at", .instant, none),
  ("updated_at", .instant, none)]

/-- The entries of the document of a job, which leaves out what there is not. -/
def entries (job : Job) : List (String × Data) :=
  [("id", .text job.id.toText), ("name", .text job.name), ("description", .text job.description),
    ("input_data", job.input), ("status", JobStatus.codec.encode job.status)] ++
  Data.optional "run_status" RunStatus.codec.encode job.runStatus ++
  [("results", Results.codec.encode job.results)] ++
  Data.optional "error" Data.text job.error ++
  [("created_at", .text job.createdAt.toText), ("updated_at", .text job.updatedAt.toText)]

def codec : Codec Job where
  shape := .record "Job" fields
  encode job := .table job.entries
  decode?
    | .table es => do
      return {
        id := ← Data.field? "id" idOf? es
        name := ← Data.field? "name" Data.text? es
        description := ← Data.field? "description" Data.text? es
        input := ← Data.field? "input_data" some es
        status := ← Data.field? "status" JobStatus.codec.decode? es
        runStatus := ← Data.optionalField? "run_status" RunStatus.codec.decode? es
        results := ← Data.field? "results" Results.codec.decode? es
        error := ← Data.optionalField? "error" Data.text? es
        createdAt := ← Data.field? "created_at" instantOf? es
        updatedAt := ← Data.field? "updated_at" instantOf? es }
    | _ => none

end Job

end PluginChain
