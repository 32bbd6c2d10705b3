import PluginChain.Plugin
import PluginChain.Store.Change
import PluginChain.Task
import PluginChain.Text.Blank

/-!
# The store

A store is a directory with three others in it: `plugins` has a file for each plugin, which is named
for the digest of the plugin's trimmed name, `jobs` has one for each job and `tasks` one for each task
that was submitted, both named for an id.

What reads a record and writes it again does so behind a lock, the file `.lock`.
-/

set_option autoImplicit false

namespace PluginChain

structure Store where
  root : Place
  deriving Repr, DecidableEq, Inhabited

namespace Store

def plugins (s : Store) : Place := s.root ++ ["plugins"]

def jobs (s : Store) : Place := s.root ++ ["jobs"]

def tasks (s : Store) : Place := s.root ++ ["tasks"]

/-- The file of a plugin. -/
def pluginFile (s : Store) (name : String) : Place :=
  s.plugins ++ [Digest.ofText (Text.trim name) ++ ".json"]

/-- The file of a job. -/
def jobFile (s : Store) (id : Uuid) : Place := s.jobs ++ [id.toText ++ ".json"]

/-- The file of a submitted task. -/
def taskFile (s : Store) (id : Uuid) : Place := s.tasks ++ [id.toText ++ ".yaml"]

def lock (s : Store) : Change := .touch (s.root ++ [".lock"])

/-- The store in a directory, which is made if it is not there. -/
def openAt (current : Place) (home : String) : EStateM FileError FileTree Store := do
  for name in ["plugins", "jobs", "tasks"] do
    match (← get).makeDirectories current (FileTree.join home name) with
    | .ok t => set t
    | .error e => throw e
  match (← get).locate current (FileTree.join home ".") with
  | .ok root => return ⟨root⟩
  | .error e => throw e

/-! ## Plugins -/

def pluginSource (s : Store) (name : String) : StoreM String := do
  let missing := StoreError.notFound .plugin name
  return (← StoreM.readRecord PluginRecord.codec (s.pluginFile name) missing).source

/-- The record of a plugin as it will be kept.  One that takes the place of another keeps the instant
that the other was made. -/
def draftPlugin (s : Store) (now : Instant) (record : PluginRecord) : StoreM PluginRecord := do
  StoreM.perform [s.lock]
  let old ← StoreM.readRecord? PluginRecord.codec (s.pluginFile record.name)
  let createdAt := (old.map PluginRecord.createdAt).getD record.createdAt
  return { record with createdAt, updatedAt := now }

/-- Writes the record of a plugin into the file of its name. -/
def keepPlugin (s : Store) (record : PluginRecord) : StoreM Unit :=
  StoreM.writeRecord PluginRecord.codec (s.pluginFile record.name) record

/-- Keeps a plugin in place of the one that had its name. -/
def savePlugin (s : Store) (now : Instant) (record : PluginRecord) : StoreM Unit := do
  s.keepPlugin (← s.draftPlugin now record)

def deletePlugin (s : Store) (name : String) : StoreM Unit := do
  let file := s.pluginFile name
  match (← get).read file with
  | .error .missing => throw (.notFound .plugin name)
  | _ => StoreM.perform [.remove file]

def listPlugins (s : Store) : StoreM (List PluginRecord) :=
  StoreM.readRecords PluginRecord.codec s.plugins

/-! ## Jobs and tasks -/

def noJob (id : Uuid) : StoreError := .notFound .job id.toText

def getJob (s : Store) (id : Uuid) : StoreM Job := StoreM.readRecord Job.codec (s.jobFile id) (noJob id)

def jobInput (s : Store) (id : Uuid) : StoreM Data := return (← s.getJob id).input

/-- All jobs, the latest first. -/
def listJobs (s : Store) : StoreM (List Job) := do
  let jobs ← StoreM.readRecords Job.codec s.jobs
  return jobs.mergeSort fun a b => (b.createdAt.compare a.createdAt).isLE

def saveJob (s : Store) (job : Job) : StoreM Unit := do
  StoreM.perform [s.lock]
  StoreM.writeRecord Job.codec (s.jobFile job.id) job

/-- The job with the outcomes of a run.  One that failed has an error. -/
def withRun (job : Job) (now : Instant) (results : Results) (status : RunStatus) : Job :=
  let job := job.applyResults now results status
  if job.status = .failed then { job with error := some (job.error.getD "run failed") } else job

/-- Enters the outcomes of a run into a job. -/
def updateJob (s : Store) (now : Instant) (id : Uuid) (results : Results) (status : RunStatus) :
    StoreM Unit := do
  StoreM.perform [s.lock]
  let job ← StoreM.readRecord Job.codec (s.jobFile id) (noJob id)
  StoreM.writeRecord Job.codec (s.jobFile id) (withRun job now results status)

/-- Keeps a task that was submitted. -/
def saveTask (s : Store) (id : Uuid) (task : Task) : StoreM Unit :=
  StoreM.perform [.write (s.taskFile id) (Task.codec.toYaml task)]

end Store

end PluginChain
