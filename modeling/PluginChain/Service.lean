import PluginChain.Store
import PluginChain.Workflow

/-!
# The service

A `Service` keeps plugins and jobs in a store and runs them on an engine.  The store outlives the
service, while the registry of the engine is empty at its start and is filled from the store.

A plugin is compiled before anything is changed, kept before it is installed, and deleted before it
leaves the registry.  A job takes its outcomes from one run as a whole.  Readings of the clock and new
ids are arguments, so that an operation is a function of the service and of what it is given.
-/

set_option autoImplicit false

namespace PluginChain

/-- A call of a plugin with parameters of its own. -/
structure Invocation where
  name : String
  params : List (String × Data) := []
  deriving Inhabited

def Invocation.codec : Codec Invocation where
  shape := .record "PluginInvocation" [
    ("name", .text, none),
    ("params", .table .any, some (.table []))]
  encode c := .table [("name", .text c.name), ("params", .table c.params)]
  decode?
    | .table es => do
      return {
        name := ← Data.field? "name" Data.text? es
        params := ← Data.field? "params" Data.table? es }
    | _ => none

/-- What became of the plugins of a store when they were loaded. -/
structure LoadReport where
  loaded : Nat
  /-- The names of the plugins that do not compile. -/
  skipped : List String
  deriving Repr, DecidableEq, Inhabited

structure Service where
  engine : Engine
  store : Store
  files : FileTree
  deriving Inhabited

/-- An operation of the service.  What it changed before an error stays changed. -/
abbrev ServiceM := EStateM ChainError Service

namespace Service

variable {α : Type}

/-- A service that is about to start. -/
def ofSettings (s : Settings) (limits : Limits) (store : Store) (files : FileTree) :
    Except SettingsError Service := do
  s.validate
  return { engine := .ofSettings s limits, store, files }

/-! ## Parts of operations -/

/-- Carries an operation of the store out. -/
def onStore (f : Store → StoreM α) (wrap : StoreError → ChainError := .store) : ServiceM α := fun s =>
  match f s.store s.files with
  | .ok a files => .ok a { s with files }
  | .error e files => .error (wrap e) { s with files }

/-- Carries a step of the engine out. -/
def onEngine (f : Engine → α × Engine) : ServiceM α := fun s =>
  let (a, engine) := f s.engine
  .ok a { s with engine }

/-- Carries a step of the registry out, which leaves it as it was if it fails. -/
def onRegistry (f : Registry → Except ChainError (α × Registry)) : ServiceM α := fun s =>
  match f s.engine.registry with
  | .ok (a, registry) => .ok a { s with engine := { s.engine with registry } }
  | .error e => .error e s

/-! ## Plugins -/

/-- Installs plugins that were kept, passing over those that do not compile. -/
def installAll (now : Instant) : List PluginRecord → ServiceM LoadReport
  | [] => return ⟨0, []⟩
  | record :: rest => fun s =>
    match s.engine.registry.register now record.name record.description record.source with
    | .ok (_, registry) =>
      (do
        let r ← installAll now rest
        return { r with loaded := r.loaded + 1 }) { s with engine := { s.engine with registry } }
    | .error _ =>
      (do
        let r ← installAll now rest
        return { r with skipped := record.name :: r.skipped }) s

/-- Fills the registry from the store. -/
def load (now : Instant) : ServiceM LoadReport := do
  installAll now (← onStore Store.listPlugins)

/-- Compiles a plugin, keeps it and installs it.  Where one of these fails nothing is changed. -/
def register (now : Instant) (given description source : String) : ServiceM PluginInfo := do
  let name ← ofExcept (Registry.nameOf given)
  let compiled ← ofExcept ((← get).engine.registry.compile name source)
  onStore fun store => store.savePlugin now (.fresh now name description source)
  let plugin ← onRegistry fun r => r.install now name description compiled
  return plugin.info

/-- A plugin that is not in the store is told by its trimmed name. -/
def pluginError (name : String) (e : StoreError) : ChainError :=
  if e.isNotFound then .pluginNotFound (Text.trim name) else .store e

def pluginSource (name : String) : ServiceM String :=
  onStore (fun store => store.pluginSource name) (pluginError name)

def listPlugins : ServiceM (List PluginInfo) :=
  return (← onStore Store.listPlugins).map PluginRecord.info

/-- Whether a plugin was deleted from the store; one that was not there is no error. -/
def deleteStored (name : String) : ServiceM Bool := fun s =>
  match s.store.deletePlugin name s.files with
  | .ok () files => .ok true { s with files }
  | .error e files =>
    if e.isNotFound then .ok false { s with files } else .error (.store e) { s with files }

/-- Whether a plugin was taken out of the registry. -/
def evict (name : String) : ServiceM Bool := fun s =>
  match s.engine.registry.remove name with
  | .ok registry => .ok true { s with engine := { s.engine with registry } }
  | .error _ => .ok false s

/-- Removes a plugin from the store and the registry, one of which must have it. -/
def remove (name : String) : ServiceM Unit := do
  let stored ← deleteStored name
  let installed ← evict name
  unless stored || installed do throw (.pluginNotFound (Text.trim name))

def execute (name : String) (input params : Data) : ServiceM Data := do
  ofExcept (← onEngine fun e => e.executePlugin name input params none)

/-- Runs a task on an input, without a job for it. -/
def runTask (task : Task) (input : Data) : ServiceM Report := do
  ofExcept ((← onEngine fun e => e.runTask task input).mapError ChainError.ofRunFault)

/-! ## Jobs -/

/-- Keeps data as a new job. -/
def upload (now : Instant) (id : Uuid) (input : Data) : ServiceM Job := do
  let job := Job.uploaded id now input
  onStore fun store => store.saveJob job
  return job

/-- Calls plugins one after the other.  A call that fails leaves the value the next one works on. -/
def callAll (eval : Evaluator) : List Invocation → Data → Results → StateM Engine Results
  | [], _, results => return results
  | call :: rest, current, results => do
    let key := Text.trim call.name
    let r ← modifyGet fun e => e.runPlugin eval key current (.table call.params)
    let results := Entries.put key (.ofExcept r) results
    match r with
    | .ok output => callAll eval rest output results
    | .error _ => callAll eval rest current results

/-- A job that is not there is an error of the request, told in the words given. -/
def jobError (words : StoreError → StructuralError) (e : StoreError) : ChainError :=
  if e.isNotFound then .structural (words e) else .store e

/-- Calls plugins on the input of a job, and enters what they gave into the job. -/
def process (now : Instant) (id : Uuid) (calls : List Invocation) : ServiceM Report := do
  let input ← onStore (fun store => store.jobInput id) (jobError .noJob)
  let results ← onEngine fun e => callAll (e.evaluator none) calls input [] e
  let report := Report.ofResults results
  onStore fun store => store.updateJob now id report.results report.status
  return report

/-- The id in a reference to a job. -/
def referencedId (given : String) : ServiceM Uuid :=
  match Uuid.parse (Text.trim given) with
  | .ok id => return id
  | .error _ => throw (.structural (.badReference given))

/-- What a reference stands for. -/
def resolveInput : InputRef → ServiceM Data
  | .inline value => return value
  | .job jobId => do
    let id ← referencedId jobId
    onStore (fun store => store.jobInput id) (jobError .noReferencedJob)
  | .output jobId step => do
    let id ← referencedId jobId
    let job ← onStore (fun store => store.getJob id) (jobError .noReferencedJob)
    match (Entries.get? step job.results).bind Outcome.value? with
    | some value => return value
    | none => throw (.structural (.noOutput id step))

/-- The input of a task: what its reference stands for, or else what was given with it. -/
def inputOf (task : Task) (given : Option Data) : ServiceM Data :=
  match task.initialInput? with
  | some reference => resolveInput reference
  | none => return given.getD .null

/-- A task that was submitted, and what became of it. -/
structure Submission where
  jobId : Uuid
  report : Report
  deriving Inhabited

/-- Runs a task and keeps what it gave as a new job.  Of the new ids the first is for the copy of the
task and the second for the job. -/
def submit (now : Instant) (taskId jobId : Uuid) (task : Task) (given : Option Data) :
    ServiceM Submission := do
  ofExcept (task.validate.mapError fun e => .structural (.invalid e))
  onStore fun store => store.saveTask taskId task
  let input ← inputOf task given
  let job := Job.forTask jobId now task.name task.description input
  match ← onEngine fun e => e.runTask task input with
  | .ok report => do
    onStore fun store => store.saveJob (job.applyResults now report.results report.status)
    return ⟨jobId, report⟩
  | .error (.invalid e) => do
    let error := ChainError.structural (.invalid e)
    onStore fun store => store.saveJob (job.markFailed now error.message)
    throw error
  | .error f => throw (.ofRunFault f)

def getJob (id : Uuid) : ServiceM Job := onStore fun store => store.getJob id

def listJobs : ServiceM (List Job) := onStore Store.listJobs

end Service

end PluginChain
