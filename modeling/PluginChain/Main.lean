import PluginChain.Command.Run
import Std.Time.DateTime.Timestamp

/-!
# The program

The part of the disk that a command can see is read into a `FileTree`, the request is performed on it,
and what it changed is written back.  A store is locked meanwhile.
-/

set_option autoImplicit false

namespace PluginChain.Disk

/-- What is on the disk at a place. -/
def entryAt (p : Place) : IO (Option FileEntry) := do
  let path := (← IO.currentDir) / FileTree.pathOf p
  if ← path.isDir then return some .directory
  if ← path.pathExists then
    match String.fromUTF8? (← IO.FS.readBinFile path) with
    | some content => return some (.file content)
    | none => return some .binary
  return none

/-- The tree with what is at a path of the disk, and with the directories on the way to it. -/
def load (t : FileTree) (current : Place) (path : String) : IO FileTree := do
  let mut t := t
  let mut p : Place := if FileTree.isAbsolute path then [] else current
  for name in path.splitOn "/" do
    if name = ".." then p := p.dropLast
    else if name ≠ "" && name ≠ "." then
      p := p ++ [name]
      if !t.isThere p then
        if let some entry ← entryAt p then t := t.set p entry
  return t

/-- The tree with the files of a directory of the disk. -/
def loadDirectory (t : FileTree) (current : Place) (path : String) : IO FileTree := do
  let mut t ← load t current path
  match t.locate current path with
  | .error _ => return t
  | .ok p =>
    if t.isDirectory p then
      for entry in ← ((← IO.currentDir) / FileTree.pathOf p).readDir do
        t ← load t [] (FileTree.pathOf (p ++ [entry.fileName]))
    return t

/-- Writes an entry to the disk.  A file takes its place when it is complete. -/
def store (p : Place) (entry : Option FileEntry) : IO Unit := do
  let base ← IO.currentDir
  let path := base / FileTree.pathOf p
  match entry with
  | some .directory => IO.FS.createDirAll path
  | some (.file content) => do
    let beside := base / (FileTree.pathOf p ++ ".new")
    IO.FS.writeFile beside content
    IO.FS.rename beside path
  | some .binary => return ()
  | none => IO.FS.removeFile path

def instant : IO Instant := do
  let nanos := (← Std.Time.Timestamp.now).toNanosecondsSinceUnixEpoch.val
  return ⟨nanos.fdiv (10 ^ 9), (nanos.fmod (10 ^ 9)).toNat⟩

def freshId : IO Uuid := do
  return .ofRandom ((← IO.getRandomBytes 16).foldl (fun n b => 256 * n + b.toNat) 0)

def environment : IO Environment := do
  let names := ["HOME", "SCRIPTFLOW_HOME", "SCRIPTFLOW_TIMEOUT_MS", "SCRIPTFLOW_MAX_PARALLEL"]
  let values ← names.filterMapM fun name => do return (← IO.getEnv name).map (name, ·)
  return { values }

def standardInput (isRead : Bool) : IO (Except FileError String) := do
  if !isRead then return .ok ""
  let input ← IO.getStdin
  let mut bytes := ByteArray.empty
  repeat
    let more ← input.read 65536
    if more.isEmpty then break
    bytes := bytes ++ more
  return match String.fromUTF8? bytes with
    | some text => .ok text
    | none => .error .notText

/-- Keeps other programs out of a store that is there. -/
def lockStore (t : FileTree) (current : Place) (home : String) : IO (Option IO.FS.Handle) := do
  match t.locate current home with
  | .error _ => return none
  | .ok p =>
    if !t.isDirectory p then return none
    let handle ← IO.FS.Handle.mk ((← IO.currentDir) / FileTree.pathOf (p ++ [".lock"])) .append
    handle.lock
    return some handle

end PluginChain.Disk

open PluginChain in
def main (args : List String) : IO UInt32 := do
  let request := Request.ofArguments args
  let command? := match request with
    | .run c => some c
    | _ => none
  let current := ((← IO.currentDir).toString.splitOn "/").filter (· ≠ "")
  let env ← Disk.environment
  let mut files ← Disk.load {} [] (FileTree.pathOf current)
  for n in List.range (current.length + 1) do
    files ← Disk.load files [] (Configuration.fileIn (FileTree.pathOf (current.take n)))
  for path in (command?.map Command.files).getD [] do
    files ← Disk.load files current path
  let mut lock : Option IO.FS.Handle := none
  if let .ok c := Configuration.load files current env then
    files ← Disk.load files current c.home
    if (command?.map Command.opensStore).getD false then
      lock ← Disk.lockStore files current c.home
      for name in ["plugins", "jobs", "tasks"] do
        files ← Disk.loadDirectory files current (FileTree.join c.home name)
      files ← Disk.load files current (FileTree.join c.home ".lock")
  let situation : Situation := {
    current, env
    stdin := ← Disk.standardInput ((command?.map Command.readsInput).getD false)
    now := ← Disk.instant
    taskId := ← Disk.freshId
    jobId := ← Disk.freshId }
  let done := request.perform situation files
  let changes := (files.differences done.console.files).mergeSort fun a b => a.1.length ≤ b.1.length
  for (p, entry) in changes do
    Disk.store p entry
  if let some handle := lock then handle.unlock
  IO.print done.console.out
  IO.eprint done.console.err
  return done.code.toUInt32
