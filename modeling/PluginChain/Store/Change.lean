import PluginChain.Codec
import PluginChain.Store.Error

/-!
# Changes of the store

An operation of the store changes the disk in single steps.  `Change` is one of them, and
`StoreM.perform` carries several out, up to the first that fails; those before it stay done.

A record is written to a file beside its own, which then takes the place of the old one
(`recordChanges`).  So the file of a record always holds one whole record or another.
-/

set_option autoImplicit false

namespace PluginChain

inductive Change
  | touch (p : Place)
  | write (p : Place) (content : String)
  | rename (source target : Place)
  | remove (p : Place)
  deriving Repr, DecidableEq, Inhabited

def Change.apply : Change → FileTree → Except FileError FileTree
  | .touch p, t => t.touch p
  | .write p content, t => t.write p content
  | .rename source target, t => t.rename source target
  | .remove p, t => t.remove p

/-- An operation of the store on a disk.  What it changed before an error stays changed. -/
abbrev StoreM := EStateM StoreError FileTree

namespace StoreM

variable {α : Type}

/-- A look at the disk. -/
def look (f : FileTree → Except FileError α) : StoreM α := fun t =>
  match f t with
  | .ok a => .ok a t
  | .error e => .error (.file e) t

def perform : List Change → StoreM Unit
  | [] => pure ()
  | c :: rest => fun t =>
    match c.apply t with
    | .ok t => perform rest t
    | .error e => .error (.file e) t

/-! ## Records -/

/-- The file beside that of a record. -/
def besideOf (p : Place) : Place :=
  p.dropLast ++ [p.getLast?.getD "" ++ ".tmp"]

/-- The changes that write a record. -/
def recordChanges (p : Place) (content : String) : List Change :=
  [.write (besideOf p) content, .rename (besideOf p) p]

def writeRecord (c : Codec α) (p : Place) (a : α) : StoreM Unit := perform (recordChanges p (c.toJson a))

/-- The record in a text. -/
def ofText (c : Codec α) (text : String) : StoreM α :=
  match c.ofJson text with
  | .ok a => return a
  | .error why => throw (.unreadable why)

/-- The record in a file, if the file is there. -/
def readRecord? (c : Codec α) (p : Place) : StoreM (Option α) := fun t =>
  match t.read p with
  | .ok text => (some <$> ofText c text) t
  | .error .missing => .ok none t
  | .error e => .error (.file e) t

/-- The record in a file, which should be there. -/
def readRecord (c : Codec α) (p : Place) (missing : StoreError) : StoreM α := do
  match ← readRecord? c p with
  | some a => return a
  | none => throw missing

/-- The names of the records in a directory. -/
def recordNames (t : FileTree) (p : Place) : Except FileError (List String) :=
  match t.lookup p with
  | some .directory =>
    .ok (((t.children p).filter fun n => FileTree.suffix? n = some "json").mergeSort (· ≤ ·))
  | some _ => .error .notDirectory
  | none => .error (t.absence p)

/-- The records of a directory.  A file that holds none is passed over, but it has to be readable. -/
def readRecords (c : Codec α) (p : Place) : StoreM (List α) := do
  let names ← look fun t => recordNames t p
  let texts ← names.mapM fun n => look fun t => t.read (p ++ [n])
  return texts.filterMap fun text => (c.ofJson text).toOption

end StoreM

end PluginChain
