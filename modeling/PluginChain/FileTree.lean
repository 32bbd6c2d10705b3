/-!
# File trees

A `FileTree` is what a command sees of a disk: directories, and files, most of which hold a text.  The root is
always a directory.  A `Place` is a list of names from the root, and `locate` finds the place that a
path in text form stands for, which it can only do along directories that are there.

* `FileTree.lookup_set` and `FileTree.lookup_unset` say what a change does to every place.
* Each operation is a single step: it gives the next tree, or it fails and nothing is changed.
-/

set_option autoImplicit false

namespace PluginChain

/-- Why an operation on a file tree fails. -/
inductive FileError
  | missing
  | exists
  | notDirectory
  | isDirectory
  | nameTooLong
  | nulByte
  | notText
  deriving Repr, DecidableEq, Inhabited

def FileError.message : FileError → String
  | .missing => "No such file or directory (os error 2)"
  | .exists => "File exists (os error 17)"
  | .notDirectory => "Not a directory (os error 20)"
  | .isDirectory => "Is a directory (os error 21)"
  | .nameTooLong => "File name too long (os error 36)"
  | .nulByte => "file name contained an unexpected NUL byte"
  | .notText => "stream did not contain valid UTF-8"

/-- The names on the way from the root. -/
abbrev Place := List String

inductive FileEntry
  | directory
  | file (content : String)
  /-- A file whose bytes are no text. -/
  | binary
  deriving Repr, DecidableEq, Inhabited

structure FileTree where
  entries : List (Place × FileEntry) := []
  deriving Repr, Inhabited

namespace FileTree

/-- What is at a place. -/
def lookup (t : FileTree) (p : Place) : Option FileEntry :=
  if p = [] then some .directory else (t.entries.find? (·.1 = p)).map (·.2)

/-- The tree without what is at a place. -/
def unset (t : FileTree) (p : Place) : FileTree := ⟨t.entries.filter (·.1 ≠ p)⟩

/-- The tree with an entry at a place, instead of what was there. -/
def set (t : FileTree) (p : Place) (e : FileEntry) : FileTree := ⟨(p, e) :: (t.unset p).entries⟩

private theorem find?_filter_ne {p q : Place} (h : p ≠ q) (l : List (Place × FileEntry)) :
    (l.filter (·.1 ≠ p)).find? (·.1 = q) = l.find? (·.1 = q) := by
  induction l with
  | nil => rfl
  | cons a l ih =>
    by_cases ha : a.1 = p
    · have hn : a.1 ≠ q := fun e => h (ha.symm.trans e)
      simp_all
    · by_cases hb : a.1 = q <;> simp_all

theorem lookup_unset (t : FileTree) (p q : Place) (hq : q ≠ []) :
    (t.unset p).lookup q = if p = q then none else t.lookup q := by
  by_cases h : p = q
  · subst h
    have : (t.entries.filter (·.1 ≠ p)).find? (·.1 = p) = none := by
      simp [List.find?_eq_none]
    simp only [lookup, unset, hq, if_false, this, Option.map_none, if_true]
  · simp only [lookup, unset, hq, if_false, h, find?_filter_ne h]

theorem lookup_set (t : FileTree) (p q : Place) (e : FileEntry) (hq : q ≠ []) :
    (t.set p e).lookup q = if p = q then some e else t.lookup q := by
  by_cases h : p = q
  · simp [lookup, set, hq, h]
  · have := lookup_unset t p q hq
    simp only [lookup, hq, if_false, h] at this ⊢
    simp [set, h, this]

def isDirectory (t : FileTree) (p : Place) : Bool := t.lookup p = some .directory

def isThere (t : FileTree) (p : Place) : Bool := (t.lookup p).isSome

/-- The names in a directory. -/
def children (t : FileTree) (p : Place) : List String :=
  t.entries.filterMap fun (q, _) =>
    match q.getLast? with
    | some name => if q.dropLast = p then some name else none
    | none => none

/-- What one tree has to become another: the entry of each place where they differ. -/
def differences (old new : FileTree) : List (Place × Option FileEntry) :=
  let changed := new.entries.filter fun (p, e) => old.lookup p ≠ some e
  let gone := old.entries.filter fun (p, _) => !new.isThere p
  changed.map (fun (p, e) => (p, some e)) ++ gone.map fun (p, _) => (p, none)

/-! ## Paths in text form -/

def isAbsolute (path : String) : Bool := path.startsWith "/"

/-- A path continued by another one; an absolute one stands for itself. -/
def join (base path : String) : String :=
  if isAbsolute path then path
  else if base.isEmpty || base.endsWith "/" then base ++ path
  else base ++ "/" ++ path

/-- A character list cut at its slashes. -/
def cutAtSlashes : List Char → List (List Char)
  | [] => [[]]
  | c :: cs =>
    if c = '/' then [] :: cutAtSlashes cs
    else
      match cutAtSlashes cs with
      | [] => [[c]]
      | g :: gs => (c :: g) :: gs

/-- What stands between the slashes of a path. -/
def steps (path : String) : List String := (cutAtSlashes path.toList).map String.ofList

/-- The path of a place. -/
def pathOf (p : Place) : String := "/" ++ "/".intercalate p

/-- The path of the directory that a file is in. -/
def parentOf (path : String) : String := "/".intercalate (steps path).dropLast

/-- The last name in a path, if it ends in one. -/
def fileName? (path : String) : Option String :=
  match ((steps path).filter fun c => c ≠ "" ∧ c ≠ ".").getLast? with
  | some ".." | none => none
  | some name => some name

/-- What follows the last point of a name, where something stands before the point. -/
def suffix? (name : String) : Option String :=
  let reversed := name.toList.reverse
  match reversed.dropWhile (· ≠ '.') with
  | _ :: _ :: _ => some (String.ofList (reversed.takeWhile (· ≠ '.')).reverse)
  | _ => none

/-- One name further on a way.  Names can only be looked up in directories. -/
def enter (t : FileTree) (at_ : Place) (name : String) : Except FileError Place :=
  match t.lookup at_ with
  | none => .error .missing
  | some (.file _) | some .binary => .error .notDirectory
  | some .directory =>
    if name = "" ∨ name = "." then .ok at_
    else if name = ".." then .ok at_.dropLast
    else if 255 < name.utf8ByteSize then .error .nameTooLong
    else .ok (at_ ++ [name])

/-- The place that a path stands for, seen from a directory.  Its last name need not be there. -/
def locate (t : FileTree) (current : Place) (path : String) : Except FileError Place :=
  if path.any (· = '\x00') then .error .nulByte
  else if path = "" then .error .missing
  else if 4095 < path.utf8ByteSize then .error .nameTooLong
  else (steps path).foldlM (enter t) (if isAbsolute path then [] else current)

/-- Whether there is anything at a path. -/
def isThereAt (t : FileTree) (current : Place) (path : String) : Bool :=
  match t.locate current path with
  | .ok p => t.isThere p
  | .error _ => false

/-! ## Operations -/

/-- Why nothing can be at a place that is not there: something on the way to it is missing, or is a
file. -/
def absence (t : FileTree) (p : Place) : FileError :=
  let isFile (n : Nat) : Bool :=
    match t.lookup (p.take n) with
    | some (.file _) | some .binary => true
    | _ => false
  if (List.range p.length).any isFile then .notDirectory else .missing

def read (t : FileTree) (p : Place) : Except FileError String :=
  match t.lookup p with
  | none => .error (t.absence p)
  | some .directory => .error .isDirectory
  | some .binary => .error .notText
  | some (.file content) => .ok content

/-- The tree after a text was written to a file, which is made if it is not there. -/
def write (t : FileTree) (p : Place) (content : String) : Except FileError FileTree :=
  match t.lookup p.dropLast, t.lookup p with
  | some .directory, some .directory => .error .isDirectory
  | some .directory, _ => .ok (t.set p (.file content))
  | _, _ => .error (t.absence p)

/-- The tree after a file was opened for writing and left as it was. -/
def touch (t : FileTree) (p : Place) : Except FileError FileTree :=
  match t.lookup p with
  | some (.file _) | some .binary => .ok t
  | _ => t.write p ""

/-- The tree after a file took the place of another one. -/
def rename (t : FileTree) (source target : Place) : Except FileError FileTree :=
  match t.lookup source, t.lookup target.dropLast, t.lookup target with
  | none, _, _ => .error (t.absence source)
  | some .directory, _, _ => .error .notDirectory
  | some _, some .directory, some .directory => .error .isDirectory
  | some entry, some .directory, _ => .ok ((t.unset source).set target entry)
  | some _, _, _ => .error (t.absence target)

def remove (t : FileTree) (p : Place) : Except FileError FileTree :=
  match t.lookup p with
  | none => .error (t.absence p)
  | some .directory => .error .isDirectory
  | some _ => .ok (t.unset p)

/-- The tree with a directory at a place, which can be made where a directory is around it. -/
def makeDirectory (t : FileTree) (p : Place) : Except FileError FileTree :=
  match t.lookup p.dropLast, t.lookup p with
  | some .directory, some _ => .error .exists
  | some .directory, none => .ok (t.set p .directory)
  | _, _ => .error (t.absence p)

/-- The tree with a directory at a path, and with those on the way that were not there. -/
def makeDirectories (t : FileTree) (current : Place) (path : String) : Except FileError FileTree := do
  if path.any (· = '\x00') then throw .nulByte
  let start : Place := if isAbsolute path then [] else current
  let step (s : FileTree × Place) (name : String) : Except FileError (FileTree × Place) := do
    let p ← enter s.1 s.2 name
    if s.1.isThere p then return (s.1, p)
    else return (← s.1.makeDirectory p, p)
  let (t, p) ← (steps path).foldlM step (t, start)
  if t.isDirectory p then return t else throw .exists

end FileTree

end PluginChain
