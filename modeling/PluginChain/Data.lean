import PluginChain.Decimal.Layout

/-!
# Data

`Data` is the tree every document, plugin input and plugin output is: nothing, a flag, a whole
number, a double, a text, a list, or a table from names to data.  `1` and `1.0` are different data.

A table is a list of entries.  The order of the entries is the order in which a document shows them:
free-form tables are kept in the order of their names (`Entries.put`), while the record of a known
type has its fields in the order of the type.
-/

set_option autoImplicit false

namespace PluginChain

inductive Data
  | null
  | flag (b : Bool)
  | int (n : Int)
  | float (x : Float)
  | text (s : String)
  | list (items : List Data)
  | table (entries : List (String × Data))
  deriving Inhabited, BEq

/-! ## Entries in the order of their names -/

namespace Entries

variable {α : Type}

/-- Binds a name, in place of what it was bound to before. -/
def put (name : String) (value : α) : List (String × α) → List (String × α)
  | [] => [(name, value)]
  | (n, v) :: rest =>
    if name < n then (name, value) :: (n, v) :: rest
    else if name = n then (name, value) :: rest
    else (n, v) :: put name value rest

/-- What a name is bound to. -/
def get? (name : String) : List (String × α) → Option α
  | [] => none
  | (n, v) :: rest => if n = name then some v else get? name rest

/-- The entries without those of a name. -/
def erase (name : String) (es : List (String × α)) : List (String × α) :=
  es.filter (·.1 ≠ name)

/-- The entries in the order of their names; the last of several of one name stays. -/
def ofList (es : List (String × α)) : List (String × α) :=
  es.foldl (fun acc e => put e.1 e.2 acc) []

def names (es : List (String × α)) : List String := es.map (·.1)

/-- Reading after a write sees the write under its own name and what was there under any other. -/
theorem get?_put (name other : String) (value : α) (es : List (String × α)) :
    get? other (put name value es) = if name = other then some value else get? other es := by
  induction es with
  | nil => simp [put, get?]
  | cons e rest ih =>
    obtain ⟨n, v⟩ := e
    simp only [put]
    split
    · simp [get?]
    · split
      · next h =>
        subst h
        by_cases ho : name = other <;> simp [get?, ho]
      · next h =>
        simp only [get?, ih]
        by_cases ho : n = other
        · have : ¬ name = other := fun e => h (e.trans ho.symm)
          simp [ho, this]
        · simp [ho]

@[simp] theorem get?_put_self (name : String) (value : α) (es : List (String × α)) :
    get? name (put name value es) = some value := by
  simp [get?_put]

theorem get?_erase (name other : String) (es : List (String × α)) :
    get? other (erase name es) = if name = other then none else get? other es := by
  induction es with
  | nil => simp [erase, get?]
  | cons e rest ih =>
    obtain ⟨n, v⟩ := e
    simp only [erase, List.filter_cons] at ih ⊢
    by_cases hn : n = name
    · subst hn
      simp only [ne_eq, not_true_eq_false, decide_false, Bool.false_eq_true, if_false, ih, get?]
      by_cases ho : n = other <;> simp [ho]
    · simp only [ne_eq, hn, not_false_eq_true, decide_true, if_true, get?, ih]
      by_cases ho : n = other
      · have : ¬ name = other := fun e => hn (ho.trans e.symm)
        simp [ho, this]
      · simp [ho]

end Entries

namespace Data

/-- A table whose entries are put in the order of their names. -/
def ofEntries (es : List (String × Data)) : Data := .table (Entries.ofList es)

/-- The value of a field of a table. -/
def get? (name : String) : Data → Option Data
  | .table es => Entries.get? name es
  | _ => none

def text? : Data → Option String
  | .text s => some s
  | _ => none

def flag? : Data → Option Bool
  | .flag b => some b
  | _ => none

def natural? : Data → Option Nat
  | .int n => n.toNat?
  | _ => none

def list? : Data → Option (List Data)
  | .list xs => some xs
  | _ => none

def table? : Data → Option (List (String × Data))
  | .table es => some es
  | _ => none

/-- Nothing reads as absent, anything else as present. -/
def present? : Data → Option Data
  | .null => none
  | d => some d

end Data

end PluginChain
