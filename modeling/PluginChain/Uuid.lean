import PluginChain.Power

/-!
# Job identities

An identity is a 128-bit number, written as 32 hexadecimal digits in five groups.  It is read with
hyphens or without, in braces or behind `urn:uuid:`, and its letters in either case.  `UuidError` says
why a text is none.
-/

set_option autoImplicit false

namespace PluginChain

/-- A 128-bit identity. -/
structure Uuid where
  value : Nat
  deriving Repr, DecidableEq, Inhabited, BEq, Hashable

/-- Why a text is not an identity. -/
inductive UuidError
  | character (c : Char) (index : Nat)
  | simpleLength (length : Nat)
  | groupCount (count : Nat)
  | groupLength (group expected found : Nat)
  deriving Repr, DecidableEq, Inhabited

def UuidError.message : UuidError → String
  | .character c index => s!"invalid character: found `{c}` at {index}"
  | .simpleLength n => s!"invalid length: expected length 32 for simple format, found {n}"
  | .groupCount n => s!"invalid group count: expected 5, found {n}"
  | .groupLength g e n => s!"invalid group length in group {g}: expected {e}, found {n}"

namespace Uuid

def digitValue? (c : Char) : Option Nat :=
  if '0' ≤ c ∧ c ≤ '9' then some (c.toNat - 48)
  else if 'a' ≤ c ∧ c ≤ 'f' then some (c.toNat - 87)
  else if 'A' ≤ c ∧ c ≤ 'F' then some (c.toNat - 55)
  else none

def number? (cs : List Char) : Option Nat :=
  cs.foldlM (fun n c => (digitValue? c).map (16 * n + ·)) 0

/-- The number of digits in each group. -/
def groupSizes : List Nat := [8, 4, 4, 4, 12]

/-- A character list cut at its hyphens. -/
def groups (cs : List Char) : List (List Char) :=
  cs.foldr (fun c acc =>
    if c = '-' then [] :: acc
    else match acc with
      | [] => [[c]]
      | g :: gs => (c :: g) :: gs) [[]]

/-- The digits within braces or behind the marker, and how many characters stand before them. -/
def unwrapped (cs : List Char) : List Char × Nat :=
  let marker := "urn:uuid:".toList
  match cs with
  | '\x7b' :: rest =>
    if rest.getLast? = some '\x7d' then (rest.dropLast, 1) else (cs, 0)
  | _ => if marker.isPrefixOf cs then (cs.drop marker.length, marker.length) else (cs, 0)

/-- The place of the first character that is neither a digit nor a hyphen. -/
def stray? (cs : List Char) : Option (Char × Nat) :=
  (cs.zipIdx).find? fun (c, _) => (digitValue? c).isNone && c != '-'

/-- The first group of the wrong size. -/
def wrongGroup? (gs : List (List Char)) : Option UuidError :=
  ((gs.zip groupSizes).zipIdx).findSome? fun ((g, n), i) =>
    if g.length = n then none else some (.groupLength i n g.length)

/-- Reads an identity. -/
def parse (s : String) : Except UuidError Uuid :=
  let (cs, start) := unwrapped s.toList
  let gs := groups cs
  match stray? cs with
  | some (c, i) => .error (.character c (start + i))
  | none =>
    if gs.length = 1 then
      if cs.length = 32 then
        match number? cs with
        | some n => .ok ⟨n⟩
        | none => .error (.simpleLength cs.length)
      else if start = 0 then .error (.simpleLength cs.length)
      else .error (.groupCount 1)
    else if gs.length = 5 then
      match wrongGroup? gs with
      | some e => .error e
      | none =>
        match number? gs.flatten with
        | some n => .ok ⟨n⟩
        | none => .error (.groupCount 5)
    else .error (.groupCount gs.length)

def hexDigit (n : Nat) : Char :=
  if n < 10 then Char.ofNat (48 + n) else Char.ofNat (87 + n)

/-- `count` hexadecimal digits, the last of them first. -/
def hexReversed : Nat → Nat → List Char
  | 0, _ => []
  | count + 1, n => hexDigit (n % 16) :: hexReversed count (n / 16)

/-- The written form: lower case, with hyphens. -/
def toText (u : Uuid) : String :=
  let ds := (hexReversed 32 u.value).reverse
  let part (start count : Nat) : String := String.ofList ((ds.drop start).take count)
  "-".intercalate [part 0 8, part 8 4, part 12 4, part 16 4, part 20 12]

/-- Marks sixteen random bytes as a random identity: version four, variant one. -/
def ofRandom (bits : Nat) : Uuid :=
  let low := bits % 2 ^ 62
  let middle := bits / 2 ^ 62 % 2 ^ 12
  let high := bits / 2 ^ 74 % 2 ^ 48
  ⟨high * 2 ^ 80 + 4 * 2 ^ 76 + middle * 2 ^ 64 + 2 * 2 ^ 62 + low⟩

end Uuid

end PluginChain
