import PluginChain.Power
import PluginChain.Text.Blank

/-!
# Instants

An instant of universal time: seconds since the start of 1970 and nanoseconds within the second, where
a leap second counts as a second billion of nanoseconds within the second before it.

* `Instant.parse` reads a date, a time of day and an offset in the form of RFC 3339, with blanks
  allowed between the parts.
* `Instant.toText` writes universal time with no digits behind the second, or three, six or nine of
  them, as few as show the instant exactly.
* `civil` and `dayNumber` turn days into dates and back.
-/

set_option autoImplicit false

namespace PluginChain

structure Instant where
  seconds : Int
  nanos : Nat
  deriving Repr, DecidableEq, Inhabited

/-- Why a text is not an instant. -/
inductive InstantError
  | outOfRange
  | impossible
  | invalid
  | tooShort
  | tooLong
  deriving Repr, DecidableEq, Inhabited

def InstantError.message : InstantError → String
  | .outOfRange => "input is out of range"
  | .impossible => "no possible date and time matching input"
  | .invalid => "input contains invalid characters"
  | .tooShort => "premature end of input"
  | .tooLong => "trailing input"

namespace Instant

/-- Earlier instants come first. -/
def compare (a b : Instant) : Ordering :=
  if a.seconds < b.seconds then .lt
  else if b.seconds < a.seconds then .gt
  else if a.nanos < b.nanos then .lt
  else if b.nanos < a.nanos then .gt
  else .eq

/-! ## Days and dates -/

/-- The number of the day of a date, day zero being the first of 1970.  Years count from March, so
that the leap day is the last of its year. -/
def dayNumber (year : Int) (month day : Nat) : Int :=
  let y := if month ≤ 2 then year - 1 else year
  let era := y / 400
  let yoe := y - era * 400
  let m : Int := ((month : Int) + 9) % 12
  let doy := (153 * m + 2) / 5 + (day : Int) - 1
  let doe := yoe * 365 + yoe / 4 - yoe / 100 + doy
  era * 146097 + doe - 719468

/-- The year, month and day of a day. -/
def civil (days : Int) : Int × Nat × Nat :=
  let z := days + 719468
  let era := z / 146097
  let doe := z - era * 146097
  let yoe := (doe - doe / 1460 + doe / 36524 - doe / 146096) / 365
  let doy := doe - (365 * yoe + yoe / 4 - yoe / 100)
  let mp := (5 * doy + 2) / 153
  let d := doy - (153 * mp + 2) / 5 + 1
  let m := if mp < 10 then mp + 3 else mp - 9
  let y := yoe + era * 400
  (if m ≤ 2 then y + 1 else y, m.toNat, d.toNat)

/-- The first second of the years that can be told. -/
def firstSecond : Int := dayNumber (-262143) 1 1 * 86400

/-- The last second of the years that can be told. -/
def lastSecond : Int := dayNumber 262142 12 31 * 86400 + 86399

def isLeap (year : Int) : Bool :=
  year % 4 = 0 && (year % 100 ≠ 0 || year % 400 = 0)

def daysIn (year : Int) (month : Nat) : Nat :=
  if month = 2 then (if isLeap year then 29 else 28)
  else if month = 4 ∨ month = 6 ∨ month = 9 ∨ month = 11 then 30
  else 31

/-! ## Writing -/

/-- A natural number with leading zeros up to a width. -/
def padded (width n : Nat) : String :=
  let ds := Nat.toDigits 10 n
  String.ofList (List.replicate (width - ds.length) '0' ++ ds)

/-- A year of four digits, with a sign where they do not suffice. -/
def yearText (year : Int) : String :=
  if 0 ≤ year ∧ year ≤ 9999 then padded 4 year.toNat
  else (if year < 0 then "-" else "+") ++ padded 4 year.natAbs

/-- The date and the time of day, with a separator between them. -/
def dateTimeText (i : Instant) (separator : String) : String :=
  let days := i.seconds / 86400
  let s := (i.seconds - days * 86400).toNat
  let (y, m, d) := civil days
  let second := s % 60 + (if 10 ^ 9 ≤ i.nanos then 1 else 0)
  yearText y ++ "-" ++ padded 2 m ++ "-" ++ padded 2 d ++ separator ++ padded 2 (s / 3600) ++ ":" ++
    padded 2 (s / 60 % 60) ++ ":" ++ padded 2 second

/-- The digits behind the second, as few as show a number of nanoseconds exactly. -/
def fractionText (n : Nat) : String :=
  if n = 0 then ""
  else if n % 10 ^ 6 = 0 then "." ++ padded 3 (n / 10 ^ 6)
  else if n % 10 ^ 3 = 0 then "." ++ padded 6 (n / 10 ^ 3)
  else "." ++ padded 9 n

/-- The written form. -/
def toText (i : Instant) : String := i.dateTimeText "T" ++ fractionText (i.nanos % 10 ^ 9) ++ "Z"

/-! ## Reading -/

abbrev Step (α : Type) := List Char → Except InstantError (α × List Char)

def isDigit (c : Char) : Bool := '0' ≤ c && c ≤ '9'

def valueOf (ds : List Char) : Nat := ds.foldl (fun n d => 10 * n + (d.toNat - 48)) 0

/-- A number of one digit up to `most` digits. -/
def number (most : Option Nat) : Step Nat := fun cs =>
  let all := cs.takeWhile isDigit
  let ds := match most with
    | some n => all.take n
    | none => all
  if ds.isEmpty then .error (if cs.isEmpty then .tooShort else .invalid)
  else if 2 ^ 63 ≤ valueOf ds then .error .outOfRange
  else .ok (valueOf ds, cs.drop ds.length)

/-- A number of two digits within bounds, behind blanks. -/
def field (low high : Nat) : Step Nat := fun cs => do
  let (n, rest) ← number (some 2) (Text.dropBlanks cs)
  if low ≤ n ∧ n ≤ high then return (n, rest) else throw .outOfRange

/-- A year of up to four digits, or of any number of digits behind a sign. -/
def year : Step Int := fun cs =>
  match Text.dropBlanks cs with
  | '-' :: rest => do
    let (n, rest) ← number none rest
    return (-(n : Int), rest)
  | '+' :: rest => do
    let (n, rest) ← number none rest
    return ((n : Int), rest)
  | cs => do
    let (n, rest) ← number (some 4) cs
    return ((n : Int), rest)

/-- One given character, behind blanks. -/
def mark (wanted : Char) : Step Unit := fun cs =>
  match Text.dropBlanks cs with
  | [] => .error .tooShort
  | c :: rest => if c = wanted then .ok ((), rest) else .error .invalid

/-- The nanoseconds behind a point, of which nine digits count. -/
def fractionOf : Step Nat := fun cs =>
  match cs with
  | '.' :: rest => do
    let (_, after) ← number (some 9) rest
    let count := rest.length - after.length
    return (valueOf (rest.take count) * Nat.pow 10 (9 - count), after.dropWhile isDigit)
  | _ => .ok (0, cs)

/-- Two digits. -/
def twoDigits? : List Char → Option (Option Nat × List Char)
  | a :: b :: rest => some (if isDigit a ∧ isDigit b then some (valueOf [a, b]) else none, rest)
  | _ => none

/-- An offset from universal time, in seconds. -/
def offset : Step Int := fun cs =>
  match cs with
  | 'Z' :: rest | 'z' :: rest => .ok (0, rest)
  | [] => .error .tooShort
  | c :: rest =>
    if c = '+' ∨ c = '-' ∨ c = '−' then
      match twoDigits? rest with
      | none => .error .tooShort
      | some (none, _) => .error .invalid
      | some (some hours, rest) =>
        match twoDigits? (rest.dropWhile fun c => c == ':' || Text.isBlank c) with
        | none => .error .tooShort
        | some (none, _) => .error .invalid
        | some (some minutes, rest) =>
          if 60 ≤ minutes then .error .outOfRange
          else
            let s : Int := hours * 3600 + minutes * 60
            .ok (if c = '+' then s else -s, rest)
    else .error .invalid

/-- Whether a text starts with the name of universal time. -/
def zoneName? : List Char → Option (List Char)
  | a :: b :: c :: rest =>
    if [a, b, c].map Char.toUpper = ['U', 'T', 'C'] then some rest else none
  | _ => none

/-- A year, a month and a day. -/
def date : Step (Int × Nat × Nat) := fun cs => do
  let (y, cs) ← year cs
  if y < -(2 ^ 31) ∨ 2 ^ 31 ≤ y then throw .outOfRange
  let (_, cs) ← mark '-' cs
  let (mo, cs) ← field 1 12 cs
  let (_, cs) ← mark '-' cs
  let (d, cs) ← field 1 31 cs
  return ((y, mo, d), cs)

/-- What stands between a date and a time of day. -/
def separator : Step Unit
  | [] => .error .tooShort
  | c :: rest => if c = 'T' ∨ c = 't' ∨ c = ' ' then .ok ((), rest) else .error .invalid

/-- An hour, a minute, a second and nanoseconds. -/
def timeOfDay : Step (Nat × Nat × Nat × Nat) := fun cs => do
  let (h, cs) ← field 0 23 cs
  let (_, cs) ← mark ':' cs
  let (mi, cs) ← field 0 59 cs
  let (_, cs) ← mark ':' cs
  let (sec, cs) ← field 0 60 cs
  let (nanos, cs) ← fractionOf cs
  return ((h, mi, sec, nanos), cs)

/-- The name of universal time, or an offset from it, behind blanks. -/
def zone : Step Int := fun cs =>
  let cs := Text.dropBlanks cs
  match zoneName? cs with
  | some rest => .ok (0, rest)
  | none => offset cs

/-- The instant of a date and a time of day, if there is one. -/
def ofParts (y : Int) (mo d h mi sec nanos : Nat) (shift : Int) : Except InstantError Instant :=
  let (sec, nanos) := if sec = 60 then (59, nanos + 10 ^ 9) else (sec, nanos)
  let seconds := dayNumber y mo d * 86400 + h * 3600 + mi * 60 + sec - shift
  if daysIn y mo < d ∨ y < -262143 ∨ 262142 < y then .error .outOfRange
  else if shift ≤ -86400 ∨ 86400 ≤ shift then .error .outOfRange
  else if seconds < firstSecond ∨ lastSecond < seconds then .error .impossible
  else .ok ⟨seconds, nanos⟩

/-- Reads an instant. -/
def parse (s : String) : Except InstantError Instant := do
  let ((y, mo, d), cs) ← date s.toList
  let (_, cs) ← separator cs
  let ((h, mi, sec, nanos), cs) ← timeOfDay cs
  let (shift, cs) ← zone cs
  if !(Text.dropBlanks cs).isEmpty then throw .tooLong
  ofParts y mo d h mi sec nanos shift

end Instant

end PluginChain
