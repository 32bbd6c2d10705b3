import PluginChain.Script.Library.Number
import PluginChain.Text.Case

/-!
# The library on texts and characters

Places and lengths count characters.
-/

set_option autoImplicit false

namespace PluginChain.Script.Library

/-- A text or a character as characters. -/
def chars? : Value → Option (List Char)
  | .text s => some s.toList
  | .char c => some [c]
  | _ => none

def text (cs : List Char) : Value := .text (String.ofList cs)

/-- The first place where a text stands in another. -/
def find? (needle : List Char) : List Char → Nat → Option Nat
  | [], i => if needle.isEmpty then some i else none
  | c :: rest, i =>
    if needle.isPrefixOf (c :: rest) then some i else find? needle rest (i + 1)

/-- The pieces of a text around each place where another stands in it. -/
def cutAt (needle : List Char) : Nat → List Char → List Char → List (List Char)
  | _, piece, [] => [piece.reverse]
  | skip + 1, piece, _ :: rest => cutAt needle skip piece rest
  | 0, piece, c :: rest =>
    if needle.isPrefixOf (c :: rest) then piece.reverse :: cutAt needle (needle.length - 1) [] rest
    else cutAt needle 0 (c :: piece) rest

/-- The pieces of a text.  An empty separator stands around every character. -/
def pieces (needle s : List Char) : List (List Char) :=
  if needle.isEmpty then [] :: s.map (fun c => [c]) ++ [[]] else cutAt needle 0 [] s

/-- At most `n` pieces, the last of which is not cut any further. -/
def firstPieces (needle s : List Char) (n : Nat) : List (List Char) :=
  let all := pieces needle s
  if n = 0 then []
  else if all.length ≤ n then all
  else all.take (n - 1) ++ [needle.intercalate (all.drop (n - 1))]

def reversedPieces (ps : List (List Char)) : List (List Char) := (ps.map List.reverse)

/-- A text with each place where another stands in it filled by a third. -/
def replaced (needle by_ s : List Char) : List Char := by_.intercalate (pieces needle s)

def texts (ps : List (List Char)) : Value := .list (ps.map text)

def flipped (cs : List Char) : List Char := cs.reverse

/-- Pieces counted from the end. -/
def lastPieces (needle s : List Char) (n : Option Nat) : List (List Char) :=
  let back := match n with
    | some n => firstPieces (flipped needle) (flipped s) n
    | none => pieces (flipped needle) (flipped s)
  reversedPieces back

/-- The two parts of a text around a place, which counts from the end if it is not positive. -/
def halves (s : List Char) (i : Int) : Value :=
  let k := if i ≤ 0 then s.length - min i.natAbs s.length else min i.toNat s.length
  texts [s.take k, s.drop k]

/-- A text filled up to a length. -/
def padded (most : Nat) (s : List Char) (size : Int) (filler : List Char) : Except Fault Value :=
  if most ≠ 0 && (most : Int) < size then .error (.tooLarge "Length of string")
  else if size.toNat ≤ s.length || filler.isEmpty then .ok (text s)
  else
    let lacking := size.toNat - s.length
    let fill := (List.replicate (lacking / filler.length + 1) filler).flatten
    .ok (text (s ++ fill.take lacking))

/-- The place of a text in another, from a place on. -/
def indexOf (needle s : List Char) (start : Int) : Value :=
  if s.isEmpty then .int (-1)
  else
    let (start, _) := stretch s.length start 0
    if s.length ≤ start then .int (-1)
    else match find? needle (s.drop start) start with
      | some i => .int i
      | none => .int (-1)

/-- The characters between blanks. -/
def wordsOf (s : String) : Value :=
  if s.isEmpty then .list [.text ""] else .list ((Text.words s).map .text)

def onText (limits : Limits) (name : String) (s : String) (args : List Value) : LibraryReply :=
  let cs := s.toList
  let most := limits.textSize
  let kept (cs : List Char) : LibraryReply := becomes (text cs)
  match name, args with
  | "len", [] => gives (.int cs.length)
  | "bytes", [] => gives (.int s.utf8ByteSize)
  | "is_empty", [] => gives (.flag cs.isEmpty)
  | "clear", [] => becomes (.text "")
  | "trim", [] => becomes (.text (Text.trim s))
  | "truncate", [.int n] => kept (cs.take n.toNat)
  | "pop", [] =>
    match cs.reverse with
    | [] => becomesAnd (.text s) .unit
    | c :: back => becomesAnd (text back.reverse) (.char c)
  | "pop", [.int n] =>
    let k := cs.length - min n.toNat cs.length
    becomesAnd (text (cs.take k)) (text (cs.drop k))
  | "remove", [v] => (chars? v).bind fun t => kept (if t.isEmpty then cs else replaced t [] cs)
  | "to_chars", [] => gives (.list (cs.map .char))
  | "chars", [] => gives (.series (.chars cs))
  | "split", [] => gives (wordsOf s)
  | "split", [.int i] => gives (halves cs i)
  | "split", [v] => (chars? v).bind fun t => gives (texts (pieces t cs))
  | "split", [v, .int n] =>
    (chars? v).bind fun t => gives (texts (firstPieces t cs (max n 1).toNat))
  | "split_rev", [v] => (chars? v).bind fun t => gives (texts (lastPieces t cs none))
  | "split_rev", [v, .int n] =>
    (chars? v).bind fun t => gives (texts (lastPieces t cs (some (max n 1).toNat)))
  | "to_upper", [] => gives (.text (Text.toUpper s))
  | "to_lower", [] => gives (.text (Text.toLower s))
  | "make_upper", [] => becomes (.text (Text.toUpper s))
  | "make_lower", [] => becomes (.text (Text.toLower s))
  | "starts_with", [.text t] => gives (.flag (t.toList.isPrefixOf cs))
  | "ends_with", [.text t] => gives (.flag (t.toList.isSuffixOf cs))
  | "contains", [v] => (chars? v).bind fun t => gives (.flag (find? t cs 0).isSome)
  | "index_of", [v] => (chars? v).bind fun t => gives (indexOf t cs 0)
  | "index_of", [v, .int start] => (chars? v).bind fun t => gives (indexOf t cs start)
  | "get", [.int i] =>
    gives (((place? cs.length i).bind (cs[·]?)).elim .unit .char)
  | "set", [.int i, .char c] =>
    kept (match place? cs.length i with
      | some k => cs.set k c
      | none => cs)
  | "replace", [v, w] =>
    (chars? v).bind fun t => (chars? w).bind fun u => kept (replaced t u cs)
  | "pad", [.int n, v] =>
    (chars? v).bind fun t => some ((padded most cs n t).map fun r => .changed r .unit)
  | "append", [v] | "+=", [v] => becomes (.text (s ++ v.shown))
  | "parse_int", [] => some ((parseInt 10 s).map .value)
  | "parse_int", [.int base] => some ((parseInt base s).map .value)
  | "parse_float", [] => some ((parseFloat s).map .value)
  | "sub_string", args =>
    (stretchOf? cs.length args).bind fun (start, n) => gives (text ((cs.drop start).take n))
  | "crop", args =>
    (stretchOf? cs.length args).bind fun (start, n) => kept ((cs.drop start).take n)
  | "chars", args =>
    (stretchOf? cs.length args).bind fun (start, n) =>
      gives (.series (.chars ((cs.drop start).take n)))
  | _, _ => none

/-- A character in another case, unless that takes more than one. -/
def single (c : Char) : List Char → Value
  | [d] => .char d
  | _ => .char c

def onChar (name : String) (c : Char) (args : List Value) : LibraryReply :=
  match name, args with
  | "to_upper", [] => gives (single c (Text.upperChar c))
  | "to_lower", [] => gives (single c (Text.lowerChar c))
  | "make_upper", [] => becomes (single c (Text.upperChar c))
  | "make_lower", [] => becomes (single c (Text.lowerChar c))
  | "to_int", [] => gives (.int c.toNat)
  | _, _ => none

end PluginChain.Script.Library
