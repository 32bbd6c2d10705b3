import PluginChain.Json.Reader
import PluginChain.Json.Writer
import PluginChain.Yaml.Reader
import PluginChain.Yaml.Writer

/-!
# Codecs

A `Codec` says how a type stands in documents: the shape of its documents, how a value becomes data,
and how data in the normal form of the shape becomes a value again.
-/

set_option autoImplicit false

namespace PluginChain

structure Codec (α : Type) where
  shape : Shape
  encode : α → Data
  decode? : Data → Option α

namespace Codec

variable {α : Type}

/-- Data of the right shape that nevertheless stands for no value. -/
def unreadable : Mismatch := .other "value out of range"

/-- The value of a JSON document. -/
def ofJson (c : Codec α) (text : String) : Except Json.Fault α :=
  match Json.read c.shape text with
  | .error f => .error f
  | .ok d =>
    match c.decode? d with
    | some a => .ok a
    | none => .error ⟨.mismatch unreadable, none⟩

/-- The value of a YAML document. -/
def ofYaml (c : Codec α) (text : String) : Except Yaml.Fault α :=
  match Yaml.read c.shape text with
  | .error f => .error f
  | .ok d =>
    match c.decode? d with
    | some a => .ok a
    | none => .error (.mismatch unreadable none)

/-- A value as a JSON document over several lines. -/
def toJson (c : Codec α) (a : α) : String := Json.pretty (c.encode a)

/-- A value as a YAML document. -/
def toYaml (c : Codec α) (a : α) : String := Yaml.write (c.encode a)

/-- Any data at all. -/
def data : Codec Data := ⟨.any, id, some⟩

/-- A table from names to values. -/
def table (c : Codec α) : Codec (List (String × α)) where
  shape := .table c.shape
  encode es := .table (es.map fun (n, a) => (n, c.encode a))
  decode?
    | .table es => es.mapM fun (n, d) => (c.decode? d).map fun a => (n, a)
    | _ => none

/-- A list of values. -/
def list (c : Codec α) : Codec (List α) where
  shape := .list c.shape
  encode xs := .list (xs.map c.encode)
  decode?
    | .list xs => xs.mapM c.decode?
    | _ => none

end Codec

/-! ## Fields of a record -/

namespace Data

/-- A field that may be absent: its value as data, if it has one. -/
def optional {α : Type} (name : String) (encode : α → Data) : Option α → List (String × Data)
  | none => []
  | some a => [(name, encode a)]

/-- The value of a field that may be absent, or nothing where it is there and cannot be read. -/
def optionalField? {α : Type} (name : String) (decode? : Data → Option α) (es : List (String × Data)) :
    Option (Option α) :=
  match Entries.get? name es with
  | none => some none
  | some .null => some none
  | some d => (decode? d).map some

/-- The value of a field that must be there. -/
def field? {α : Type} (name : String) (decode? : Data → Option α) (es : List (String × Data)) :
    Option α :=
  (Entries.get? name es).bind decode?

end Data

end PluginChain
