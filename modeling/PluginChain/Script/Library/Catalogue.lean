import PluginChain.Script.Library.List
import PluginChain.Script.Library.Number
import PluginChain.Script.Library.Table
import PluginChain.Script.Library.Text

/-!
# The catalogue of the library

`Library.call?` is the library function of a name for its arguments, and `Library.property?` the
property of a value that is no table.
-/

set_option autoImplicit false

namespace PluginChain.Script.Library

def onRange (name : String) (first last : Int) (isClosed : Bool) (args : List Value) :
    LibraryReply :=
  let holds (n : Int) : Bool := first ≤ n && (if isClosed then n ≤ last else n < last)
  match name, args with
  | "start", [] => looks (.int first)
  | "end", [] => looks (.int last)
  | "is_inclusive", [] => looks (.flag isClosed)
  | "is_exclusive", [] => looks (.flag !isClosed)
  | "is_empty", [] => looks (.flag (if isClosed then last < first else last ≤ first))
  | "contains", [.int n] => looks (.flag (holds n))
  | "range", [.int step] =>
    if isClosed then none else some ((steps first last step).map .value)
  | _, _ => none

def onFunction (name f : String) (args : List Value) : LibraryReply :=
  match name, args with
  | "name", [] => looks (.text f)
  | "is_anonymous", [] => looks (.flag (isClosureName f))
  | _, _ => none

/-- Seconds between two points in time. -/
def elapsed (since now : Nat) : Value :=
  .float (Decimal.ofInt ((now : Int) - since) / 1000000000.0)

/-- Functions for values of any type. -/
def onAny (name : String) (v : Value) (args : List Value) : LibraryReply :=
  match name, v, args with
  | "to_string", v, [] | "print", v, [] => gives (.text v.shown)
  | "to_debug", v, [] | "debug", v, [] => gives (.text (v.detail false))
  | "take", v, [] => becomesAnd .unit v
  | name, v, [w] => extreme? name v w
  | _, _, _ => none

/-- Functions for values of one type. -/
def ofType (limits : Limits) (room : Option Nat) (now : Nat) (name : String) (v : Value) (args : List Value) :
    LibraryReply :=
  match v with
  | .int n => onInt name n args
  | .float x => onFloat name x args
  | .char c => onChar name c args
  | .text s => onText limits name s args
  | .list xs => onList limits room name xs args
  | .table es => onTable name es args
  | .range a b isClosed => onRange name a b isClosed args
  | .function f _ => onFunction name f args
  | .moment t => if name = "elapsed" && args.isEmpty then gives (elapsed t now) else none
  | _ => none

/-- The operator that an answer of the library may be, as a function of its name. -/
def asOperator (limits : Limits) (room : Option Nat) (name : String) (v : Value) (args : List Value) : LibraryReply :=
  let reply := match args with
    | [] => Operator.before? name v
    | [w] => Operator.between? limits.textSize room name v w
    | _ => none
  reply.map (Except.map .value)

/-- The library function of a name for a receiver and more arguments. -/
def call? (limits : Limits) (room : Option Nat) (now : Nat) (name : String) (v : Value) (args : List Value) :
    LibraryReply :=
  (ofType limits room now name v args).or <|
    (asOperator limits room name v args).or (onAny name v args)

/-- The library function of a name without arguments. -/
def constant? (now : Nat) (name : String) : Option Value :=
  match name with
  | "timestamp" => some (.moment now)
  | "PI" => some (.float 3.141592653589793)
  | "E" => some (.float 2.718281828459045)
  | _ => none

/-- The names that can be read as properties, by type. -/
def propertyNames : Value → List String
  | .int _ => ["is_odd", "is_even", "is_zero"]
  | .float _ => ["floor", "ceiling", "round", "int", "fraction", "is_nan", "is_finite",
    "is_infinite", "is_zero"]
  | .text _ => ["len", "bytes", "is_empty", "chars"]
  | .list _ => ["len", "is_empty"]
  | .range .. => ["start", "end", "is_inclusive", "is_exclusive", "is_empty"]
  | .function .. => ["name", "is_anonymous"]
  | .moment _ => ["elapsed"]
  | _ => []

/-- The property of a value that is no table. -/
def property? (limits : Limits) (now : Nat) (name : String) (v : Value) : Option Value :=
  if (propertyNames v).contains name then
    match ofType limits none now name v [] with
    | some (.ok a) => some a.result
    | _ => none
  else none

end PluginChain.Script.Library
