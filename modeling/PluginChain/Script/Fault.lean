import PluginChain.Script.Position
import PluginChain.Script.Value

/-!
# Faults of a running script

A `Fault` says what went wrong and a `Failure` also where.  `Failure.message` is the text a caller
sees, and `Failure.toValue` is what a `catch` gives its variable.
-/

set_option autoImplicit false

namespace PluginChain.Script

inductive Fault
  /-- A value that the script threw. -/
  | thrown (value : Value)
  | variableNotFound (name : String)
  | functionNotFound (signature : String)
  | moduleNotFound (name : String)
  | unboundThis
  | notIterable
  | wrongType (actual expected : String)
  | arithmetic (why : String)
  /-- A text that was to be read as code cannot be. -/
  | unreadable (why : String)
  | listBounds (size : Nat) (index : Int)
  | textBounds (size : Nat) (index : Int)
  | bitBounds (index : Int)
  | indexing (why : String)
  | property (why : String)
  | constant (name : String)
  | impure (method : String)
  /-- A native function refused its arguments. -/
  | refused (why : String)
  | tooManyOperations
  | stackOverflow
  | tooLarge (what : String)
  /-- A fault in a function that was called. -/
  | inCall (function : String) (cause : Fault) (place : Position)
  deriving Inhabited

structure Failure where
  fault : Fault
  place : Position := Position.none
  deriving Inhabited

/-- The name of a closure ends in its number. -/
def closureName (n : Nat) : String := s!"anon${n}"

def isClosureName (name : String) : Bool := name.startsWith "anon$"

namespace Fault

def counted (n : Nat) (unit : String) : String :=
  toString n ++ " " ++ unit ++ if n = 1 then "" else "s"

def message : Fault → String
  | .thrown v =>
    let t := v.thrownText
    if t = "" then "Runtime error" else s!"Runtime error: {t}"
  | .variableNotFound x => s!"Variable not found: {x}"
  | .functionNotFound f => s!"Function not found: {f}"
  | .moduleNotFound m => s!"Module not found: {m}"
  | .unboundThis => "'this' not bound"
  | .notIterable => "For loop expects iterable type"
  | .wrongType actual expected => s!"Data type incorrect: {actual} (expecting {expected})"
  | .arithmetic why => why
  | .unreadable why => s!"Syntax error: {why}"
  | .listBounds 0 i => s!"Array index {i} out of bounds: array is empty"
  | .listBounds n i =>
    s!"Array index {i} out of bounds: only " ++ counted n "element" ++ " in array"
  | .textBounds 0 i => s!"String index {i} out of bounds: string is empty"
  | .textBounds n i =>
    s!"String index {i} out of bounds: only " ++ counted n "character" ++ " in string"
  | .bitBounds i => s!"Bit-field index {i} out of bounds: only 64 bits in bit-field"
  | .indexing why => s!"Indexer unavailable: {why}"
  | .property why => why
  | .constant x => s!"Cannot modify constant {x}"
  | .impure m => s!"Non-pure method '{m}' cannot be called on constant"
  | .refused why => why
  | .tooManyOperations => "Too many operations"
  | .stackOverflow => "Stack overflow"
  | .tooLarge what => s!"{what} too large"
  | .inCall f cause place =>
    let call := if isClosureName f then "closure call" else s!"call to function '{f}'"
    s!"{cause.message}{place.suffix}\nin {call}"

/-- Faults of the sandbox itself and of code, which a script cannot catch. -/
def isOfSandbox : Fault → Bool
  | .tooManyOperations | .stackOverflow | .tooLarge _ | .unreadable _ => true
  | _ => false

/-- The fault at the bottom of all calls. -/
def root : Fault → Fault
  | .inCall _ cause _ => root cause
  | f => f

/-- The word for the kind of a fault, and what else a script is told about it. -/
def kindAndFields : Fault → String × List (String × Value)
  | .thrown _ => ("ErrorRuntime", [])
  | .variableNotFound x => ("ErrorVariableNotFound", [("variable", .text x)])
  | .functionNotFound f => ("ErrorFunctionNotFound", [("function", .text f)])
  | .moduleNotFound m => ("ErrorModuleNotFound", [("module", .text m)])
  | .unboundThis => ("ErrorUnboundThis", [])
  | .notIterable => ("ErrorFor", [])
  | .wrongType actual expected =>
    ("ErrorMismatchDataType", [("requested", .text expected), ("actual", .text actual)])
  | .arithmetic _ => ("ErrorArithmetic", [])
  | .unreadable why => ("ErrorParsing", [("source", .text why)])
  | .listBounds n i => ("ErrorArrayBounds", [("length", .int n), ("index", .int i)])
  | .textBounds n i => ("ErrorStringBounds", [("length", .int n), ("index", .int i)])
  | .bitBounds i => ("ErrorBitFieldBounds", [("length", .int 64), ("index", .int i)])
  | .indexing t => ("ErrorIndexingType", [("type", .text t)])
  | .property p => ("ErrorDotExpr", [("property", .text p)])
  | .constant x => ("ErrorAssignmentToConstant", [("variable", .text x)])
  | .impure m => ("ErrorNonPureMethodCallOnConstant", [("function", .text m)])
  | .refused _ => ("ErrorSystem", [])
  | .tooManyOperations => ("ErrorTooManyOperations", [])
  | .stackOverflow => ("ErrorStackOverflow", [])
  | .tooLarge t => ("ErrorDataTooLarge", [("type", .text t)])
  | .inCall f _ _ => ("ErrorInFunctionCall", [("function", .text f), ("source", .text "")])

end Fault

namespace Failure

def message (e : Failure) : String := e.fault.message ++ e.place.suffix

/-- The failure, at a place unless it already has one. -/
def orAt (e : Failure) (p : Position) : Failure := { e with place := e.place.orElse p }

/-- What a `catch` is given: the value that was thrown, or a table about the fault. -/
def toValue (e : Failure) : Value :=
  match e.fault.root with
  | .thrown v => v
  | _ =>
    let (kind, fields) := e.fault.kindAndFields
    let told := if e.place.isTold then
      [("line", Value.int e.place.line), ("position", .int e.place.column)] else []
    .table (Entries.ofList
      ([("error", .text kind), ("message", .text e.fault.message)] ++ told ++ fields))

end Failure

end PluginChain.Script
