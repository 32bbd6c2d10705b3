import PluginChain.Script.Grammar

/-!
# Documents as literals

A script reads a document by the grammar of its own literals.  A brace opens a table, `null` is the
unit, the name of an entry stands in quotes, and the whole has to be a table.
-/

set_option autoImplicit false

namespace PluginChain.Script.Document

open Reader

/-- What a token of a document is in a literal. -/
def literalToken : Token → Token
  | .sym "\x7b" => .sym "#\x7b"
  | .reserved "null" => .sym "()"
  | .name _ => .bad (.improper SyntaxFault.noProperty.message)
  | .sym "#\x7b" | .sym "()" | .template _ => .bad (.improper "Invalid JSON syntax")
  | t => t

/-- An expression that nothing follows. -/
def whole (g : Rules) (f : Frame) : Reader Expr := do
  let e ← g.expr f
  match ← peek with
  | (.ending, _) => return e
  | (.bad why, p) => fail (.token why) p
  | (t, p) => fail (.token (.unexpected (Grammar.tokenText t))) p

/-- The literal that a document stands for. -/
def read (limits : Limits) (s : String) : Except SyntaxError Expr :=
  let body := Text.trimLeft s
  if !body.startsWith "\x7b" then
    .error ⟨.missing "\x7b" "to start a JSON object hash",
      ⟨1, s.utf8ByteSize - body.utf8ByteSize + 1⟩⟩
  else
    let tokens := (Token.scan limits.textSize body).map fun (t, p) => (literalToken t, p)
    let frame : Frame := { level := 0, most := limits.depth, pos := Position.none }
    match (whole (Rules.tower (16 * (tokens.length + 4))) frame).run { tokens, limits } with
    | .ok e _ => .ok e
    | .error e _ => .error e

end PluginChain.Script.Document
