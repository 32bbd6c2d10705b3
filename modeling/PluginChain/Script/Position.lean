/-!
# Positions in a script

Lines and columns count from one, and a column is one character wide.  What has no place in the text
has the position `none`.
-/

set_option autoImplicit false

namespace PluginChain.Script

structure Position where
  line : Nat
  column : Nat
  deriving Repr, DecidableEq, Inhabited

namespace Position

def none : Position := ⟨0, 0⟩

def start : Position := ⟨1, 1⟩

def isTold (p : Position) : Bool := p.line != 0

/-- The position, unless it is none, and then another one. -/
def orElse (p q : Position) : Position := if p.isTold then p else q

def words (p : Position) : String :=
  if p.isTold then s!"line {p.line}, position {p.column}" else "none"

/-- The position as it stands behind a message. -/
def suffix (p : Position) : String :=
  if p.isTold then s!" ({p.words})" else ""

/-- The position behind a character. -/
def after (p : Position) (c : Char) : Position :=
  if c = '\n' then ⟨p.line + 1, 1⟩ else ⟨p.line, p.column + 1⟩

end Position

end PluginChain.Script
