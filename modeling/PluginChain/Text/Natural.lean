import PluginChain.Power

/-!
# Natural numbers in decimal digits

`natural?` reads a number of 64 bits: digits of ASCII, perhaps behind a plus sign, and nothing else.
-/

set_option autoImplicit false

namespace PluginChain.Text

/-- The number that decimal digits stand for. -/
def digits? (cs : List Char) : Option Nat :=
  if cs.isEmpty || cs.any (!·.isDigit) then none
  else some (cs.foldl (fun n c => 10 * n + (c.toNat - '0'.toNat)) 0)

def natural? (text : String) : Option Nat :=
  let digits := match text.toList with
    | '+' :: rest => rest
    | cs => cs
  (digits? digits).filter (· < 2 ^ 64)

theorem lt_of_natural? {text : String} {n : Nat} (h : natural? text = some n) : n < 2 ^ 64 := by
  simpa using (Option.filter_eq_some_iff.1 h).2

end PluginChain.Text
