/-!
# The activity gauge

How many executions are under way, and how many there were at most at one time.

* `Gauge.Sound` says that the peak is never below the current count; `enter` and `leave` keep it.
-/

set_option autoImplicit false

namespace PluginChain

structure Gauge where
  current : Nat := 0
  peak : Nat := 0
  deriving Repr, DecidableEq, Inhabited

namespace Gauge

/-- One execution more is under way. -/
def raise (g : Gauge) : Gauge := { g with current := g.current + 1 }

/-- A count that was seen is no more than the peak. -/
def note (g : Gauge) (seen : Nat) : Gauge := { g with peak := max g.peak seen }

/-- An execution begins: it is counted, and then the count is noted. -/
def enter (g : Gauge) : Gauge := g.raise.note g.raise.current

/-- An execution ends. -/
def leave (g : Gauge) : Gauge := ⟨g.current - 1, g.peak⟩

/-- All executions end. -/
def clear (g : Gauge) : Gauge := ⟨0, g.peak⟩

def Sound (g : Gauge) : Prop := g.current ≤ g.peak

theorem sound_enter (g : Gauge) : g.enter.Sound := by
  simp only [Sound, enter, raise, note]; omega

theorem Sound.leave {g : Gauge} (h : g.Sound) : g.leave.Sound := by
  simp only [Sound, Gauge.leave] at *; omega

/-- An execution that ends leaves the count as it found it. -/
theorem current_leave_enter (g : Gauge) : g.enter.leave.current = g.current := by
  simp [enter, raise, note, Gauge.leave]

end Gauge

end PluginChain
