import PluginChain.Duration

/-!
# Settings of the engine

How long a script may run, and how many steps may run at once.
-/

set_option autoImplicit false

namespace PluginChain

structure Settings where
  timeout : Duration := .ofMillis 5000
  maxParallel : Nat := 10
  deriving Repr, DecidableEq, Inhabited

/-- What is wrong with settings. -/
inductive SettingsError
  | noTime
  | noStep
  deriving Repr, DecidableEq, Inhabited

def SettingsError.message : SettingsError → String
  | .noTime => "execution timeout must be greater than zero"
  | .noStep => "max_parallel must be at least 1"

namespace Settings

/-- A script needs some time, and one step must be allowed to run. -/
def validate (s : Settings) : Except SettingsError Unit :=
  if s.timeout.isZero then .error .noTime
  else if s.maxParallel < 1 then .error .noStep
  else .ok ()

theorem validate_eq_ok_iff (s : Settings) :
    s.validate = .ok () ↔ 0 < s.timeout.nanos ∧ 0 < s.maxParallel := by
  unfold validate Duration.isZero
  by_cases h : s.timeout.nanos = 0
  · simp [h]
  · by_cases hp : s.maxParallel < 1
    · have : s.maxParallel = 0 := by omega
      simp [h, this]
    · have : 0 < s.timeout.nanos ∧ 0 < s.maxParallel := by omega
      simp [h, hp, this]

end Settings

end PluginChain
