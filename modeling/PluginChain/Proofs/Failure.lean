import PluginChain.Error
import PluginChain.Proofs.Configuration
import PluginChain.Proofs.Yaml.Given

/-!
# Failures and errors

What ends a script is told as the failure of a step, and the failure of a step as an error of the engine.
A failure has room for a 64-bit number of milliseconds and no more, so that a limit may lose something on
its way there; on the way from a failure to an error nothing is lost.

* `ChainError.toFailure_of_execution` and `ChainError.ofFailure_injective` are the way from a failure.
* `ChainError.ofFailure_timeout` says which limit comes back, and `Duration.ofMillis_millis64_eq_iff` when
  it is the one that was told.
* `Configuration.exists_timeout` says that a limit that a configuration sets is one of these, since neither
  a file nor the environment can give a greater number.
-/

set_option autoImplicit false

namespace PluginChain

namespace Duration

/-- Whole milliseconds are those of the seconds, and what the rest has of them. -/
theorem millis_ofSeconds (seconds nanos : Nat) :
    (ofSeconds seconds nanos).millis = seconds * 1000 + nanos / 10 ^ 6 := by
  simp only [ofSeconds, millis]
  omega

/-- Milliseconds in seconds and a rest that is less than one. -/
theorem ofMillis_eq_ofSeconds (ms : Nat) :
    ofMillis ms = ofSeconds (ms / 1000) (ms % 1000 * 10 ^ 6) ∧ ms % 1000 * 10 ^ 6 < 10 ^ 9 := by
  simp only [ofMillis, ofSeconds, Duration.mk.injEq]
  omega

theorem millis64_lt (d : Duration) : d.millis64 < 2 ^ 64 := Nat.mod_lt _ (by decide)

/-- What is left of a duration in a failure is no more than it was. -/
theorem ofMillis_millis64_le (d : Duration) : (ofMillis d.millis64).nanos ≤ d.nanos :=
  calc d.millis64 * 10 ^ 6 ≤ d.millis * 10 ^ 6 := Nat.mul_le_mul_right _ (Nat.mod_le _ _)
    _ ≤ d.nanos := Nat.div_mul_le_self _ _

theorem millis64_ofMillis {ms : Nat} (h : ms < 2 ^ 64) : (ofMillis ms).millis64 = ms := by
  rw [millis64, millis_ofMillis, Nat.mod_eq_of_lt h]

/-- Nothing is lost of a whole number of milliseconds that is small enough, and of nothing else. -/
theorem ofMillis_millis64_eq_iff (d : Duration) :
    ofMillis d.millis64 = d ↔ ∃ ms < 2 ^ 64, d = ofMillis ms := by
  constructor
  · intro h
    exact ⟨d.millis64, d.millis64_lt, h.symm⟩
  · rintro ⟨ms, hms, rfl⟩
    rw [millis64_ofMillis hms]

end Duration

namespace ChainError

/-- A failure that is told as an error of a script is what the error is told as. -/
theorem toFailure_of_execution {f : StepFailure} {why : ExecutionError} (h : ofFailure f = .execution why) :
    why.toFailure = f := by
  cases f with
  | pluginNotFound plugin => cases h
  | invalidStep step reason => cases h
  | timeout millis =>
    cases h
    rw [ExecutionError.toFailure, Duration.millis64_ofMillis millis.toNat_lt]
    exact congrArg StepFailure.timeout (UInt64.ofNat_toNat)
  | runtime message =>
    cases h
    rfl

theorem ofFailure_injective : Function.Injective ofFailure := by
  intro f g h
  cases f with
  | timeout millis => exact (toFailure_of_execution rfl).symm.trans (toFailure_of_execution h.symm)
  | runtime message => exact (toFailure_of_execution rfl).symm.trans (toFailure_of_execution h.symm)
  | pluginNotFound plugin =>
    cases g with
    | pluginNotFound plugin' => rw [ChainError.pluginNotFound.inj h]
    | _ => exact ChainError.noConfusion h
  | invalidStep step reason =>
    cases g with
    | invalidStep step' reason' =>
      obtain ⟨rfl, rfl⟩ := ChainError.invalidStep.inj h
      rfl
    | _ => exact ChainError.noConfusion h

/-- The limit that comes back. -/
theorem ofFailure_timeout (d : Duration) :
    ofFailure (ExecutionError.timeout d).toFailure = .execution (.timeout (.ofMillis d.millis64)) := by
  rw [ExecutionError.toFailure, ofFailure]
  congr 3
  exact UInt64.toNat_ofNat_of_lt' d.millis64_lt

end ChainError

/-! ## Limits that are set -/

namespace ConfigFile

open Yaml

/-- A field that has a value has one that can be read. -/
theorem exists_of_optionalField? {α : Type} {name : String} {decode? : Data → Option α}
    {es : List (String × Data)} {a : α} (h : Data.optionalField? name decode? es = some (some a)) :
    ∃ d, Entries.get? name es = some d ∧ d ≠ .null ∧ decode? d = some a := by
  rw [Data.optionalField?] at h
  split at h
  · cases h
  · cases h
  · next d hnull hd =>
    obtain ⟨a', ha, heq⟩ := Option.map_eq_some_iff.1 h
    exact ⟨d, hd, hnull, ha.trans heq⟩

/-- A number that is not there, or below `2 ^ 64`. -/
def IsSmall (d : Data) : Prop := d = .null ∨ ∃ n : Nat, d = .int n ∧ n < 2 ^ 64

theorem grants_engine (levels : Nat) (path : Path) :
    Grants (readerOf engineShape levels false path) fun d =>
      ∃ es, d = .table es ∧ EachField (fun _ => IsSmall) es := by
  refine grants_record (allGrant_fieldReaders ?_ ?_) levels path "EngineConfig"
  · simp only [List.forall_mem_cons]
    exact ⟨fun levels path => (grants_natural path "u64").maybe,
      fun levels path => (grants_natural path "usize").maybe, nofun⟩
  · simp only [List.forall_mem_cons, Option.some.injEq, forall_eq']
    exact ⟨Or.inl rfl, Or.inl rfl, nofun⟩

/-- What the file says of the engine. -/
theorem grants_file (path : Path) :
    Grants (readerOf codec.shape maxLevels false path) fun d =>
      ∃ es, d = .table es ∧ EachField (fun name d => name = "engine" →
        d = .null ∨ ∃ engine, d = .table engine ∧ EachField (fun _ => IsSmall) engine) es := by
  refine grants_record (allGrant_fieldReaders ?_ ?_) maxLevels path "ConfigFile"
  · simp only [List.forall_mem_cons]
    exact ⟨fun _ _ _ _ _ _ _ h => absurd h (by decide), fun levels path _ _ _ _ h _ => (grants_engine levels path).maybe _ _ _ _ h,
      fun _ _ _ _ _ _ _ h => absurd h (by decide), nofun⟩
  · simp only [List.forall_mem_cons, Option.some.injEq, forall_eq']
    exact ⟨fun _ => Or.inl trivial, fun _ => Or.inl trivial, fun _ => Or.inl trivial, nofun⟩

/-- A file cannot give a greater number of milliseconds. -/
theorem timeoutMillis_lt {text : String} {f : ConfigFile} {ms : Nat} (h : codec.ofYaml text = .ok f)
    (hms : f.timeoutMillis = some ms) : ms < 2 ^ 64 := by
  rw [Codec.ofYaml] at h
  cases hread : Yaml.read codec.shape text with
  | error why =>
    rw [hread] at h
    cases h
  | ok d =>
    rw [hread] at h
    obtain ⟨es, rfl, hes⟩ := Grants.of_read grants_file hread
    cases hdecode : codec.decode? (.table es) with
    | none =>
      simp only [hdecode, reduceCtorEq] at h
    | some g =>
      simp only [hdecode, Except.ok.injEq] at h
      subst h
      simp only [codec, bind, Option.bind_eq_some_iff, pure, Option.some.injEq] at hdecode
      obtain ⟨engine?, hengine, _, -, millis?, hmillis, _, -, _, -, rfl⟩ := hdecode
      obtain ⟨d, hd, hnull, hnatural⟩ := exists_of_optionalField? (hmillis.trans (congrArg some hms))
      cases engine? with
      | none => cases hd
      | some engine =>
        obtain ⟨d', hd', hnull', htable⟩ := exists_of_optionalField? hengine
        obtain ⟨engine', rfl, hsmall⟩ := (hes "engine" d' hd' rfl).resolve_left hnull'
        cases htable
        obtain ⟨n, rfl, hn⟩ := (hsmall _ d hd).resolve_left hnull
        cases hnatural
        exact hn

end ConfigFile

/-- A limit that is set is a number of milliseconds that a failure has room for. -/
theorem Configuration.exists_timeout {t : FileTree} {current : Place} {e : Environment} {c : Configuration}
    (h : load t current e = .ok c) : ∃ ms < 2 ^ 64, c.settings.timeout = .ofMillis ms := by
  obtain ⟨-, f, hsays, ⟨ms, htimeout, hdecides⟩, -⟩ := load_eq_ok h
  refine ⟨ms, ?_, htimeout⟩
  cases hdecides with
  | environment hgives =>
    obtain ⟨raw, -, hnumber, -⟩ := hgives
    exact Text.lt_of_natural? hnumber
  | file hnot hsaid =>
    cases hsays with
    | nothing => cases hsaid
    | file hnearest hread hparse => exact ConfigFile.timeoutMillis_lt hparse hsaid
  | neither => decide

/-! ## There and back -/

namespace ChainError

/-- **What conversions keep.**  A failure that is told as an error comes back as it was, and no two failures
are told as the same error.  Of a limit that is told as a failure and then as an error the whole milliseconds
come back, as a 64-bit number.  That is no more than the limit was, and it is the limit just if that is a
number of milliseconds below `2 ^ 64`, as every limit of a configuration is. -/
theorem failures_come_back (t : FileTree) (current : Place) (e : Environment) :
    (∀ f why, ofFailure f = .execution why → why.toFailure = f) ∧
    Function.Injective ofFailure ∧
    (∀ d : Duration,
      ofFailure (ExecutionError.timeout d).toFailure =
        .execution (.timeout (.ofMillis (d.millis % 2 ^ 64))) ∧
      (Duration.ofMillis (d.millis % 2 ^ 64)).nanos ≤ d.nanos ∧
      (Duration.ofMillis (d.millis % 2 ^ 64) = d ↔ ∃ ms < 2 ^ 64, d = .ofMillis ms)) ∧
    (∀ seconds nanos, (Duration.ofSeconds seconds nanos).millis = seconds * 1000 + nanos / 10 ^ 6) ∧
    (∀ ms, Duration.ofMillis ms = .ofSeconds (ms / 1000) (ms % 1000 * 10 ^ 6) ∧
      ms % 1000 * 10 ^ 6 < 10 ^ 9) ∧
    (∀ message, ofFailure (ExecutionError.runtime message).toFailure = .execution (.runtime message)) ∧
    ∀ c, Configuration.load t current e = .ok c →
      ofFailure (ExecutionError.timeout c.settings.timeout).toFailure =
        .execution (.timeout c.settings.timeout) := by
  refine ⟨fun f why => toFailure_of_execution, ofFailure_injective,
    fun d => ⟨ofFailure_timeout d, d.ofMillis_millis64_le, d.ofMillis_millis64_eq_iff⟩,
    Duration.millis_ofSeconds, Duration.ofMillis_eq_ofSeconds, fun message => rfl, fun c hload => ?_⟩
  obtain ⟨ms, hms, htimeout⟩ := Configuration.exists_timeout hload
  rw [ofFailure_timeout, (Duration.ofMillis_millis64_eq_iff _).2 ⟨ms, hms, htimeout⟩]

/-- The greatest limit that a file can give comes back, and of the longest limit that there is the same is
left: of its milliseconds the lower 64 bits. -/
theorem failures_come_back_greatest :
    let text := "engine:\n  execution_timeout_ms: 18446744073709551615\n"
    let t : FileTree := ⟨[([".scriptflow"], .directory), ([".scriptflow", "config.yaml"], .file text)]⟩
    let e : Environment := ⟨[("SCRIPTFLOW_HOME", "/h")], none⟩
    ∃ c, Configuration.load t [] e = .ok c ∧ c.settings.timeout = .ofMillis 18446744073709551615 ∧
      ofFailure (ExecutionError.timeout c.settings.timeout).toFailure =
        .execution (.timeout c.settings.timeout) ∧
      ofFailure (ExecutionError.timeout (.ofSeconds 18446744073709551615 999999999)).toFailure =
        .execution (.timeout c.settings.timeout) := by
  intro text t e
  obtain ⟨c, hc, htimeout⟩ : ∃ c, (Configuration.load t [] e).toOption = some c ∧
      c.settings.timeout = .ofMillis 18446744073709551615 := by
    refine ⟨⟨"/h", some "/.scriptflow/config.yaml", ⟨.ofMillis 18446744073709551615, 10⟩, .standard⟩, ?_, rfl⟩
    simp only [Configuration.load, Configuration.findFile, Configuration.readFile, FileTree.isThereAt,
      FileTree.locate_eq]
    decide +kernel
  obtain ⟨-, -, hlimit, hseconds, -, -, hconfigured⟩ := failures_come_back t [] e
  refine ⟨c, eq_ok_of_toOption hc, htimeout, hconfigured c (eq_ok_of_toOption hc), ?_⟩
  obtain ⟨hback, -⟩ := hlimit (.ofSeconds 18446744073709551615 999999999)
  rw [hback, hseconds, htimeout]

end ChainError

end PluginChain
