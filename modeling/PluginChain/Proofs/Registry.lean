import PluginChain.Proofs.Entries
import PluginChain.Registry

/-!
# Registries

What the operations of a registry come to, case by case: a name is fit or blank (`Registry.nameOf_eq_ok`,
`Registry.nameOf_eq_error`), a source compiles or not (`Registry.compile_eq_ok`,
`Registry.compile_eq_error_iff`), and a plugin is there to be removed or not (`Registry.remove_cases`).

A registry that only these operations change is `Registry.Whole`: its names ascend, and each of its plugins
stands under its own name.
-/

set_option autoImplicit false

namespace PluginChain

/-- The scripts of a source can run. -/
def compiles (limits : Limits) (source : String) : Bool := (Script.Program.compile limits source).isOk

namespace Registry

variable {r r' : Registry} {p : CompiledPlugin} {now : Instant} {given name description source : String}
  {e : ChainError}

/-! ## Names -/

theorem nameOf_eq_ok_iff : nameOf given = .ok name ↔ Text.trim given ≠ "" ∧ Text.trim given = name := by
  rw [nameOf, Text.nonBlank?]
  by_cases hempty : Text.trim given = ""
  · simp [hempty]
  · simp [hempty]

/-- The name that a plugin is installed under is the trimmed one, and stays what it is. -/
theorem nameOf_eq_ok (h : nameOf given = .ok name) :
    name = Text.trim given ∧ Text.trim name = name ∧ nameOf name = .ok name := by
  obtain ⟨hne, rfl⟩ := nameOf_eq_ok_iff.1 h
  have htrim := Text.trim_trim given
  exact ⟨rfl, htrim, nameOf_eq_ok_iff.2 ⟨htrim.symm ▸ hne, htrim⟩⟩

theorem nameOf_eq_error (h : nameOf given = .error e) : Text.trim given = "" ∧ e = .invalidName given := by
  by_cases hblank : Text.trim given = ""
  · refine ⟨hblank, ?_⟩
    rw [nameOf, Text.nonBlank?, hblank] at h
    exact (Except.error.inj h).symm
  · rw [nameOf_eq_ok_iff.2 ⟨hblank, rfl⟩] at h
    cases h

/-! ## Sources -/

/-- What a compiled source holds: the script of the source, and the digest of the same source. -/
theorem compile_eq_ok_iff {c : CompiledSource} : r.compile name source = .ok c ↔
    Script.Program.compile r.limits source = .ok c.program ∧ c.digest = Digest.ofText source := by
  obtain ⟨program, digest⟩ := c
  unfold compile
  cases Script.Program.compile r.limits source <;> simp [eq_comm]

theorem compile_eq_ok {c : CompiledSource} (h : r.compile name source = .ok c) :
    compiles r.limits source = true ∧ c.digest = Digest.ofText source := by
  obtain ⟨hprogram, hdigest⟩ := compile_eq_ok_iff.1 h
  exact ⟨by rw [compiles, hprogram]; rfl, hdigest⟩

theorem exists_compile_iff : (∃ c, r.compile name source = .ok c) ↔ compiles r.limits source = true := by
  unfold compile compiles
  cases Script.Program.compile r.limits source with
  | ok program => exact ⟨fun _ => rfl, fun _ => ⟨_, rfl⟩⟩
  | error e => exact ⟨nofun, nofun⟩

theorem compiles_of_compile_eq_error (h : r.compile name source = .error e) : compiles r.limits source = false := by
  rw [Bool.eq_false_iff]
  intro hcompiles
  obtain ⟨c, hc⟩ := exists_compile_iff.2 hcompiles
  cases h.symm.trans hc

theorem compile_eq_error_iff : r.compile name source = .error e ↔
    ∃ why, Script.Program.compile r.limits source = .error why ∧ e = .compile name why.message := by
  unfold compile
  cases Script.Program.compile r.limits source <;> simp [eq_comm]

/-! ## Changes -/

theorem install_of_nameOf {c : CompiledSource} (h : nameOf given = .ok name) :
    r.install now given description c =
      .ok (⟨c, name, description, now⟩, r.insert ⟨c, name, description, now⟩) := by
  rw [install, h]
  rfl

/-- A name that was made fit is found to be fit, so that a plugin is installed under it. -/
theorem exists_install (hname : nameOf given = .ok name) (r : Registry) (now : Instant) (description : String)
    (c : CompiledSource) : ∃ p r', r.install now name description c = .ok (p, r') :=
  ⟨_, _, install_of_nameOf (nameOf_eq_ok hname).2.2⟩

theorem limits_remove (h : r.remove given = .ok r') : r'.limits = r.limits := by
  unfold remove at h
  split at h
  · cases h
    rfl
  · cases h

theorem remove_of_none (h : r.get? given = none) :
    r.remove given = .error (.pluginNotFound (Text.trim given)) := by
  rw [remove, contains, h]
  rfl

/-- A plugin is removed, or there is none. -/
theorem remove_cases (r : Registry) (given : String) :
    (∃ r', r.remove given = .ok r' ∧ r.get? given ≠ none) ∨
      r.get? given = none ∧ r.remove given = .error (.pluginNotFound (Text.trim given)) := by
  cases hget : r.get? given with
  | some p => exact Or.inl ⟨_, by rw [remove, contains, hget]; rfl, nofun⟩
  | none => exact Or.inr ⟨rfl, remove_of_none hget⟩

/-! ## Registries as they are kept -/

/-- The names of the plugins ascend, and each plugin stands under its own name. -/
structure Whole (r : Registry) : Prop where
  sorted : Entries.Sorted r.plugins
  named : ∀ e ∈ r.plugins, e.2.name = e.1 ∧ Text.trim e.1 = e.1

theorem whole_of_eq_nil (h : r.plugins = []) : r.Whole := by
  refine ⟨?_, fun e he => ?_⟩
  · rw [h]
    exact Entries.sorted_nil
  · rw [h] at he
    cases he

theorem Whole.insert (h : r.Whole) (hp : Text.trim p.name = p.name) : (r.insert p).Whole := by
  refine ⟨h.sorted.put _ _, fun e he => ?_⟩
  rcases Entries.mem_put he with rfl | he
  · exact ⟨rfl, hp⟩
  · exact h.named e he

theorem Whole.remove {r' : Registry} (h : r.Whole) (hremove : r.remove given = .ok r') : r'.Whole := by
  unfold Registry.remove at hremove
  split at hremove
  · cases hremove
    exact ⟨h.sorted.sublist List.filter_sublist, fun e he => h.named e (List.mem_filter.1 he).1⟩
  · cases hremove

end Registry

end PluginChain
