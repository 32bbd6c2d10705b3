import PluginChain.Error
import PluginChain.Proofs.Decoding
import PluginChain.Proofs.Store
import PluginChain.Proofs.Yaml.Tree
import PluginChain.Task.Document

/-!
# What is saved is read back

Each type that is kept in files is decoded from its trees (`Codec.RoundTrips`), whatever is left out of
them and whatever data they hold, and so from each document whose text layer carries the tree.
-/

set_option autoImplicit false

namespace PluginChain

open FileTree StoreM

/-- The values are decoded from what they are encoded as. -/
structure Codec.RoundTrips {α : Type} (c : Codec α) (P : α → Prop) : Prop where
  decodes : ∀ a, P a → c.ofData? (c.encode a) = some a
  /-- Different values are encoded differently. -/
  distinct : ∀ a b, P a → P b → c.encode a = c.encode b → a = b
  ofJson : ∀ a, P a → InJson (c.encode a) → c.ofJson (c.toJson a) = .ok a
  ofYaml : c.shape.isTagless = true → ∀ a, P a → ∀ text, Yaml.Carries text (c.encode a) →
    c.ofYaml text = .ok a

theorem Codec.roundTrips_of_ofData? {α : Type} {c : Codec α} {P : α → Prop}
    (h : ∀ a, P a → c.ofData? (c.encode a) = some a) : c.RoundTrips P where
  decodes := h
  distinct _ _ ha hb heq := c.encode_injOn (h _ ha) (h _ hb) heq
  ofJson a ha hcarried := Codec.ofJson_toJson (h a ha) hcarried
  ofYaml htagless a ha _ hcarries :=
    Codec.ofYaml_of_carries ((congrArg c.ofData? (prune_of_ofData? (h a ha))).trans (h a ha)) htagless hcarries

theorem Store.lookup_of_saveTask {s : Store} {id : Uuid} {task : Task} {t t' : FileTree}
    (h : s.saveTask id task t = .ok () t') :
    t'.lookup (s.taskFile id) = some (.file (Task.codec.toYaml task)) := by
  obtain ⟨t₁, hwrite, h⟩ := perform_cons_eq_ok h
  cases h
  have hchange : t.write (s.taskFile id) (Task.codec.toYaml task) = .ok t' := hwrite
  rw [(lookup_of_write hchange).2, if_pos rfl]

theorem Task.ofYaml_of_carries {task : Task} (h : task.Settled) {text : String}
    (hcarries : Yaml.Carries text (codec.encode task)) : Task.ofYaml text = .ok task := by
  rw [Task.ofYaml, (Codec.roundTrips_of_ofData? fun _ => ofData?_encode).ofYaml rfl task h text hcarries]
  rfl

/-- **What is saved is read back.**  A failure, an outcome, a status, a report, a record of a plugin, a
job, a reference, a step and a task are decoded from what they are encoded as, and different ones are
encoded differently.  The copy of a task that is kept is read as the task. -/
theorem round_trips :
    StepFailure.codec.RoundTrips (fun _ => True) ∧ Outcome.codec.RoundTrips Outcome.Settled ∧
    RunStatus.codec.RoundTrips (fun _ => True) ∧ Report.codec.RoundTrips Report.Settled ∧
    PluginRecord.codec.RoundTrips PluginRecord.Settled ∧ Job.codec.RoundTrips Job.Settled ∧
    InputRef.codec.RoundTrips InputRef.Settled ∧ Step.codec.RoundTrips Step.Settled ∧
    Task.codec.RoundTrips Task.Settled ∧
    ∀ (s : Store) (id : Uuid) (task : Task) (files files' : FileTree), task.Settled →
      s.saveTask id task files = .ok () files' →
        ∃ text, files'.lookup (s.taskFile id) = some (.file text) ∧ text = Task.codec.toYaml task ∧
          (Yaml.Carries text (Task.codec.encode task) → Task.ofYaml text = .ok task) := by
  refine ⟨Codec.roundTrips_of_ofData? fun f _ => f.ofData?_encode,
    Codec.roundTrips_of_ofData? fun _ => Outcome.ofData?_encode,
    Codec.roundTrips_of_ofData? fun s _ => s.ofData?_encode,
    Codec.roundTrips_of_ofData? fun _ => Report.ofData?_encode,
    Codec.roundTrips_of_ofData? fun _ => PluginRecord.ofData?_encode,
    Codec.roundTrips_of_ofData? fun _ => Job.ofData?_encode,
    Codec.roundTrips_of_ofData? fun _ h => Codec.ofData?_of_accept (InputRef.accept_encode h)
      (InputRef.decode?_encode _),
    Codec.roundTrips_of_ofData? fun step h => Codec.ofData?_of_accept (Step.accept_encode h)
      step.decode?_completed,
    Codec.roundTrips_of_ofData? fun _ => Task.ofData?_encode, ?_⟩
  intro s id task files files' hsettled hsave
  exact ⟨_, Store.lookup_of_saveTask hsave, rfl, Task.ofYaml_of_carries hsettled⟩

/-- A step whose input is the data nothing is not one without an input, in the copy neither. -/
theorem round_trips_inline_nothing :
    let task : Task := ⟨"t", "", [{ plugin := some "p", input := some (.inline .null) }], false⟩
    let s : Store := ⟨[]⟩
    ∃ (files files' : FileTree) (text : String), task.Settled ∧ s.saveTask ⟨1⟩ task files = .ok () files' ∧
      files'.lookup (s.taskFile ⟨1⟩) = some (.file text) ∧
      Yaml.Carries text (Task.codec.encode task) ∧ Task.ofYaml text = .ok task := by
  intro task s
  let files : FileTree := ⟨[(["tasks"], .directory)]⟩
  have hsettled : task.Settled := by
    intro step hstep
    cases List.mem_singleton.1 hstep
    exact ⟨rfl, fun r hr d hd => by cases hr; cases hd; rfl⟩
  obtain ⟨files', hwrite⟩ := exists_write (t := files) (p := s.taskFile ⟨1⟩) rfl (by decide +kernel)
    (Task.codec.toYaml task)
  have happly : (Change.write (s.taskFile ⟨1⟩) (Task.codec.toYaml task)).apply files = .ok files' := hwrite
  have hsave : s.saveTask ⟨1⟩ task files = .ok () files' := perform_cons_of_ok happly
  obtain ⟨-, -, -, -, -, -, -, -, -, hsaved⟩ := round_trips
  obtain ⟨text, hlookup, rfl, hread⟩ := hsaved s ⟨1⟩ task files files' hsettled hsave
  have hcarries : Yaml.Carries (Task.codec.toYaml task) (Task.codec.encode task) := by
    let plain (s : String) : Yaml.Node := .scalar none .plain s
    let input : List Yaml.Node := [.mappingStart none, plain "value", plain "null", .mappingEnd]
    let step : List Yaml.Node := [.mappingStart none, plain "plugin", plain "p",
      plain "params", .mappingStart none, .mappingEnd, plain "input"] ++ input ++ [.mappingEnd]
    let steps : List Yaml.Node := .sequenceStart none :: (step ++ [.sequenceEnd])
    have hevents : (Yaml.Document.ofText (Task.codec.toYaml task)).nodes.toList.map Prod.fst =
        [.mappingStart none, plain "name", plain "t", plain "description", .scalar none .single "",
          plain "steps"] ++ steps ++ [plain "parallel", plain "false", .mappingEnd] := by
      decide +kernel
    have hinput : Yaml.Spells (.table [("value", .null)]) input :=
      @Yaml.Spells.table [(.ofWord "value" (by decide +kernel), .null, [plain "null"])]
        (List.forall_mem_singleton.2 (.scalar (m := .null) rfl .null))
    have hstep : Yaml.Spells (Step.codec.encode ⟨none, some "p", [], some (.inline .null)⟩) step := by
      refine @Yaml.Spells.table [(.ofWord "plugin" (by decide +kernel), .text "p", [plain "p"]),
        (.ofWord "params" (by decide +kernel), .table [], [.mappingStart none, .mappingEnd]),
        (.ofWord "input" (by decide +kernel), .table [("value", .null)], input)] ?_
      simp only [List.forall_mem_cons]
      exact ⟨Yaml.spells_word (by decide +kernel), @Yaml.Spells.table [] nofun, hinput, nofun⟩
    have hsteps : Yaml.Spells (.list (task.steps.map Step.codec.encode)) steps :=
      @Yaml.Spells.list [(_, step)] (List.forall_mem_singleton.2 hstep)
    refine ⟨?_, by decide +kernel, by decide +kernel⟩
    rw [hevents]
    refine @Yaml.Spells.table [(.ofWord "name" (by decide +kernel), .text "t", [plain "t"]),
      (.ofWord "description" (by decide +kernel), .text "", [.scalar none .single ""]),
      (.ofWord "steps" (by decide +kernel), .list (task.steps.map Step.codec.encode), steps),
      (.ofWord "parallel" (by decide +kernel), .flag false, [plain "false"])] ?_
    simp only [List.forall_mem_cons]
    exact ⟨Yaml.spells_word (by decide +kernel), .scalar (m := .text "") rfl .text, hsteps,
      .scalar (m := .flag false) rfl (.flag false), nofun⟩
  exact ⟨files, files', _, hsettled, hsave, hlookup, hcarries, hread hcarries⟩

end PluginChain
