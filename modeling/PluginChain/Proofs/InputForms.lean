import Mathlib.Data.List.Permutation
import PluginChain.Proofs.Decoding
import PluginChain.Proofs.Json.Forms
import PluginChain.Proofs.Workflow.References
import PluginChain.Task.Document

/-!
# What is read as a reference

A reference is written in one of three forms, and the form says which kind of reference it is
(`InputRef.Written`): a table whose names are exactly those of the form, each once and in any order.  A
document is read as a reference if and only if it is written so (`InputRef.ofJson_eq_ok_iff`).

A task is first read without a look at its references (`Task.draft?`): they are left as they stand in the
document, whatever they are.  Then the document is a task if and only if at each of its steps there is a
reference, or `null`, or nothing (`Task.ofJson_eq_ok_iff`).  It does not matter that only the first of them
counts for a run.
-/

set_option autoImplicit false

namespace PluginChain

theorem Codec.ofJson_eq_ok_iff {α : Type} (c : Codec α) (text : String) (a : α) :
    c.ofJson text = .ok a ↔ ∃ d, Json.readBy (Json.readerOf c.shape) text = .ok d ∧ c.decode? d = some a := by
  rw [ofJson, Json.read_eq_readBy]
  cases Json.readBy (Json.readerOf c.shape) text with
  | error f => simp
  | ok d =>
    cases hd : c.decode? d with
    | none => simp [hd]
    | some a' => simp [hd]

/-- Any JSON document, with the entries of its tables in the order in which they are written. -/
def Json.tree? (text : String) : Except Json.Fault Data := Json.readBy Json.anyValue text

theorem Json.tree?_pretty {d : Data} (h : d.Printable) (hdepth : d.depth < 128) : tree? (pretty d) = .ok d := by
  refine eq_ok_of_toOption (toOption_readBy_pretty (r := anyValue) ?_)
  have hread := reads_anyValue h 128 0 (by decide)
  rwa [if_pos hdepth] at hread

namespace InputRef

/-! ## The three forms -/

/-- What is written as a reference, and what it says. -/
inductive Written : Data → InputRef → Prop
  | output {es : List (String × Data)} {jobId step : String}
    (hes : es.Perm [("job_id", .text jobId), ("step", .text step)]) : Written (.table es) (.output jobId step)
  | job {es : List (String × Data)} {jobId : String} (hes : es.Perm [("job_id", .text jobId)]) :
    Written (.table es) (.job jobId)
  | inline {es : List (String × Data)} {value : Data} (hes : es.Perm [("value", value)]) :
    Written (.table es) (.inline value.settle)

/-- The names in the form of a reference. -/
def keys : InputRef → List String
  | .output _ _ => ["job_id", "step"]
  | .job _ => ["job_id"]
  | .inline _ => ["value"]

theorem Written.names_perm {es : List (String × Data)} {r : InputRef} (h : Written (.table es) r) :
    (Entries.names es).Perm r.keys := by
  cases h with
  | output hes => exact hes.map Prod.fst
  | job hes => exact hes.map Prod.fst
  | inline hes => exact hes.map Prod.fst

theorem Written.ne_null {d : Data} {r : InputRef} (h : Written d r) : d ≠ .null := by
  cases h <;> exact nofun

theorem perm_of_names_pair {es : List (String × Data)} {m n : String} (h : (Entries.names es).Perm [m, n]) :
    ∃ x y, es.Perm [(m, x), (n, y)] := by
  rcases List.perm_pair.1 h with h | h
  · obtain ⟨⟨_, x⟩, rest, rfl, rfl, hrest⟩ := List.map_eq_cons_iff.1 h
    obtain ⟨⟨_, y⟩, rfl, rfl⟩ := List.map_eq_singleton_iff.1 hrest
    exact ⟨x, y, .refl _⟩
  · obtain ⟨⟨_, y⟩, rest, rfl, rfl, hrest⟩ := List.map_eq_cons_iff.1 h
    obtain ⟨⟨_, x⟩, rfl, rfl⟩ := List.map_eq_singleton_iff.1 hrest
    exact ⟨x, y, .swap _ _ _⟩

theorem eq_of_names_singleton {es : List (String × Data)} {n : String} (h : (Entries.names es).Perm [n]) :
    ∃ x, es = [(n, x)] := by
  obtain ⟨⟨_, x⟩, rfl, rfl⟩ := List.map_eq_singleton_iff.1 (List.perm_singleton.1 h)
  exact ⟨x, rfl⟩

/-- The forms in the order in which they are tried. -/
def forms : List (List (String × Leaf)) :=
  [[("job_id", .text), ("step", .text)], [("job_id", .text)], [("value", .any)]]

theorem shape_codec : codec.shape = .oneOf "InputRef" forms := rfl

section Forms

variable {es : List (String × Data)}

/-- What the entries of a table are taken for. -/
abbrev formed (es : List (String × Data)) : Except Mismatch Data :=
  Shape.formsOf Json.foundOf "InputRef" forms (Json.wholeEntries es)

theorem formed_output {x y : Data} (hes : es.Perm [("job_id", x), ("step", y)]) :
    formed es = match x.text?, y.text? with
      | some jobId, some step => .ok (codec.encode (.output jobId step))
      | _, _ => .error (.noForm "InputRef") := by
  rcases List.perm_pair.1 hes with rfl | rfl
  · cases x with
    | text jobId => cases y <;> rfl
    | _ => rfl
  · cases y with
    | text step => cases x <;> rfl
    | _ => cases x <;> rfl

theorem formed_job {x : Data} (hes : es.Perm [("job_id", x)]) :
    formed es = match x.text? with
      | some jobId => .ok (codec.encode (.job jobId))
      | none => .error (.noForm "InputRef") := by
  rw [List.perm_singleton.1 hes]
  cases x <;> rfl

theorem formed_inline {x : Data} (hes : es.Perm [("value", x)]) :
    formed es = .ok (codec.encode (.inline x.settle)) := by
  rw [List.perm_singleton.1 hes]
  rfl

theorem formed_of_written {r : InputRef} (h : Written (.table es) r) : formed es = .ok (codec.encode r) := by
  cases h with
  | output hes => exact formed_output hes
  | job hes => exact formed_job hes
  | inline hes => exact formed_inline hes

/-- **The entries have a form if and only if they are written as a reference.** -/
theorem formed_eq_ok_iff (es : List (String × Data)) (d : Data) :
    formed es = .ok d ↔ ∃ r, Written (.table es) r ∧ d = codec.encode r := by
  constructor
  · intro h
    obtain ⟨form, hmem, hnames⟩ := Shape.names_perm_of_formsOf (by decide) h
    simp only [forms, List.mem_cons, List.not_mem_nil, or_false] at hmem
    rcases hmem with rfl | rfl | rfl
    · obtain ⟨x, y, hes⟩ := perm_of_names_pair hnames
      rw [formed_output hes] at h
      split at h
      · next jobId step hx hy =>
        cases x <;> cases hx
        cases y <;> cases hy
        cases h
        exact ⟨.output jobId step, .output hes, rfl⟩
      · cases h
    · obtain ⟨x, rfl⟩ := eq_of_names_singleton hnames
      rw [formed_job (.refl _)] at h
      split at h
      · next jobId hx =>
        cases x <;> cases hx
        cases h
        exact ⟨.job jobId, .job (.refl _), rfl⟩
      · cases h
    · obtain ⟨x, rfl⟩ := eq_of_names_singleton hnames
      rw [formed_inline (.refl _)] at h
      cases h
      exact ⟨.inline x.settle, .inline (.refl _), rfl⟩
  · rintro ⟨r, hr, rfl⟩
    exact formed_of_written hr

/-- What is written says one thing. -/
theorem rightUnique_written : Relator.RightUnique Written := by
  rintro d r r' h h'
  obtain ⟨es, rfl⟩ : ∃ es, d = .table es := by cases h <;> exact ⟨_, rfl⟩
  have hencode : codec.encode r = codec.encode r' :=
    Except.ok.inj ((formed_of_written h).symm.trans (formed_of_written h'))
  have hdecode := congrArg codec.decode? hencode
  rw [decode?_encode, decode?_encode] at hdecode
  exact Option.some.inj hdecode

/-- The normal form of what is written as a reference. -/
def Normal (d d' : Data) : Prop := ∃ r, Written d r ∧ d' = codec.encode r

theorem rightUnique_normal : Relator.RightUnique Normal := by
  rintro d _ _ ⟨r, h, rfl⟩ ⟨r', h', rfl⟩
  rw [rightUnique_written h h']

theorem sifts_codec : Json.Sifts Normal Json.anyValue (Json.readerOf codec.shape) := by
  have hnormal : Json.HasForm "InputRef" forms = Normal := by
    funext d d'
    refine propext ⟨?_, ?_⟩
    · rintro ⟨es, rfl, h⟩
      exact (formed_eq_ok_iff es d').1 h
    · rintro ⟨r, hr, rfl⟩
      obtain ⟨es, rfl⟩ : ∃ es, d = .table es := by cases hr <;> exact ⟨_, rfl⟩
      exact ⟨es, rfl, formed_of_written hr⟩
  rw [← hnormal, shape_codec, Json.readerOf]
  exact Json.sifts_formsOf "InputRef" forms

end Forms

/-- **A document is read as a reference just when it is written as that reference.** -/
theorem ofJson_eq_ok_iff (text : String) (r : InputRef) :
    codec.ofJson text = .ok r ↔ ∃ d, Json.tree? text = .ok d ∧ Written d r := by
  rw [Codec.ofJson_eq_ok_iff]
  constructor
  · rintro ⟨d', hd', hr⟩
    obtain ⟨d, hd, r', hr', rfl⟩ := (sifts_codec.readBy_eq_ok_iff rightUnique_normal text d').1 hd'
    rw [decode?_encode, Option.some_inj] at hr
    exact ⟨d, hd, hr ▸ hr'⟩
  · rintro ⟨d, hd, hr⟩
    exact ⟨codec.encode r, (sifts_codec.readBy_eq_ok_iff rightUnique_normal text _).2 ⟨d, hd, r, hr, rfl⟩,
      decode?_encode r⟩

end InputRef

/-- What stands in the place of a reference: one that is written, or `null` for none. -/
def Stands (d : Data) : Option InputRef → Prop
  | none => d = .null
  | some r => InputRef.Written d r

theorem stands_null_iff (input : Option InputRef) : Stands .null input ↔ input = none := by
  cases input with
  | none => simp [Stands]
  | some r => exact ⟨fun h => absurd rfl (InputRef.Written.ne_null h), nofun⟩

theorem InputRef.Written.stands_iff {d : Data} {r : InputRef} (h : Written d r) (input : Option InputRef) :
    Stands d input ↔ input = some r := by
  cases input with
  | none => exact ⟨fun hd => absurd hd h.ne_null, nofun⟩
  | some r' =>
    constructor
    · exact fun h' => congrArg some (InputRef.rightUnique_written h' h)
    · rintro ⟨⟩
      exact h

/-! ## Steps -/

/-- Equal in everything but one entry. -/
theorem get?_eq_of_entriesBy {R : String → Data → Data → Prop} {es es' : List (String × Data)}
    (h : Json.EntriesBy R es es') {n : String} (hn : R n = Eq) : Entries.get? n es' = Entries.get? n es := by
  have hget := h.get? n
  rw [hn] at hget
  generalize Entries.get? n es = d, Entries.get? n es' = d' at hget ⊢
  cases hget with
  | some h => rw [h]
  | none => rfl

namespace Step

/-- A step is read, its reference left as it stands. -/
def draftReader : Json.Reader Data :=
  Json.recordOf "Step" [
    ("name", Json.readerOf (.maybe .text), some .null),
    ("plugin", Json.readerOf (.maybe .text), some .null),
    ("params", Json.readerOf (.table .any), some (.table [])),
    ("input", Json.anyValue, some .null)]

/-- The step without its reference, and what stands in its place. -/
def draft? : Data → Option (Step × Data)
  | .table es => do
    return ({
      name := ← Data.optionalField? "name" Data.text? es
      plugin := ← Data.optionalField? "plugin" Data.text? es
      params := ← Data.field? "params" Data.table? es }, (Entries.get? "input" es).getD .null)
  | _ => none

/-- The fields of a step: its reference in its normal form, everything else as it was read. -/
def Normal (name : String) : Data → Data → Prop :=
  if name = "input" then Json.OrNull InputRef.Normal else Eq

theorem rightUnique_normal (name : String) : Relator.RightUnique (Normal name) := by
  rw [Normal]
  split
  · rintro d _ _ (⟨rfl, rfl⟩ | ⟨hne, h⟩) (⟨hnull, rfl⟩ | ⟨hne', h'⟩)
    · rfl
    · exact absurd rfl hne'
    · exact absurd hnull hne
    · exact InputRef.rightUnique_normal h h'
  · rintro d _ _ rfl rfl
    rfl

theorem sifts_codec : Json.Sifts (Json.TableBy Normal) draftReader (Json.readerOf codec.shape) := by
  rw [codec, Json.readerOf]
  refine Json.Sifts.recordOf rightUnique_normal ?_ "Step"
  simp only [Json.fieldReaders]
  refine .cons ⟨rfl, .refl _, .some rfl⟩ (.cons ⟨rfl, .refl _, .some rfl⟩
    (.cons ⟨rfl, .refl _, .some rfl⟩ (.cons ⟨rfl, InputRef.sifts_codec.maybe, .some (.inl ⟨rfl, rfl⟩)⟩ .nil)))

variable {es es' : List (String × Data)}

theorem optionalField?_input_iff (h : Json.EntriesBy Normal es es') (input : Option InputRef) :
    Data.optionalField? "input" InputRef.codec.decode? es' = some input ↔
      Stands ((Entries.get? "input" es).getD .null) input := by
  have hget := h.get? "input"
  change Option.Rel (Json.OrNull InputRef.Normal) _ _ at hget
  rw [Data.optionalField?]
  generalize Entries.get? "input" es = d, Entries.get? "input" es' = d' at hget ⊢
  cases hget with
  | none =>
    rw [Option.getD_none, stands_null_iff, Option.some_inj, eq_comm]
  | @some d d' h =>
    rw [Option.getD_some]
    rcases h with ⟨rfl, rfl⟩ | ⟨-, r, hr, rfl⟩
    · rw [stands_null_iff, Option.some_inj, eq_comm]
    · rw [hr.stands_iff, eq_comm (a := input)]
      cases r <;> simp [InputRef.codec]

/-- A step is decoded just when what stands in the place of its reference is that reference. -/
theorem decode?_eq_some_iff {d d' : Data} (h : Json.TableBy Normal d d') (step : Step) :
    codec.decode? d' = some step ↔ ∃ raw, draft? d = some (step.bare, raw) ∧ Stands raw step.input := by
  obtain ⟨es, es', rfl, rfl, h⟩ := h
  have hfield : ∀ n, n ≠ "input" → Entries.get? n es' = Entries.get? n es :=
    fun n hn => get?_eq_of_entriesBy h (if_neg hn)
  have hname : Data.optionalField? "name" Data.text? es' = Data.optionalField? "name" Data.text? es := by
    rw [Data.optionalField?, hfield "name" (by decide), Data.optionalField?]
  have hplugin : Data.optionalField? "plugin" Data.text? es' = Data.optionalField? "plugin" Data.text? es := by
    rw [Data.optionalField?, hfield "plugin" (by decide), Data.optionalField?]
  have hparams : Data.field? "params" Data.table? es' = Data.field? "params" Data.table? es := by
    rw [Data.field?, hfield "params" (by decide), Data.field?]
  simp only [codec, draft?, hname, hplugin, hparams, Option.bind_eq_bind, Option.bind_eq_some_iff,
    optionalField?_input_iff h, Option.pure_def, Option.some_inj]
  constructor
  · rintro ⟨name, hname, plugin, hplugin, params, hparams, input, hinput, rfl⟩
    exact ⟨_, ⟨name, hname, plugin, hplugin, params, hparams, rfl⟩, hinput⟩
  · rintro ⟨raw, ⟨name, hname, plugin, hplugin, params, hparams, hdraft⟩, hinput⟩
    rw [Prod.mk.injEq] at hdraft
    obtain ⟨hbare, rfl⟩ := hdraft
    refine ⟨name, hname, plugin, hplugin, params, hparams, step.input, hinput, ?_⟩
    cases step
    cases hbare
    rfl

/-- What stands in the place of the reference decides whether there is a normal form. -/
theorem exists_normal {es : List (String × Data)} (hnodup : (Entries.names es).Nodup) {input : Option InputRef}
    (h : Stands ((Entries.get? "input" es).getD .null) input) : ∃ d, Json.TableBy Normal (.table es) d := by
  have hentry : ∀ e ∈ es, ∃ d, Normal e.1 e.2 d := by
    rintro ⟨n, d⟩ he
    by_cases hn : n = "input"
    · subst hn
      rw [Entries.get?_of_mem hnodup he, Option.getD_some] at h
      cases input with
      | none => exact ⟨.null, .inl ⟨h, rfl⟩⟩
      | some r => exact ⟨InputRef.codec.encode r, .inr ⟨InputRef.Written.ne_null h, r, h, rfl⟩⟩
    · exact ⟨d, by rw [Normal, if_neg hn]⟩
  obtain ⟨es', hes'⟩ := Json.exists_entriesBy hentry
  exact ⟨.table es', es, es', rfl, rfl, hes'⟩

theorem eq_of_draft? {d : Data} {draft : Step × Data} (h : draft? d = some draft) :
    draft.1.bare = draft.1 ∧ ∃ es, d = .table es ∧ draft.2 = (Entries.get? "input" es).getD .null := by
  cases d with
  | table es =>
    simp only [draft?, Option.bind_eq_bind, Option.bind_eq_some_iff, Option.pure_def, Option.some_inj] at h
    obtain ⟨name, -, plugin, -, params, -, rfl⟩ := h
    exact ⟨rfl, es, rfl, rfl⟩
  | _ => cases h

/-- A table in which every name comes once. -/
def Tabular (d : Data) : Prop := ∃ es, d = .table es ∧ (Entries.names es).Nodup

theorem givesOnly_draftReader : Json.GivesOnly Tabular draftReader := by
  intro c d c' h
  obtain ⟨es, rfl, hnames⟩ := Json.givesOnly_recordOf _ _ c d c' h
  exact ⟨es, rfl, by rw [hnames]; exact (by decide : ["name", "plugin", "params", "input"].Nodup)⟩

end Step

namespace Task

/-- A task is read, the references of its steps left as they stand. -/
def draftReader : Json.Reader Data :=
  Json.recordOf "TaskDefinition" [
    ("name", Json.readerOf .text, none),
    ("description", Json.readerOf .text, some (.text "")),
    ("steps", Json.listOf Step.draftReader, none),
    ("parallel", Json.readerOf .flag, some (.flag false))]

/-- The task without references, and what stands in the place of the reference of each step. -/
def ofDraft? : Data → Option (Task × List Data)
  | .table es => do
    let steps ← Data.field? "steps" (fun d => d.list?.bind (·.mapM Step.draft?)) es
    return ({
      name := ← Data.field? "name" Data.text? es
      description := ← Data.field? "description" Data.text? es
      steps := steps.map Prod.fst
      parallel := ← Data.field? "parallel" Data.flag? es }, steps.map Prod.snd)
  | _ => none

/-- A task document, read without a look at the references in it. -/
def draft? (text : String) : Except Json.Fault (Task × List Data) :=
  match Json.readBy draftReader text with
  | .error f => .error f
  | .ok d =>
    match ofDraft? d with
    | some draft => .ok draft
    | none => .error ⟨.mismatch Codec.unreadable, none⟩

/-- The fields of a task: its steps one by one, everything else as it was read. -/
def Normal (name : String) : Data → Data → Prop :=
  if name = "steps" then Json.ListBy (Json.TableBy Step.Normal) else Eq

theorem rightUnique_normal (name : String) : Relator.RightUnique (Normal name) := by
  rw [Normal]
  split
  · exact Json.rightUnique_listBy (Json.rightUnique_tableBy Step.rightUnique_normal)
  · rintro d _ _ rfl rfl
    rfl

theorem sifts_codec : Json.Sifts (Json.TableBy Normal) draftReader (Json.readerOf codec.shape) := by
  have hsteps : Json.Sifts (Json.ListBy (Json.TableBy Step.Normal)) (Json.listOf Step.draftReader)
      (Json.readerOf (.list Step.codec.shape)) := by
    rw [Json.readerOf]
    exact Json.Sifts.listOf (Json.rightUnique_tableBy Step.rightUnique_normal) Step.sifts_codec
  rw [codec, Json.readerOf]
  refine Json.Sifts.recordOf rightUnique_normal ?_ "TaskDefinition"
  simp only [Json.fieldReaders]
  exact .cons ⟨rfl, .refl _, .none⟩ (.cons ⟨rfl, .refl _, .some rfl⟩
    (.cons ⟨rfl, hsteps, .none⟩ (.cons ⟨rfl, .refl _, .some rfl⟩ .nil)))

/-- Steps are decoded one by one. -/
theorem mapM_decode?_eq_some_iff {ds ds' : List Data} (h : List.Forall₂ (Json.TableBy Step.Normal) ds ds')
    (steps : List Step) :
    ds'.mapM Step.codec.decode? = some steps ↔ ∃ raws : List Data,
      ds.mapM Step.draft? = some ((steps.map Step.bare).zip raws) ∧
        List.Forall₂ Stands raws (steps.map (·.input)) := by
  induction h generalizing steps with
  | nil =>
    constructor
    · intro hsteps
      cases hsteps
      exact ⟨[], rfl, .nil⟩
    · rintro ⟨raws, hzip, hstands⟩
      cases steps with
      | nil => rfl
      | cons step steps =>
        obtain ⟨raw, raws, -, -, rfl⟩ := List.forall₂_cons_right_iff.1 hstands
        cases hzip
  | @cons d d' ds ds' hd _ ih =>
    simp only [List.mapM_cons, Option.bind_eq_bind, Option.bind_eq_some_iff, Option.pure_def, Option.some_inj]
    constructor
    · rintro ⟨step, hstep, steps, hsteps, rfl⟩
      obtain ⟨raw, hdraft, hstands⟩ := (Step.decode?_eq_some_iff hd step).1 hstep
      obtain ⟨raws, hdrafts, hall⟩ := (ih steps).1 hsteps
      exact ⟨raw :: raws, ⟨_, hdraft, _, hdrafts, rfl⟩, .cons hstands hall⟩
    · rintro ⟨raws, ⟨draft, hdraft, drafts, hdrafts, hzip⟩, hall⟩
      cases steps with
      | nil => cases hzip
      | cons step steps =>
        obtain ⟨raw, raws, hstands, hrest, rfl⟩ := List.forall₂_cons_right_iff.1 hall
        cases hzip
        exact ⟨step, (Step.decode?_eq_some_iff hd step).2 ⟨raw, hdraft, hstands⟩, steps,
          (ih steps).2 ⟨raws, hdrafts, hrest⟩, rfl⟩

/-- A task is decoded just when what stands in the place of each reference is that reference. -/
theorem decode?_eq_some_iff {d d' : Data} (h : Json.TableBy Normal d d') (task : Task) :
    codec.decode? d' = some task ↔ ∃ raws, ofDraft? d = some (task.bare, raws) ∧
      List.Forall₂ Stands raws (task.steps.map (·.input)) := by
  obtain ⟨es, es', rfl, rfl, h⟩ := h
  have hfield : ∀ n, n ≠ "steps" → Entries.get? n es' = Entries.get? n es :=
    fun n hn => get?_eq_of_entriesBy h (if_neg hn)
  have hname : Data.field? "name" Data.text? es' = Data.field? "name" Data.text? es := by
    rw [Data.field?, hfield "name" (by decide), Data.field?]
  have hdescription : Data.field? "description" Data.text? es' = Data.field? "description" Data.text? es := by
    rw [Data.field?, hfield "description" (by decide), Data.field?]
  have hparallel : Data.field? "parallel" Data.flag? es' = Data.field? "parallel" Data.flag? es := by
    rw [Data.field?, hfield "parallel" (by decide), Data.field?]
  have hsteps : ∀ steps, Data.field? "steps" Step.codec.list.decode? es' = some steps ↔ ∃ raws,
      Data.field? "steps" (fun d => d.list?.bind (·.mapM Step.draft?)) es =
        some ((steps.map Step.bare).zip raws) ∧ List.Forall₂ Stands raws (steps.map (·.input)) := by
    intro steps
    have hget := h.get? "steps"
    change Option.Rel (Json.ListBy (Json.TableBy Step.Normal)) _ _ at hget
    rw [Data.field?, Data.field?]
    generalize Entries.get? "steps" es = d, Entries.get? "steps" es' = d' at hget ⊢
    cases hget with
    | none => simp
    | some hlist =>
      obtain ⟨ds, ds', rfl, rfl, hds⟩ := hlist
      exact mapM_decode?_eq_some_iff hds steps
  simp only [codec, ofDraft?, hname, hdescription, hparallel, Option.bind_eq_bind, Option.bind_eq_some_iff,
    hsteps, Option.pure_def, Option.some_inj]
  have hzip : ∀ {steps : List Step} {raws : List Data}, List.Forall₂ Stands raws (steps.map (·.input)) →
      ((steps.map Step.bare).zip raws).map Prod.fst = steps.map Step.bare ∧
        ((steps.map Step.bare).zip raws).map Prod.snd = raws := by
    intro steps raws hstands
    have hlength := hstands.length_eq
    rw [List.length_map] at hlength
    exact ⟨List.map_fst_zip (by simp [hlength]), List.map_snd_zip (by simp [hlength])⟩
  constructor
  · rintro ⟨name, hname, description, hdescription, steps, ⟨raws, hdrafts, hstands⟩, parallel, hparallel, rfl⟩
    obtain ⟨hfst, hsnd⟩ := hzip hstands
    refine ⟨raws, ⟨_, hdrafts, name, hname, description, hdescription, parallel, hparallel, ?_⟩, hstands⟩
    rw [hfst, hsnd, bare]
  · rintro ⟨raws, ⟨drafts, hdrafts, name, hname, description, hdescription, parallel, hparallel, hdraft⟩,
      hstands⟩
    obtain ⟨taskName, taskDescription, steps, taskParallel⟩ := task
    simp only [bare, Prod.mk.injEq, Task.mk.injEq] at hdraft
    obtain ⟨⟨rfl, rfl, hfst, rfl⟩, hsnd⟩ := hdraft
    have hpairs : drafts = (steps.map Step.bare).zip raws := by
      rw [← hfst, ← hsnd, ← List.unzip_fst, ← List.unzip_snd, List.zip_unzip]
    exact ⟨name, hname, description, hdescription, steps, ⟨raws, hpairs ▸ hdrafts, hstands⟩, parallel,
      hparallel, rfl⟩

theorem draft?_eq_ok_iff (text : String) (draft : Task × List Data) :
    draft? text = .ok draft ↔ ∃ d, Json.readBy draftReader text = .ok d ∧ ofDraft? d = some draft := by
  rw [draft?]
  cases Json.readBy draftReader text with
  | error f => simp
  | ok d => cases hd : ofDraft? d <;> simp [hd]

/-- A table in which every name comes once, with such tables for steps. -/
def Tabular (d : Data) : Prop :=
  ∃ es, d = .table es ∧ (Entries.names es).Nodup ∧
    ∀ ds, ("steps", .list ds) ∈ es → ∀ x ∈ ds, Step.Tabular x

theorem givesOnly_draftReader : Json.GivesOnly Tabular draftReader := by
  intro c d c' h
  obtain ⟨es, rfl, hnames⟩ := Json.givesOnly_recordOf _ _ c d c' h
  have hsteps : ∀ e ∈ es, e.1 = "steps" → ∀ ds, e.2 = .list ds → ∀ x ∈ ds, Step.Tabular x := by
    refine Json.givesOnly_field "TaskDefinition"
      (P := fun n d => n = "steps" → ∀ ds, d = .list ds → ∀ x ∈ ds, Step.Tabular x) ?_ c _ c' h es rfl
    have hother : ∀ {n : String} {r : Json.Reader Data} {fallback : Option Data}, n ≠ "steps" →
        Json.GivesOnly (fun d => n = "steps" → ∀ ds, d = .list ds → ∀ x ∈ ds, Step.Tabular x) r ∧
          ∀ d ∈ fallback, n = "steps" → ∀ ds, d = .list ds → ∀ x ∈ ds, Step.Tabular x :=
      fun hn => ⟨fun _ _ _ _ h => absurd h hn, fun _ _ h => absurd h hn⟩
    simp only [List.forall_mem_cons]
    exact ⟨hother (by decide), hother (by decide),
      ⟨fun c d c' hd _ => Json.givesOnly_listOf Step.givesOnly_draftReader c d c' hd, fun _ => nofun⟩,
      hother (by decide), fun _ => nofun⟩
  exact ⟨es, rfl, by rw [hnames]; exact (by decide : ["name", "description", "steps", "parallel"].Nodup),
    fun ds hds => hsteps _ hds rfl ds rfl⟩

/-- What stands in the place of the references decides whether there is a normal form. -/
theorem exists_normal {d : Data} {draft : Task × List Data} (hd : Tabular d) (hdraft : ofDraft? d = some draft)
    (h : ∀ raw ∈ draft.2, ∃ input, Stands raw input) : ∃ d', Json.TableBy Normal d d' := by
  obtain ⟨es, rfl, hnodup, hsteps⟩ := hd
  simp only [ofDraft?, Data.field?, Option.bind_eq_bind, Option.bind_eq_some_iff, Option.pure_def,
    Option.some_inj] at hdraft
  obtain ⟨drafts, ⟨d, hd, ds, hds, hdrafts⟩, name, -, description, -, parallel, -, rfl⟩ := hdraft
  obtain rfl : d = .list ds := by cases d <;> cases hds; rfl
  have hitem : ∀ x ∈ ds, ∃ x', Json.TableBy Step.Normal x x' := by
    intro x hx
    obtain ⟨rfl, hall⟩ := eq_map_of_mapM hdrafts default
    obtain ⟨es', rfl, hnodup'⟩ := hsteps ds (Entries.mem_of_get? hd) x hx
    obtain ⟨-, _, ⟨⟩, hraw⟩ := Step.eq_of_draft? (hall _ hx)
    obtain ⟨input, hinput⟩ := h _ (List.mem_map_of_mem (List.mem_map_of_mem hx))
    exact Step.exists_normal hnodup' (hraw ▸ hinput)
  have hentry : ∀ e ∈ es, ∃ d', Normal e.1 e.2 d' := by
    rintro ⟨n, x⟩ he
    by_cases hn : n = "steps"
    · subst hn
      obtain rfl : x = .list ds := Option.some.inj ((Entries.get?_of_mem hnodup he).symm.trans hd)
      obtain ⟨ds', hds'⟩ := Json.exists_forall₂_iff.2 hitem
      exact ⟨.list ds', ds, ds', rfl, rfl, hds'⟩
    · exact ⟨x, by rw [Normal, if_neg hn]⟩
  obtain ⟨es', hes'⟩ := Json.exists_entriesBy hentry
  exact ⟨.table es', es, es', rfl, rfl, hes'⟩

/-- **A document is a task just when it is one without a look at the references, and at each step there is a
reference, or nothing.** -/
theorem ofJson_eq_ok_iff (text : String) (task : Task) :
    ofJson text = .ok task ↔ ∃ raws, draft? text = .ok (task.bare, raws) ∧
      List.Forall₂ Stands raws (task.steps.map (·.input)) := by
  have hcodec : ofJson text = .ok task ↔ codec.ofJson text = .ok task := by
    rw [ofJson]
    cases codec.ofJson text <;> simp [Except.mapError]
  have hunique := Json.rightUnique_tableBy rightUnique_normal
  rw [hcodec, Codec.ofJson_eq_ok_iff]
  constructor
  · rintro ⟨d', hd', htask⟩
    obtain ⟨d, hd, hnormal⟩ := (sifts_codec.readBy_eq_ok_iff hunique text d').1 hd'
    obtain ⟨raws, hdraft, hstands⟩ := (decode?_eq_some_iff hnormal task).1 htask
    exact ⟨raws, (draft?_eq_ok_iff text _).2 ⟨d, hd, hdraft⟩, hstands⟩
  · rintro ⟨raws, hdraft, hstands⟩
    obtain ⟨d, hd, hdraft⟩ := (draft?_eq_ok_iff text _).1 hdraft
    have htabular : Tabular d := Json.GivesOnly.readBy givesOnly_draftReader hd
    obtain ⟨d', hnormal⟩ := exists_normal htabular hdraft (Json.exists_forall₂_iff.1 ⟨_, hstands⟩)
    exact ⟨d', (sifts_codec.readBy_eq_ok_iff hunique text d').2 ⟨d, hd, hnormal⟩,
      (decode?_eq_some_iff hnormal task).2 ⟨raws, hdraft, hstands⟩⟩

theorem eq_of_ofDraft? {d : Data} {draft : Task × List Data} (h : ofDraft? d = some draft) :
    draft.1.steps.map Step.bare = draft.1.steps ∧ draft.2.length = draft.1.steps.length := by
  cases d with
  | table es =>
    simp only [ofDraft?, Data.field?, Option.bind_eq_bind, Option.bind_eq_some_iff, Option.pure_def,
      Option.some_inj] at h
    obtain ⟨drafts, ⟨d, -, ds, -, hdrafts⟩, name, -, description, -, parallel, -, rfl⟩ := h
    obtain ⟨rfl, hall⟩ := eq_map_of_mapM hdrafts default
    have hbare : ∀ x ∈ ds, ((Step.draft? x).getD default).1.bare = ((Step.draft? x).getD default).1 :=
      fun x hx => (Step.eq_of_draft? (hall x hx)).1
    simpa using hbare
  | _ => cases h

/-- Steps are given what stands in the place of their references. -/
theorem exists_steps {steps : List Step} {inputs : List (Option InputRef)}
    (hbare : steps.map Step.bare = steps) (hlength : inputs.length = steps.length) :
    ∃ steps' : List Step, steps'.map Step.bare = steps ∧ steps'.map (·.input) = inputs := by
  induction steps generalizing inputs with
  | nil => exact ⟨[], rfl, (List.length_eq_zero_iff.1 hlength).symm⟩
  | cons step steps ih =>
    obtain ⟨input, inputs, rfl⟩ := List.exists_cons_of_length_eq_add_one hlength
    obtain ⟨hfirst, hrest⟩ := List.cons.inj hbare
    obtain ⟨steps', hsteps, hinputs⟩ := ih hrest (Nat.succ.inj hlength)
    exact ⟨{ step with input } :: steps', by rw [List.map_cons, hsteps, ← hfirst]; rfl,
      by rw [List.map_cons, hinputs]⟩

theorem eq_unreadableJson_of_error {text : String} {e : StructuralError} (h : ofJson text = .error e) :
    ∃ why, e = .unreadableJson why := by
  rw [ofJson] at h
  cases hread : codec.ofJson text with
  | ok task =>
    rw [hread] at h
    cases h
  | error why =>
    rw [hread] at h
    cases h
    exact ⟨why, rfl⟩

/-- A task is read where everything stands that must. -/
theorem exists_ofJson_of_stands {text : String} {draft : Task × List Data} (hdraft : draft? text = .ok draft)
    (h : ∀ raw ∈ draft.2, ∃ input, Stands raw input) : ∃ task, ofJson text = .ok task ∧ task.bare = draft.1 := by
  obtain ⟨d, -, hd⟩ := (draft?_eq_ok_iff text draft).1 hdraft
  obtain ⟨hbare, hlength⟩ := eq_of_ofDraft? hd
  obtain ⟨inputs, hinputs⟩ := Json.exists_forall₂_iff.2 h
  obtain ⟨steps, hsteps, rfl⟩ := exists_steps hbare (hinputs.length_eq.symm.trans hlength)
  have htask : ({ draft.1 with steps } : Task).bare = draft.1 := by rw [bare, hsteps]
  exact ⟨{ draft.1 with steps }, (ofJson_eq_ok_iff text _).2 ⟨draft.2, by rw [htask]; exact hdraft, hinputs⟩, htask⟩

end Task

/-- What says which kind of reference is written are the names alone. -/
theorem InputRef.Written.keys_eq {es es' : List (String × Data)} {r r' : InputRef} (h : Written (.table es) r)
    (h' : Written (.table es') r') (hnames : (Entries.names es).Perm (Entries.names es')) : r.keys = r'.keys := by
  have hkeys : r.keys.Perm r'.keys := (h.names_perm.symm.trans hnames).trans h'.names_perm
  revert hkeys
  cases r <;> cases r' <;> simp only [keys] <;> decide

/-- **References are read from the three forms and from nothing else, in every step of a task.**  A JSON
document is read as a reference if and only if it is a table of exactly the names of a form, each once, with
texts where the form asks for them; the names alone say which form it is.

A document that is a task but for its references has something standing in their place at each step, `null`
where there is none.  If at every step this is `null` or written in one of the forms, the document is the task
with these references.  If at any step it is neither, the document is refused. -/
theorem inputs_in_three_forms :
    (∀ text r, InputRef.codec.ofJson text = .ok r ↔ ∃ d, Json.tree? text = .ok d ∧ InputRef.Written d r) ∧
    (∀ (d : Data) (r : InputRef), d.Printable → d.depth < 128 →
      (InputRef.codec.ofJson (Json.pretty d) = .ok r ↔ InputRef.Written d r)) ∧
    (∀ es es' r r', InputRef.Written (.table es) r → InputRef.Written (.table es') r' →
      (Entries.names es).Perm (Entries.names es') → r.keys = r'.keys) ∧
    (∀ text task, Task.ofJson text = .ok task ↔ ∃ raws, Task.draft? text = .ok (task.bare, raws) ∧
      List.Forall₂ Stands raws (task.steps.map (·.input))) ∧
    ∀ text bare raws, Task.draft? text = .ok (bare, raws) → raws.length = bare.steps.length ∧
      ((∀ raw ∈ raws, raw = .null ∨ ∃ r, InputRef.Written raw r) →
        ∃ task, Task.ofJson text = .ok task ∧ task.bare = bare) ∧
      ((∃ raw ∈ raws, raw ≠ .null ∧ ∀ r, ¬ InputRef.Written raw r) →
        ∃ why, Task.ofJson text = .error (.unreadableJson why)) := by
  refine ⟨InputRef.ofJson_eq_ok_iff, fun d r hprint hdepth => ?_, fun _ _ _ _ h h' => h.keys_eq h',
    Task.ofJson_eq_ok_iff, fun text bare raws hdraft => ⟨?_, fun hall => ?_, ?_⟩⟩
  · rw [InputRef.ofJson_eq_ok_iff, Json.tree?_pretty hprint hdepth]
    simp
  · obtain ⟨d, -, hd⟩ := (Task.draft?_eq_ok_iff text _).1 hdraft
    exact (Task.eq_of_ofDraft? hd).2
  · refine Task.exists_ofJson_of_stands hdraft fun raw hraw => ?_
    rcases hall raw hraw with rfl | ⟨r, hr⟩
    · exact ⟨none, rfl⟩
    · exact ⟨some r, hr⟩
  · rintro ⟨raw, hraw, hne, hnot⟩
    cases htask : Task.ofJson text with
    | ok task =>
      obtain ⟨raws', hdraft', hstands⟩ := (Task.ofJson_eq_ok_iff text task).1 htask
      cases hdraft.symm.trans hdraft'
      obtain ⟨input, hinput⟩ := Json.exists_forall₂_iff.1 ⟨_, hstands⟩ raw hraw
      cases input with
      | none => exact absurd hinput hne
      | some r => exact absurd hinput (hnot r)
    | error e =>
      obtain ⟨why, rfl⟩ := Task.eq_unreadableJson_of_error htask
      exact ⟨why, rfl⟩

/-- A reference to nothing is read, and a task the second step of which asks for two things at once is not. -/
theorem inputs_in_three_forms_second_step :
    InputRef.codec.ofJson (Json.pretty (.table [("value", .null)])) = .ok (.inline .null) ∧
      ∃ text bare why, Task.draft? text = .ok (bare,
          [.null, .table [("job_id", .text "a"), ("value", .int 1)]]) ∧
        Task.ofJson text = .error (.unreadableJson why) := by
  obtain ⟨-, hprinted, -, -, hdrafts⟩ := inputs_in_three_forms
  have hnull : (Data.table [("value", .null)]).Printable := .table (by simpa using .null)
  have hdraft : Task.draft? ("\x7b\"name\": \"t\", \"steps\": [\x7b\x7d, " ++
      "\x7b\"input\": \x7b\"job_id\": \"a\", \"value\": 1\x7d\x7d]\x7d") =
      .ok ({ name := "t", steps := [{}, {}], parallel := false },
        [.null, .table [("job_id", .text "a"), ("value", .int 1)]]) := by rfl
  obtain ⟨why, hwhy⟩ := (hdrafts _ _ _ hdraft).2.2
    ⟨_, List.mem_cons_of_mem _ List.mem_cons_self, nofun, fun r hr => by
      have hnames := hr.names_perm
      cases r <;> revert hnames <;> simp only [InputRef.keys] <;> decide⟩
  exact ⟨(hprinted _ (.inline .null) hnull (by decide)).2 (.inline (.refl _)), _, _, why, hdraft, hwhy⟩

end PluginChain
