import Mathlib.Data.List.Basic
import PluginChain.Codec
import PluginChain.Proofs.Entries

/-!
# Trees that have a shape

A document carries a tree, and reading it by a shape puts this tree into the normal form of the shape.
`Shape.accept` tells the normal form from the tree alone, without any text: it is what decoding means for
every notation.  It takes the trees that encoders make, and is strict where they leave no choice, so that
a table with an unknown field, or with one that comes twice, has no normal form here.  `Shape.prune`
takes unknown fields out before.

`Codec.ofData?` decodes a tree, and `Codec.encode_injOn` says that no two values that are decoded from
their own trees have one tree.
-/

set_option autoImplicit false

namespace PluginChain

namespace Shape

/-- The values of entries, each taken as its name says.  No name may come twice. -/
def acceptFields (takers : List (String × (Data → Option Data))) (es : List (String × Data)) :
    Option (List (String × Data)) :=
  if (Entries.names es).Nodup then
    es.mapM fun e => ((Entries.get? e.1 takers).bind fun take => take e.2).map (e.1, ·)
  else none

mutual

/-- The normal form of a tree, if it has the shape. -/
def accept : Shape → Data → Option Data
  | .any, d => some d.settle
  | .text, .text s => some (.text s)
  | .flag, .flag b => some (.flag b)
  | .natural _, .int n => if 0 ≤ n ∧ n ≤ maxNatural then some (.int n) else none
  | .uuid, .text s => (Uuid.parse s).toOption.map fun id => .text id.toText
  | .instant, .text s => (Instant.parse s).toOption.map fun i => .text i.toText
  | .maybe _, .null => some .null
  | .maybe inner, d => accept inner d
  | .list item, .list xs => (xs.mapM fun x => accept item x).map .list
  | .table item, .table es =>
    (es.mapM fun e => (accept item e.2).map (e.1, ·)).map fun es => .table (Entries.ofList es)
  | .record _ fields, .table es =>
    (acceptFields (fieldTakers fields) es).bind fun es => ((complete es fields).toOption).map .table
  | .choice _ words, .text w => if w ∈ words then some (.text w) else none
  | .tagged _ cases, .table [(s, d)] =>
    ((Entries.get? s (caseTakers cases)).bind fun take => take d).map fun d => .table [(s, d)]
  | .keyed _ tag cases, .table ((name, .text given) :: es) =>
    if name = tag ∧ tag ∉ Entries.names es then
      (Entries.get? given cases).bind fun fields =>
        (fieldsOf Json.foundOf fields (Json.wholeEntries es) []).toOption.map fun es =>
          .table ((tag, .text given) :: es)
    else none
  | .oneOf name forms, .table es => (formsOf Json.foundOf name forms (Json.wholeEntries es)).toOption
  | _, _ => none

def fieldTakers : List (String × Shape × Option Data) → List (String × (Data → Option Data))
  | [] => []
  | (name, shape, _) :: rest => (name, fun d => accept shape d) :: fieldTakers rest

def caseTakers : List (String × Shape) → List (String × (Data → Option Data))
  | [] => []
  | (name, shape) :: rest => (name, fun d => accept shape d) :: caseTakers rest

end

theorem accept_maybe {d : Data} (hd : d ≠ .null) (inner : Shape) :
    accept (.maybe inner) d = accept inner d := by
  cases d with
  | null => exact absurd rfl hd
  | _ => rfl

theorem fieldTakers_eq (fields : List (String × Shape × Option Data)) :
    fieldTakers fields = fields.map fun f => (f.1, fun d => f.2.1.accept d) := by
  induction fields with
  | nil => rfl
  | cons f fields ih => rw [fieldTakers, ih, List.map_cons]

theorem caseTakers_eq (cases : List (String × Shape)) :
    caseTakers cases = cases.map fun c => (c.1, fun d => c.2.accept d) := by
  induction cases with
  | nil => rfl
  | cons c cases ih => rw [caseTakers, ih, List.map_cons]

theorem get?_fieldTakers (name : String) (fields : List (String × Shape × Option Data)) :
    Entries.get? name (fieldTakers fields) =
      (Entries.get? name fields).map fun f => fun d => f.1.accept d := by
  rw [fieldTakers_eq]
  exact Entries.get?_map (fun (f : Shape × Option Data) d => f.1.accept d) name fields

theorem get?_caseTakers (name : String) (cases : List (String × Shape)) :
    Entries.get? name (caseTakers cases) = (Entries.get? name cases).map fun s => fun d => s.accept d := by
  rw [caseTakers_eq]
  exact Entries.get?_map (fun s d => accept s d) name cases

/-! ## Unknown fields -/

/-- The entries that have a known name, each pruned as its name says. -/
def pruneEntries (pruners : List (String × (Data → Data))) (es : List (String × Data)) :
    List (String × Data) :=
  es.filterMap fun e => (Entries.get? e.1 pruners).map fun prune => (e.1, prune e.2)

mutual

/-- A tree without the fields that its records do not know. -/
def prune : Shape → Data → Data
  | .maybe inner, d => prune inner d
  | .list item, .list xs => .list (xs.map fun x => prune item x)
  | .table item, .table es => .table (es.map fun e => (e.1, prune item e.2))
  | .record _ fields, .table es => .table (pruneEntries (fieldPruners fields) es)
  | _, d => d

def fieldPruners : List (String × Shape × Option Data) → List (String × (Data → Data))
  | [] => []
  | (name, shape, _) :: rest => (name, fun d => prune shape d) :: fieldPruners rest

end

theorem fieldPruners_eq (fields : List (String × Shape × Option Data)) :
    fieldPruners fields = fields.map fun f => (f.1, f.2.1.prune) := by
  induction fields with
  | nil => rfl
  | cons f fields ih => rw [fieldPruners, ih, List.map_cons]

theorem get?_fieldPruners (name : String) (fields : List (String × Shape × Option Data)) :
    Entries.get? name (fieldPruners fields) =
      (Entries.get? name fields).map fun f => f.1.prune := by
  rw [fieldPruners_eq]
  exact Entries.get?_map (fun f => prune f.1) name fields

theorem mem_pruneEntries {fields : List (String × Shape × Option Data)} {es : List (String × Data)}
    {e : String × Data} {field : Shape × Option Data} (he : e ∈ es)
    (hfield : Entries.get? e.1 fields = some field) :
    (e.1, field.1.prune e.2) ∈ pruneEntries (fieldPruners fields) es :=
  List.mem_filterMap.2 ⟨e, he, by rw [get?_fieldPruners, hfield]; rfl⟩

theorem prune_null : ∀ s : Shape, s.prune .null = .null
  | .maybe inner => by rw [prune, prune_null inner]
  | .any | .text | .flag | .natural _ | .uuid | .instant | .list _ | .table _ | .record _ _ | .choice _ _
  | .tagged _ _ | .keyed _ _ _ | .oneOf _ _ => rfl

theorem prune_ne_null : ∀ (s : Shape) {d : Data}, d ≠ .null → s.prune d ≠ .null
  | .maybe inner, d, h => by
    rw [prune]
    exact prune_ne_null inner h
  | .list _, d, h | .table _, d, h | .record _ _, d, h => by
    cases d with
    | null => exact absurd rfl h
    | _ => exact nofun
  | .any, _, h | .text, _, h | .flag, _, h | .natural _, _, h | .uuid, _, h | .instant, _, h
  | .choice _ _, _, h | .tagged _ _, _, h | .keyed _ _ _, _, h | .oneOf _ _, _, h => h

end Shape

/-! ## Trees part by part -/

section Parts

variable {α β : Type}

theorem eq_ok_of_toOption {ε : Type} {r : Except ε α} {a : α} (h : r.toOption = some a) : r = .ok a := by
  cases r with
  | error e => cases h
  | ok b =>
    cases h
    rfl

/-- Parts that have a value together have one each. -/
theorem eq_map_of_mapM {f : α → Option β} {xs : List α} {ys : List β} (h : xs.mapM f = some ys) (b : β) :
    ys = xs.map (fun x => (f x).getD b) ∧ ∀ x ∈ xs, f x = some ((f x).getD b) := by
  induction xs generalizing ys with
  | nil =>
    cases h
    exact ⟨rfl, nofun⟩
  | cons x xs ih =>
    rw [List.mapM_cons] at h
    obtain ⟨y, hy, h⟩ := Option.bind_eq_some_iff.1 h
    obtain ⟨zs, hzs, h⟩ := Option.bind_eq_some_iff.1 h
    cases h
    obtain ⟨rfl, hall⟩ := ih hzs
    rw [List.map_cons, hy, Option.getD_some]
    exact ⟨rfl, List.forall_mem_cons.2 ⟨by rw [hy, Option.getD_some], hall⟩⟩

/-- Values that have a name each have it still when something was made of them. -/
theorem eq_map_of_mapM_entries {f : String × α → Option β} {es : List (String × α)}
    {es' : List (String × β)} (h : (es.mapM fun e => (f e).map (e.1, ·)) = some es') (b : β) :
    es' = es.map (fun e => (e.1, (f e).getD b)) ∧ ∀ e ∈ es, f e = some ((f e).getD b) := by
  obtain ⟨rfl, hall⟩ := eq_map_of_mapM h ("", b)
  have hsome : ∀ e ∈ es, f e = some ((f e).getD b) := by
    intro e he
    have hmap := hall e he
    cases hf : f e with
    | none =>
      rw [hf] at hmap
      cases hmap
    | some v => rfl
  refine ⟨List.map_congr_left fun e he => ?_, hsome⟩
  rw [hsome e he]
  rfl

/-- Where all parts together come to something, each of them does. -/
theorem exists_ok_of_mapM {ε : Type} {f : α → Except ε β} {xs : List α} {ys : List β}
    (h : xs.mapM f = .ok ys) : ∀ x ∈ xs, ∃ y, f x = .ok y := by
  induction xs generalizing ys with
  | nil => exact fun _ => nofun
  | cons x xs ih =>
    rw [List.mapM_cons] at h
    cases hx : f x with
    | error e =>
      rw [hx] at h
      cases h
    | ok y =>
      rw [hx] at h
      cases hxs : xs.mapM f with
      | error e =>
        simp only [hxs, bind, Except.bind] at h
        cases h
      | ok ys' => exact List.forall_mem_cons.2 ⟨⟨y, hx⟩, ih hxs⟩

/-- What can be made of each part can be made of all together. -/
theorem mapM_eq_map {f : α → Option β} {g : α → β} {xs : List α} (h : ∀ x ∈ xs, f x = some (g x)) :
    xs.mapM f = some (xs.map g) := by
  induction xs with
  | nil => rfl
  | cons x xs ih =>
    rw [List.mapM_cons, h x List.mem_cons_self, ih fun y hy => h y (List.mem_cons_of_mem _ hy)]
    rfl

end Parts

namespace Shape

/-! ### Words for what was found

They are for messages, so that what is accepted does not depend on them. -/

section Found

variable (found found' : Data → Found)

theorem accept_leaf_eq {leaf : Leaf} {w : Whole} {d : Data} (h : leaf.accept found w = .ok d) :
    leaf.accept found' w = .ok d := by
  cases w with
  | error e => cases h
  | ok x =>
    cases leaf with
    | any => exact h
    | text =>
      cases x with
      | text s => exact h
      | _ => cases h
    | natural name =>
      cases x with
      | int n => exact h
      | _ => cases h

theorem fieldsOf_eq {fields : List (String × Leaf)} {entries : List (EntryName × Whole)}
    {got es : List (String × Data)} (h : fieldsOf found fields entries got = .ok es) :
    fieldsOf found' fields entries got = .ok es := by
  induction entries generalizing got with
  | nil => exact h
  | cons e entries ih =>
    obtain ⟨entry, w⟩ := e
    simp only [fieldsOf, bind, Except.bind] at h ⊢
    cases hknown : knownField fields entry with
    | error m =>
      rw [hknown] at h
      cases h
    | ok field =>
      rw [hknown] at h
      cases field with
      | none => exact ih h
      | some field =>
        obtain ⟨name, leaf⟩ := field
        dsimp only at h ⊢
        split at h
        · cases h
        · next hnew =>
          rw [if_neg hnew]
          cases hv : leaf.accept found w with
          | error m =>
            rw [hv] at h
            cases h
          | ok v =>
            rw [hv] at h
            rw [accept_leaf_eq found found' hv]
            exact ih h

theorem formOf?_eq (entries : List (EntryName × Whole)) (form : List (String × Leaf)) :
    formOf? found entries form = formOf? found' entries form := by
  unfold formOf?
  refine if_congr Iff.rfl ?_ rfl
  cases h : fieldsOf found form entries [] with
  | ok es => rw [fieldsOf_eq found found' h]
  | error m =>
    cases h' : fieldsOf found' form entries [] with
    | ok es =>
      rw [fieldsOf_eq found' found h'] at h
      cases h
    | error m' => rfl

theorem formsOf_eq (name : String) (forms : List (List (String × Leaf)))
    (entries : List (EntryName × Whole)) :
    formsOf found name forms entries = formsOf found' name forms entries := by
  rw [formsOf, formsOf, funext (formOf?_eq found found' entries)]

end Found

/-- Entries that are taken have names that come once, and each was taken as its name says. -/
theorem eq_map_of_acceptFields {fields : List (String × Shape × Option Data)} {es es' : List (String × Data)}
    (h : acceptFields (fieldTakers fields) es = some es') :
    (Entries.names es).Nodup ∧ ∃ g : String × Data → Data, es' = es.map (fun e => (e.1, g e)) ∧
      ∀ e ∈ es, ∃ field, Entries.get? e.1 fields = some field ∧ field.1.accept e.2 = some (g e) := by
  rw [acceptFields] at h
  split at h
  · next hnodup =>
    obtain ⟨rfl, hall⟩ := eq_map_of_mapM_entries h .null
    refine ⟨hnodup, _, rfl, fun e he => ?_⟩
    have htaken := hall e he
    rw [get?_fieldTakers] at htaken ⊢
    cases hfield : Entries.get? e.1 fields with
    | none =>
      rw [hfield] at htaken
      cases htaken
    | some field =>
      rw [hfield] at htaken
      exact ⟨field, rfl, htaken⟩
  · cases h

/-- Only what names are bound to counts for completing a record. -/
theorem complete_congr {α : Type} {got got' : List (String × Data)}
    (h : ∀ name, Entries.get? name got = Entries.get? name got') (fields : List (String × α × Option Data)) :
    complete got fields = complete got' fields := by
  induction fields with
  | nil => rfl
  | cons e fields ih =>
    obtain ⟨n, a, fallback⟩ := e
    simp only [complete, h n, ih]

/-- What stands for a field that is not given does not depend on what else is known of the field. -/
theorem complete_map {α β : Type} (f : α → β) (got : List (String × Data))
    (fields : List (String × α × Option Data)) :
    complete got (fields.map fun e => (e.1, f e.2.1, e.2.2)) = complete got fields := by
  induction fields with
  | nil => rfl
  | cons e fields ih =>
    obtain ⟨n, a, fallback⟩ := e
    simp only [List.map_cons, complete, ih]

theorem complete_cons_eq_ok {α : Type} {got es : List (String × Data)} {n : String} {a : α}
    {fallback : Option Data} {fields : List (String × α × Option Data)}
    (h : complete got ((n, a, fallback) :: fields) = .ok es) :
    ∃ d rest, (Entries.get? n got).or fallback = some d ∧ complete got fields = .ok rest ∧
      es = (n, d) :: rest := by
  unfold complete at h
  cases hrest : complete got fields with
  | error e =>
    rw [hrest] at h
    split at h <;> cases h
  | ok rest =>
    rw [hrest] at h
    split at h
    · next d hgot =>
      cases h
      exact ⟨d, rest, by rw [hgot, Option.some_or], rfl, rfl⟩
    · next d hgot =>
      cases h
      exact ⟨d, rest, by rw [hgot, Option.none_or], rfl, rfl⟩
    · cases h

theorem complete_cons_of_ok {α : Type} {got rest : List (String × Data)} {n : String} {a : α}
    {fallback : Option Data} {fields : List (String × α × Option Data)} {d : Data}
    (hd : (Entries.get? n got).or fallback = some d) (hrest : complete got fields = .ok rest) :
    complete got ((n, a, fallback) :: fields) = .ok ((n, d) :: rest) := by
  unfold complete
  rw [hrest]
  cases hgot : Entries.get? n got with
  | some d' =>
    rw [hgot, Option.some_or, Option.some_inj] at hd
    rw [hd]
  | none =>
    rw [hgot, Option.none_or] at hd
    rw [hd]

/-- A completed record has its fields in order. -/
theorem names_complete {α : Type} {got es : List (String × Data)} {fields : List (String × α × Option Data)}
    (h : complete got fields = .ok es) : Entries.names es = Entries.names fields := by
  induction fields generalizing es with
  | nil =>
    cases h
    rfl
  | cons f fields ih =>
    obtain ⟨n, a, fallback⟩ := f
    obtain ⟨d, rest, -, hrest, rfl⟩ := complete_cons_eq_ok h
    exact congrArg (n :: ·) (ih hrest)

/-- A field of a completed record is what was got for it, or what stands for it. -/
theorem get?_complete {α : Type} {got es : List (String × Data)} {fields : List (String × α × Option Data)}
    (h : complete got fields = .ok es) (name : String) :
    Entries.get? name es = (Entries.get? name fields).bind fun f => (Entries.get? name got).or f.2 := by
  induction fields generalizing es with
  | nil =>
    cases h
    rfl
  | cons e fields ih =>
    obtain ⟨n, a, fallback⟩ := e
    obtain ⟨d, rest, hd, hrest, rfl⟩ := complete_cons_eq_ok h
    rw [Entries.get?, Entries.get?]
    split
    · next hn =>
      subst hn
      exact hd.symm
    · exact ih hrest

/-- The fields of a record that a tree is taken as: what is given for one is taken as its shape says, and
one that is not given is what stands for it. -/
theorem get?_of_accept_record {name : String} {fields : List (String × Shape × Option Data)}
    {es : List (String × Data)} {d : Data}
    (h : accept (.record name fields) (prune (.record name fields) (.table es)) = some d) :
    ∃ es', d = .table es' ∧ ∀ n field, Entries.get? n fields = some field →
      (∀ x, Entries.get? n es = some x →
        ∃ y, field.1.accept (field.1.prune x) = some y ∧ Entries.get? n es' = some y) ∧
      (Entries.get? n es = none → Entries.get? n es' = field.2) := by
  rw [prune, accept] at h
  obtain ⟨got, hgot, h⟩ := Option.bind_eq_some_iff.1 h
  obtain ⟨es', hes', rfl⟩ := Option.map_eq_some_iff.1 h
  obtain ⟨hnodup, g, rfl, hall⟩ := eq_map_of_acceptFields hgot
  have hcomplete := get?_complete (eq_ok_of_toOption hes')
  refine ⟨es', rfl, fun n field hfield => ⟨fun x hx => ?_, fun hnone => ?_⟩⟩
  · have hmem := mem_pruneEntries (Entries.mem_of_get? hx) hfield
    obtain ⟨field', hfield', haccept⟩ := hall _ hmem
    cases hfield.symm.trans hfield'
    have hgot : Entries.get? n ((pruneEntries (fieldPruners fields) es).map fun e => (e.1, g e)) =
        some (g (n, field.1.prune x)) := by
      refine Entries.get?_of_mem ?_ (List.mem_map.2 ⟨_, hmem, rfl⟩)
      rwa [Entries.names, List.map_map]
    refine ⟨_, haccept, ?_⟩
    rw [hcomplete n, hfield, Option.bind_some, hgot, Option.some_or]
  · have hgot : Entries.get? n ((pruneEntries (fieldPruners fields) es).map fun e => (e.1, g e)) = none := by
      rw [Entries.get?_eq_none_iff, Entries.names, List.map_map]
      rw [Entries.get?_eq_none_iff] at hnone
      intro hn
      obtain ⟨e, he, rfl⟩ := List.mem_map.1 hn
      obtain ⟨x, hx, hsome⟩ := List.mem_filterMap.1 he
      obtain ⟨_, -, rfl⟩ := Option.map_eq_some_iff.1 hsome
      exact hnone (List.mem_map.2 ⟨x, hx, rfl⟩)
    rw [hcomplete n, hfield, Option.bind_some, hgot, Option.none_or]

/-! ### Normal forms part by part -/

/-- A tree has a shape, and this is its normal form.  There is one case for each way in which
`accept` takes a tree. -/
inductive NormalForm : Shape → Data → Data → Prop
  | any (d : Data) : NormalForm .any d d.settle
  | text (s : String) : NormalForm .text (.text s) (.text s)
  | flag (b : Bool) : NormalForm .flag (.flag b) (.flag b)
  | natural (name : String) {n : Int} (low : 0 ≤ n) (high : n ≤ maxNatural) :
    NormalForm (.natural name) (.int n) (.int n)
  | uuid {s : String} {id : Uuid} (reads : Uuid.parse s = .ok id) :
    NormalForm .uuid (.text s) (.text id.toText)
  | instant {s : String} {i : Instant} (reads : Instant.parse s = .ok i) :
    NormalForm .instant (.text s) (.text i.toText)
  | nothing (inner : Shape) : NormalForm (.maybe inner) .null .null
  | something {inner : Shape} {d d' : Data} (some : d ≠ .null) (value : NormalForm inner d d') :
    NormalForm (.maybe inner) d d'
  | list {item : Shape} {xs : List Data} {f : Data → Data} (items : ∀ x ∈ xs, NormalForm item x (f x)) :
    NormalForm (.list item) (.list xs) (.list (xs.map f))
  | table {item : Shape} {es : List (String × Data)} {f : Data → Data}
    (entries : ∀ e ∈ es, NormalForm item e.2 (f e.2)) :
    NormalForm (.table item) (.table es) (.table (Entries.ofList (es.map fun e => (e.1, f e.2))))
  | record (name : String) {fields : List (String × Shape × Option Data)} {es es' : List (String × Data)}
    {g : String × Data → Data} (nodup : (Entries.names es).Nodup)
    (known : ∀ e ∈ es, ∃ field, Entries.get? e.1 fields = some field)
    (entries : ∀ e ∈ es, ∀ field, Entries.get? e.1 fields = some field → NormalForm field.1 e.2 (g e))
    (complete : complete (es.map fun e => (e.1, g e)) fields = .ok es') :
    NormalForm (.record name fields) (.table es) (.table es')
  | choice (name : String) {words : List String} {w : String} (known : w ∈ words) :
    NormalForm (.choice name words) (.text w) (.text w)
  | tagged (name : String) {cases : List (String × Shape)} {s : String} {shape : Shape} {d d' : Data}
    (known : Entries.get? s cases = some shape) (value : NormalForm shape d d') :
    NormalForm (.tagged name cases) (.table [(s, d)]) (.table [(s, d')])
  | keyed (name : String) {tag given : String} {cases : List (String × List (String × Leaf))}
    {fields : List (String × Leaf)} {es es' : List (String × Data)} (untagged : tag ∉ Entries.names es)
    (known : Entries.get? given cases = some fields)
    (entries : fieldsOf Json.foundOf fields (Json.wholeEntries es) [] = .ok es') :
    NormalForm (.keyed name tag cases) (.table ((tag, .text given) :: es)) (.table ((tag, .text given) :: es'))
  | oneOf {name : String} {forms : List (List (String × Leaf))} {es : List (String × Data)} {d : Data}
    (found : formsOf Json.foundOf name forms (Json.wholeEntries es) = .ok d) :
    NormalForm (.oneOf name forms) (.table es) d

mutual

/-- **What `accept` finds is a normal form.** -/
theorem normalForm_of_accept : ∀ (s : Shape) {d d' : Data}, s.accept d = some d' → NormalForm s d d'
  | .any, d, d', h => by
    rw [accept] at h
    cases h
    exact .any d
  | .text, .text s, _, h => by
    cases h
    exact .text s
  | .flag, .flag b, _, h => by
    cases h
    exact .flag b
  | .natural name, .int n, _, h => by
    rw [accept] at h
    split at h
    · next hn =>
      cases h
      exact .natural name hn.1 hn.2
    · cases h
  | .uuid, .text s, _, h => by
    rw [accept] at h
    obtain ⟨id, hid, rfl⟩ := Option.map_eq_some_iff.1 h
    exact .uuid (eq_ok_of_toOption hid)
  | .instant, .text s, _, h => by
    rw [accept] at h
    obtain ⟨i, hi, rfl⟩ := Option.map_eq_some_iff.1 h
    exact .instant (eq_ok_of_toOption hi)
  | .maybe inner, d, d', h => by
    by_cases hd : d = .null
    · subst hd
      rw [accept] at h
      cases h
      exact .nothing inner
    · rw [accept_maybe hd] at h
      exact .something hd (normalForm_of_accept inner h)
  | .list item, .list xs, _, h => by
    rw [accept] at h
    obtain ⟨ys, hys, rfl⟩ := Option.map_eq_some_iff.1 h
    obtain ⟨rfl, hall⟩ := eq_map_of_mapM hys .null
    exact .list fun x hx => normalForm_of_accept item (hall x hx)
  | .table item, .table es, _, h => by
    rw [accept] at h
    obtain ⟨es', hes, rfl⟩ := Option.map_eq_some_iff.1 h
    obtain ⟨rfl, hall⟩ := eq_map_of_mapM_entries hes .null
    exact .table (f := fun d => (item.accept d).getD .null) fun e he => normalForm_of_accept item (hall e he)
  | .record name fields, .table es, _, h => by
    rw [accept] at h
    obtain ⟨got, hgot, h⟩ := Option.bind_eq_some_iff.1 h
    obtain ⟨es', hes', rfl⟩ := Option.map_eq_some_iff.1 h
    obtain ⟨hnodup, g, rfl, hall⟩ := eq_map_of_acceptFields hgot
    refine .record name hnodup (fun e he => (hall e he).imp fun _ => And.left) (fun e he field hfield => ?_)
      (eq_ok_of_toOption hes')
    obtain ⟨field', hfield', haccept⟩ := hall e he
    cases hfield.symm.trans hfield'
    exact normalForm_of_fields fields hfield haccept
  | .choice name words, .text w, _, h => by
    rw [accept] at h
    split at h
    · next hw =>
      cases h
      exact .choice name hw
    · cases h
  | .tagged name cases, .table [(s, d)], _, h => by
    rw [accept] at h
    obtain ⟨d', hd, rfl⟩ := Option.map_eq_some_iff.1 h
    obtain ⟨take, htake, hd⟩ := Option.bind_eq_some_iff.1 hd
    rw [get?_caseTakers] at htake
    obtain ⟨shape, hshape, rfl⟩ := Option.map_eq_some_iff.1 htake
    exact .tagged name hshape (normalForm_of_cases cases hshape hd)
  | .keyed name tag cases, .table ((n, .text given) :: es), _, h => by
    rw [accept] at h
    split at h
    · next htag =>
      obtain ⟨rfl, htag⟩ := htag
      obtain ⟨fields, hfields, h⟩ := Option.bind_eq_some_iff.1 h
      obtain ⟨es', hes, rfl⟩ := Option.map_eq_some_iff.1 h
      exact .keyed name htag hfields (eq_ok_of_toOption hes)
    · cases h
  | .oneOf name forms, .table es, _, h => by
    rw [accept] at h
    exact .oneOf (eq_ok_of_toOption h)

theorem normalForm_of_fields : ∀ (fields : List (String × Shape × Option Data)) {name : String}
    {field : Shape × Option Data}, Entries.get? name fields = some field →
    ∀ {d d' : Data}, field.1.accept d = some d' → NormalForm field.1 d d'
  | [], _, _, hget, _, _, _ => nomatch hget
  | (n, shape, fallback) :: rest, name, field, hget, d, d', h => by
    rw [Entries.get?] at hget
    split at hget
    · cases hget
      exact normalForm_of_accept shape h
    · exact normalForm_of_fields rest hget h

theorem normalForm_of_cases : ∀ (cases : List (String × Shape)) {name : String} {shape : Shape},
    Entries.get? name cases = some shape →
    ∀ {d d' : Data}, shape.accept d = some d' → NormalForm shape d d'
  | [], _, _, hget, _, _, _ => nomatch hget
  | (n, s) :: rest, name, shape, hget, d, d', h => by
    rw [Entries.get?] at hget
    split at hget
    · cases hget
      exact normalForm_of_accept s h
    · exact normalForm_of_cases rest hget h

end

/-- A tree that has the shape has no unknown fields. -/
theorem NormalForm.prune_eq {s : Shape} {d d' : Data} (h : NormalForm s d d') : s.prune d = d := by
  induction h with
  | something hd _ ih => rw [prune, ih]
  | nothing inner => exact prune_null _
  | list _ ih => rw [prune, List.map_congr_left ih, List.map_id']
  | @table item es f _ ih =>
    have hsame : ∀ e ∈ es, (e.1, item.prune e.2) = e := fun e he => by rw [ih e he]
    rw [prune, List.map_congr_left hsame, List.map_id']
  | @record _ fields es _ _ _ known _ _ ih =>
    refine congrArg Data.table ?_
    rw [pruneEntries, List.filterMap_eq_map_iff_forall_eq_some (g := id) |>.2 ?_, List.map_id]
    intro e he
    obtain ⟨field, hfield⟩ := known e he
    rw [get?_fieldPruners, hfield, Option.map_some, Option.map_some, ih e he field hfield]
    rfl
  | _ => rfl

end Shape

/-! ## Codecs -/

namespace Codec

variable {α : Type}

/-- The value that a tree stands for. -/
def ofData? (c : Codec α) (d : Data) : Option α := (c.shape.accept d).bind c.decode?

/-- A tree that a value is decoded from has no unknown fields. -/
theorem prune_of_ofData? {c : Codec α} {a : α} {d : Data} (h : c.ofData? d = some a) :
    c.shape.prune d = d := by
  obtain ⟨d', hd, -⟩ := Option.bind_eq_some_iff.1 h
  exact (Shape.normalForm_of_accept c.shape hd).prune_eq

/-- Values that are decoded from their own trees have trees of their own. -/
theorem encode_injOn (c : Codec α) {a b : α} (ha : c.ofData? (c.encode a) = some a)
    (hb : c.ofData? (c.encode b) = some b) (h : c.encode a = c.encode b) : a = b :=
  Option.some.inj (ha.symm.trans ((congrArg c.ofData? h).trans hb))

end Codec

end PluginChain
