import PluginChain.Proofs.Json.Shape
import PluginChain.Proofs.Tree

/-!
# Trees are read off their texts

The text of a tree that has a shape is read, by the shape, as the normal form of the tree
(`reads_of_normalForm`), if its levels of nesting suffice.  There is one lemma for each shape; those for the
shapes that were read as themselves stand beside the readers.

`Codec.ofJson_toJson` is what this means for a codec: a value that is decoded from its own tree is read
back from its document.
-/

set_option autoImplicit false

namespace PluginChain.Json

open Operation

/-! ## Values without brackets -/

theorem reads_flag (v : Bool) : Reads (readerOf .flag) (.flag v) (.flag v) := by
  intro b level hb
  refine readsAs_of_flat rfl hb fun ws rest hws _ => ?_
  rw [readerOf, flagOf, textAt, prettyAt]
  cases v with
  | false =>
    refine (yields_peekValue b hws rfl _).bind ((yields_skip b 'f' _).bind ?_)
    exact (yields_word b ['a', 'l', 's', 'e'] rest).bind (yields_pure b rest _)
  | true =>
    refine (yields_peekValue b hws rfl _).bind ((yields_skip b 't' _).bind ?_)
    exact (yields_word b ['r', 'u', 'e'] rest).bind (yields_pure b rest _)

theorem reads_natural (name : String) {n : Int} (low : 0 ≤ n) (high : n ≤ maxNatural) :
    Reads (readerOf (.natural name)) (.int n) (.int n) := by
  intro b level hb
  refine readsAs_of_flat rfl hb fun ws rest hws hrest => ?_
  have hneg : ¬ n < 0 := by omega
  have hn : signed false n.natAbs = n := by
    rw [signed, if_neg (by decide)]
    omega
  have hnum := yields_number b false n.natAbs hrest (by rw [maxNatural] at high; omega)
    Bool.noConfusion
  rw [hn] at hnum
  rw [readerOf, naturalOf, textAt, prettyAt, toList_int, if_neg hneg, List.nil_append]
  obtain ⟨d, ds, hds⟩ := List.exists_cons_of_ne_nil (Nat.toDigits_ne_nil (n := n.natAbs) (b := 10))
  have hd : isDigit d = true := isDigit_of_mem_toDigits (n := n.natAbs) (hds ▸ List.mem_cons_self)
  obtain ⟨ch, tl, hcons, hs, -, -⟩ := opens_of_digit hd []
  cases hcons
  rw [hds] at hnum ⊢
  refine (yields_peekValue b hws hs _).bind ?_
  split
  · exact absurd hd (by decide)
  · rw [if_pos hd]
    refine hnum.bind ?_
    dsimp only
    rw [if_pos low]
    exact yields_pure b rest _

/-! ## Nothing, or a value -/

/-- Only nothing has a text that starts like the word for it. -/
theorem textAt_ne_cons_n {d : Data} (h : d.Printable) (hd : d ≠ .null) (level : Nat) (tl : List Char) :
    textAt level d ≠ 'n' :: tl := by
  intro htext
  have hread := readsAs_whole h (d.depth + 1) level (by omega) [] [] spaces_nil ends_nil
  rw [if_pos (Nat.lt_succ_self _), htext] at hread
  obtain ⟨c, hc, -⟩ := hread { rest := 'n' :: (tl ++ []), budget := d.depth + 1 } rfl rfl
  rw [whole] at hc
  obtain ⟨ch, c₁, hpeek, hc⟩ := bind_eq_ok hc
  have hn : Yields peekValue (d.depth + 1) ('n' :: (tl ++ [])) 'n' ('n' :: (tl ++ [])) :=
    yields_peekValue _ spaces_nil rfl _
  obtain ⟨c₂, hyields, -⟩ := hn { rest := 'n' :: (tl ++ []), budget := d.depth + 1 } rfl rfl
  obtain ⟨rfl, rfl⟩ : ch = 'n' ∧ c₁ = c₂ := by
    rw [hyields] at hpeek
    cases hpeek
    exact ⟨rfl, rfl⟩
  obtain ⟨_, c₃, -, hc⟩ := bind_eq_ok hc
  obtain ⟨_, c₄, -, hc⟩ := bind_eq_ok hc
  cases hc
  exact hd rfl

theorem reads_nothing (inner : Shape) : Reads (readerOf (.maybe inner)) .null .null := by
  intro b level hb
  refine readsAs_of_flat rfl hb fun ws rest hws _ => ?_
  rw [readerOf, textAt, prettyAt]
  refine (yields_peekToken_cons b hws rfl _).bind ((yields_skip b 'n' _).bind ?_)
  exact (yields_word b ['u', 'l', 'l'] rest).bind (yields_pure b rest _)

theorem reads_something {inner : Shape} {d d' : Data} (h : Reads (readerOf inner) d d')
    (hprint : d.Printable) (hd : d ≠ .null) : Reads (readerOf (.maybe inner)) d d' := by
  intro b level hb ws rest hws hrest
  obtain ⟨ch, tl, htext, hspace, -⟩ := opens_textAt level d
  have hinner := h b level hb [] rest spaces_nil hrest
  have hne : ch ≠ 'n' := fun hch => textAt_ne_cons_n hprint hd level tl (hch ▸ htext)
  rw [List.nil_append, htext, List.cons_append] at hinner
  rw [htext, List.cons_append, readerOf]
  refine (yields_peekToken_cons b hws hspace _).bind ?_
  split
  · next heq => exact absurd (Option.some.inj heq) hne
  · exact hinner

/-! ## Values with brackets -/

theorem reads_list_each {item : Shape} {xs : List Data} {f : Data → Data}
    (h : ∀ x ∈ xs, Reads (readerOf item) x (f x)) :
    Reads (readerOf (.list item)) (.list xs) (.list (xs.map f)) := by
  intro b level hb ws rest hws hrest
  have hreads : 2 ≤ b → ∀ x ∈ xs, ReadsAs (readerOf item) (b - 1) (textAt (level + 1) x)
      (if x.depth < b - 1 then some (f x) else none) :=
    fun h2 x hx => h x hx (b - 1) (level + 1) (by omega)
  have hdone := (gives_list_each f hreads rest).bind_pure Data.list
  obtain ⟨inp, hinp⟩ := exists_textAt_list level xs rest
  rw [Option.map_if, hinp] at hdone
  rw [hinp, readerOf, listOf]
  exact (yields_peekValue b hws rfl inp).bind hdone

theorem reads_forms {name : String} {forms : List (List (String × Leaf))} {es : List (String × Data)}
    {d : Data} (hprint : (Data.table es).Printable)
    (h : Shape.formsOf foundOf name forms (wholeEntries es) = .ok d) :
    Reads (readerOf (.oneOf name forms)) (.table es) d := by
  intro b level hb ws rest hws hrest
  have hwhole := reads_anyValue hprint b level hb ws rest hws hrest
  rw [readerOf, formsOf]
  split at hwhole
  · next hdepth =>
    rw [if_pos hdepth]
    refine Yields.bind hwhole ?_
    dsimp only
    rw [h]
    exact yields_pure b rest d
  · next hdepth =>
    rw [if_neg hdepth]
    exact Fails.bind hwhole

/-! ## All shapes -/

/-- **The text of a tree that has a shape is read as its normal form.** -/
theorem reads_of_normalForm {s : Shape} {d d' : Data} (h : s.NormalForm d d') (hprint : d.Printable) :
    Reads (readerOf s) d d' := by
  induction h with
  | any d => exact reads_settled hprint
  | text s => exact reads_text s
  | flag v => exact reads_flag v
  | natural name low high => exact reads_natural name low high
  | uuid hid => exact reads_uuid hid
  | instant hi => exact reads_instant hi
  | nothing inner => exact reads_nothing inner
  | something hd _ ih => exact reads_something (ih hprint) hprint hd
  | list _ ih => exact reads_list_each fun x hx => ih x hx (hprint.of_mem_list hx)
  | table _ ih => exact reads_table_each fun e he => ih e he (hprint.of_mem_table he)
  | record name hnodup known _ complete ih =>
    refine reads_record_each name hnodup (fun e he => ?_) complete
    obtain ⟨field, hfield⟩ := known e he
    exact ⟨field, hfield, ih e he field hfield (hprint.of_mem_table he)⟩
  | choice name hw => exact reads_choice name hw
  | tagged name hshape _ ih =>
    exact reads_tagged name hshape (ih (hprint.of_mem_table (List.mem_singleton_self _)))
  | keyed name htag hfields hentries =>
    exact reads_keyed name (by rw [Shape.caseOf, hfields])
      (fun e he heq => absurd (List.mem_map.2 ⟨e, he, heq⟩) htag)
      (fun e he => hprint.of_mem_table (List.mem_cons_of_mem _ he)) hentries
  | oneOf hfound => exact reads_forms hprint hfound

end PluginChain.Json

namespace PluginChain.Codec

/-- The text layer of JSON carries the tree: what stands in it is read as it is, and it is not nested
too deep. -/
structure InJson (d : Data) : Prop where
  printable : d.Printable
  depth : d.depth < 128

/-- A value that is decoded from its own tree is read back from its document. -/
theorem ofJson_toJson {α : Type} {c : Codec α} {a : α} (h : c.ofData? (c.encode a) = some a)
    (hcarried : InJson (c.encode a)) : c.ofJson (c.toJson a) = .ok a := by
  obtain ⟨d, hd, hdecode⟩ := Option.bind_eq_some_iff.1 h
  rw [ofJson, toJson, (Json.read_pretty (Json.reads_of_normalForm (Shape.normalForm_of_accept c.shape hd) hcarried.printable)).1
    hcarried.depth]
  simp only [hdecode]

end PluginChain.Codec
