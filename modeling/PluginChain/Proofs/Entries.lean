import Mathlib.Data.List.Induction
import PluginChain.Data

/-!
# Entries in the order of their names

`Entries.put` keeps a list of entries `Sorted`, so that every name comes once in it and the list is
determined by what its names are bound to.  In particular, collecting the entries of a sorted list once
more gives the list again (`Entries.ofList_eq_self`), which is why a table that was written is not
rearranged when it is read.
-/

set_option autoImplicit false

namespace PluginChain

namespace Entries

variable {α : Type}

/-- The names ascend, and none of them comes twice. -/
def Sorted (es : List (String × α)) : Prop := es.Pairwise fun a b => a.1 < b.1

theorem sorted_nil : Sorted ([] : List (String × α)) := List.Pairwise.nil

/-- Every name is bound once. -/
theorem Sorted.nodup_names {es : List (String × α)} (h : Sorted es) : (names es).Nodup := by
  rw [names, List.Nodup, List.pairwise_map]
  refine List.Pairwise.imp ?_ h
  intro a b hab heq
  rw [heq] at hab
  exact String.lt_irrefl _ hab

/-! ## What is bound -/

theorem isSome_get?_iff (name : String) (es : List (String × α)) :
    (get? name es).isSome = true ↔ name ∈ names es := by
  induction es with
  | nil => simp [get?, names]
  | cons e rest ih =>
    obtain ⟨n, v⟩ := e
    rw [get?, names, List.map_cons, List.mem_cons]
    split
    · next h => exact ⟨fun _ => Or.inl h.symm, fun _ => rfl⟩
    · next h => exact ih.trans ⟨Or.inr, fun hm => hm.resolve_left fun hn => h hn.symm⟩

theorem get?_eq_none_iff (name : String) (es : List (String × α)) :
    get? name es = none ↔ name ∉ names es := by
  rw [← isSome_get?_iff, Option.not_isSome_iff_eq_none]

theorem mem_of_get? {name : String} {value : α} {es : List (String × α)}
    (h : get? name es = some value) : (name, value) ∈ es := by
  induction es with
  | nil => cases h
  | cons e rest ih =>
    obtain ⟨n, v⟩ := e
    rw [get?] at h
    split at h
    · next hn =>
      rw [Option.some_inj] at h
      rw [hn, h]
      exact List.mem_cons_self
    · exact List.mem_cons_of_mem _ (ih h)

/-- An entry is found where its name comes once. -/
theorem get?_of_mem {es : List (String × α)} (h : (names es).Nodup) {name : String} {value : α}
    (hm : (name, value) ∈ es) : get? name es = some value := by
  induction es with
  | nil => cases hm
  | cons e rest ih =>
    obtain ⟨n, v⟩ := e
    obtain ⟨hfirst, hrest⟩ := List.nodup_cons.1 h
    rw [get?]
    rcases List.mem_cons.1 hm with heq | hm
    · cases heq
      rw [if_pos rfl]
    · have hne : n ≠ name := fun hn => hfirst (List.mem_map.2 ⟨_, hm, hn.symm⟩)
      rw [if_neg hne, ih hrest hm]

theorem Sorted.get?_of_mem {es : List (String × α)} (h : Sorted es) {name : String} {value : α}
    (hm : (name, value) ∈ es) : get? name es = some value := Entries.get?_of_mem h.nodup_names hm

theorem get?_append (name : String) (es more : List (String × α)) :
    get? name (es ++ more) = (get? name es).or (get? name more) := by
  induction es with
  | nil => rfl
  | cons e rest ih =>
    obtain ⟨n, v⟩ := e
    rw [List.cons_append, get?, get?]
    split
    · rfl
    · exact ih

/-- Where every value is turned into another, so is what a name is bound to. -/
theorem get?_map {β : Type} (f : α → β) (name : String) (es : List (String × α)) :
    get? name (es.map fun e => (e.1, f e.2)) = (get? name es).map f := by
  induction es with
  | nil => rfl
  | cons e rest ih =>
    obtain ⟨n, v⟩ := e
    rw [List.map_cons, get?, get?]
    split
    · rfl
    · exact ih

/-- Where every name comes once, the order of the entries does not matter. -/
theorem get?_reverse {es : List (String × α)} (h : (names es).Nodup) (name : String) :
    get? name es.reverse = get? name es := by
  induction es with
  | nil => rfl
  | cons e rest ih =>
    obtain ⟨n, v⟩ := e
    obtain ⟨hfirst, hrest⟩ := List.nodup_cons.1 h
    rw [List.reverse_cons, get?_append, ih hrest, get?, get?, get?]
    split
    · next hn =>
      rw [(get?_eq_none_iff name rest).2 (hn ▸ hfirst), Option.none_or]
    · next hn => rw [Option.or_none]

/-! ## Binding a name -/

theorem mem_names_put (name other : String) (value : α) (es : List (String × α)) :
    other ∈ names (put name value es) ↔ other = name ∨ other ∈ names es := by
  rw [← isSome_get?_iff, ← isSome_get?_iff, get?_put]
  split
  · next h => exact ⟨fun _ => Or.inl h.symm, fun _ => rfl⟩
  · next h => exact ⟨Or.inr, fun hm => hm.resolve_left fun hn => h hn.symm⟩

theorem mem_put {name : String} {value : α} {es : List (String × α)} {e : String × α}
    (h : e ∈ put name value es) : e = (name, value) ∨ e ∈ es := by
  induction es with
  | nil => exact Or.inl (List.mem_singleton.1 h)
  | cons a rest ih =>
    obtain ⟨n, v⟩ := a
    rw [put] at h
    split at h
    · exact List.mem_cons.1 h
    · split at h
      · exact (List.mem_cons.1 h).imp_right (List.mem_cons_of_mem _)
      · rcases List.mem_cons.1 h with rfl | h
        · exact Or.inr List.mem_cons_self
        · exact (ih h).imp_right (List.mem_cons_of_mem _)

theorem Sorted.put {es : List (String × α)} (h : Sorted es) (name : String) (value : α) :
    Sorted (put name value es) := by
  induction es with
  | nil => exact List.pairwise_singleton _ _
  | cons a rest ih =>
    obtain ⟨n, v⟩ := a
    obtain ⟨hhead, hrest⟩ := List.pairwise_cons.1 h
    rw [Entries.put]
    split
    · next hlt =>
      refine List.Pairwise.cons ?_ h
      intro e he
      rcases List.mem_cons.1 he with rfl | he
      · exact hlt
      · exact String.lt_trans hlt (hhead e he)
    · split
      · next heq =>
        subst heq
        exact List.Pairwise.cons hhead hrest
      · next hnlt hne =>
        refine List.Pairwise.cons ?_ (ih hrest)
        intro e he
        rcases mem_put he with rfl | he
        · exact Std.lt_of_le_of_ne (String.not_lt.1 hnlt) fun heq => hne heq.symm
        · exact hhead e he

/-- A name behind all others is bound at the end. -/
theorem put_eq_append {name : String} {es : List (String × α)} (h : ∀ e ∈ es, e.1 < name) (value : α) :
    put name value es = es ++ [(name, value)] := by
  induction es with
  | nil => rfl
  | cons a rest ih =>
    obtain ⟨n, v⟩ := a
    have hn : n < name := h _ List.mem_cons_self
    have hne : name ≠ n := by
      rintro rfl
      exact String.lt_irrefl _ hn
    rw [put, if_neg (String.lt_asymm hn), if_neg hne,
      ih fun e he => h e (List.mem_cons_of_mem _ he), List.cons_append]

theorem sorted_ofList (es : List (String × α)) : Sorted (ofList es) := by
  have h : ∀ (es acc : List (String × α)), Sorted acc →
      Sorted (es.foldl (fun acc e => Entries.put e.1 e.2 acc) acc) := by
    intro es
    induction es with
    | nil => exact fun acc hacc => hacc
    | cons e es ih => exact fun acc hacc => ih _ (hacc.put e.1 e.2)
  exact h es [] sorted_nil

/-- Sorted entries are collected as they are. -/
theorem ofList_eq_self {es : List (String × α)} (h : Sorted es) : ofList es = es := by
  have hfold : ∀ (es acc : List (String × α)), Sorted (acc ++ es) →
      es.foldl (fun acc e => Entries.put e.1 e.2 acc) acc = acc ++ es := by
    intro es
    induction es with
    | nil => exact fun acc _ => (List.append_nil acc).symm
    | cons e es ih =>
      intro acc hacc
      have hlast : ∀ a ∈ acc, a.1 < e.1 := fun a ha =>
        (List.pairwise_append.1 hacc).2.2 a ha e List.mem_cons_self
      rw [List.foldl_cons, put_eq_append hlast, ih (acc ++ [(e.1, e.2)]), List.append_assoc]
      · rfl
      · rw [List.append_assoc]
        exact hacc
  exact hfold es [] h

/-! ## The last of several entries of a name -/

theorem Sorted.mem_iff_get? {es : List (String × α)} (h : Sorted es) {name : String} {value : α} :
    (name, value) ∈ es ↔ get? name es = some value :=
  ⟨h.get?_of_mem, mem_of_get?⟩

/-- An entry behind which no other of its name comes. -/
def IsLast (es : List (String × α)) (e : String × α) : Prop :=
  ∃ before later, es = before ++ e :: later ∧ ∀ e' ∈ later, e'.1 ≠ e.1

theorem ofList_concat (es : List (String × α)) (e : String × α) :
    ofList (es ++ [e]) = Entries.put e.1 e.2 (ofList es) := by
  rw [ofList, List.foldl_append]
  rfl

/-- An entry behind all others is the last of its name, and leaves those of other names the last. -/
theorem isLast_concat_iff {es : List (String × α)} {e e' : String × α} :
    IsLast (es ++ [e]) e' ↔ e' = e ∨ e.1 ≠ e'.1 ∧ IsLast es e' := by
  constructor
  · rintro ⟨before, later, hsplit, hlater⟩
    rcases List.eq_nil_or_concat later with rfl | ⟨later, last, rfl⟩
    · exact Or.inl (List.singleton_inj.1 (List.append_inj' hsplit rfl).2).symm
    · rw [List.concat_eq_append, ← List.cons_append, ← List.append_assoc] at hsplit
      obtain ⟨hes, hlast⟩ := List.append_inj' hsplit rfl
      obtain rfl : e = last := List.singleton_inj.1 hlast
      exact Or.inr ⟨hlater e (by simp), before, later, hes, fun x hx => hlater x (by simp [hx])⟩
  · rintro (rfl | ⟨hne, before, later, rfl, hlater⟩)
    · exact ⟨es, [], rfl, nofun⟩
    · refine ⟨before, later ++ [e], by simp, fun x hx => ?_⟩
      rcases List.mem_append.1 hx with hx | hx
      · exact hlater x hx
      · exact List.mem_singleton.1 hx ▸ hne

/-- An entry whose name comes only once is the last of its name. -/
theorem isLast_iff_mem {es : List (String × α)} (h : (names es).Nodup)
    (e : String × α) : IsLast es e ↔ e ∈ es := by
  constructor
  · rintro ⟨before, later, rfl, -⟩
    simp
  · intro hmem
    obtain ⟨before, later, rfl⟩ := List.append_of_mem hmem
    refine ⟨before, later, rfl, fun e' he' hname => ?_⟩
    rw [names, List.map_append, List.map_cons, List.nodup_append] at h
    exact (List.nodup_cons.1 h.2.1).1 (hname ▸ List.mem_map_of_mem he')

/-- Of several entries of a name the last one is collected. -/
theorem mem_ofList_iff (es : List (String × α)) (e : String × α) : e ∈ ofList es ↔ IsLast es e := by
  induction es using List.reverseRecOn with
  | nil =>
    refine ⟨nofun, ?_⟩
    rintro ⟨before, later, hsplit, -⟩
    simp at hsplit
  | append_singleton es last ih =>
    obtain ⟨name, value⟩ := e
    have hsorted := sorted_ofList es
    rw [isLast_concat_iff, ← ih, ofList_concat, (hsorted.put _ _).mem_iff_get?, hsorted.mem_iff_get?,
      get?_put]
    by_cases hname : last.1 = name
    · subst hname
      simp [Prod.ext_iff, eq_comm]
    · simp [hname, Prod.ext_iff, eq_comm]

end Entries

end PluginChain
