import Mathlib.Data.List.Nodup
import PluginChain.FileTree

/-!
# What operations leave on a file tree

For each operation that succeeds there is a lemma on what is at every place afterwards
(`lookup_of_write`, `lookup_of_rename`, `lookup_of_remove`), and one on when it does succeed
(`exists_write`, `exists_rename`).

Most of what a program does to its files is a `TextChange`: some files were written or removed, and the
directories are those that were there.  Text changes are closed under composition, so that what holds of
a tree up to the texts in it is kept by any number of them.  Where nothing is said of the files it is enough
that two trees have the `SameDirectories`.

A tree is `Proper` if no place has two entries, and then no name comes twice in a directory.  A name stands
for one step on a way if it `IsName`.
-/

set_option autoImplicit false

namespace PluginChain

namespace FileTree

variable {t t' t'' : FileTree} {p q : Place}

@[simp] theorem lookup_root (t : FileTree) : t.lookup [] = some .directory := rfl

theorem ne_nil_of_lookup_ne_directory (h : t.lookup p ≠ some .directory) : p ≠ [] := by
  rintro rfl
  exact h rfl

/-- The place of a name in a directory is not the root. -/
theorem append_singleton_ne_nil (p : Place) (name : String) : p ++ [name] ≠ [] := by
  simp

/-- Names and places tell each other apart. -/
theorem append_singleton_inj {p q : Place} {m n : String} : p ++ [m] = q ++ [n] ↔ p = q ∧ m = n := by
  rw [← List.concat_eq_append, ← List.concat_eq_append, List.concat_inj]

/-- The root stays where it is, whatever is set anywhere else. -/
theorem lookup_set_of_ne_nil (hp : p ≠ []) (e : FileEntry) (q : Place) :
    (t.set p e).lookup q = if p = q then some e else t.lookup q := by
  by_cases hq : q = []
  · subst hq
    rw [if_neg hp, lookup_root, lookup_root]
  · exact lookup_set t p q e hq

theorem lookup_unset_of_ne_nil (hp : p ≠ []) (q : Place) :
    (t.unset p).lookup q = if p = q then none else t.lookup q := by
  by_cases hq : q = []
  · subst hq
    rw [if_neg hp, lookup_root, lookup_root]
  · exact lookup_unset t p q hq

/-- A file that is missing is nowhere. -/
theorem lookup_of_read_missing (h : t.read p = .error .missing) : t.lookup p = none := by
  unfold read at h
  split at h
  · next hp => exact hp
  · cases h
  · cases h
  · cases h

/-- What is not there is missing, where only directories are on the way to it. -/
theorem absence_eq_missing (h : ∀ n < p.length, t.lookup (p.take n) = some .directory) :
    t.absence p = .missing := by
  rw [absence, if_neg]
  intro hany
  obtain ⟨n, hn, hfile⟩ := List.any_eq_true.1 hany
  rw [h n (List.mem_range.1 hn)] at hfile
  cases hfile

theorem lookup_of_read {text : String} (h : t.read p = .ok text) : t.lookup p = some (.file text) := by
  unfold read at h
  split at h
  · cases h
  · cases h
  · cases h
  · next hp =>
    cases h
    exact hp

/-! ## Operations that succeed -/

theorem lookup_of_write {text : String} (h : t.write p text = .ok t') :
    t.lookup p ≠ some .directory ∧
      ∀ q, t'.lookup q = if p = q then some (.file text) else t.lookup q := by
  unfold write at h
  split at h
  · cases h
  · next hfile =>
    cases h
    exact ⟨hfile, lookup_set_of_ne_nil (ne_nil_of_lookup_ne_directory hfile) _⟩
  · cases h

theorem lookup_of_remove (h : t.remove p = .ok t') :
    t.lookup p ≠ some .directory ∧ t.lookup p ≠ none ∧
      ∀ q, t'.lookup q = if p = q then none else t.lookup q := by
  unfold remove at h
  split at h
  · cases h
  · cases h
  · next e hfile he =>
    have hne : t.lookup p ≠ some .directory := fun hd => hfile (Option.some.inj (he.symm.trans hd))
    cases h
    refine ⟨hne, ?_, lookup_unset_of_ne_nil (ne_nil_of_lookup_ne_directory hne)⟩
    rw [he]
    exact nofun

theorem lookup_of_rename {source target : Place} (h : t.rename source target = .ok t') :
    t.lookup source ≠ some .directory ∧ t.lookup target ≠ some .directory ∧
      ∀ q, t'.lookup q =
        if target = q then t.lookup source else if source = q then none else t.lookup q := by
  unfold rename at h
  split at h
  · cases h
  · cases h
  · cases h
  · next e hfile he _ htarget =>
    have hne : t.lookup source ≠ some .directory := fun hd => hfile (Option.some.inj (he.symm.trans hd))
    have htarget : t.lookup target ≠ some .directory := htarget
    cases h
    refine ⟨hne, htarget, fun q => ?_⟩
    rw [lookup_set_of_ne_nil (ne_nil_of_lookup_ne_directory htarget),
      lookup_unset_of_ne_nil (ne_nil_of_lookup_ne_directory hne), he]
  · cases h

theorem lookup_of_touch (h : t.touch p = .ok t') (hq : p ≠ q) : t'.lookup q = t.lookup q := by
  unfold touch at h
  split at h
  · cases h
    rfl
  · cases h
    rfl
  · rw [(lookup_of_write h).2, if_neg hq]

/-- A file can be written where a directory is around it and none is in its place. -/
theorem exists_write (hdir : t.lookup p.dropLast = some .directory)
    (hp : t.lookup p ≠ some .directory) (text : String) : ∃ t', t.write p text = .ok t' := by
  refine ⟨t.set p (.file text), ?_⟩
  unfold write
  split
  · next h => exact absurd h hp
  · rfl
  · next h _ => exact absurd hdir h

theorem exists_touch (hdir : t.lookup p.dropLast = some .directory)
    (hp : t.lookup p ≠ some .directory) : ∃ t', t.touch p = .ok t' := by
  unfold touch
  split
  · exact ⟨t, rfl⟩
  · exact ⟨t, rfl⟩
  · exact exists_write hdir hp ""

theorem exists_rename {source target : Place} {text : String}
    (hsource : t.lookup source = some (.file text)) (hdir : t.lookup target.dropLast = some .directory)
    (htarget : t.lookup target ≠ some .directory) : ∃ t', t.rename source target = .ok t' := by
  refine ⟨(t.unset source).set target (.file text), ?_⟩
  rw [rename, hsource, hdir]
  cases hentry : t.lookup target with
  | none => rfl
  | some e =>
    cases e with
    | directory => exact absurd hentry htarget
    | _ => rfl

theorem exists_remove {text : String} (hp : t.lookup p = some (.file text)) : ∃ t', t.remove p = .ok t' := by
  refine ⟨t.unset p, ?_⟩
  rw [remove, hp]

/-! ## Names in a directory -/

/-- A place whose last name is in a directory is that of the name there. -/
theorem eq_append_of_child {name : String}
    (h : (match q.getLast? with
      | some n => if q.dropLast = p then some n else none
      | none => none) = some name) : q = p ++ [name] := by
  cases hlast : q.getLast? with
  | none =>
    rw [hlast] at h
    cases h
  | some n =>
    obtain ⟨directory, rfl⟩ := List.getLast?_eq_some_iff.1 hlast
    rw [hlast, List.dropLast_concat] at h
    dsimp only at h
    split at h
    · next hp =>
      cases h
      rw [hp]
    · cases h

theorem mem_children_iff (t : FileTree) (p : Place) (name : String) :
    name ∈ t.children p ↔ t.lookup (p ++ [name]) ≠ none := by
  rw [lookup, if_neg (append_singleton_ne_nil p name), children, ← Option.isSome_iff_ne_none,
    Option.isSome_map, List.find?_isSome, List.mem_filterMap]
  constructor
  · rintro ⟨⟨q, e⟩, hmem, hq⟩
    exact ⟨(q, e), hmem, decide_eq_true (eq_append_of_child hq)⟩
  · rintro ⟨⟨q, e⟩, hmem, hq⟩
    have hq : q = p ++ [name] := of_decide_eq_true hq
    subst hq
    refine ⟨_, hmem, ?_⟩
    simp

/-- Every place has one entry at most. -/
def Proper (t : FileTree) : Prop := (t.entries.map (·.1)).Nodup

instance (t : FileTree) : Decidable t.Proper := inferInstanceAs (Decidable (List.Nodup _))

theorem Proper.unset (h : t.Proper) (p : Place) : (t.unset p).Proper :=
  h.sublist (List.filter_sublist.map _)

theorem Proper.set (h : t.Proper) (p : Place) (e : FileEntry) : (t.set p e).Proper := by
  refine List.nodup_cons.2 ⟨fun hmem => ?_, h.unset p⟩
  obtain ⟨a, ha, hp⟩ := List.mem_map.1 hmem
  exact of_decide_eq_true (List.mem_filter.1 ha).2 hp

/-- No name comes twice in a directory. -/
theorem Proper.nodup_children (h : t.Proper) (p : Place) : (t.children p).Nodup := by
  have hplaces : t.children p = (t.entries.map (·.1)).filterMap fun q =>
      match q.getLast? with
      | some name => if q.dropLast = p then some name else none
      | none => none := by
    rw [List.filterMap_map]
    rfl
  rw [hplaces]
  exact h.filterMap fun q q' name hq hq' => (eq_append_of_child hq).trans (eq_append_of_child hq').symm

/-- What follows the last point of a name is its suffix. -/
theorem suffix?_append {name suffix : String} (hname : name ≠ "") (hsuffix : '.' ∉ suffix.toList) :
    suffix? (name ++ "." ++ suffix) = some suffix := by
  have hrev : (name ++ "." ++ suffix).toList.reverse =
      suffix.toList.reverse ++ '.' :: name.toList.reverse := by
    simp
  have hall : ∀ c ∈ suffix.toList.reverse, decide (c ≠ '.') = true := by
    intro c hc
    refine decide_eq_true ?_
    rintro rfl
    exact hsuffix (List.mem_reverse.1 hc)
  obtain ⟨c, cs, hcs⟩ : ∃ c cs, name.toList.reverse = c :: cs :=
    List.exists_cons_of_ne_nil (by simpa using hname)
  rw [suffix?, hrev, List.dropWhile_append_of_pos hall, List.takeWhile_append_of_pos hall, hcs]
  simp

theorem suffix?_json {name : String} (hname : name ≠ "") : suffix? (name ++ ".json") = some "json" := by
  have hsplit : name ++ ".json" = name ++ "." ++ "json" := by
    rw [String.append_assoc]
    rfl
  rw [hsplit]
  exact suffix?_append hname (by decide)

theorem suffix?_tmp {name : String} (hname : name ≠ "") : suffix? (name ++ ".tmp") = some "tmp" := by
  have hsplit : name ++ ".tmp" = name ++ "." ++ "tmp" := by
    rw [String.append_assoc]
    rfl
  rw [hsplit]
  exact suffix?_append hname (by decide)

/-- What is named like a record has a name that is not empty before its suffix. -/
theorem exists_of_suffix?_json {name : String} (h : suffix? name = some "json") :
    ∃ stem, stem ≠ "" ∧ name = stem ++ ".json" := by
  rw [suffix?] at h
  split at h
  · next point c rest hdrop =>
    have hsuffix : (name.toList.reverse.takeWhile (· ≠ '.')).reverse = "json".toList := by
      rw [← Option.some.inj h, String.toList_ofList]
    have hpoint : point = '.' := by
      have hhead := List.head?_dropWhile_not (· ≠ '.') name.toList.reverse
      rw [hdrop] at hhead
      simpa using hhead
    have hname : name.toList = (rest.reverse ++ [c]) ++ ".json".toList := by
      rw [← List.reverse_reverse name.toList,
        ← List.takeWhile_append_dropWhile (p := (· ≠ '.')) (l := name.toList.reverse),
        List.reverse_append, hsuffix, hdrop, hpoint]
      simp
    refine ⟨String.ofList (rest.reverse ++ [c]), fun hempty => ?_, ?_⟩
    · have hlist := congrArg String.toList hempty
      simp at hlist
    · rw [← String.toList_inj, hname]
      simp
  · cases h

/-- A name that stands for one step on a way. -/
structure IsName (name : String) : Prop where
  ne_empty : name ≠ ""
  ne_here : name ≠ "."
  ne_up : name ≠ ".."
  slash : '/' ∉ name.toList
  nul : '\x00' ∉ name.toList

instance (name : String) : Decidable (IsName name) :=
  decidable_of_iff (name ≠ "" ∧ name ≠ "." ∧ name ≠ ".." ∧ '/' ∉ name.toList ∧ '\x00' ∉ name.toList)
    ⟨fun ⟨h₁, h₂, h₃, h₄, h₅⟩ => ⟨h₁, h₂, h₃, h₄, h₅⟩, fun ⟨h₁, h₂, h₃, h₄, h₅⟩ => ⟨h₁, h₂, h₃, h₄, h₅⟩⟩

/-- A stem without points and slashes stands for one step, whatever suffix it has. -/
theorem isName_append {stem suffix : String} (hstem : stem ≠ "")
    (hplain : ∀ c ∈ stem.toList, c ≠ '.' ∧ c ≠ '/' ∧ c ≠ '\x00')
    (hsuffix : '/' ∉ suffix.toList ∧ '\x00' ∉ suffix.toList) : IsName (stem ++ suffix) := by
  obtain ⟨c, cs, hcs⟩ := List.exists_cons_of_ne_nil fun h => hstem (String.toList_eq_nil_iff.1 h)
  have hlist : (stem ++ suffix).toList = c :: (cs ++ suffix.toList) := by
    rw [String.toList_append, hcs, List.cons_append]
  have hpoint : c ≠ '.' := (hplain c (hcs ▸ List.mem_cons_self)).1
  have hfirst : ∀ {other : String} {rest : List Char}, other.toList = '.' :: rest → stem ++ suffix ≠ other := by
    rintro other rest hother rfl
    exact hpoint (List.cons.inj (hlist.symm.trans hother)).1
  refine ⟨fun h => ?_, hfirst rfl, hfirst rfl, fun h => ?_, fun h => ?_⟩
  · rw [h] at hlist
    cases hlist
  · rw [String.toList_append] at h
    exact (List.mem_append.1 h).elim (fun h => (hplain _ h).2.1 rfl) hsuffix.1
  · rw [String.toList_append] at h
    exact (List.mem_append.1 h).elim (fun h => (hplain _ h).2.2 rfl) hsuffix.2

/-! ## Directories that stay -/

/-- What is a directory in one tree is one in the other. -/
def DirectoriesStay (t t' : FileTree) : Prop :=
  ∀ p, t.lookup p = some .directory → t'.lookup p = some .directory

theorem DirectoriesStay.refl (t : FileTree) : DirectoriesStay t t := fun _ h => h

theorem DirectoriesStay.trans (h : DirectoriesStay t t') (h' : DirectoriesStay t' t'') :
    DirectoriesStay t t'' := fun p hp => h' p (h p hp)

/-- Two trees have the same directories. -/
def SameDirectories (t t' : FileTree) : Prop :=
  ∀ p, t'.lookup p = some .directory ↔ t.lookup p = some .directory

theorem SameDirectories.refl (t : FileTree) : SameDirectories t t := fun _ => Iff.rfl

theorem SameDirectories.trans (h : SameDirectories t t') (h' : SameDirectories t' t'') :
    SameDirectories t t'' := fun p => (h' p).trans (h p)

theorem SameDirectories.stay (h : SameDirectories t t') : DirectoriesStay t t' := fun p => (h p).2

/-- A tree that differs only where neither has a directory. -/
theorem sameDirectories_of_lookup (h : ∀ q, t'.lookup q = t.lookup q ∨
    t.lookup q ≠ some .directory ∧ t'.lookup q ≠ some .directory) : SameDirectories t t' := by
  intro q
  rcases h q with heq | ⟨hold, hnew⟩
  · rw [heq]
  · exact ⟨fun h => absurd h hnew, fun h => absurd h hold⟩

/-- A file in place of what is no directory changes no directory. -/
theorem sameDirectories_set (hp : t.lookup p ≠ some .directory) {e : FileEntry} (he : e ≠ .directory) :
    SameDirectories t (t.set p e) := by
  refine sameDirectories_of_lookup fun q => ?_
  rw [lookup_set_of_ne_nil (ne_nil_of_lookup_ne_directory hp)]
  split
  · next hq =>
    subst hq
    exact Or.inr ⟨hp, fun h => he (Option.some.inj h)⟩
  · exact Or.inl rfl

/-! ## Changes of texts -/

/-- Nothing, or a text. -/
def Textual (e : Option FileEntry) : Prop := e = none ∨ ∃ text, e = some (.file text)

/-- From one tree to another, what is at a place stays, or a file of text or nothing comes in place of
what is no directory. -/
def TextChange (t t' : FileTree) : Prop :=
  ∀ q, t'.lookup q = t.lookup q ∨ t.lookup q ≠ some .directory ∧ Textual (t'.lookup q)

theorem TextChange.refl (t : FileTree) : TextChange t t := fun _ => Or.inl rfl

theorem TextChange.trans (h : TextChange t t') (h' : TextChange t' t'') : TextChange t t'' := by
  intro q
  rcases h' q with hq' | ⟨hdir', htext⟩
  · rw [hq']
    exact h q
  · rcases h q with hq | ⟨hdir, -⟩
    · rw [hq] at hdir'
      exact Or.inr ⟨hdir', htext⟩
    · exact Or.inr ⟨hdir, htext⟩

/-- Directories stay. -/
theorem TextChange.directory (h : TextChange t t') (hp : t.lookup p = some .directory) :
    t'.lookup p = some .directory := by
  rcases h p with hq | ⟨hdir, -⟩
  · rw [hq, hp]
  · exact absurd hp hdir

/-- Where there was at most a text, there is at most a text. -/
theorem TextChange.textual (h : TextChange t t') (hp : Textual (t.lookup p)) : Textual (t'.lookup p) := by
  rcases h p with hq | ⟨-, htext⟩
  · rw [hq]
    exact hp
  · exact htext

theorem textChange_of_write {text : String} (h : t.write p text = .ok t') : TextChange t t' := by
  obtain ⟨hfile, hlookup⟩ := lookup_of_write h
  intro q
  rw [hlookup]
  split
  · next hq =>
    subst hq
    exact Or.inr ⟨hfile, Or.inr ⟨text, rfl⟩⟩
  · exact Or.inl rfl

theorem textChange_of_touch (h : t.touch p = .ok t') : TextChange t t' := by
  unfold touch at h
  split at h
  · cases h
    exact .refl t
  · cases h
    exact .refl t
  · exact textChange_of_write h

theorem textChange_of_rename {source target : Place} (h : t.rename source target = .ok t')
    (htext : Textual (t.lookup source)) : TextChange t t' := by
  obtain ⟨hs, ht, hlookup⟩ := lookup_of_rename h
  intro q
  rw [hlookup]
  split
  · next hq =>
    subst hq
    exact Or.inr ⟨ht, htext⟩
  · split
    · next hq =>
      subst hq
      exact Or.inr ⟨hs, Or.inl rfl⟩
    · exact Or.inl rfl

end FileTree

end PluginChain
