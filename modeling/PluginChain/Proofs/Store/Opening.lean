import PluginChain.Proofs.Store.Catalogue

/-!
# Opening a store

A store is opened by walking to its three directories, where what is missing on the way is made.  The ways
to them are one way up to the last step (`exists_steps_join`), so that all three are in the directory that
the store has for its root: where nothing else is in them, the store is empty (`Store.standsIn_of_openAt`).

A store that was opened can be opened again, as long as the directories stay that were there
(`Store.openAt_again`).  That changes nothing.
-/

set_option autoImplicit false

namespace PluginChain

open Operation

/-! ## Paths -/

namespace FileTree

theorem cutAtSlashes_ne_nil (cs : List Char) : cutAtSlashes cs ≠ [] := by
  induction cs with
  | nil => exact nofun
  | cons c cs ih =>
    rw [cutAtSlashes]
    split
    · exact nofun
    · split
      · exact nofun
      · exact nofun

theorem cutAtSlashes_append (cs ds : List Char) :
    cutAtSlashes (cs ++ '/' :: ds) = cutAtSlashes cs ++ cutAtSlashes ds := by
  induction cs with
  | nil => rfl
  | cons c cs ih =>
    rw [List.cons_append, cutAtSlashes, ih, cutAtSlashes]
    split
    · rfl
    · obtain ⟨g, gs, hcut⟩ := List.exists_cons_of_ne_nil (cutAtSlashes_ne_nil cs)
      rw [hcut]
      rfl

theorem cutAtSlashes_of_not_mem {cs : List Char} (h : '/' ∉ cs) : cutAtSlashes cs = [cs] := by
  induction cs with
  | nil => rfl
  | cons c cs ih =>
    rw [List.mem_cons, not_or] at h
    rw [cutAtSlashes, if_neg (Ne.symm h.1), ih h.2]

/-- A name behind a slash is the last step. -/
theorem steps_append_name {path name : String} {cs : List Char} (h : path.toList = cs ++ '/' :: name.toList)
    (hname : '/' ∉ name.toList) : steps path = (cutAtSlashes cs).map String.ofList ++ [name] := by
  rw [steps, h, cutAtSlashes_append, cutAtSlashes_of_not_mem hname, List.map_append, List.map_singleton,
    String.ofList_toList]

theorem isAbsolute_iff (path : String) : isAbsolute path = true ↔ ['/'] <+: path.toList := by
  rw [isAbsolute, String.startsWith_string_iff]
  rfl

/-- A name alone is seen from where it is used. -/
theorem isAbsolute_of_not_mem {name : String} (h : '/' ∉ name.toList) : isAbsolute name = false := by
  rw [Bool.eq_false_iff, Ne, isAbsolute_iff]
  rintro ⟨cs, hcs⟩
  exact h (hcs ▸ List.mem_cons_self)

theorem endsWith_slash_iff (path : String) : path.endsWith "/" = true ↔ ['/'] <:+ path.toList := by
  rw [String.endsWith, String.Slice.endsWith_string_iff]
  simp

/-- The paths of all names in a directory go the same way, and differ in their last step only. -/
theorem exists_steps_join (base : String) : ∃ way : List String, ∀ name : String, '/' ∉ name.toList →
    steps (join base name) = way ++ [name] ∧ isAbsolute (join base name) = isAbsolute base := by
  have hstart : ∀ {path : String} {cs : List Char}, base ≠ "" → path.toList = base.toList ++ cs →
      isAbsolute path = isAbsolute base := by
    intro path cs hbase hpath
    obtain ⟨b, bs, hbs⟩ := List.exists_cons_of_ne_nil fun h => hbase (String.toList_eq_nil_iff.1 h)
    rw [Bool.eq_iff_iff, isAbsolute_iff, isAbsolute_iff, hpath, hbs]
    simp
  by_cases hempty : base = ""
  · subst hempty
    refine ⟨[], fun name hname => ?_⟩
    have hjoin : join "" name = name := by
      rw [join, isAbsolute_of_not_mem hname]
      simp
    rw [hjoin, steps, cutAtSlashes_of_not_mem hname]
    exact ⟨by simp, isAbsolute_of_not_mem hname⟩
  · have hisEmpty : base.isEmpty = false := by
      rw [Bool.eq_false_iff, Ne, String.isEmpty_iff]
      exact hempty
    by_cases hslash : base.endsWith "/" = true
    · obtain ⟨cs, hcs⟩ := (endsWith_slash_iff base).1 hslash
      refine ⟨(cutAtSlashes cs).map String.ofList, fun name hname => ?_⟩
      have hjoin : join base name = base ++ name := by
        simp [join, isAbsolute_of_not_mem hname, hslash]
      refine ⟨steps_append_name ?_ hname, ?_⟩
      · rw [hjoin, String.toList_append, ← hcs, List.append_assoc]
        rfl
      · exact hstart hempty (hjoin ▸ String.toList_append)
    · refine ⟨(cutAtSlashes base.toList).map String.ofList, fun name hname => ?_⟩
      have hjoin : join base name = base ++ "/" ++ name := by
        simp [join, isAbsolute_of_not_mem hname, hslash, hisEmpty]
      have hlist : (join base name).toList = base.toList ++ '/' :: name.toList := by
        rw [hjoin, String.toList_append, String.toList_append, List.append_assoc]
        rfl
      exact ⟨steps_append_name hlist hname, hstart hempty hlist⟩

/-- The path of a place is that of its names, each behind a slash. -/
theorem toList_pathOf {p : Place} (hp : p ≠ []) :
    (pathOf p).toList = p.flatMap fun name => '/' :: name.toList := by
  have hslash : ("/" : String).toList = ['/'] := rfl
  induction p with
  | nil => exact absurd rfl hp
  | cons name p ih =>
    cases p with
    | nil => simp [pathOf, String.intercalate_singleton, hslash]
    | cons other p =>
      have hrest := ih (List.cons_ne_nil other p)
      rw [pathOf, String.toList_append] at hrest
      rw [pathOf, String.intercalate_cons_cons, String.toList_append, String.toList_append,
        String.toList_append, List.flatMap_cons, ← hrest, hslash]
      simp

theorem steps_pathOf {p : Place} (hp : p ≠ []) (h : ∀ name ∈ p, '/' ∉ name.toList) :
    steps (pathOf p) = "" :: p := by
  have hcut : ∀ p : Place, (∀ name ∈ p, '/' ∉ name.toList) →
      cutAtSlashes (p.flatMap fun name => '/' :: name.toList) = [] :: p.map String.toList := by
    intro p
    induction p using List.reverseRecOn with
    | nil => exact fun _ => rfl
    | append_singleton p name ih =>
      intro h
      rw [List.flatMap_append, List.flatMap_singleton, cutAtSlashes_append,
        ih fun n hn => h n (List.mem_append_left _ hn),
        cutAtSlashes_of_not_mem (h name (List.mem_append_right _ (List.mem_singleton_self name))),
        List.map_append]
      rfl
  rw [steps, toList_pathOf hp, hcut p h, List.map_cons, List.map_map]
  exact congrArg ("" :: ·) (List.map_id'' (fun name => String.ofList_toList) p)

theorem join_pathOf {p : Place} {name : String} (h : ∀ n ∈ p, IsName n) (hname : '/' ∉ name.toList) :
    join (pathOf p) name = pathOf (p ++ [name]) := by
  have hrelative := isAbsolute_of_not_mem hname
  rcases List.eq_nil_or_concat p with rfl | ⟨q, last, rfl⟩
  · have hroot : ((pathOf []).isEmpty || (pathOf []).endsWith "/") = true := by decide +kernel
    simp only [join, hrelative, hroot, Bool.false_eq_true, if_true, if_false]
    rw [List.nil_append, pathOf, pathOf, String.intercalate_nil, String.intercalate_singleton]
    rfl
  · rw [List.concat_eq_append] at h ⊢
    have hlist := toList_pathOf (append_singleton_ne_nil q last)
    rw [List.flatMap_append, List.flatMap_singleton] at hlist
    have hends : ((pathOf (q ++ [last])).isEmpty || (pathOf (q ++ [last])).endsWith "/") = false := by
      rw [Bool.or_eq_false_iff, Bool.eq_false_iff, Bool.eq_false_iff, Ne, Ne, String.isEmpty_iff,
        endsWith_slash_iff, ← String.toList_eq_nil_iff, hlist]
      refine ⟨by simp, fun hsuffix => ?_⟩
      have hlast := h last (List.mem_append_right q (List.mem_singleton_self last))
      obtain ⟨cs, c, hcs⟩ : ∃ cs c, last.toList = cs ++ [c] := by
        rcases List.eq_nil_or_concat last.toList with hnil | ⟨cs, c, hcs⟩
        · exact absurd (String.toList_eq_nil_iff.1 hnil) hlast.ne_empty
        · exact ⟨cs, c, by rw [hcs, List.concat_eq_append]⟩
      rw [hcs, ← List.cons_append, ← List.append_assoc] at hsuffix
      obtain rfl : '/' = c := by
        obtain ⟨ds, hds⟩ := hsuffix
        exact (List.cons.inj (List.append_inj_right' hds rfl)).1
      exact hlast.slash (by rw [hcs]; simp)
    rw [← String.toList_inj, toList_pathOf (append_singleton_ne_nil _ name), List.flatMap_append,
      List.flatMap_singleton, ← toList_pathOf (append_singleton_ne_nil q last)]
    simp only [join, hrelative, hends, Bool.false_eq_true, if_false, String.toList_append,
      List.append_assoc]
    rfl

/-! ## Ways -/

variable {t t' t'' : FileTree} {p p' : Place} {names : List String} {name : String}

/-- One name further on a way on which what is missing is made. -/
def makeStep (s : FileTree × Place) (name : String) : Except FileError (FileTree × Place) := do
  let p ← enter s.1 s.2 name
  if s.1.isThere p then return (s.1, p) else return (← s.1.makeDirectory p, p)

/-- Where a way starts that a path describes. -/
def startOf (current : Place) (path : String) : Place := if isAbsolute path then [] else current

theorem any_nul_eq (path : String) : path.any (· = '\x00') = path.toList.any (· = '\x00') :=
  String.contains_bool_eq

theorem makeDirectories_eq_ok_iff {current : Place} {path : String} :
    t.makeDirectories current path = .ok t' ↔ path.any (· = '\x00') = false ∧
      ∃ p, (steps path).foldlM makeStep (t, startOf current path) = .ok (t', p) ∧
        t'.lookup p = some .directory := by
  have hmake : path.any (· = '\x00') = false → t.makeDirectories current path =
      (steps path).foldlM makeStep (t, startOf current path) >>= fun s =>
        if s.1.isDirectory s.2 then .ok s.1 else .error FileError.exists := by
    intro hnul
    rw [makeDirectories, hnul]
    rfl
  cases hnul : path.any (· = '\x00') with
  | true =>
    rw [makeDirectories, hnul]
    exact ⟨nofun, nofun⟩
  | false =>
    rw [hmake hnul]
    cases hwalk : (steps path).foldlM makeStep (t, startOf current path) with
    | error e => exact ⟨nofun, nofun⟩
    | ok s =>
      obtain ⟨t₁, p⟩ := s
      change (if decide (t₁.lookup p = some .directory) then Except.ok t₁
        else Except.error FileError.exists) = _ ↔ _
      by_cases hp : t₁.lookup p = some .directory
      · rw [if_pos (decide_eq_true hp), Except.ok.injEq]
        constructor
        · rintro rfl
          exact ⟨rfl, p, rfl, hp⟩
        · rintro ⟨-, q, heq, -⟩
          cases heq
          rfl
      · rw [if_neg fun h => hp (of_decide_eq_true h)]
        refine ⟨nofun, ?_⟩
        rintro ⟨-, q, heq, hq⟩
        cases heq
        exact absurd hq hp

/-- Only directories are left by a step. -/
theorem lookup_of_enter (h : enter t p name = .ok p') : t.lookup p = some .directory := by
  unfold enter at h
  split at h
  · cases h
  · cases h
  · cases h
  · next hp => exact hp

theorem enter_of_stay (hstay : DirectoriesStay t t') (h : enter t p name = .ok p') :
    enter t' p name = .ok p' := by
  have hp := lookup_of_enter h
  unfold enter at h ⊢
  rw [hp] at h
  rw [hstay p hp]
  exact h

theorem enter_here (h : enter t p "." = .ok p') : p' = p := by
  have hp := lookup_of_enter h
  unfold enter at h
  rw [hp] at h
  exact (Except.ok.inj h).symm

theorem enter_name (hname : IsName name) (h : enter t p name = .ok p') : p' = p ++ [name] := by
  have hp := lookup_of_enter h
  unfold enter at h
  simp only [hp, hname.ne_empty, hname.ne_here, hname.ne_up, or_self, if_false] at h
  split at h
  · cases h
  · exact (Except.ok.inj h).symm

/-- What is around a thing is a directory. -/
def Closed (t : FileTree) : Prop := ∀ p name, t.lookup (p ++ [name]) ≠ none → t.lookup p = some .directory

theorem Closed.around (h : t.Closed) (hp : t.lookup p = some .directory) :
    ∀ q, q <+: p → t.lookup q = some .directory := by
  induction p using List.reverseRecOn with
  | nil =>
    intro q hq
    rw [List.prefix_nil.1 hq]
    exact hp
  | append_singleton p name ih =>
    intro q hq
    rcases List.prefix_concat_iff.1 hq with rfl | hq
    · exact hp
    · exact ih (h p name (by rw [hp]; exact nofun)) q hq

/-- What a step leaves of a tree.  Files stay as they are. -/
structure Grown (t t' : FileTree) : Prop where
  stay : DirectoriesStay t t'
  files : ∀ q e, e ≠ .directory → (t'.lookup q = some e ↔ t.lookup q = some e)
  proper : t.Proper → t'.Proper
  closed : t.Closed → t'.Closed

theorem Grown.refl (t : FileTree) : Grown t t := ⟨.refl t, fun _ _ _ => Iff.rfl, id, id⟩

theorem Grown.trans (h : Grown t t') (h' : Grown t' t'') : Grown t t'' :=
  ⟨h.stay.trans h'.stay, fun q e he => (h'.files q e he).trans (h.files q e he), h'.proper ∘ h.proper,
    h'.closed ∘ h.closed⟩

theorem grown_of_makeDirectory (h : t.makeDirectory p = .ok t') : Grown t t' := by
  unfold makeDirectory at h
  split at h
  · cases h
  · next hparent hnone =>
    cases h
    have hne : p ≠ [] := by
      rintro rfl
      cases hnone
    have hlookup := lookup_set_of_ne_nil (t := t) hne .directory
    have hstay : DirectoriesStay t (t.set p .directory) := by
      intro q hq
      rw [hlookup]
      split
      · rfl
      · exact hq
    refine ⟨hstay, fun q e he => ?_, fun ht => ht.set p _, fun ht q name hq => ?_⟩
    · rw [hlookup]
      split
      · next heq =>
        subst heq
        rw [hnone]
        exact ⟨fun h => absurd (Option.some.inj h).symm he, nofun⟩
      · exact Iff.rfl
    · rw [hlookup] at hq
      split at hq
      · next heq =>
        subst heq
        rw [List.dropLast_concat] at hparent
        exact hstay q hparent
      · exact hstay q (ht q name hq)
  · cases h

theorem makeStep_eq_ok (h : makeStep (t, p) name = .ok (t', p')) : enter t p name = .ok p' ∧ Grown t t' := by
  cases henter : enter t p name with
  | error e =>
    simp only [makeStep, henter] at h
    cases h
  | ok q =>
    simp only [makeStep, henter, bind, Except.bind] at h
    split at h
    · cases h
      exact ⟨rfl, .refl t⟩
    · cases hmake : t.makeDirectory q with
      | error e =>
        rw [hmake] at h
        cases h
      | ok t₁ =>
        rw [hmake] at h
        cases h
        exact ⟨rfl, grown_of_makeDirectory hmake⟩

theorem grown_of_walk (h : names.foldlM makeStep (t, p) = .ok (t', p')) : Grown t t' := by
  induction names generalizing t p with
  | nil =>
    cases h
    exact .refl _
  | cons name names ih =>
    rw [List.foldlM_cons] at h
    cases hstep : makeStep (t, p) name with
    | error e =>
      rw [hstep] at h
      cases h
    | ok s =>
      rw [hstep] at h
      exact (makeStep_eq_ok hstep).2.trans (ih h)

/-- A way on which all is there leads to the same place, whether or not what is missing would be made. -/
theorem enter_of_walk (h : names.foldlM makeStep (t, p) = .ok (t', p')) (hstay : DirectoriesStay t' t'') :
    names.foldlM (enter t'') p = .ok p' := by
  induction names generalizing t p with
  | nil =>
    cases h
    rfl
  | cons name names ih =>
    rw [List.foldlM_cons] at h ⊢
    cases hstep : makeStep (t, p) name with
    | error e =>
      rw [hstep] at h
      cases h
    | ok s =>
      rw [hstep] at h
      obtain ⟨henter, hgrown⟩ := makeStep_eq_ok hstep
      rw [enter_of_stay (hgrown.stay.trans ((grown_of_walk h).stay.trans hstay)) henter]
      exact ih h

/-- A way to a directory starts at one. -/
theorem lookup_of_way (h : names.foldlM (enter t) p = .ok p') (hp' : t.lookup p' = some .directory) :
    t.lookup p = some .directory := by
  cases names with
  | nil =>
    cases h
    exact hp'
  | cons name names =>
    rw [List.foldlM_cons] at h
    cases henter : enter t p name with
    | error e =>
      rw [henter] at h
      cases h
    | ok q => exact lookup_of_enter henter

/-- On a way to a directory nothing has to be made. -/
theorem walk_of_enter (h : names.foldlM (enter t) p = .ok p') (hp' : t.lookup p' = some .directory) :
    names.foldlM makeStep (t, p) = .ok (t, p') := by
  induction names generalizing p with
  | nil =>
    cases h
    rfl
  | cons name names ih =>
    rw [List.foldlM_cons] at h ⊢
    cases henter : enter t p name with
    | error e =>
      rw [henter] at h
      cases h
    | ok q =>
      rw [henter] at h
      have hq : t.isThere q = true := by
        rw [isThere, lookup_of_way h hp']
        rfl
      have hstep : makeStep (t, p) name = .ok (t, q) := by
        simp only [makeStep, henter, bind, Except.bind, hq, if_true]
        rfl
      rw [hstep]
      exact ih h

/-- Directories that were made are found, and not made again. -/
theorem makeDirectories_again {current : Place} {path : String} (h : t.makeDirectories current path = .ok t')
    (hstay : DirectoriesStay t' t'') : t''.makeDirectories current path = .ok t'' := by
  obtain ⟨hnul, p, hwalk, hp⟩ := makeDirectories_eq_ok_iff.1 h
  exact makeDirectories_eq_ok_iff.2 ⟨hnul, p, walk_of_enter (enter_of_walk hwalk hstay) (hstay p hp), hstay p hp⟩

theorem grown_of_makeDirectories {current : Place} {path : String}
    (h : t.makeDirectories current path = .ok t') : Grown t t' := by
  obtain ⟨-, p, hwalk, -⟩ := makeDirectories_eq_ok_iff.1 h
  exact grown_of_walk hwalk

theorem locate_eq (t : FileTree) (current : Place) (path : String) :
    t.locate current path =
      if '\x00' ∈ path.toList then .error .nulByte
      else if path = "" then .error .missing
      else if 4095 < path.utf8ByteSize then .error .nameTooLong
      else (steps path).foldlM (enter t) (startOf current path) := by
  have hnul : path.any (· = '\x00') = true ↔ '\x00' ∈ path.toList := by
    rw [any_nul_eq, List.any_eq_true]
    simp
  exact if_congr hnul rfl rfl

theorem locate_eq_ok_iff {current : Place} {path : String} :
    t.locate current path = .ok p ↔ '\x00' ∉ path.toList ∧ path ≠ "" ∧ path.utf8ByteSize ≤ 4095 ∧
      (steps path).foldlM (enter t) (startOf current path) = .ok p := by
  rw [locate_eq]
  split
  · next h => exact ⟨nofun, fun h' => absurd h h'.1⟩
  · next hnul =>
    split
    · next h => exact ⟨nofun, fun h' => absurd h h'.2.1⟩
    · next hempty =>
      split
      · next h => exact ⟨nofun, fun h' => absurd h (Nat.not_lt.2 h'.2.2.1)⟩
      · next hlong => exact ⟨fun h => ⟨hnul, hempty, Nat.not_lt.1 hlong, h⟩, fun h => h.2.2.2⟩

theorem way_of_locate {current : Place} {path : String} (h : t.locate current path = .ok p) :
    (steps path).foldlM (enter t) (startOf current path) = .ok p := (locate_eq_ok_iff.1 h).2.2.2

theorem way_of_stay (hstay : DirectoriesStay t t') (h : names.foldlM (enter t) p = .ok p') :
    names.foldlM (enter t') p = .ok p' := by
  induction names generalizing p with
  | nil => exact h
  | cons name names ih =>
    rw [List.foldlM_cons] at h ⊢
    cases henter : enter t p name with
    | error e =>
      rw [henter] at h
      cases h
    | ok q =>
      rw [henter] at h
      rw [enter_of_stay hstay henter]
      exact ih h

/-- The last step of a way. -/
theorem way_concat (h : (names ++ [name]).foldlM (enter t) p = .ok p') :
    ∃ q, names.foldlM (enter t) p = .ok q ∧ enter t q name = .ok p' := by
  rw [List.foldlM_append] at h
  cases hq : names.foldlM (enter t) p with
  | error e =>
    rw [hq] at h
    cases h
  | ok q =>
    rw [hq] at h
    refine ⟨q, rfl, ?_⟩
    change enter t q name >>= pure = _ at h
    rwa [bind_pure] at h

theorem locate_of_stay {current : Place} {path : String} (hstay : DirectoriesStay t t')
    (h : t.locate current path = .ok p) : t'.locate current path = .ok p := by
  obtain ⟨hnul, hempty, hlong, hway⟩ := locate_eq_ok_iff.1 h
  exact locate_eq_ok_iff.2 ⟨hnul, hempty, hlong, way_of_stay hstay hway⟩

/-- Names are a way through directories. -/
theorem way_names (h : ∀ n ∈ names, IsName n ∧ n.utf8ByteSize ≤ 255)
    (hdirs : ∀ q, q <+: names → q ≠ names → t.lookup (p ++ q) = some .directory) :
    names.foldlM (enter t) p = .ok (p ++ names) := by
  induction names using List.reverseRecOn with
  | nil => rw [List.append_nil]; rfl
  | append_singleton names name ih =>
    have hprefix := List.prefix_append names [name]
    have hne : names ≠ names ++ [name] := by simp
    have hway := ih (fun n hn => h n (List.mem_append_left _ hn)) fun q hq hq' =>
      hdirs q (hq.trans hprefix) fun heq => hq' (hq.eq_of_length_le (heq ▸ hprefix.length_le))
    obtain ⟨hname, hlong⟩ := h name (List.mem_append_right _ (List.mem_singleton_self name))
    rw [List.foldlM_append, hway]
    change (enter t (p ++ names) name >>= pure) = _
    rw [bind_pure, enter, hdirs names hprefix hne]
    simp only [hname.ne_empty, hname.ne_here, hname.ne_up, or_self, if_false, Nat.not_lt.2 hlong,
      List.append_assoc]

theorem eq_of_way (h : ∀ n ∈ names, IsName n) (hway : names.foldlM (enter t) p = .ok p') :
    p' = p ++ names := by
  induction names using List.reverseRecOn generalizing p' with
  | nil =>
    cases hway
    rw [List.append_nil]
  | append_singleton names name ih =>
    obtain ⟨q, hq, hlast⟩ := way_concat hway
    obtain rfl := ih (fun n hn => h n (List.mem_append_left _ hn)) hq
    rw [enter_name (h name (List.mem_append_right _ (List.mem_singleton_self name))) hlast,
      List.append_assoc]

/-- What is at the path of a place is what is there. -/
theorem isThereAt_pathOf (hclosed : t.Closed) (hp : p ≠ []) (hnames : ∀ n ∈ p, IsName n ∧ n.utf8ByteSize ≤ 255)
    (hlong : (pathOf p).utf8ByteSize ≤ 4095) : t.isThereAt [] (pathOf p) = true ↔ t.lookup p ≠ none := by
  have hlist := toList_pathOf hp
  have hnul : '\x00' ∉ (pathOf p).toList := by
    rw [hlist, List.mem_flatMap]
    rintro ⟨n, hn, hmem⟩
    rcases List.mem_cons.1 hmem with heq | hmem
    · exact absurd heq (by decide)
    · exact (hnames n hn).1.nul hmem
  have hempty : pathOf p ≠ "" := fun h => by
    obtain ⟨n, rest, rfl⟩ := List.exists_cons_of_ne_nil hp
    rw [h] at hlist
    exact absurd hlist (by simp)
  have hsteps := steps_pathOf hp fun n hn => (hnames n hn).1.slash
  have hroot : ∀ path : String, startOf [] path = [] := fun path => ite_self _
  have hway : ∀ {q}, t.locate [] (pathOf p) = .ok q ↔ p.foldlM (enter t) [] = .ok q := by
    intro q
    rw [locate_eq_ok_iff, hsteps, hroot]
    exact ⟨fun h => h.2.2.2, fun h => ⟨hnul, hempty, hlong, h⟩⟩
  rw [isThereAt]
  constructor
  · intro h
    cases hlocate : t.locate [] (pathOf p) with
    | error e =>
      rw [hlocate] at h
      cases h
    | ok q =>
      rw [hlocate] at h
      obtain rfl : q = p := eq_of_way (fun n hn => (hnames n hn).1) (hway.1 hlocate)
      exact Option.isSome_iff_ne_none.1 h
  · intro h
    have hdirs : ∀ q, q <+: p → q ≠ p → t.lookup ([] ++ q) = some .directory := by
      intro q hq hne
      obtain ⟨directory, name, rfl⟩ := (List.eq_nil_or_concat p).resolve_left hp
      rw [List.concat_eq_append] at h hq hne
      exact hclosed.around (hclosed directory name h) q ((List.prefix_concat_iff.1 hq).resolve_left hne)
    rw [hway.2 (way_names hnames hdirs), List.nil_append]
    exact Option.isSome_iff_ne_none.2 h

end FileTree

/-! ## Stores -/

namespace Store

open FileTree

variable {current : Place} {home : String} {s : Store} {t t' t'' : FileTree}

theorem openAt_eq_ok_iff : openAt current home t = .ok s t' ↔ ∃ t₁ t₂,
    t.makeDirectories current (join home "plugins") = .ok t₁ ∧
    t₁.makeDirectories current (join home "jobs") = .ok t₂ ∧
    t₂.makeDirectories current (join home "tasks") = .ok t' ∧
    t'.locate current (join home ".") = .ok s.root := by
  unfold openAt
  simp only [List.forIn_cons, List.forIn_nil, Bind.bind, EStateM.bind, get_eq]
  cases h₁ : t.makeDirectories current (join home "plugins") with
  | error e => simp [EStateM.bind, throw_eq]
  | ok t₁ =>
    cases h₂ : t₁.makeDirectories current (join home "jobs") with
    | error e => simp [h₂, EStateM.bind, get_eq, set_eq, throw_eq, pure, EStateM.pure]
    | ok t₂ =>
      cases h₃ : t₂.makeDirectories current (join home "tasks") with
      | error e => simp [h₂, h₃, EStateM.bind, get_eq, set_eq, throw_eq, pure, EStateM.pure]
      | ok t₃ =>
        cases h₄ : t₃.locate current (join home ".") with
        | error e =>
          simp only [EStateM.bind, set_eq, pure, EStateM.pure, get_eq, h₂, h₃, h₄, throw_eq, reduceCtorEq,
            Except.ok.injEq, exists_and_left, exists_eq_left', false_iff, not_and]
          rintro rfl
          simp [h₄]
        | ok root =>
          simp only [EStateM.bind, set_eq, pure, EStateM.pure, get_eq, h₂, h₃, h₄, EStateM.Result.ok.injEq,
            Except.ok.injEq, exists_and_left, exists_eq_left']
          constructor
          · rintro ⟨rfl, rfl⟩
            exact ⟨rfl, h₄⟩
          · rintro ⟨rfl, hroot⟩
            rw [h₄] at hroot
            cases s
            cases hroot
            exact ⟨rfl, rfl⟩

/-- **A store can be opened again**, and nothing is changed by that, as long as its directories stay. -/
theorem openAt_again (h : openAt current home t = .ok s t') (hstay : DirectoriesStay t' t'') :
    openAt current home t'' = .ok s t'' := by
  obtain ⟨t₁, t₂, h₁, h₂, h₃, hroot⟩ := openAt_eq_ok_iff.1 h
  have hstay₂ := (grown_of_makeDirectories h₃).stay.trans hstay
  have hstay₁ := (grown_of_makeDirectories h₂).stay.trans hstay₂
  exact openAt_eq_ok_iff.2 ⟨t'', t'', makeDirectories_again h₁ hstay₁, makeDirectories_again h₂ hstay₂,
    makeDirectories_again h₃ hstay, locate_of_stay hstay hroot⟩

/-- A directory that was made lies in the root of the store. -/
theorem lookup_made {t₁ : FileTree} (hroot : t''.locate current (join home ".") = .ok s.root) {name : String}
    (hname : IsName name) (h : t.makeDirectories current (join home name) = .ok t₁)
    (hstay : DirectoriesStay t₁ t'') : t''.lookup (s.root ++ [name]) = some .directory := by
  obtain ⟨way, hway⟩ := exists_steps_join home
  obtain ⟨hsteps, habsolute⟩ := hway name hname.slash
  obtain ⟨hsteps', habsolute'⟩ := hway "." (by decide)
  obtain ⟨-, p, hwalk, hp⟩ := makeDirectories_eq_ok_iff.1 h
  have hto := enter_of_walk hwalk hstay
  have hhere := way_of_locate hroot
  rw [hsteps, startOf, habsolute] at hto
  rw [hsteps', startOf, habsolute'] at hhere
  obtain ⟨q, hq, hto⟩ := way_concat hto
  obtain ⟨q', hq', hhere⟩ := way_concat hhere
  obtain rfl : q = q' := Except.ok.inj (hq.symm.trans hq')
  rw [enter_here hhere, ← enter_name hname hto]
  exact hstay p hp

/-- **A store that is opened with nothing in it is empty.** -/
theorem standsIn_of_openAt (hproper : t.Proper) (hclosed : t.Closed) (h : openAt current home t = .ok s t')
    (hempty : s.IsEmpty t') : Catalogue.empty.StandsIn s t' := by
  obtain ⟨t₁, t₂, h₁, h₂, h₃, hroot⟩ := openAt_eq_ok_iff.1 h
  have hgrown₃ := grown_of_makeDirectories h₃
  have hgrown₂ := (grown_of_makeDirectories h₂).trans hgrown₃
  have hgrown := (grown_of_makeDirectories h₁).trans hgrown₂
  have hplugins : t'.lookup s.plugins = some .directory := lookup_made hroot (by decide) h₁ hgrown₂.stay
  have hjobs : t'.lookup s.jobs = some .directory := lookup_made hroot (by decide) h₂ hgrown₃.stay
  have htasks : t'.lookup s.tasks = some .directory := lookup_made hroot (by decide) h₃ (.refl t')
  have haround : ∀ p, p <+: s.root → t'.lookup p = some .directory := fun p hp =>
    (hgrown.closed hclosed).around hplugins p (hp.trans (List.prefix_append ..))
  exact .of_nothing (hgrown.proper hproper) haround (by simp [hplugins, hjobs, htasks]) hempty

/-- A store is made in the root of a disk that has nothing on it. -/
theorem openAt_nothing : openAt [] "/" ⟨[]⟩ = .ok ⟨[]⟩ vacant := by
  have hmake : ∀ {t t' : FileTree} {name : String}, join "/" name = "/" ++ name →
      steps ("/" ++ name) = ["", name] → isAbsolute ("/" ++ name) = true →
      name.toList.any (· = '\x00') = false → [name].foldlM makeStep (t, []) = .ok (t', [name]) →
      t'.lookup [name] = some .directory → t.makeDirectories [] (join "/" name) = .ok t' := by
    intro t t' name hjoin hsteps habsolute hnul hwalk hp
    refine makeDirectories_eq_ok_iff.2 ⟨?_, [name], ?_, hp⟩
    · rw [hjoin, any_nul_eq, String.toList_append, List.any_append, hnul]
      rfl
    · rw [hjoin, hsteps, startOf, habsolute]
      exact hwalk
  refine openAt_eq_ok_iff.2 ⟨⟨[(["plugins"], .directory)]⟩, ⟨[(["jobs"], .directory), (["plugins"], .directory)]⟩,
    hmake (by decide +kernel) (by decide +kernel) (by decide +kernel) (by decide) rfl rfl,
    hmake (by decide +kernel) (by decide +kernel) (by decide +kernel) (by decide) rfl rfl,
    hmake (by decide +kernel) (by decide +kernel) (by decide +kernel) (by decide) rfl rfl, ?_⟩
  have hjoin : join "/" "." = "/." := by decide +kernel
  have hsteps : steps "/." = ["", "."] := by decide +kernel
  have habsolute : isAbsolute "/." = true := by decide +kernel
  have hnul : "/.".any (· = '\x00') = false := by
    rw [any_nul_eq]
    decide
  rw [hjoin, locate, hnul, hsteps, habsolute]
  rfl

end Store

end PluginChain
