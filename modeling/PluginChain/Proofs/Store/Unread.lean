import PluginChain.Proofs.Store.Crash

/-!
# Changes of which one fails

A disk can fail wherever it is asked for something.  Then the changes before are made and stay, and of what
was being written there may be a part (`FailsAt`).

What a request to write a plugin changes before its last step are the lock and the file beside the record,
and nobody reads these (`Store.IsUnread`).  So where a step of it fails, all that can be asked about
records is answered as before, whether in full, in a listing or with an error (`Store.SameRead`).  This does
not depend on the state of the disk: directories may be missing, and records may be no documents.
-/

set_option autoImplicit false

namespace PluginChain

open Operation FileTree

/-! ## Failures -/

/-- The trees that changes leave of which one fails, for whatever reason. -/
inductive FailsAt : List Change → FileTree → FileTree → Prop
  | refused (c : Change) (rest : List Change) (t : FileTree) : FailsAt (c :: rest) t t
  /-- Of what was to be written only the first bytes were. -/
  | within {p : Place} {content : String} {rest : List Change} {t t' : FileTree} (n : Nat)
      (h : t.write p content = .ok t') :
      FailsAt (.write p content :: rest) t (t.set p (.ofBytes (content.toUTF8.extract 0 n)))
  | later {c : Change} {rest : List Change} {t t' t'' : FileTree} (h : c.apply t = .ok t')
      (hrest : FailsAt rest t' t'') : FailsAt (c :: rest) t t''

/-- A failure that the state of the disk is to blame for. -/
theorem failsAt_of_error {changes : List Change} {t t' : FileTree} {e : StoreError}
    (h : StoreM.perform changes t = .error e t') : FailsAt changes t t' := by
  induction changes generalizing t with
  | nil => cases h
  | cons c rest ih =>
    cases happly : c.apply t with
    | ok t₁ =>
      rw [StoreM.perform_cons_of_ok happly] at h
      exact .later happly (ih h)
    | error why =>
      rw [StoreM.perform_cons_of_error happly] at h
      cases h
      exact .refused c rest _

namespace Operation

variable {ε σ α β : Type} {s s' : σ}

/-! ## Looking at two states -/

/-- The operation leaves either of the two states as it is, and comes to the same in both. -/
def FindsSame (f : EStateM ε σ α) (s s' : σ) : Prop :=
  (∃ a, f s = .ok a s ∧ f s' = .ok a s') ∨ ∃ e, f s = .error e s ∧ f s' = .error e s'

theorem findsSame_pure (a : α) : FindsSame (pure a : EStateM ε σ α) s s' := Or.inl ⟨a, rfl, rfl⟩

theorem findsSame_throw (e : ε) : FindsSame (throw e : EStateM ε σ α) s s' := Or.inr ⟨e, rfl, rfl⟩

theorem FindsSame.bind {f : EStateM ε σ α} {g : α → EStateM ε σ β} (hf : FindsSame f s s')
    (hg : ∀ a, FindsSame (g a) s s') : FindsSame (f >>= g) s s' := by
  rcases hf with ⟨a, h, h'⟩ | ⟨e, h, h'⟩
  · rw [FindsSame, bind_of_ok h, bind_of_ok h']
    exact hg a
  · exact Or.inr ⟨e, bind_of_error h g, bind_of_error h' g⟩

theorem FindsSame.mapM {f : α → EStateM ε σ β} {as : List α} (h : ∀ a ∈ as, FindsSame (f a) s s') :
    FindsSame (as.mapM f) s s' := by
  induction as with
  | nil => exact findsSame_pure _
  | cons a as ih =>
    rw [List.mapM_cons]
    exact (h a List.mem_cons_self).bind fun _ =>
      (ih fun x hx => h x (List.mem_cons_of_mem _ hx)).bind fun _ => findsSame_pure _

end Operation

/-! ## What is read -/

namespace FileTree

variable {t t' : FileTree} {p : Place}

theorem absence_congr (h : ∀ q, q <+: p → t'.lookup q = t.lookup q) : t'.absence p = t.absence p := by
  simp only [absence, h _ (List.take_prefix _ p)]

/-- What is read at a place depends on what there is on the way to it. -/
theorem read_congr (h : ∀ q, q <+: p → t'.lookup q = t.lookup q) : t'.read p = t.read p := by
  rw [read, read, h p List.prefix_rfl, absence_congr h]

/-- Names that nobody wants may come and go. -/
theorem filter_children_set (t : FileTree) {q : Place} (e : FileEntry) (wanted : String → Bool)
    (hq : ∀ name, q.getLast? = some name → wanted name = false) (p : Place) :
    ((t.set q e).children p).filter wanted = (t.children p).filter wanted := by
  rw [children, children, List.filter_filterMap, List.filter_filterMap]
  generalize hg : (fun x : Place × FileEntry => Option.filter wanted _) = g
  have hnone : ∀ e, g (q, e) = none := by
    intro e
    subst hg
    cases hlast : q.getLast? with
    | none => simp [hlast]
    | some name => by_cases hp : q.dropLast = p <;> simp [hlast, hp, hq name hlast]
  change List.filterMap g ((q, e) :: t.entries.filter (·.1 ≠ q)) = _
  rw [List.filterMap_cons_none (hnone e), List.filterMap_filter]
  refine congrArg (List.filterMap · t.entries) (funext fun x => ?_)
  by_cases hx : x.1 = q
  · obtain ⟨p', e'⟩ := x
    obtain rfl : p' = q := hx
    simp [hnone e']
  · simp [hx]

end FileTree

/-- A record is found alike in files that are read alike. -/
theorem StoreM.findsSame_readRecord {α : Type} {c : Codec α} {t t' : FileTree} {p : Place}
    (hread : t'.read p = t.read p) (missing : StoreError) : FindsSame (readRecord c p missing) t t' := by
  have hfirst : FindsSame (readRecord? c p) t t' := by
    simp only [FindsSame, readRecord?, hread]
    cases t.read p with
    | ok text =>
      dsimp only
      unfold ofText
      cases c.ofJson text with
      | ok a => exact Or.inl ⟨some a, rfl, rfl⟩
      | error why => exact Or.inr ⟨.unreadable why, rfl, rfl⟩
    | error e =>
      cases e with
      | missing => exact Or.inl ⟨none, rfl, rfl⟩
      | _ => exact Or.inr ⟨_, rfl, rfl⟩
  refine hfirst.bind fun found => ?_
  cases found with
  | some a => exact findsSame_pure a
  | none => exact findsSame_throw missing

/-! ## Files that nobody reads -/

namespace Store

variable {s : Store} {t t' t'' : FileTree} {q : Place}

/-- The place is that of the lock, or of what is written beside the record of a plugin. -/
def IsUnread (s : Store) (q : Place) : Prop :=
  q = s.root ++ [".lock"] ∨ ∃ stem, q = StoreM.besideOf (s.plugins ++ [stem ++ ".json"])

/-- Nothing that is read is on the way behind such a place. -/
theorem IsUnread.not_prefix (hq : s.IsUnread q) {directory name : String} (hdirectory : directory ≠ ".lock")
    (hname : suffix? name = some "json") : ¬ q <+: s.root ++ [directory, name] := by
  intro hprefix
  rcases hq with rfl | ⟨stem, rfl⟩
  · rw [List.prefix_append_right_inj, List.cons_prefix_cons] at hprefix
    exact hdirectory hprefix.1.symm
  · rw [StoreM.besideOf_append, plugins, List.append_assoc, List.prefix_append_right_inj] at hprefix
    simp only [List.cons_append, List.nil_append, List.cons_prefix_cons] at hprefix
    obtain ⟨stem', -, rfl⟩ := exists_of_suffix?_json hname
    refine StoreM.besideOf_ne_json [] [] stem stem' ?_
    rw [StoreM.besideOf_append, hprefix.2.1]

theorem IsUnread.ne_nil (hq : s.IsUnread q) : q ≠ [] := by
  rcases hq with rfl | ⟨stem, rfl⟩
  · exact append_singleton_ne_nil _ _
  · rw [StoreM.besideOf_append]
    exact append_singleton_ne_nil _ _

theorem IsUnread.suffix?_ne (hq : s.IsUnread q) {name : String} (hlast : q.getLast? = some name) :
    suffix? name ≠ some "json" := by
  intro hname
  obtain ⟨stem', -, rfl⟩ := exists_of_suffix?_json hname
  rcases hq with rfl | ⟨stem, rfl⟩
  · rw [List.getLast?_concat, Option.some_inj] at hlast
    have hc := congrArg (fun name : String => name.toList.getLast?) hlast
    simp at hc
  · rw [StoreM.besideOf_append, List.getLast?_concat, Option.some_inj] at hlast
    refine StoreM.besideOf_ne_json [] [] stem stem' ?_
    rw [StoreM.besideOf_append, hlast]

/-- From one tree to the other nothing changes for those who read records. -/
structure SameRead (s : Store) (t t' : FileTree) : Prop where
  read : ∀ directory ∈ [s.plugins, s.jobs], ∀ name, suffix? name = some "json" →
    t'.read (directory ++ [name]) = t.read (directory ++ [name])
  names : ∀ directory ∈ [s.plugins, s.jobs],
    StoreM.recordNames t' directory = StoreM.recordNames t directory

namespace SameRead

theorem refl (s : Store) (t : FileTree) : s.SameRead t t := ⟨fun _ _ _ _ => rfl, fun _ _ => rfl⟩

theorem trans (h : s.SameRead t t') (h' : s.SameRead t' t'') : s.SameRead t t'' :=
  ⟨fun directory hd name hname => (h'.read directory hd name hname).trans (h.read directory hd name hname),
    fun directory hd => (h'.names directory hd).trans (h.names directory hd)⟩

end SameRead

/-- Whatever is put at a place that nobody reads. -/
theorem sameRead_set (hq : s.IsUnread q) (t : FileTree) (e : FileEntry) : s.SameRead t (t.set q e) := by
  have hmem : ∀ {directory}, directory ∈ [s.plugins, s.jobs] →
      ∃ d, d ≠ ".lock" ∧ directory = s.root ++ [d] := by
    intro directory hdirectory
    rcases List.mem_pair.1 hdirectory with rfl | rfl
    · exact ⟨"plugins", by decide, rfl⟩
    · exact ⟨"jobs", by decide, rfl⟩
  have hlookup : ∀ {d name : String}, d ≠ ".lock" → suffix? name = some "json" →
      ∀ p, p <+: s.root ++ [d, name] → (t.set q e).lookup p = t.lookup p := by
    intro d name hd hname p hp
    rw [lookup_set_of_ne_nil hq.ne_nil, if_neg]
    rintro rfl
    exact hq.not_prefix hd hname hp
  refine ⟨fun directory hdirectory name hname => ?_, fun directory hdirectory => ?_⟩
  · obtain ⟨d, hd, rfl⟩ := hmem hdirectory
    rw [List.append_assoc]
    exact read_congr (hlookup hd hname)
  · obtain ⟨d, hd, rfl⟩ := hmem hdirectory
    have hway : ∀ p, p <+: s.root ++ [d] → (t.set q e).lookup p = t.lookup p := fun p hp =>
      hlookup hd (suffix?_json (by decide : "a" ≠ "")) p (hp.trans ⟨["a" ++ ".json"], by simp⟩)
    have hchildren := filter_children_set t e (fun n => suffix? n = some "json")
      (fun name hlast => decide_eq_false (hq.suffix?_ne hlast)) (s.root ++ [d])
    rw [StoreM.recordNames, StoreM.recordNames, hway _ List.prefix_rfl, hchildren, absence_congr hway]

/-- The change makes or writes a file that nobody reads. -/
theorem sameRead_of_write {content : String} (hq : s.IsUnread q) (h : t.write q content = .ok t') :
    s.SameRead t t' := by
  unfold FileTree.write at h
  split at h
  · cases h
  · cases h
    exact sameRead_set hq t _
  · cases h

theorem sameRead_of_lock (h : s.lock.apply t = .ok t') : s.SameRead t t' := by
  change t.touch (s.root ++ [".lock"]) = .ok t' at h
  unfold FileTree.touch at h
  split at h
  · cases h
    exact .refl s t
  · cases h
    exact .refl s t
  · exact sameRead_of_write (Or.inl rfl) h

/-- **A record that cannot be written** is not seen to have been. -/
theorem sameRead_of_failsAt {stem content : String}
    (h : FailsAt (StoreM.recordChanges (s.plugins ++ [stem ++ ".json"]) content) t t') : s.SameRead t t' := by
  have hbeside : s.IsUnread (StoreM.besideOf (s.plugins ++ [stem ++ ".json"])) := Or.inr ⟨stem, rfl⟩
  cases h with
  | refused => exact .refl s t
  | within n hwrite => exact sameRead_set hbeside t _
  | later hwrite hrest =>
    have hsame := sameRead_of_write hbeside hwrite
    cases hrest with
    | refused => exact hsame
    | later _ hnil => cases hnil

/-- To look at the old record of a plugin changes nothing that is read. -/
theorem sameRead_draftPlugin (s : Store) (now : Instant) (record : PluginRecord) :
    Keeps s.SameRead (s.draftPlugin now record) := by
  have hlock : Keeps s.SameRead (StoreM.perform [s.lock]) :=
    StoreM.keeps_perform (.refl s) (fun _ _ _ => .trans) fun c hc t t' happly => by
      obtain rfl := List.mem_singleton.1 hc
      exact sameRead_of_lock happly
  exact hlock.bind (fun _ _ _ => .trans) fun _ =>
    LooksOnly.keeps (.refl s) ((StoreM.looksOnly_readRecord? _ _).bind fun _ => looksOnly_pure _)

/-- **A plugin that is not saved is not seen to have been**, whatever is to blame for it. -/
theorem sameRead_of_savePlugin {now : Instant} {record : PluginRecord} {e : StoreError}
    (h : s.savePlugin now record t = .error e t') : s.SameRead t t' := by
  have hdraft := s.sameRead_draftPlugin now record t
  cases hd : s.draftPlugin now record t with
  | error e₁ t₁ =>
    rw [savePlugin, bind_of_error hd] at h
    cases h
    rwa [hd] at hdraft
  | ok draft t₁ =>
    rw [savePlugin, bind_of_ok hd, keepPlugin, pluginFile_eq] at h
    rw [hd] at hdraft
    exact hdraft.trans (sameRead_of_failsAt (failsAt_of_error h))

theorem sameRead_of_failsAt_savePlugin {now : Instant} {record : PluginRecord}
    (h : FailsAt ((DiskRequest.savePlugin now record).changes s t) t t') : s.SameRead t t' := by
  rw [DiskRequest.changes] at h
  cases hd : s.draftPlugin now record t with
  | error e t₁ =>
    rw [hd] at h
    cases h with
    | refused => exact .refl s t
    | later _ hnil => cases hnil
  | ok draft t₁ =>
    simp only [hd, lockedChanges, pluginFile_eq] at h
    cases h with
    | refused => exact .refl s t
    | later hlock hrest => exact (sameRead_of_lock hlock).trans (sameRead_of_failsAt hrest)

/-! ### What is found by those who read -/

namespace SameRead

variable {α : Type} {c : Codec α} {directory : Place}

theorem readRecord (h : s.SameRead t t') (hd : directory ∈ [s.plugins, s.jobs]) {name : String}
    (hname : suffix? name = some "json") (missing : StoreError) :
    FindsSame (StoreM.readRecord c (directory ++ [name]) missing) t t' :=
  StoreM.findsSame_readRecord (h.read directory hd name hname) missing

theorem readRecords (h : s.SameRead t t') (c : Codec α) (hd : directory ∈ [s.plugins, s.jobs]) :
    FindsSame (StoreM.readRecords c directory) t t' := by
  have hlook : ∀ {β : Type} (f : FileTree → Except FileError β), f t' = f t →
      FindsSame (StoreM.look f) t t' := by
    intro β f hf
    cases hft : f t with
    | ok b => exact Or.inl ⟨b, StoreM.look_of_ok hft, StoreM.look_of_ok (hf.trans hft)⟩
    | error e => exact Or.inr ⟨.file e, StoreM.look_of_error hft, StoreM.look_of_error (hf.trans hft)⟩
  have hnames := h.names directory hd
  cases hfound : StoreM.recordNames t directory with
  | error e =>
    exact Or.inr ⟨.file e, bind_of_error (StoreM.look_of_error hfound) _,
      bind_of_error (StoreM.look_of_error (hnames.trans hfound)) _⟩
  | ok names =>
    rw [FindsSame, StoreM.readRecords, bind_of_ok (StoreM.look_of_ok hfound),
      bind_of_ok (StoreM.look_of_ok (hnames.trans hfound))]
    have htexts : FindsSame (names.mapM fun n => StoreM.look fun t => t.read (directory ++ [n])) t t' :=
      .mapM fun n hn => hlook _ (h.read directory hd n (StoreM.suffix?_of_mem_recordNames hfound hn))
    exact htexts.bind fun texts => findsSame_pure _

theorem pluginSource (h : s.SameRead t t') (name : String) : FindsSame (s.pluginSource name) t t' :=
  (h.readRecord List.mem_cons_self (suffix?_pluginName name) _).bind fun _ => findsSame_pure _

theorem listPlugins (h : s.SameRead t t') : FindsSame s.listPlugins t t' :=
  h.readRecords _ List.mem_cons_self

theorem getJob (h : s.SameRead t t') (id : Uuid) : FindsSame (s.getJob id) t t' :=
  h.readRecord (List.mem_cons_of_mem _ List.mem_cons_self) (suffix?_jobName id) _

theorem jobInput (h : s.SameRead t t') (id : Uuid) : FindsSame (s.jobInput id) t t' :=
  (h.getJob id).bind fun _ => findsSame_pure _

theorem listJobs (h : s.SameRead t t') : FindsSame s.listJobs t t' :=
  (h.readRecords _ (List.mem_cons_of_mem _ List.mem_cons_self)).bind fun _ => findsSame_pure _

end SameRead

end Store

end PluginChain
