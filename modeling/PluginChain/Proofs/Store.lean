import PluginChain.Proofs.Digest
import PluginChain.Proofs.FileTree
import PluginChain.Proofs.Job
import PluginChain.Proofs.Operation
import PluginChain.Store

/-!
# What is kept in a store

Writing a record puts its text into its own file, and leaves no other file but the one beside it changed
(`lookup_of_writeRecord`).  What is read from a tidy directory are the records that can be read off its
files (`exists_readRecords`); a file that holds none is passed over in silence.

All operations on jobs change texts only (`keeps_saveJob`, `keeps_updateJob`, `keeps_saveTask`), so that
they keep the directories of a store tidy.
-/

set_option autoImplicit false

namespace PluginChain

open Operation FileTree

namespace StoreM

variable {α : Type} {c : Codec α} {p q : Place} {t t' : FileTree}

/-! ## Writing a record -/

theorem besideOf_append (directory : Place) (name : String) :
    besideOf (directory ++ [name]) = directory ++ [name ++ ".tmp"] := by
  simp [besideOf]

theorem besideOf_ne (p : Place) : besideOf p ≠ p := by
  rcases List.eq_nil_or_concat p with rfl | ⟨directory, name, rfl⟩
  · decide
  · rw [List.concat_eq_append, besideOf_append]
    intro h
    have hlen := congrArg String.length (append_singleton_inj.1 h).2
    rw [String.length_append] at hlen
    change name.length + 4 = name.length at hlen
    omega

/-- Behind a successful change comes the rest of them. -/
theorem perform_cons_of_ok {change : Change} {rest : List Change} (h : change.apply t = .ok t') :
    perform (change :: rest) t = perform rest t' := by
  simp only [perform, h]

theorem perform_cons_of_error {change : Change} {rest : List Change} {e : FileError}
    (h : change.apply t = .error e) : perform (change :: rest) t = .error (.file e) t := by
  simp only [perform, h]

theorem perform_cons_eq_ok {change : Change} {rest : List Change} {t'' : FileTree}
    (h : perform (change :: rest) t = .ok () t'') :
    ∃ t', change.apply t = .ok t' ∧ perform rest t' = .ok () t'' := by
  cases hc : change.apply t with
  | ok t' => exact ⟨t', rfl, (perform_cons_of_ok hc).symm.trans h⟩
  | error e =>
    rw [perform_cons_of_error hc] at h
    cases h

/-- After a record was written its file holds its text, and the file beside it is gone. -/
theorem lookup_of_writeRecord {a : α} (h : writeRecord c p a t = .ok () t') (q : Place) :
    t'.lookup q =
      if p = q then some (.file (c.toJson a)) else if besideOf p = q then none else t.lookup q := by
  obtain ⟨t₁, hwrite, h⟩ := perform_cons_eq_ok h
  obtain ⟨t₂, hrename, h⟩ := perform_cons_eq_ok h
  cases h
  obtain ⟨-, hwrite⟩ := lookup_of_write hwrite
  obtain ⟨-, -, hrename⟩ := lookup_of_rename hrename
  rw [hrename, hwrite, if_pos rfl]
  split
  · rfl
  · split
    · rfl
    · next hbeside => rw [hwrite, if_neg hbeside]

/-- A change that only changes texts when it succeeds does nothing else when it fails. -/
theorem keeps_perform_singleton (change : Change)
    (h : ∀ t t', change.apply t = .ok t' → TextChange t t') : Keeps TextChange (perform [change]) := by
  intro t
  cases hc : change.apply t with
  | ok t' =>
    rw [perform_cons_of_ok hc]
    exact h t t' hc
  | error e =>
    rw [perform_cons_of_error hc]
    exact .refl t

theorem keeps_writeRecord (c : Codec α) (p : Place) (a : α) :
    Keeps TextChange (writeRecord c p a) := by
  intro t
  have hwrites := keeps_perform_singleton (.write (besideOf p) (c.toJson a))
    (fun t t' h => textChange_of_write h) t
  cases hwrite : (Change.write (besideOf p) (c.toJson a)).apply t with
  | error e =>
    rw [writeRecord, recordChanges, perform_cons_of_error hwrite]
    exact .refl t
  | ok t₁ =>
    rw [perform_cons_of_ok hwrite] at hwrites
    rw [writeRecord, recordChanges, perform_cons_of_ok hwrite]
    cases hrename : (Change.rename (besideOf p) p).apply t₁ with
    | error e =>
      rw [perform_cons_of_error hrename]
      exact hwrites
    | ok t₂ =>
      rw [perform_cons_of_ok hrename]
      have hsource : Textual (t₁.lookup (besideOf p)) := by
        rw [(lookup_of_write hwrite).2, if_pos rfl]
        exact Or.inr ⟨_, rfl⟩
      exact hwrites.trans (textChange_of_rename hrename hsource)

/-- A record can be written into a directory where its file and the one beside it are no directories. -/
theorem exists_writeRecord {directory : Place} {name : String}
    (hdir : t.lookup directory = some .directory)
    (hp : t.lookup (directory ++ [name]) ≠ some .directory)
    (hbeside : t.lookup (directory ++ [name ++ ".tmp"]) ≠ some .directory) (a : α) :
    ∃ t', writeRecord c (directory ++ [name]) a t = .ok () t' := by
  have hbesideOf : besideOf (directory ++ [name]) = directory ++ [name ++ ".tmp"] :=
    besideOf_append directory name
  have hne : directory ++ [name ++ ".tmp"] ≠ directory ++ [name] := hbesideOf ▸ besideOf_ne _
  have hne' : directory ++ [name ++ ".tmp"] ≠ directory := by simp
  obtain ⟨t₁, hwrite⟩ := exists_write (p := directory ++ [name ++ ".tmp"])
    (by rwa [List.dropLast_concat]) hbeside (c.toJson a)
  have hlookup := (lookup_of_write hwrite).2
  have hsource : t₁.lookup (directory ++ [name ++ ".tmp"]) = some (.file (c.toJson a)) := by
    rw [hlookup, if_pos rfl]
  have htarget : t₁.lookup (directory ++ [name]) ≠ some .directory := by
    rwa [hlookup, if_neg hne]
  have haround : t₁.lookup (directory ++ [name]).dropLast = some .directory := by
    rwa [List.dropLast_concat, hlookup, if_neg hne']
  obtain ⟨t₂, hrename⟩ := exists_rename hsource haround htarget
  have hfirst : (Change.write (directory ++ [name ++ ".tmp"]) (c.toJson a)).apply t = .ok t₁ := hwrite
  have hsecond : (Change.rename (directory ++ [name ++ ".tmp"]) (directory ++ [name])).apply t₁ = .ok t₂ :=
    hrename
  refine ⟨t₂, ?_⟩
  rw [writeRecord, recordChanges, hbesideOf, perform_cons_of_ok hfirst, perform_cons_of_ok hsecond]
  rfl

/-! ## Reading a record -/

/-- The record in a file, if one can be read there. -/
def recordAt? (c : Codec α) (t : FileTree) (p : Place) : Option α :=
  match t.lookup p with
  | some (.file text) => (c.ofJson text).toOption
  | _ => none

theorem recordAt?_eq_some_iff {a : α} :
    recordAt? c t p = some a ↔ ∃ text, t.lookup p = some (.file text) ∧ c.ofJson text = .ok a := by
  rw [recordAt?]
  split
  · next text h =>
    rw [h]
    cases hread : c.ofJson text with
    | ok b =>
      constructor
      · intro hb
        cases hb
        exact ⟨text, rfl, hread⟩
      · rintro ⟨text', htext, ha⟩
        cases htext
        rw [hread] at ha
        cases ha
        rfl
    | error e =>
      refine ⟨nofun, ?_⟩
      rintro ⟨text', htext, ha⟩
      cases htext
      rw [hread] at ha
      cases ha
  · next h => exact ⟨nofun, fun ⟨text, htext, _⟩ => absurd htext (h text)⟩

theorem readRecord_of_recordAt? {a : α} (h : recordAt? c t p = some a) (missing : StoreError) :
    readRecord c p missing t = .ok a t := by
  obtain ⟨text, hp, ha⟩ := recordAt?_eq_some_iff.1 h
  have hread : t.read p = .ok text := by
    rw [FileTree.read, hp]
  have hsome : readRecord? c p t = .ok (some a) t := by
    simp only [readRecord?, hread, ofText, ha]
    rfl
  rw [readRecord, bind_of_ok hsome]
  rfl

theorem readRecord_of_error {text : String} {why : Json.Fault} (hp : t.lookup p = some (.file text))
    (ha : c.ofJson text = .error why) (missing : StoreError) :
    readRecord c p missing t = .error (.unreadable why) t := by
  have hread : t.read p = .ok text := by
    rw [FileTree.read, hp]
  have hsome : readRecord? c p t = .error (.unreadable why) t := by
    simp only [readRecord?, hread, ofText, ha]
    rfl
  rw [readRecord, bind_of_error hsome]

/-- A look at a file leaves the disk alone, and what it gives is the record there. -/
theorem readRecord?_cases (c : Codec α) (p : Place) (t : FileTree) :
    (∃ e, readRecord? c p t = .error e t) ∨ readRecord? c p t = .ok none t ∨
      ∃ a, readRecord? c p t = .ok (some a) t ∧ recordAt? c t p = some a := by
  cases hread : t.read p with
  | error e =>
    cases e with
    | missing =>
      refine Or.inr (Or.inl ?_)
      simp only [readRecord?, hread]
    | _ =>
      left
      simp only [readRecord?, hread]
      exact ⟨_, rfl⟩
  | ok text =>
    have hp := lookup_of_read hread
    cases ha : c.ofJson text with
    | ok a =>
      refine Or.inr (Or.inr ⟨a, ?_, recordAt?_eq_some_iff.2 ⟨text, hp, ha⟩⟩)
      simp only [readRecord?, hread, ofText, ha]
      rfl
    | error e =>
      left
      simp only [readRecord?, hread, ofText, ha]
      exact ⟨_, rfl⟩

theorem looksOnly_readRecord? (c : Codec α) (p : Place) : LooksOnly (readRecord? c p) := by
  intro t
  rcases readRecord?_cases c p t with ⟨e, h⟩ | h | ⟨a, h, -⟩
  · rw [h]
    rfl
  · rw [h]
    rfl
  · rw [h]
    rfl

theorem readRecord_cases (c : Codec α) (p : Place) (missing : StoreError) (t : FileTree) :
    (∃ e, readRecord c p missing t = .error e t) ∨
      ∃ a, readRecord c p missing t = .ok a t ∧ recordAt? c t p = some a := by
  rcases readRecord?_cases c p t with ⟨e, h⟩ | h | ⟨a, h, ha⟩
  · refine Or.inl ⟨e, ?_⟩
    rw [readRecord, bind_of_error h]
  · refine Or.inl ⟨missing, ?_⟩
    rw [readRecord, bind_of_ok h]
    rfl
  · refine Or.inr ⟨a, ?_, ha⟩
    rw [readRecord, bind_of_ok h]
    rfl

theorem readRecord_eq_ok {missing : StoreError} {a : α} (h : readRecord c p missing t = .ok a t') :
    t' = t ∧ recordAt? c t p = some a := by
  rcases readRecord_cases c p missing t with ⟨e, he⟩ | ⟨b, hb, hrecord⟩
  · rw [he] at h
    cases h
  · rw [hb] at h
    cases h
    exact ⟨rfl, hrecord⟩

theorem looksOnly_readRecord (c : Codec α) (p : Place) (missing : StoreError) :
    LooksOnly (readRecord c p missing) := by
  intro t
  rcases readRecord_cases c p missing t with ⟨e, h⟩ | ⟨a, h, -⟩
  · rw [h]
    rfl
  · rw [h]
    rfl

/-! ## Listing a directory -/

/-- A directory in which all that is named like a record is a text. -/
structure Tidy (t : FileTree) (p : Place) : Prop where
  directory : t.lookup p = some .directory
  texts : ∀ name, suffix? name = some "json" → Textual (t.lookup (p ++ [name]))

theorem Tidy.textChange (h : Tidy t p) (hchange : TextChange t t') : Tidy t' p :=
  ⟨hchange.directory h.directory, fun name hname => hchange.textual (h.texts name hname)⟩

theorem looksOnly_look (f : FileTree → Except FileError α) : LooksOnly (look f) := by
  intro t
  rw [look]
  cases f t <;> rfl

theorem look_of_ok {f : FileTree → Except FileError α} {a : α} (h : f t = .ok a) : look f t = .ok a t := by
  rw [look, h]

theorem look_of_error {f : FileTree → Except FileError α} {e : FileError} (h : f t = .error e) :
    look f t = .error (.file e) t := by
  rw [look, h]

theorem look_eq_ok {f : FileTree → Except FileError α} {a : α} (h : look f t = .ok a t') : f t = .ok a := by
  rw [look] at h
  split at h
  · next b hf =>
    cases h
    exact hf
  · cases h

theorem looksOnly_readRecords (c : Codec α) (p : Place) : LooksOnly (readRecords c p) :=
  (looksOnly_look _).bind fun _ => (LooksOnly.mapM (fun _ => looksOnly_look _) _).bind fun _ => looksOnly_pure _

theorem suffix?_of_mem_recordNames {names : List String} (h : recordNames t p = .ok names) {name : String}
    (hname : name ∈ names) : suffix? name = some "json" := by
  rw [recordNames] at h
  split at h
  · cases h
    rw [(List.mergeSort_perm _ _).mem_iff, List.mem_filter] at hname
    exact of_decide_eq_true hname.2
  · cases h
  · cases h

/-- The names of the records in a tidy directory. -/
theorem exists_recordNames (h : t.lookup p = some .directory) :
    ∃ names, recordNames t p = .ok names ∧
      ∀ name, name ∈ names ↔ suffix? name = some "json" ∧ t.lookup (p ++ [name]) ≠ none := by
  refine ⟨_, by rw [recordNames, h], fun name => ?_⟩
  rw [(List.mergeSort_perm _ _).mem_iff, List.mem_filter, mem_children_iff, decide_eq_true_iff, and_comm]

theorem mapM_read (c : Codec α) (names : List String)
    (h : ∀ name ∈ names, ∃ text, t.lookup (p ++ [name]) = some (.file text)) :
    ∃ texts, names.mapM (fun n => look fun t => t.read (p ++ [n])) t = .ok texts t ∧
      texts.filterMap (fun text => (c.ofJson text).toOption) =
        names.filterMap fun n => recordAt? c t (p ++ [n]) := by
  induction names with
  | nil => exact ⟨[], rfl, rfl⟩
  | cons name names ih =>
    obtain ⟨text, htext⟩ := h name List.mem_cons_self
    obtain ⟨texts, hrest, hrecords⟩ := ih fun n hn => h n (List.mem_cons_of_mem _ hn)
    have hread : t.read (p ++ [name]) = .ok text := by
      rw [FileTree.read, htext]
    have hrecord : recordAt? c t (p ++ [name]) = (c.ofJson text).toOption := by
      rw [recordAt?, htext]
    refine ⟨text :: texts, ?_, ?_⟩
    · rw [List.mapM_cons, bind_of_ok (look_of_ok hread), bind_of_ok hrest]
      rfl
    · rw [List.filterMap_cons, List.filterMap_cons, hrecord, hrecords]

/-- **What is listed of a tidy directory** is what can be read off its files. -/
theorem exists_readRecords (h : Tidy t p) :
    ∃ records, readRecords c p t = .ok records t ∧
      ∀ a, a ∈ records ↔
        ∃ name, suffix? name = some "json" ∧ recordAt? c t (p ++ [name]) = some a := by
  obtain ⟨names, hnames, hmem⟩ := exists_recordNames h.directory
  obtain ⟨texts, htexts, hrecords⟩ := mapM_read (p := p) (t := t) c names (by
    intro name hname
    obtain ⟨hsuffix, hthere⟩ := (hmem name).1 hname
    exact (h.texts name hsuffix).resolve_left hthere)
  refine ⟨names.filterMap fun n => recordAt? c t (p ++ [n]), ?_, fun a => ?_⟩
  · rw [← hrecords, readRecords, bind_of_ok (look_of_ok hnames), bind_of_ok htexts]
    rfl
  · rw [List.mem_filterMap]
    constructor
    · rintro ⟨name, hname, ha⟩
      exact ⟨name, ((hmem name).1 hname).1, ha⟩
    · rintro ⟨name, hsuffix, ha⟩
      obtain ⟨text, htext, -⟩ := recordAt?_eq_some_iff.1 ha
      refine ⟨name, (hmem name).2 ⟨hsuffix, ?_⟩, ha⟩
      rw [htext]
      exact nofun

end StoreM

namespace Store

variable {s : Store} {t t' : FileTree}

/-! ## Plugins -/

theorem suffix?_pluginName (name : String) :
    suffix? (Digest.ofText (Text.trim name) ++ ".json") = some "json" :=
  suffix?_json (Digest.ofText_ne_empty _)

/-- A draft differs from the record it was made of in its instants only. -/
theorem draftPlugin_eq_ok {now : Instant} {record draft : PluginRecord}
    (h : s.draftPlugin now record t = .ok draft t') (hnow : now.Representable)
    (hcreated : record.createdAt.Representable) :
    draft.name = record.name ∧ draft.description = record.description ∧ draft.source = record.source ∧
      draft.createdAt.Representable ∧ draft.updatedAt.Representable := by
  obtain ⟨_, t₁, -, hrest⟩ := bind_eq_ok h
  obtain ⟨old, t₂, hread, hpure⟩ := bind_eq_ok hrest
  cases hpure
  refine ⟨rfl, rfl, rfl, ?_, hnow⟩
  rcases StoreM.readRecord?_cases PluginRecord.codec (s.pluginFile record.name) t₁ with
    ⟨e, he⟩ | hnone | ⟨a, hsome, ha⟩
  · rw [he] at hread
    cases hread
  · rw [hnone] at hread
    cases hread
    exact hcreated
  · rw [hsome] at hread
    cases hread
    obtain ⟨text, -, htext⟩ := StoreM.recordAt?_eq_some_iff.1 ha
    exact (PluginRecord.representable_of_ofJson htext).1

/-- A plugin that was kept can be read in the file of its name. -/
theorem recordAt?_keepPlugin {record : PluginRecord} (h : s.keepPlugin record t = .ok () t')
    (hcreated : record.createdAt.Representable) (hupdated : record.updatedAt.Representable) :
    StoreM.recordAt? PluginRecord.codec t' (s.pluginFile record.name) = some record := by
  refine StoreM.recordAt?_eq_some_iff.2 ⟨_, ?_, PluginRecord.ofJson_toJson hcreated hupdated⟩
  rw [StoreM.lookup_of_writeRecord h, if_pos rfl]

theorem deletePlugin_of_missing {name : String} (h : t.read (s.pluginFile name) = .error .missing) :
    s.deletePlugin name t = .error (.notFound .plugin name) t := by
  unfold deletePlugin
  simp only [Bind.bind, EStateM.bind, get_eq, h, throw_eq]

theorem deletePlugin_of_ne_missing {name : String} (h : t.read (s.pluginFile name) ≠ .error .missing) :
    s.deletePlugin name t = StoreM.perform [.remove (s.pluginFile name)] t := by
  unfold deletePlugin
  simp only [Bind.bind, EStateM.bind, get_eq]

/-- A plugin that was deleted, or was not there to be deleted, has no file. -/
theorem deletePlugin_cases (s : Store) (name : String) (t : FileTree) :
    (∃ t', s.deletePlugin name t = .ok () t' ∧ t'.lookup (s.pluginFile name) = none) ∨
      (s.deletePlugin name t = .error (.notFound .plugin name) t ∧
        t.lookup (s.pluginFile name) = none) ∨
      ∃ e, e.isNotFound = false ∧ s.deletePlugin name t = .error e t := by
  have hremove : (∃ t', StoreM.perform [.remove (s.pluginFile name)] t = .ok () t' ∧
        t'.lookup (s.pluginFile name) = none) ∨
      ∃ e, e.isNotFound = false ∧ StoreM.perform [.remove (s.pluginFile name)] t = .error e t := by
    cases hr : (Change.remove (s.pluginFile name)).apply t with
    | ok t' =>
      refine Or.inl ⟨t', StoreM.perform_cons_of_ok hr, ?_⟩
      rw [(lookup_of_remove hr).2.2, if_pos rfl]
    | error e => exact Or.inr ⟨.file e, rfl, StoreM.perform_cons_of_error hr⟩
  by_cases hmissing : t.read (s.pluginFile name) = .error .missing
  · exact Or.inr (Or.inl ⟨deletePlugin_of_missing hmissing, lookup_of_read_missing hmissing⟩)
  · rw [deletePlugin_of_ne_missing hmissing]
    exact hremove.imp_right Or.inr

/-! ## Stores in which all goes well -/

/-- The directories of the store are there with those around it, and none is in place of a file. -/
structure Ready (s : Store) (t : FileTree) : Prop where
  around : ∀ p, p <+: s.root → t.lookup p = some .directory
  jobs : t.lookup s.jobs = some .directory
  tasks : t.lookup s.tasks = some .directory
  lock : t.lookup (s.root ++ [".lock"]) ≠ some .directory
  jobFile : ∀ id, t.lookup (s.jobFile id) ≠ some .directory
  besideJob : ∀ id, t.lookup (StoreM.besideOf (s.jobFile id)) ≠ some .directory
  taskFile : ∀ id, t.lookup (s.taskFile id) ≠ some .directory

theorem Ready.root (h : s.Ready t) : t.lookup s.root = some .directory := h.around s.root List.prefix_rfl

/-- Texts come and go without harm. -/
theorem Ready.textChange (h : s.Ready t) (hchange : TextChange t t') : s.Ready t' := by
  have hnot : ∀ {q}, t.lookup q ≠ some .directory → t'.lookup q ≠ some .directory := by
    intro q hq
    rcases hchange q with heq | ⟨-, hnone | ⟨text, htext⟩⟩
    · rwa [heq]
    · simp [hnone]
    · simp [htext]
  exact ⟨fun p hp => hchange.directory (h.around p hp), hchange.directory h.jobs,
    hchange.directory h.tasks, hnot h.lock, fun id => hnot (h.jobFile id), fun id => hnot (h.besideJob id), fun id => hnot (h.taskFile id)⟩

theorem Ready.exists_lock (h : s.Ready t) : ∃ t', StoreM.perform [s.lock] t = .ok () t' := by
  obtain ⟨t', htouch⟩ := exists_touch (p := s.root ++ [".lock"]) (by rw [List.dropLast_concat]; exact h.root)
    h.lock
  have hlock : s.lock.apply t = .ok t' := htouch
  exact ⟨t', StoreM.perform_cons_of_ok hlock⟩

/-- A job that is not there is told to be missing. -/
theorem getJob_of_missing {id : Uuid} (h : t.read (s.jobFile id) = .error .missing) :
    s.getJob id t = .error (noJob id) t := by
  have hnone : StoreM.readRecord? Job.codec (s.jobFile id) t = .ok none t := by
    simp only [StoreM.readRecord?, h]
  rw [getJob, StoreM.readRecord, bind_of_ok hnone]
  rfl

theorem Ready.getJob_of_missing (h : s.Ready t) {id : Uuid} (hid : t.lookup (s.jobFile id) = none) :
    s.getJob id t = .error (noJob id) t := by
  have hway : ∀ n < (s.jobFile id).length, t.lookup ((s.jobFile id).take n) = some .directory := by
    intro n hn
    have hlen : n ≤ s.jobs.length := by
      rw [Store.jobFile, List.length_append, List.length_singleton] at hn
      exact Nat.le_of_lt_succ hn
    rw [Store.jobFile, List.take_append_of_le_length hlen]
    rcases List.prefix_concat_iff.1 (List.take_prefix n s.jobs) with heq | hroot
    · rw [heq]
      exact h.jobs
    · exact h.around _ hroot
  refine Store.getJob_of_missing ?_
  simp only [FileTree.read, hid, absence_eq_missing hway]

theorem Ready.exists_writeJob (h : s.Ready t) (id : Uuid) (job : Job) :
    ∃ t', StoreM.writeRecord Job.codec (s.jobFile id) job t = .ok () t' := by
  have hbeside := h.besideJob id
  rw [Store.jobFile, StoreM.besideOf_append] at hbeside
  exact StoreM.exists_writeRecord h.jobs (h.jobFile id) hbeside job

/-! ## Jobs -/

theorem suffix?_jobName (id : Uuid) : suffix? (id.toText ++ ".json") = some "json" :=
  suffix?_json id.toText_ne_empty

/-- Ids of 128 bits have files of their own. -/
theorem jobFile_inj {id id' : Uuid} (h : id.value < 2 ^ 128) (h' : id'.value < 2 ^ 128) :
    s.jobFile id = s.jobFile id' ↔ id = id' := by
  refine ⟨fun heq => ?_, fun heq => heq ▸ rfl⟩
  have hname : id.toText ++ ".json" = id'.toText ++ ".json" := (append_singleton_inj.1 heq).2
  have htext : id.toText = id'.toText := by simpa using hname
  have hparse := Uuid.parse_toText h
  rw [htext, Uuid.parse_toText h'] at hparse
  exact (Except.ok.inj hparse).symm

theorem lock_ne_jobs_append (s : Store) (name : String) : s.root ++ [".lock"] ≠ s.jobs ++ [name] := by
  intro h
  have hlen := congrArg List.length h
  simp [jobs] at hlen

theorem lock_ne_jobFile (s : Store) (id : Uuid) : s.root ++ [".lock"] ≠ s.jobFile id :=
  s.lock_ne_jobs_append _

/-- What is written beside a job is not named like a record. -/
theorem besideOf_ne_of_suffix? {s : Store} {name : String} (h : suffix? name = some "json") (id : Uuid) :
    StoreM.besideOf (s.jobFile id) ≠ s.jobs ++ [name] := by
  rw [jobFile, StoreM.besideOf_append]
  intro heq
  have hname : id.toText ++ ".json" ≠ "" := fun hempty =>
    absurd (congrArg String.length hempty) (by rw [String.length_append]; exact Nat.succ_ne_zero _)
  rw [← (append_singleton_inj.1 heq).2, suffix?_tmp hname] at h
  exact absurd h (by decide)

theorem lock_ne_taskFile (s : Store) (id : Uuid) : s.root ++ [".lock"] ≠ s.taskFile id := by
  intro h
  have hlen := congrArg List.length h
  simp [taskFile, tasks] at hlen

/-- Tasks and jobs are kept in two directories. -/
theorem tasks_append_ne_jobs_append (s : Store) (name name' : String) :
    s.tasks ++ [name] ≠ s.jobs ++ [name'] := fun h =>
  absurd (append_singleton_inj.1 (append_singleton_inj.1 h).1).2 (by decide)

theorem taskFile_ne_jobFile (s : Store) (taskId id : Uuid) : s.taskFile taskId ≠ s.jobFile id :=
  s.tasks_append_ne_jobs_append _ _

theorem taskFile_ne_besideOf (s : Store) (taskId id : Uuid) :
    s.taskFile taskId ≠ StoreM.besideOf (s.jobFile id) := by
  rw [jobFile, StoreM.besideOf_append]
  exact s.tasks_append_ne_jobs_append _ _

theorem keeps_lock (s : Store) : Keeps TextChange (StoreM.perform [s.lock]) :=
  StoreM.keeps_perform_singleton _ fun _ _ h => textChange_of_touch h

theorem keeps_saveJob (s : Store) (job : Job) : Keeps TextChange (s.saveJob job) :=
  (s.keeps_lock).bind (fun _ _ _ => .trans) fun _ => StoreM.keeps_writeRecord _ _ _

theorem keeps_updateJob (s : Store) (now : Instant) (id : Uuid) (results : Results) (status : RunStatus) :
    Keeps TextChange (s.updateJob now id results status) :=
  (s.keeps_lock).bind (fun _ _ _ => .trans) fun _ =>
    ((StoreM.looksOnly_readRecord _ _ _).keeps .refl).bind (fun _ _ _ => .trans) fun _ =>
      StoreM.keeps_writeRecord _ _ _

theorem keeps_saveTask (s : Store) (id : Uuid) (task : Task) : Keeps TextChange (s.saveTask id task) :=
  StoreM.keeps_perform_singleton _ fun _ _ h => textChange_of_write h

/-- A lock leaves all other files as they are. -/
theorem lookup_of_lock (h : StoreM.perform [s.lock] t = .ok () t') {q : Place}
    (hq : s.root ++ [".lock"] ≠ q) : t'.lookup q = t.lookup q := by
  obtain ⟨t₁, htouch, h⟩ := StoreM.perform_cons_eq_ok h
  cases h
  exact lookup_of_touch htouch hq

/-- A job that was saved stands in its file, and of all other files only the lock may be another. -/
theorem lookup_of_saveJob {job : Job} (h : s.saveJob job t = .ok () t') {q : Place}
    (hq : s.root ++ [".lock"] ≠ q) :
    t'.lookup q =
      if s.jobFile job.id = q then some (.file (Job.codec.toJson job))
      else if StoreM.besideOf (s.jobFile job.id) = q then none else t.lookup q := by
  obtain ⟨_, t₁, hlock, h⟩ := bind_eq_ok h
  rw [StoreM.lookup_of_writeRecord h, lookup_of_lock hlock hq]

theorem exists_saveJob (job : Job) (h : s.Ready t) : ∃ t', s.saveJob job t = .ok () t' := by
  obtain ⟨t₁, hlock⟩ := h.exists_lock
  obtain ⟨t', hwrite⟩ := (h.textChange (s.keeps_lock.ok hlock)).exists_writeJob job.id job
  exact ⟨t', (bind_of_ok hlock _).trans hwrite⟩

/-- The outcomes of a run are entered into the job that was in the file before, and of all other files only
the lock may be another. -/
theorem files_of_updateJob {now : Instant} {id : Uuid} {results : Results} {status : RunStatus}
    (h : s.updateJob now id results status t = .ok () t') :
    ∃ job, StoreM.recordAt? Job.codec t (s.jobFile id) = some job ∧
      ∀ q, s.root ++ [".lock"] ≠ q → t'.lookup q =
        if s.jobFile id = q then some (.file (Job.codec.toJson (withRun job now results status)))
        else if StoreM.besideOf (s.jobFile id) = q then none else t.lookup q := by
  obtain ⟨_, t₁, hlock, hrest⟩ := bind_eq_ok h
  obtain ⟨job, t₂, hread, hwrite⟩ := bind_eq_ok hrest
  obtain ⟨rfl, hjob⟩ := StoreM.readRecord_eq_ok hread
  refine ⟨job, ?_, fun q hq => ?_⟩
  · rw [StoreM.recordAt?, ← lookup_of_lock hlock (s.lock_ne_jobFile id)]
    exact hjob
  · rw [StoreM.lookup_of_writeRecord hwrite, lookup_of_lock hlock hq]

theorem lookup_of_updateJob {now : Instant} {id : Uuid} {results : Results} {status : RunStatus}
    (h : s.updateJob now id results status t = .ok () t') :
    ∃ job, StoreM.recordAt? Job.codec t (s.jobFile id) = some job ∧
      t'.lookup (s.jobFile id) = some (.file (Job.codec.toJson (withRun job now results status))) := by
  obtain ⟨job, hjob, hfiles⟩ := files_of_updateJob h
  exact ⟨job, hjob, (hfiles _ (s.lock_ne_jobFile id)).trans (if_pos rfl)⟩

/-- Outcomes can be entered into a job that is there. -/
theorem exists_updateJob (now : Instant) {id : Uuid} (results : Results) (status : RunStatus) {job : Job}
    (h : s.Ready t) (hjob : StoreM.recordAt? Job.codec t (s.jobFile id) = some job) :
    ∃ t', s.updateJob now id results status t = .ok () t' := by
  obtain ⟨t₁, hlock⟩ := h.exists_lock
  have hread : StoreM.readRecord Job.codec (s.jobFile id) (noJob id) t₁ = .ok job t₁ := by
    refine StoreM.readRecord_of_recordAt? ?_ _
    rwa [StoreM.recordAt?, lookup_of_lock hlock (s.lock_ne_jobFile id)]
  obtain ⟨t', hwrite⟩ := (h.textChange (s.keeps_lock.ok hlock)).exists_writeJob id
    (withRun job now results status)
  exact ⟨t', (bind_of_ok hlock _).trans ((bind_of_ok hread _).trans hwrite)⟩

/-- A task can be kept, and nothing else changes. -/
theorem exists_saveTask (id : Uuid) (task : Task) (h : s.Ready t) :
    ∃ t', s.saveTask id task t = .ok () t' ∧ ∀ q, t'.lookup q =
      if s.taskFile id = q then some (.file (Task.codec.toYaml task)) else t.lookup q := by
  obtain ⟨t', hwrite⟩ := exists_write (p := s.taskFile id)
    (by rw [taskFile, List.dropLast_concat]; exact h.tasks) (h.taskFile id) (Task.codec.toYaml task)
  have happly : (Change.write (s.taskFile id) (Task.codec.toYaml task)).apply t = .ok t' := hwrite
  exact ⟨t', StoreM.perform_cons_of_ok happly, (lookup_of_write hwrite).2⟩

/-- **What is listed of the jobs of a tidy store** is what can be read off its files. -/
theorem exists_listJobs (h : StoreM.Tidy t s.jobs) :
    ∃ jobs, s.listJobs t = .ok jobs t ∧ ∀ job, job ∈ jobs ↔
      ∃ name, suffix? name = some "json" ∧
        StoreM.recordAt? Job.codec t (s.jobs ++ [name]) = some job := by
  obtain ⟨records, hrecords, hmem⟩ := StoreM.exists_readRecords (c := Job.codec) h
  refine ⟨records.mergeSort fun a b => (b.createdAt.compare a.createdAt).isLE, ?_, fun job => ?_⟩
  · rw [listJobs, bind_of_ok hrecords]
    rfl
  · rw [← hmem]
    exact (List.mergeSort_perm _ _).mem_iff

end Store

end PluginChain
