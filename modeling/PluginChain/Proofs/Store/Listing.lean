import PluginChain.Proofs.Store.Shelf

/-!
# What is listed of a directory, whatever lies in it

A directory may hold anything: records, texts that are none, files that are no text, directories.  Only what
is named like a record is looked at, one entry after the other.  A text that is no record is passed over.  An
entry that is no text is not: it `Blocks` the listing, which then comes to nothing at all.

So there are two cases, and which of them it is does not depend on the order in which the entries come
(`Enumerates.readInTurn_of_clear`, `Enumerates.readInTurn_of_blocked`).  `recordIn?` is the table of what is
listed in the first.
-/

set_option autoImplicit false

namespace PluginChain.StoreM

open Operation FileTree

variable {α : Type} {c : Codec α} {t : FileTree} {p : Place} {name : String} {names : List String}
  {e : FileError}

/-! ## Entries -/

/-- The record that the entry of a name gives. -/
def recordIn? (c : Codec α) (t : FileTree) (p : Place) (name : String) : Option α :=
  if suffix? name = some "json" then recordAt? c t (p ++ [name]) else none

/-- The entry of a name is named like a record and is no text, which is an error where it is read. -/
inductive Blocks (t : FileTree) (p : Place) (name : String) : FileError → Prop
  | directory (hname : suffix? name = some "json") (h : t.lookup (p ++ [name]) = some .directory) :
    Blocks t p name .isDirectory
  | binary (hname : suffix? name = some "json") (h : t.lookup (p ++ [name]) = some .binary) :
    Blocks t p name .notText

theorem Blocks.read (h : Blocks t p name e) : t.read (p ++ [name]) = .error e := by
  cases h with
  | directory _ h => rw [FileTree.read, h]
  | binary _ h => rw [FileTree.read, h]

/-- What is there under the name of a record is a text or blocks. -/
theorem text_or_blocks (hname : suffix? name = some "json") (h : t.lookup (p ++ [name]) ≠ none) :
    (∃ text, t.lookup (p ++ [name]) = some (.file text)) ∨ ∃ e, Blocks t p name e := by
  cases hp : t.lookup (p ++ [name]) with
  | none => exact absurd hp h
  | some entry =>
    cases entry with
    | directory => exact Or.inr ⟨_, .directory hname hp⟩
    | file text => exact Or.inl ⟨text, rfl⟩
    | binary => exact Or.inr ⟨_, .binary hname hp⟩

/-- The names of all entries that are named like records, in some order. -/
structure Enumerates (t : FileTree) (p : Place) (names : List String) : Prop where
  nodup : names.Nodup
  mem_iff : ∀ name, name ∈ names ↔ suffix? name = some "json" ∧ t.lookup (p ++ [name]) ≠ none

/-- The entries of a directory have an order. -/
theorem exists_enumerates (ht : t.Proper) (h : t.lookup p = some .directory) :
    ∃ names, recordNames t p = .ok names ∧ Enumerates t p names := by
  obtain ⟨names, hnames, hmem⟩ := exists_recordNames h
  refine ⟨names, hnames, ?_, hmem⟩
  rw [recordNames, h] at hnames
  cases hnames
  exact (List.mergeSort_perm _ _).nodup_iff.2 ((ht.nodup_children p).filter _)

theorem Blocks.mem (h : Blocks t p name e) (hnames : Enumerates t p names) : name ∈ names := by
  rw [hnames.mem_iff]
  cases h with
  | directory hname h => exact ⟨hname, by rw [h]; exact nofun⟩
  | binary hname h => exact ⟨hname, by rw [h]; exact nofun⟩

/-! ## One entry after the other -/

/-- Reads the records of these names, in this order. -/
def readInTurn (c : Codec α) (p : Place) (names : List String) : StoreM (List α) := do
  let texts ← names.mapM fun n => look fun t => t.read (p ++ [n])
  return texts.filterMap fun text => (c.ofJson text).toOption

/-- To read all records of a directory is to read them in the order of their names. -/
theorem readRecords_of_recordNames (h : recordNames t p = .ok names) :
    readRecords c p t = readInTurn c p names t :=
  bind_of_ok (look_of_ok (f := fun t => recordNames t p) h) (readInTurn c p)

/-- Entries are read up to the first that cannot be read. -/
theorem mapM_read_of_error (h : ∃ name ∈ names, ∃ e, t.read (p ++ [name]) = .error e) :
    ∃ name ∈ names, ∃ e, t.read (p ++ [name]) = .error e ∧
      names.mapM (fun n => look fun t => t.read (p ++ [n])) t = .error (.file e) t := by
  induction names with
  | nil =>
    obtain ⟨_, hmem, -⟩ := h
    cases hmem
  | cons first rest ih =>
    cases hfirst : t.read (p ++ [first]) with
    | error e =>
      refine ⟨first, List.mem_cons_self, e, hfirst, ?_⟩
      rw [List.mapM_cons, bind_of_error (look_of_error (f := fun t => t.read (p ++ [first])) hfirst)]
    | ok text =>
      obtain ⟨name, hmem, e, he⟩ := h
      have hrest : name ∈ rest := (List.mem_cons.1 hmem).resolve_left fun heq => by
        rw [heq, hfirst] at he
        cases he
      obtain ⟨name, hmem, e, he, hall⟩ := ih ⟨name, hrest, e, he⟩
      refine ⟨name, List.mem_cons_of_mem _ hmem, e, he, ?_⟩
      rw [List.mapM_cons, bind_of_ok (look_of_ok (f := fun t => t.read (p ++ [first])) hfirst),
        bind_of_error hall]

/-- **Where nothing blocks**, the records of all entries that hold one are read, in whatever order. -/
theorem Enumerates.readInTurn_of_clear (hnames : Enumerates t p names)
    (hclear : ∀ name e, ¬ Blocks t p name e) :
    ∃ records, readInTurn c p names t = .ok records t ∧ Lists (recordIn? c t p) records := by
  obtain ⟨texts, htexts, hrecords⟩ := mapM_read (p := p) (t := t) c names fun name hname => by
    obtain ⟨hsuffix, hthere⟩ := (hnames.mem_iff name).1 hname
    exact (text_or_blocks hsuffix hthere).resolve_right fun ⟨e, he⟩ => hclear name e he
  refine ⟨_, (bind_of_ok htexts _).trans rfl, names, hnames.nodup, fun name hname => ?_, List.Perm.of_eq ?_⟩
  · obtain ⟨a, ha⟩ := Option.ne_none_iff_exists'.1 hname
    rw [recordIn?] at ha
    split at ha
    · next hsuffix =>
      obtain ⟨text, htext, -⟩ := recordAt?_eq_some_iff.1 ha
      exact (hnames.mem_iff name).2 ⟨hsuffix, by rw [htext]; exact nofun⟩
    · cases ha
  · rw [hrecords]
    exact List.filterMap_congr fun name hname => (if_pos ((hnames.mem_iff name).1 hname).1).symm

/-- **Where something blocks**, nothing is read, in whatever order. -/
theorem Enumerates.readInTurn_of_blocked (hnames : Enumerates t p names) (h : ∃ name e, Blocks t p name e) :
    ∃ name e, Blocks t p name e ∧ readInTurn c p names t = .error (.file e) t := by
  obtain ⟨name, e, hblocks⟩ := h
  obtain ⟨name, hmem, e, he, hall⟩ :=
    mapM_read_of_error ⟨name, hblocks.mem hnames, e, hblocks.read⟩
  obtain ⟨hsuffix, hthere⟩ := (hnames.mem_iff name).1 hmem
  obtain ⟨e', hblocks⟩ := (text_or_blocks hsuffix hthere).resolve_left fun ⟨text, htext⟩ => by
    rw [FileTree.read, htext] at he
    cases he
  cases hblocks.read.symm.trans he
  exact ⟨name, _, hblocks, bind_of_error hall _⟩

/-- **What is listed of a directory.**  Its records are told, each once, unless something blocks. -/
theorem readRecords_of_directory (c : Codec α) (ht : t.Proper) (h : t.lookup p = some .directory) :
    ((∀ name e, ¬ Blocks t p name e) →
      ∃ records, readRecords c p t = .ok records t ∧ Lists (recordIn? c t p) records) ∧
    ((∃ name e, Blocks t p name e) →
      ∃ name e, Blocks t p name e ∧ readRecords c p t = .error (.file e) t) := by
  obtain ⟨names, hread, hnames⟩ := exists_enumerates ht h
  rw [readRecords_of_recordNames hread]
  exact ⟨hnames.readInTurn_of_clear, hnames.readInTurn_of_blocked⟩

end PluginChain.StoreM
