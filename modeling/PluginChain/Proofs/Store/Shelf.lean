import Mathlib.Data.Set.List
import Mathlib.Logic.Function.Basic
import PluginChain.Proofs.Store.Request

/-!
# A directory as a table of records

A directory is a `Shelf` for a table if the file of each stem holds the document of what the table has
there, and there is no such file where the table has nothing.  Then what is read, listed and written in
the directory is what the table says (`Shelf.readRecord`, `Shelf.exists_readRecords`, `Shelf.put`).

What else lies in the directory is of no account: the files beside those of the records may be anything
but directories.
-/

set_option autoImplicit false

namespace PluginChain

open Operation FileTree

variable {α κ : Type}

/-- A value as it is read from its own document. -/
def Codec.reread (c : Codec α) (a : α) : Except Json.Fault α := c.ofJson (c.toJson a)

/-- The list has every value of the table once for each key that has it, and nothing else. -/
def Lists (table : κ → Option α) (values : List α) : Prop :=
  ∃ keys : List κ, keys.Nodup ∧ (∀ k, table k ≠ none → k ∈ keys) ∧ values.Perm (keys.filterMap table)

namespace Lists

variable {table : κ → Option α} {values values' : List α}

theorem perm (h : Lists table values) (hperm : values'.Perm values) : Lists table values' := by
  obtain ⟨keys, hnodup, hall, hvalues⟩ := h
  exact ⟨keys, hnodup, hall, hperm.trans hvalues⟩

theorem mem_iff (h : Lists table values) (a : α) : a ∈ values ↔ ∃ k, table k = some a := by
  obtain ⟨keys, -, hall, hvalues⟩ := h
  rw [hvalues.mem_iff, List.mem_filterMap]
  constructor
  · rintro ⟨k, -, hk⟩
    exact ⟨k, hk⟩
  · rintro ⟨k, hk⟩
    exact ⟨k, hall k (by rw [hk]; exact nofun), hk⟩

/-- The keys may be told by others, each of which stands for one of them at most. -/
theorem of_bind {ι : Type} {keyOf : ι → Option κ}
    (hinj : ∀ i j k, keyOf i = some k → keyOf j = some k → i = j)
    (hall : ∀ k, table k ≠ none → ∃ i, keyOf i = some k)
    (h : Lists (fun i => (keyOf i).bind table) values) : Lists table values := by
  obtain ⟨is, hnodup, his, hvalues⟩ := h
  refine ⟨is.filterMap keyOf, hnodup.filterMap fun i j k hi hj => hinj i j k hi hj, fun k hk => ?_, ?_⟩
  · obtain ⟨i, hi⟩ := hall k hk
    refine List.mem_filterMap.2 ⟨i, his i ?_, hi⟩
    change (keyOf i).bind table ≠ none
    rw [hi]
    exact hk
  · rwa [List.filterMap_filterMap]

theorem eq_nil (h : Lists (fun _ : κ => none) values) : values = [] :=
  List.eq_nil_iff_forall_not_mem.2 fun a ha => by
    obtain ⟨_, hnone⟩ := (h.mem_iff a).1 ha
    cases hnone

/-- The values of a table with one entry. -/
theorem eq_singleton [DecidableEq κ] {k : κ} {a : α}
    (h : Lists (Function.update (fun _ => none) k (some a)) values) : values = [a] := by
  obtain ⟨keys, hnodup, hall, hvalues⟩ := h
  have hk : k ∈ keys := hall k (by rw [Function.update_self]; nofun)
  have hrest : (keys.erase k).filterMap (Function.update (fun _ => none) k (some a)) = [] :=
    List.filterMap_eq_nil_iff.2 fun k' hk' => Function.update_of_ne ((hnodup.mem_erase_iff.1 hk').1) ..
  have hperm := hvalues.trans ((List.perm_cons_erase hk).filterMap _)
  rw [List.filterMap_cons, Function.update_self, hrest] at hperm
  exact List.perm_singleton.1 hperm

end Lists

namespace StoreM

variable {c : Codec α} {t t' : FileTree} {directory directory' : Place} {stem stem' : String}

/-- What is written beside a record is not named like one. -/
theorem besideOf_ne_json (directory directory' : Place) (stem stem' : String) :
    besideOf (directory ++ [stem ++ ".json"]) ≠ directory' ++ [stem' ++ ".json"] := by
  rw [besideOf_append]
  intro h
  have hlast := congrArg (fun name : String => name.toList.getLast?) (append_singleton_inj.1 h).2
  simp at hlast

/-- Of all records only the one that was written is another. -/
theorem lookup_json_of_writeRecord {a : α} (h : writeRecord c (directory ++ [stem ++ ".json"]) a t = .ok () t') :
    t'.lookup (directory' ++ [stem' ++ ".json"]) =
      if directory = directory' ∧ stem = stem' then some (.file (c.toJson a))
      else t.lookup (directory' ++ [stem' ++ ".json"]) := by
  rw [lookup_of_writeRecord h, if_neg (besideOf_ne_json directory directory' stem stem')]
  simp only [append_singleton_inj, String.append_left_inj]

end StoreM

/-- Under each stem the directory has the document of what the table has there. -/
structure Shelf (c : Codec α) (t : FileTree) (directory : Place) (table : String → Option α) : Prop where
  around : ∀ p, p <+: directory → t.lookup p = some .directory
  entry : ∀ stem, stem ≠ "" →
    t.lookup (directory ++ [stem ++ ".json"]) = (table stem).map fun a => .file (c.toJson a)
  beside : ∀ stem, t.lookup (directory ++ [stem ++ ".json.tmp"]) ≠ some .directory
  named : table "" = none

namespace Shelf

variable {c : Codec α} {t t' : FileTree} {directory : Place} {table : String → Option α} {stem : String}

theorem lookup_directory (h : Shelf c t directory table) : t.lookup directory = some .directory :=
  h.around directory List.prefix_rfl

theorem entry_ne_directory (h : Shelf c t directory table) (hstem : stem ≠ "") :
    t.lookup (directory ++ [stem ++ ".json"]) ≠ some .directory := by
  rw [h.entry stem hstem]
  cases table stem <;> exact nofun

/-! ## Reading -/

theorem recordAt? (h : Shelf c t directory table) (hstem : stem ≠ "") :
    StoreM.recordAt? c t (directory ++ [stem ++ ".json"]) =
      (table stem).bind fun a => (c.reread a).toOption := by
  rw [StoreM.recordAt?, h.entry stem hstem]
  cases table stem <;> rfl

/-- What is not there is missing. -/
theorem read_of_none (h : Shelf c t directory table) (hstem : stem ≠ "") (hnone : table stem = none) :
    t.read (directory ++ [stem ++ ".json"]) = .error .missing := by
  have hway : ∀ n < (directory ++ [stem ++ ".json"]).length,
      t.lookup ((directory ++ [stem ++ ".json"]).take n) = some .directory := by
    intro n hn
    have hle : n ≤ directory.length := by
      rw [List.length_append, List.length_singleton] at hn
      exact Nat.le_of_lt_succ hn
    rw [List.take_append_of_le_length hle]
    exact h.around _ (List.take_prefix n directory)
  rw [FileTree.read, h.entry stem hstem, hnone]
  exact congrArg Except.error (absence_eq_missing hway)

theorem read_of_some (h : Shelf c t directory table) (hstem : stem ≠ "") {a : α} (ha : table stem = some a) :
    t.read (directory ++ [stem ++ ".json"]) = .ok (c.toJson a) := by
  rw [FileTree.read, h.entry stem hstem, ha]
  rfl

theorem readRecord?_of_none (h : Shelf c t directory table) (hstem : stem ≠ "") (hnone : table stem = none) :
    StoreM.readRecord? c (directory ++ [stem ++ ".json"]) t = .ok none t := by
  simp only [StoreM.readRecord?, h.read_of_none hstem hnone]

theorem readRecord?_of_some (h : Shelf c t directory table) (hstem : stem ≠ "") {a b : α}
    (ha : table stem = some a) (hb : c.reread a = .ok b) :
    StoreM.readRecord? c (directory ++ [stem ++ ".json"]) t = .ok (some b) t := by
  have hb : c.ofJson (c.toJson a) = .ok b := hb
  simp only [StoreM.readRecord?, h.read_of_some hstem ha, StoreM.ofText, hb]
  rfl

/-- What the table has under a stem is read there, if it can be read at all. -/
theorem readRecord (h : Shelf c t directory table) (hstem : stem ≠ "") (missing : StoreError) :
    StoreM.readRecord c (directory ++ [stem ++ ".json"]) missing t =
      match table stem with
      | none => .error missing t
      | some a =>
        match c.reread a with
        | .ok b => .ok b t
        | .error why => .error (.unreadable why) t := by
  cases ha : table stem with
  | none =>
    rw [StoreM.readRecord, bind_of_ok (h.readRecord?_of_none hstem ha)]
    rfl
  | some a =>
    cases hb : c.reread a with
    | ok b =>
      rw [StoreM.readRecord, bind_of_ok (h.readRecord?_of_some hstem ha hb)]
      simp only [hb]
      rfl
    | error why =>
      have htext := h.entry stem hstem
      rw [ha] at htext
      simp only [hb]
      exact StoreM.readRecord_of_error htext hb missing

/-! ## Listing -/

/-- The stems of the records there are. -/
theorem exists_stems (h : Shelf c t directory table) (ht : t.Proper) :
    ∃ stems : List String, StoreM.recordNames t directory = .ok (stems.map (· ++ ".json")) ∧ stems.Nodup ∧
      ∀ stem, stem ∈ stems ↔ table stem ≠ none := by
  obtain ⟨names, hnames, hmem⟩ := StoreM.exists_recordNames h.lookup_directory
  have hnodup : names.Nodup := by
    rw [StoreM.recordNames, h.lookup_directory] at hnames
    cases hnames
    exact (List.mergeSort_perm _ _).nodup_iff.2 ((ht.nodup_children directory).filter _)
  obtain ⟨stems, rfl⟩ : names ∈ Set.range (List.map (· ++ ".json")) := by
    rw [Set.range_list_map]
    intro name hname
    obtain ⟨stem, -, rfl⟩ := exists_of_suffix?_json ((hmem name).1 hname).1
    exact ⟨stem, rfl⟩
  refine ⟨stems, hnames, hnodup.of_map _, fun stem => ?_⟩
  have hstem : stem ∈ stems ↔ stem ++ ".json" ∈ stems.map (· ++ ".json") := by
    rw [List.mem_map_of_injective fun a b hab => by simpa using hab]
  rw [hstem, hmem]
  by_cases hempty : stem = ""
  · subst hempty
    exact ⟨fun h => absurd h.1 (by decide), fun hsome => absurd h.named hsome⟩
  · rw [h.entry stem hempty, Ne, Option.map_eq_none_iff]
    exact ⟨And.right, fun hsome => ⟨suffix?_json hempty, hsome⟩⟩

/-- **What is listed of the directory** are the values of the table, as they can be read. -/
theorem exists_readRecords (h : Shelf c t directory table) (ht : t.Proper) :
    ∃ records, StoreM.readRecords c directory t = .ok records t ∧
      Lists (fun stem => (table stem).bind fun a => (c.reread a).toOption) records := by
  obtain ⟨stems, hnames, hnodup, hmem⟩ := h.exists_stems ht
  have hne : ∀ stem ∈ stems, stem ≠ "" := by
    rintro stem hstem rfl
    exact (hmem "").1 hstem h.named
  obtain ⟨texts, htexts, hrecords⟩ := StoreM.mapM_read (p := directory) (t := t) c
    (stems.map (· ++ ".json")) (by
      intro name hname
      obtain ⟨stem, hstem, rfl⟩ := List.mem_map.1 hname
      obtain ⟨a, ha⟩ := Option.ne_none_iff_exists'.1 ((hmem stem).1 hstem)
      exact ⟨c.toJson a, by rw [h.entry stem (hne stem hstem), ha]; rfl⟩)
  refine ⟨texts.filterMap fun text => (c.ofJson text).toOption, ?_, stems, hnodup,
    fun stem hstem => (hmem stem).2 fun hnone => ?_, List.Perm.of_eq ?_⟩
  · rw [StoreM.readRecords, bind_of_ok (StoreM.look_of_ok hnames), bind_of_ok htexts]
    rfl
  · simp only [hnone] at hstem
    exact hstem rfl
  · rw [hrecords, List.filterMap_map]
    exact List.filterMap_congr fun stem hstem => h.recordAt? (hne stem hstem)

/-! ## Writing -/

/-- The table with another value under a stem. -/
theorem put (h : Shelf c t directory table) (hdirectories : SameDirectories t t') (hstem : stem ≠ "")
    (value : Option α) (hentry : ∀ k, k ≠ "" → t'.lookup (directory ++ [k ++ ".json"]) =
      if k = stem then value.map (fun a => .file (c.toJson a)) else t.lookup (directory ++ [k ++ ".json"])) :
    Shelf c t' directory (Function.update table stem value) := by
  refine ⟨fun p hp => hdirectories.stay p (h.around p hp), fun k hk => ?_,
    fun k hk => h.beside k ((hdirectories _).1 hk), ?_⟩
  · rw [hentry k hk, Function.update_apply]
    split
    · rfl
    · exact h.entry k hk
  · rw [Function.update_of_ne hstem.symm]
    exact h.named

/-- Other files in the directory are of no account. -/
theorem congr (h : Shelf c t directory table) (hdirectories : SameDirectories t t')
    (hentry : ∀ k, k ≠ "" → t'.lookup (directory ++ [k ++ ".json"]) = t.lookup (directory ++ [k ++ ".json"])) :
    Shelf c t' directory table :=
  ⟨fun p hp => hdirectories.stay p (h.around p hp), fun k hk => (hentry k hk).trans (h.entry k hk),
    fun k hk => h.beside k ((hdirectories _).1 hk), h.named⟩

theorem exists_writeRecord (h : Shelf c t directory table) (hstem : stem ≠ "") (a : α) :
    ∃ t', StoreM.writeRecord c (directory ++ [stem ++ ".json"]) a t = .ok () t' := by
  refine StoreM.exists_writeRecord h.lookup_directory (h.entry_ne_directory hstem) ?_ a
  rw [String.append_assoc]
  exact h.beside stem

end Shelf

end PluginChain
