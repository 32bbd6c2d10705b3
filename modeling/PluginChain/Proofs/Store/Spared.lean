import PluginChain.Proofs.Store.Crash

/-!
# Records that stay

`RecordsKept places t t'` says that from one tree to the other every file that is named like a record stays,
but for those at some places.  Directories may be made meanwhile, so that a store can be opened.

An operation of the store that fails keeps all records: what it wrote before is beside them.  One that
succeeds keeps all but one.
-/

set_option autoImplicit false

namespace PluginChain

open Operation FileTree

/-- A file that is named like a record is in both trees or in neither, unless it is at one of these places. -/
def RecordsKept (places : List Place) (t t' : FileTree) : Prop :=
  ∀ directory name, suffix? name = some "json" → directory ++ [name] ∉ places → ∀ e, e ≠ .directory →
    (t'.lookup (directory ++ [name]) = some e ↔ t.lookup (directory ++ [name]) = some e)

namespace RecordsKept

variable {places places' : List Place} {t t' t'' : FileTree}

theorem refl (places : List Place) (t : FileTree) : RecordsKept places t t := fun _ _ _ _ _ _ => Iff.rfl

theorem trans (h : RecordsKept places t t') (h' : RecordsKept places t' t'') : RecordsKept places t t'' :=
  fun directory name hname hp e he =>
    (h' directory name hname hp e he).trans (h directory name hname hp e he)

theorem mono (h : RecordsKept places t t') (hsub : places ⊆ places') : RecordsKept places' t t' :=
  fun directory name hname hp => h directory name hname fun hmem => hp (hsub hmem)

/-- What can be read as a record is the same. -/
theorem recordAt?_eq {α : Type} {c : Codec α} (h : RecordsKept places t t') {directory : Place} {name : String}
    (hname : suffix? name = some "json") (hp : directory ++ [name] ∉ places) :
    StoreM.recordAt? c t' (directory ++ [name]) = StoreM.recordAt? c t (directory ++ [name]) := by
  refine Option.ext fun a => ?_
  rw [StoreM.recordAt?_eq_some_iff, StoreM.recordAt?_eq_some_iff]
  exact exists_congr fun text => and_congr_left' (h directory name hname hp _ nofun)

end RecordsKept

variable {α : Type} {t t' : FileTree}

theorem SameRecords.recordsKept (h : SameRecords t t') : RecordsKept [] t t' := by
  intro directory name hname _ e _
  obtain ⟨stem, -, rfl⟩ := exists_of_suffix?_json hname
  rw [h.record]

theorem FileTree.Grown.recordsKept (h : Grown t t') : RecordsKept [] t t' := fun _ _ _ _ => h.files _

/-! ## Changes -/

theorem cutOff_of_error {changes : List Change} {e : StoreError}
    (h : StoreM.perform changes t = .error e t') : CutOff changes t t' := by
  induction changes generalizing t with
  | nil => cases h
  | cons c rest ih =>
    cases happly : c.apply t with
    | ok t₁ =>
      rw [StoreM.perform_cons_of_ok happly] at h
      exact .after happly (ih h)
    | error why =>
      rw [StoreM.perform_cons_of_error happly] at h
      cases h
      exact .before _ _

/-- **Changes of which one fails** keep all records, if only the last one is at a record. -/
theorem WholeLast.keepsFailing {changes : List Change} (h : WholeLast changes) :
    KeepsFailing (RecordsKept []) (StoreM.perform changes) := by
  intro t e t' herror
  refine ((cutOff_of_error herror).sameRecords_or h).elim SameRecords.recordsKept fun hok => ?_
  rw [herror] at hok
  cases hok

theorem Change.IsBeside.keeps {c : Change} (h : c.IsBeside) : Keeps (RecordsKept []) (StoreM.perform [c]) :=
  StoreM.keeps_perform (.refl []) (fun _ _ _ => .trans) fun _ hc _ _ happly => by
    rw [List.mem_singleton.1 hc] at happly
    exact (h.sameRecords happly).recordsKept

namespace StoreM

variable {c : Codec α} {directory : Place} {stem : String}

/-- A record that was written is the only one that is another. -/
theorem recordsKept_of_writeRecord {a : α} (h : writeRecord c (directory ++ [stem ++ ".json"]) a t = .ok () t') :
    RecordsKept [directory ++ [stem ++ ".json"]] t t' := by
  intro directory' name hname hp e _
  obtain ⟨stem', -, rfl⟩ := exists_of_suffix?_json hname
  rw [lookup_json_of_writeRecord h, if_neg]
  rintro ⟨rfl, rfl⟩
  exact hp (List.mem_singleton_self _)

theorem keepsFailing_writeRecord (c : Codec α) (directory : Place) (stem : String) (a : α) :
    KeepsFailing (RecordsKept []) (writeRecord c (directory ++ [stem ++ ".json"]) a) :=
  (Store.wholeLast_recordChanges directory stem _).keepsFailing

end StoreM

/-! ## Operations of the store -/

namespace Store

theorem spares_lock (s : Store) : Keeps (RecordsKept []) (StoreM.perform [s.lock]) :=
  Change.IsBeside.keeps s.noRecord_lock

theorem spares_saveTask (s : Store) (id : Uuid) (task : Task) : Keeps (RecordsKept []) (s.saveTask id task) :=
  Change.IsBeside.keeps (s.noRecord_taskFile id)

/-- To open a store keeps all records that there are, whether or not it can be opened. -/
theorem spares_openAt (current : Place) (home : String) : Keeps (RecordsKept []) (openAt current home) := by
  refine (Keeps.forIn (.refl []) (fun _ _ _ => .trans) (fun name _ t => ?_) _ _).bind
    (fun _ _ _ => .trans) fun _ t => ?_
  · rw [bind_of_ok (get_eq t)]
    cases hmade : t.makeDirectories current (join home name) with
    | ok t' => exact (grown_of_makeDirectories hmade).recordsKept
    | error e => exact .refl [] t
  · rw [bind_of_ok (get_eq t)]
    cases t.locate current (join home ".") <;> exact .refl [] t

/-- A job that cannot be saved changes no record. -/
theorem keepsFailing_saveJob (s : Store) (job : Job) : KeepsFailing (RecordsKept []) (s.saveJob job) :=
  .bind (fun _ _ _ => .trans) s.spares_lock fun _ => StoreM.keepsFailing_writeRecord _ _ _ _

theorem keepsFailing_updateJob (s : Store) (now : Instant) (id : Uuid) (results : Results) (status : RunStatus) :
    KeepsFailing (RecordsKept []) (s.updateJob now id results status) :=
  .bind (fun _ _ _ => .trans) s.spares_lock fun _ =>
    .bind (fun _ _ _ => .trans) ((StoreM.looksOnly_readRecord _ _ _).keeps (.refl [])) fun _ =>
      StoreM.keepsFailing_writeRecord _ _ _ _

theorem spares_draftPlugin (s : Store) (now : Instant) (record : PluginRecord) :
    Keeps (RecordsKept []) (s.draftPlugin now record) :=
  s.spares_lock.bind (fun _ _ _ => .trans) fun _ =>
    ((StoreM.looksOnly_readRecord? _ _).bind fun _ => looksOnly_pure _).keeps (.refl [])

theorem keepsFailing_savePlugin (s : Store) (now : Instant) (record : PluginRecord) :
    KeepsFailing (RecordsKept []) (s.savePlugin now record) :=
  .bind (fun _ _ _ => .trans) (s.spares_draftPlugin now record) fun _ => StoreM.keepsFailing_writeRecord _ _ _ _

/-- A job stands in the file of an id, and no other record is another. -/
structure JobWritten (s : Store) (id : Uuid) (job : Job) (t t' : FileTree) : Prop where
  holds : t'.lookup (s.jobFile id) = some (.file (Job.codec.toJson job))
  others : RecordsKept [s.jobFile id] t t'

theorem JobWritten.behind {s : Store} {id : Uuid} {job : Job} {t'' : FileTree} (h : RecordsKept [] t t')
    (h' : s.JobWritten id job t' t'') : s.JobWritten id job t t'' :=
  ⟨h'.holds, (h.mono (List.nil_subset _)).trans h'.others⟩

/-- A job that was saved is the only record that is another. -/
theorem jobWritten_of_saveJob {s : Store} {job : Job} {id : Uuid} (hid : job.id = id)
    (h : s.saveJob job t = .ok () t') : s.JobWritten id job t t' := by
  subst hid
  obtain ⟨_, t₁, hlock, hwrite⟩ := bind_eq_ok h
  have hkept : RecordsKept [s.jobFile job.id] t t₁ := (s.spares_lock.ok hlock).mono (List.nil_subset _)
  refine ⟨?_, hkept.trans (StoreM.recordsKept_of_writeRecord hwrite)⟩
  rw [StoreM.lookup_of_writeRecord hwrite, if_pos rfl]

theorem jobWritten_of_updateJob {s : Store} {now : Instant} {id : Uuid} {results : Results} {status : RunStatus}
    (h : s.updateJob now id results status t = .ok () t') :
    ∃ job, StoreM.recordAt? Job.codec t (s.jobFile id) = some job ∧
      s.JobWritten id (withRun job now results status) t t' := by
  obtain ⟨job, hjob, hholds⟩ := lookup_of_updateJob h
  obtain ⟨_, t₁, hlock, hrest⟩ := bind_eq_ok h
  obtain ⟨_, t₂, hread, hwrite⟩ := bind_eq_ok hrest
  obtain ⟨rfl, -⟩ := StoreM.readRecord_eq_ok hread
  have hkept : RecordsKept [s.jobFile id] t t₂ := (s.spares_lock.ok hlock).mono (List.nil_subset _)
  exact ⟨job, hjob, hholds, hkept.trans (StoreM.recordsKept_of_writeRecord hwrite)⟩

end Store

end PluginChain
