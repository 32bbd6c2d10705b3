import PluginChain.Proofs.Service.Restart
import PluginChain.Proofs.Service.Spared
import PluginChain.Proofs.Store.Listing

/-!
# What a service lists and loads of damaged directories

A service finds its plugins and its jobs by going through two directories, into which anything may have been
put from outside.  What was damaged to a text that is no record is passed over, and all others are listed and
loaded as if it were not there.  A single entry that is no text at all takes everything with it: nothing is
listed then, and a service cannot load its plugins (`Service.listed_unless_blocked`).

Which plugins are loaded is told by `Service.Loaded`, for records that may have any names, also the same
ones.
-/

set_option autoImplicit false

namespace PluginChain.Service

open Operation StoreM

variable {s s' : Service} {now : Instant} {records : List PluginRecord} {e : StoreError}

/-- The service has taken up the records that can be loaded, one after the other, and reports on all. -/
structure Loaded (s : Service) (records : List PluginRecord) (report : LoadReport) (s' : Service) : Prop where
  files : SameFiles s s'
  loaded : report.loaded = (records.filter fun r => r.loads s.limits).length
  skipped : report.skipped = (records.filter fun r => !r.loads s.limits).map (·.name)
  live : ∀ name, s'.live name =
    ((loadedFrom s.limits name records.reverse).map PluginRecord.view).or (s.live name)

/-- What is listed is told and loaded. -/
theorem exists_load (now : Instant) (h : s.store.listPlugins s.files = .ok records s.files) :
    listPlugins s = .ok (records.map PluginRecord.info) s ∧
      ∃ report s', load now s = .ok report s' ∧ Loaded s records report s' := by
  have hlist := onStore_of_ok (f := Store.listPlugins) h .store
  obtain ⟨report, s', hall, -, hlive, hloaded, hskipped⟩ := exists_installAll now records s
  refine ⟨(bind_of_ok hlist _).trans rfl, report, s', (bind_of_ok hlist _).trans hall, ?_, hloaded, hskipped,
    hlive⟩
  exact (keeps_installAll now records).ok hall

/-- Where nothing can be listed nothing is loaded. -/
theorem load_of_error (now : Instant) (h : s.store.listPlugins s.files = .error e s.files) :
    listPlugins s = .error (.store e) s ∧ load now s = .error (.store e) s := by
  have hlist := onStore_of_error (f := Store.listPlugins) h .store
  exact ⟨bind_of_error hlist _, bind_of_error hlist _⟩

theorem listJobs_of_readRecords {jobs : List Job}
    (h : readRecords Job.codec s.store.jobs s.files = .ok jobs s.files) :
    ∃ sorted, listJobs s = .ok sorted s ∧ sorted.Perm jobs := by
  refine ⟨jobs.mergeSort fun a b => (b.createdAt.compare a.createdAt).isLE, ?_, List.mergeSort_perm _ _⟩
  exact onStore_of_ok (f := Store.listJobs) (bind_of_ok h _) .store

theorem listJobs_of_error (h : readRecords Job.codec s.store.jobs s.files = .error e s.files) :
    listJobs s = .error (.store e) s :=
  onStore_of_error (f := Store.listJobs) (bind_of_error h _) .store

/-- **What is listed and loaded of directories in which anything lies.**  If each entry that is named like a
record is a text, then the plugins and the jobs that are listed are just the records in those texts that hold
one, and the plugins that can be loaded are loaded.  If one entry is no text, nothing is listed of its
directory, and no plugin is loaded if it is that of the plugins.  In neither case does it matter in which
order the entries come. -/
theorem listed_unless_blocked (s : Service) (now : Instant) (hproper : s.files.Proper)
    (hplugins : s.files.lookup s.store.plugins = some .directory)
    (hjobs : s.files.lookup s.store.jobs = some .directory) :
    ((∀ name e, ¬ Blocks s.files s.store.plugins name e) →
      ∃ records, Lists (recordIn? PluginRecord.codec s.files s.store.plugins) records ∧
        listPlugins s = .ok (records.map PluginRecord.info) s ∧
        ∃ report s', load now s = .ok report s' ∧ Loaded s records report s') ∧
    ((∃ name e, Blocks s.files s.store.plugins name e) →
      ∃ name e, Blocks s.files s.store.plugins name e ∧
        listPlugins s = .error (.store (.file e)) s ∧ load now s = .error (.store (.file e)) s) ∧
    ((∀ name e, ¬ Blocks s.files s.store.jobs name e) →
      ∃ jobs, Lists (recordIn? Job.codec s.files s.store.jobs) jobs ∧ listJobs s = .ok jobs s) ∧
    ((∃ name e, Blocks s.files s.store.jobs name e) →
      ∃ name e, Blocks s.files s.store.jobs name e ∧ listJobs s = .error (.store (.file e)) s) ∧
    ∀ (α : Type) (c : Codec α) (directory : Place) (names : List String), Enumerates s.files directory names →
      ((∀ name e, ¬ Blocks s.files directory name e) →
        ∃ records, readInTurn c directory names s.files = .ok records s.files ∧
          Lists (recordIn? c s.files directory) records) ∧
      ((∃ name e, Blocks s.files directory name e) →
        ∃ name e, Blocks s.files directory name e ∧
          readInTurn c directory names s.files = .error (.file e) s.files) := by
  obtain ⟨hclear, hblocked⟩ := readRecords_of_directory PluginRecord.codec hproper hplugins
  obtain ⟨hclearJobs, hblockedJobs⟩ := readRecords_of_directory Job.codec hproper hjobs
  refine ⟨fun h => ?_, fun h => ?_, fun h => ?_, fun h => ?_,
    fun α c directory names hnames => ⟨hnames.readInTurn_of_clear, hnames.readInTurn_of_blocked⟩⟩
  · obtain ⟨records, hread, hlists⟩ := hclear h
    exact ⟨records, hlists, exists_load now hread⟩
  · obtain ⟨name, e, hblocks, hread⟩ := hblocked h
    exact ⟨name, e, hblocks, load_of_error now hread⟩
  · obtain ⟨jobs, hread, hlists⟩ := hclearJobs h
    obtain ⟨sorted, hlisted, hperm⟩ := listJobs_of_readRecords hread
    exact ⟨sorted, hlists.perm hperm, hlisted⟩
  · obtain ⟨name, e, hblocks, hread⟩ := hblockedJobs h
    exact ⟨name, e, hblocks, listJobs_of_error hread⟩

/-- A plugin is listed and loaded beside a text that is no record, but not beside a directory with the name of
a record. -/
theorem listed_unless_blocked_beside :
    let record : PluginRecord := .fresh ⟨0, 0⟩ "p" "" "1"
    let beside (entry : FileEntry) : Service := ⟨default, ⟨[]⟩, ⟨[(["plugins"], .directory), (["jobs"], .directory),
      (["plugins", "a.json"], .file (PluginRecord.codec.toJson record)), (["plugins", "x.json"], entry)]⟩⟩
    (∀ entry, recordIn? PluginRecord.codec (beside entry).files ["plugins"] "a.json" = some record) ∧
      (listPlugins (beside (.file "")) = .ok [record.info] (beside (.file "")) ∧
        ∃ report s', load ⟨0, 0⟩ (beside (.file "")) = .ok report s' ∧ s'.live "p" = some record.view) ∧
      listPlugins (beside .directory) = .error (.store (.file .isDirectory)) (beside .directory) ∧
      load ⟨0, 0⟩ (beside .directory) = .error (.store (.file .isDirectory)) (beside .directory) := by
  intro record beside
  have hlookup : ∀ entry name, (beside entry).files.lookup (["plugins"] ++ [name]) =
      if "a.json" = name then some (.file (PluginRecord.codec.toJson record))
      else if "x.json" = name then some entry else none := by
    intro entry name
    by_cases ha : "a.json" = name
    · subst ha
      rfl
    · by_cases hx : "x.json" = name
      · subst hx
        rfl
      · simp [beside, FileTree.lookup, ha, hx]
  have hfound : ∀ {entry name found}, (beside entry).files.lookup (["plugins"] ++ [name]) = some found →
      found = .file (PluginRecord.codec.toJson record) ∨ found = entry := by
    intro entry name found h
    rw [hlookup] at h
    split at h
    · exact Or.inl (Option.some.inj h).symm
    · split at h
      · exact Or.inr (Option.some.inj h).symm
      · cases h
  have hrecord : ∀ entry, recordIn? PluginRecord.codec (beside entry).files ["plugins"] "a.json" = some record := by
    intro entry
    rw [recordIn?, if_pos (by decide)]
    exact recordAt?_eq_some_iff.2 ⟨_, (hlookup entry _).trans (if_pos rfl),
      PluginRecord.ofJson_toJson Instant.representable_epoch Instant.representable_epoch⟩
  have hproper : ∀ entry, (beside entry).files.Proper := by
    intro entry
    change List.Nodup [["plugins"], ["jobs"], ["plugins", "a.json"], ["plugins", "x.json"]]
    decide
  refine ⟨hrecord, ?_, ?_⟩
  · have hclear : ∀ name e, ¬ Blocks (beside (.file "")).files ["plugins"] name e := by
      rintro name e (⟨-, h⟩ | ⟨-, h⟩)
      · rcases hfound h with h | h <;> cases h
      · rcases hfound h with h | h <;> cases h
    obtain ⟨records, hlists, hlisted, report, s', hload, hloaded⟩ :=
      (listed_unless_blocked (beside (.file "")) ⟨0, 0⟩ (hproper _) rfl rfl).1 hclear
    have htable : recordIn? PluginRecord.codec (beside (.file "")).files ["plugins"] =
        Function.update (fun _ => none) "a.json" (some record) := by
      funext name
      rw [Function.update_apply]
      split
      · next h => exact h ▸ hrecord _
      · next h =>
        rw [recordIn?, recordAt?, hlookup, if_neg (Ne.symm h)]
        by_cases hx : "x.json" = name
        · rw [if_pos hx]
          exact ite_self none
        · rw [if_neg hx]
          exact ite_self none
    obtain rfl : records = [record] := Lists.eq_singleton (htable ▸ hlists)
    have hfrom : loadedFrom (beside (.file "")).limits "p" [record].reverse = some record := by decide +kernel
    refine ⟨hlisted, report, s', hload, ?_⟩
    rw [hloaded.live, hfrom]
    rfl
  · obtain ⟨name, e, hblocks, hends⟩ :=
      (listed_unless_blocked (beside .directory) ⟨0, 0⟩ (hproper _) rfl rfl).2.1
        ⟨"x.json", _, .directory (by decide) rfl⟩
    cases hblocks with
    | directory _ _ => exact hends
    | binary _ h => rcases hfound h with h | h <;> cases h

end PluginChain.Service
