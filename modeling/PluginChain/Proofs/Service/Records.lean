import PluginChain.Proofs.Service.Parts

/-!
# Reading records one file at a time

All records of a directory are read by looking at the names in it and then at one file after the other.
A machine that does one of these looks in each of its steps gets to the same records
(`Service.repeated_records`), if nothing comes between.
-/

set_option autoImplicit false

namespace PluginChain.Service

open Operation

section

variable {σ ρ α : Type} {c : Codec ρ} {f : σ → ServiceM σ} (first : σ) (stage : List String → List α → σ)
  (directory : Store → Place) (record : α → ρ) (see : Service → Place → ρ → α)

/-- A step looks at the next file. -/
def ReadsNext (c : Codec ρ) (f : σ → ServiceM σ) : Prop :=
  ∀ name left found, f (stage (name :: left) found) = (do
    let file := directory (← get).store ++ [name]
    let text ← onStore fun _ => StoreM.look fun t => t.read file
    match c.ofJson text with
    | .ok r => return stage left (found ++ [see (← get) file r])
    | .error _ => return stage left found)

variable {stage directory record see}

/-- A step at a file that can be read sees what the text tells, if it tells anything. -/
theorem ReadsNext.exists_seen (hnext : ReadsNext stage directory see c f)
    (hsee : ∀ s p r, record (see s p r) = r) {name text : String} {s : Service}
    (hread : s.files.read (directory s.store ++ [name]) = .ok text) (left : List String) (found : List α) :
    ∃ seen : List α, seen.map record = ([text].filterMap fun t => (c.ofJson t).toOption) ∧
      f (stage (name :: left) found) s = .ok (stage left (found ++ seen)) s := by
  have hlook := onStore_look_of_ok (s := s) (f := fun _ t => t.read (directory s.store ++ [name]))
    hread .store
  rw [hnext]
  cases hrecord : c.ofJson text with
  | ok r =>
    refine ⟨[see s (directory s.store ++ [name]) r], ?_, (bind_of_ok hlook _).trans ?_⟩
    · simp [hrecord, hsee, Except.toOption]
    · simp only [hrecord]
      rfl
  | error why =>
    refine ⟨[], ?_, (bind_of_ok hlook _).trans ?_⟩
    · simp [hrecord, Except.toOption]
    · simp only [hrecord, List.append_nil]
      rfl

/-- Reading all files at once is reading them one after the other. -/
theorem repeated_reading (hsee : ∀ s p r, record (see s p r) = r) (hnext : ReadsNext stage directory see c f)
    (left : List String) (found : List α) (s : Service) :
    match left.mapM (fun n => StoreM.look fun t => t.read (directory s.store ++ [n])) s.files with
    | .ok texts files => files = s.files ∧ ∃ more, more.map record =
        texts.filterMap (fun text => (c.ofJson text).toOption) ∧
        repeated f left.length (stage left found) s = .ok (stage [] (found ++ more)) s
    | .error e files => files = s.files ∧
        repeated f left.length (stage left found) s = .error (.store e) s := by
  induction left generalizing found with
  | nil => exact ⟨rfl, [], rfl, by rw [List.append_nil]; rfl⟩
  | cons name left ih =>
    cases hread : s.files.read (directory s.store ++ [name]) with
    | error e =>
      have hadvance : f (stage (name :: left) found) s = .error (.store (.file e)) s := by
        rw [hnext]
        exact bind_of_error (onStore_look_of_error (f := fun _ => _) hread .store) _
      rw [List.mapM_cons, bind_of_error (StoreM.look_of_error hread)]
      exact ⟨rfl, bind_of_error hadvance _⟩
    | ok text =>
      obtain ⟨seen, hseen, hadvance⟩ := hnext.exists_seen hsee hread left found
      have hrest := ih (found ++ seen)
      rw [List.mapM_cons, bind_of_ok (StoreM.look_of_ok hread), List.length_cons, repeated, bind_of_ok hadvance]
      cases hmapM : left.mapM (fun n => StoreM.look fun t => t.read (directory s.store ++ [n])) s.files with
      | error e files =>
        rw [hmapM] at hrest
        rw [bind_of_error hmapM]
        exact hrest
      | ok texts files =>
        rw [hmapM] at hrest
        rw [bind_of_ok hmapM]
        obtain ⟨hfiles, more, hmore, hsteps⟩ := hrest
        refine ⟨hfiles, seen ++ more, ?_, ?_⟩
        · rw [List.map_append, hseen, hmore, ← List.filterMap_append]
          rfl
        · rw [hsteps, List.append_assoc]

variable (stage directory record see)

/-- **Reading a directory at once** is looking at its names and then at one file after the other. -/
theorem repeated_records (hsee : ∀ s p r, record (see s p r) = r)
    (hfirst : f first = (do
      let names ← onStore fun store => StoreM.look fun t => StoreM.recordNames t (directory store)
      return stage names []))
    (hnext : ReadsNext stage directory see c f) (s : Service) :
    match StoreM.readRecords c (directory s.store) s.files with
    | .ok records files => files = s.files ∧ ∃ n found, found.map record = records ∧
        repeated f n first s = .ok (stage [] found) s
    | .error e files => files = s.files ∧ ∃ n, repeated f n first s = .error (.store e) s := by
  cases hnames : StoreM.recordNames s.files (directory s.store) with
  | error e =>
    have hadvance : f first s = .error (.store (.file e)) s := by
      rw [hfirst]
      exact bind_of_error (onStore_look_of_error
        (f := fun store t => StoreM.recordNames t (directory store)) hnames .store) _
    rw [StoreM.readRecords, bind_of_error (StoreM.look_of_error hnames)]
    exact ⟨rfl, 1, by rw [repeated, bind_of_error hadvance]⟩
  | ok names =>
    have hadvance : f first s = .ok (stage names []) s := by
      rw [hfirst]
      exact bind_of_ok (onStore_look_of_ok
        (f := fun store t => StoreM.recordNames t (directory store)) hnames .store) _
    have hread := repeated_reading hsee hnext names [] s
    rw [StoreM.readRecords, bind_of_ok (StoreM.look_of_ok hnames)]
    cases hmapM : names.mapM (fun n => StoreM.look fun t => t.read (directory s.store ++ [n])) s.files with
    | error e files =>
      rw [hmapM] at hread
      rw [bind_of_error hmapM]
      obtain ⟨rfl, hsteps⟩ := hread
      exact ⟨rfl, names.length + 1, by rw [repeated, bind_of_ok hadvance, hsteps]⟩
    | ok texts files =>
      rw [hmapM] at hread
      rw [bind_of_ok hmapM]
      obtain ⟨rfl, more, hmore, hsteps⟩ := hread
      exact ⟨rfl, names.length + 1, more, hmore, by rw [repeated, bind_of_ok hadvance, hsteps]; rfl⟩

end

end PluginChain.Service
