import PluginChain.Proofs.Store
import PluginChain.Service

/-!
# Copies of tasks are kept and not read

Of two states an observer may see only a part, which is what a `view` leaves of them.  Two operations are
`Operation.Alike` if such an observer cannot tell them apart: from states that look the same they come to
the same, and to states that look the same.  This is shown part by part (`Alike.bind`).

The view here is a service with the files in the directory of tasks emptied (`Service.withoutCopies`).  The
store looks at no such file: keeping one task is like keeping another (`Store.alike_saveTask`), and what is
done with jobs does not depend on the copies of tasks (`Store.alike_saveJob`, `StoreM.alike_readRecord`,
`StoreM.alike_recordNames`).
-/

set_option autoImplicit false

namespace PluginChain

namespace Operation

variable {ε σ τ α β : Type} {view : σ → τ}

/-- What is seen of the end of an operation. -/
def observed (view : σ → τ) : EStateM.Result ε σ α → Except ε α × τ
  | .ok a s => (.ok a, view s)
  | .error e s => (.error e, view s)

/-- From states that look the same the operations come to the same, and to states that look the same. -/
def Alike (view : σ → τ) (f g : EStateM ε σ α) : Prop :=
  ∀ s s', view s = view s' → observed view (f s) = observed view (g s')

theorem observed_eq_cases {r r' : EStateM.Result ε σ α} (h : observed view r = observed view r') :
    (∃ a s s', r = .ok a s ∧ r' = .ok a s' ∧ view s = view s') ∨
      ∃ e s s', r = .error e s ∧ r' = .error e s' ∧ view s = view s' := by
  cases r with
  | ok a s =>
    cases r' with
    | ok a' s' =>
      simp only [observed, Prod.mk.injEq, Except.ok.injEq] at h
      obtain ⟨rfl, hs⟩ := h
      exact Or.inl ⟨a, s, s', rfl, rfl, hs⟩
    | error e s' => simp [observed] at h
  | error e s =>
    cases r' with
    | ok a s' => simp [observed] at h
    | error e' s' =>
      simp only [observed, Prod.mk.injEq, Except.error.injEq] at h
      obtain ⟨rfl, hs⟩ := h
      exact Or.inr ⟨e, s, s', rfl, rfl, hs⟩

theorem alike_pure (a : α) : Alike view (pure a : EStateM ε σ α) (pure a) := fun _ _ h => by
  simp only [pure, EStateM.pure, observed, h]

theorem alike_throw (e : ε) : Alike view (throw e : EStateM ε σ α) (throw e) := fun s s' h => by
  rw [throw_eq, throw_eq]
  simp only [observed, h]

theorem Alike.bind {f f' : EStateM ε σ α} {g g' : α → EStateM ε σ β} (hf : Alike view f f')
    (hg : ∀ a, Alike view (g a) (g' a)) : Alike view (f >>= g) (f' >>= g') := by
  intro s s' h
  rcases observed_eq_cases (hf s s' h) with ⟨a, t, t', hs, hs', ht⟩ | ⟨e, t, t', hs, hs', ht⟩
  · rw [bind_of_ok hs, bind_of_ok hs']
    exact hg a t t' ht
  · rw [bind_of_error hs, bind_of_error hs']
    simp only [observed, ht]

theorem alike_ofExcept (x : Except ε α) : Alike view (ofExcept x : EStateM ε σ α) (ofExcept x) := by
  cases x with
  | ok a => exact alike_pure a
  | error e => exact alike_throw e

theorem Alike.map {f f' : EStateM ε σ α} (hf : Alike view f f') (g : α → β) :
    Alike view (g <$> f) (g <$> f') := by
  rw [map_eq_pure_bind, map_eq_pure_bind]
  exact hf.bind fun a => alike_pure (g a)

end Operation

open Operation

/-! ## Trees with emptied files -/

/-- The entry without what is in it. -/
def FileEntry.emptied : FileEntry → FileEntry
  | .file _ => .file ""
  | e => e

namespace FileTree

variable {d : Place}

/-- The tree with the files of a directory emptied. -/
def emptied (d : Place) (t : FileTree) : FileTree :=
  ⟨t.entries.map fun x => (x.1, if x.1.dropLast = d then x.2.emptied else x.2)⟩

theorem lookup_emptied (t : FileTree) (p : Place) :
    (t.emptied d).lookup p = (t.lookup p).map fun e => if p.dropLast = d then e.emptied else e := by
  by_cases hp : p = []
  · subst hp
    rw [lookup_root, lookup_root, Option.map_some]
    split <;> rfl
  · simp only [lookup, hp, if_false, emptied, List.find?_map, Option.map_map, Function.comp_def]
    cases hfound : t.entries.find? fun x => x.1 = p with
    | none => rfl
    | some x =>
      have hx : x.1 = p := by simpa using List.find?_some hfound
      simp [hx]

@[simp] theorem lookup_emptied_of_ne {p : Place} (hp : p.dropLast ≠ d) (t : FileTree) :
    (t.emptied d).lookup p = t.lookup p := by
  simp [lookup_emptied, hp]

theorem lookup_emptied_eq_directory (t : FileTree) (p : Place) :
    (t.emptied d).lookup p = some .directory ↔ t.lookup p = some .directory := by
  rw [lookup_emptied]
  by_cases hp : p.dropLast = d
  · cases hl : t.lookup p with
    | none => simp
    | some e => cases e <;> simp [hp, FileEntry.emptied]
  · simp [hp]

theorem children_emptied (t : FileTree) (p : Place) : (t.emptied d).children p = t.children p := by
  simp only [children, emptied, List.filterMap_map]
  rfl

theorem emptied_unset (t : FileTree) (p : Place) : (t.unset p).emptied d = (t.emptied d).unset p := by
  simp only [unset, emptied, List.filter_map]
  rfl

theorem emptied_set (t : FileTree) (p : Place) (e : FileEntry) :
    (t.set p e).emptied d = (t.emptied d).set p (if p.dropLast = d then e.emptied else e) := by
  rw [set, set, ← emptied_unset]
  rfl

theorem absence_emptied (t : FileTree) (p : Place) : (t.emptied d).absence p = t.absence p := by
  simp only [absence]
  refine congrArg (fun found : Bool => if found = true then FileError.notDirectory else .missing)
    (congrArg (List.any _) (funext fun n => ?_))
  rw [lookup_emptied]
  cases t.lookup (p.take n) with
  | none => rfl
  | some e => by_cases hd : (p.take n).dropLast = d <;> cases e <;> simp [hd, FileEntry.emptied]

/-- Files elsewhere are read as they are. -/
theorem read_emptied {p : Place} (hp : p.dropLast ≠ d) (t : FileTree) : (t.emptied d).read p = t.read p := by
  rw [read, read, lookup_emptied_of_ne hp, absence_emptied]

theorem write_eq (t : FileTree) (p : Place) (content : String) :
    t.write p content =
      if t.lookup p.dropLast = some .directory then
        if t.lookup p = some .directory then .error .isDirectory else .ok (t.set p (.file content))
      else .error (t.absence p) := by
  rw [write]
  split
  · next hdir hp => rw [if_pos hdir, if_pos hp]
  · next hdir hp => rw [if_pos hdir, if_neg hp]
  · next hdir hp =>
    exact (if_neg hdir).symm

/-- What is written elsewhere is written to the emptied tree as well. -/
theorem write_emptied {p : Place} (hp : p.dropLast ≠ d) (t : FileTree) (content : String) :
    (t.emptied d).write p content = (t.write p content).map (emptied d) := by
  simp only [write_eq, lookup_emptied_eq_directory, absence_emptied]
  split
  · split
    · rfl
    · simp [emptied_set, hp, Except.map]
  · rfl

/-- What is written into the directory is not seen, only that it is. -/
theorem map_emptied_write {p : Place} (hp : p.dropLast = d) (t : FileTree) (content : String) :
    (t.write p content).map (emptied d) = (t.emptied d).write p "" := by
  simp only [write_eq, lookup_emptied_eq_directory, absence_emptied]
  split
  · split
    · rfl
    · simp [emptied_set, hp, Except.map, FileEntry.emptied]
  · rfl

theorem touch_emptied {p : Place} (hp : p.dropLast ≠ d) (t : FileTree) :
    (t.emptied d).touch p = (t.touch p).map (emptied d) := by
  rw [touch, touch, lookup_emptied_of_ne hp]
  split
  · rfl
  · rfl
  · exact write_emptied hp t ""

theorem rename_of_not_directory {t : FileTree} {source target : Place}
    (h : t.lookup target.dropLast ≠ some .directory) :
    t.rename source target =
      match t.lookup source with
      | none => .error (t.absence source)
      | some .directory => .error .notDirectory
      | some _ => .error (t.absence target) := by
  rw [rename]
  cases hdir : t.lookup target.dropLast with
  | none => rcases t.lookup source with _ | _ | _ | _ <;> rfl
  | some e =>
    cases e with
    | directory => exact absurd hdir h
    | file _ | binary => rcases t.lookup source with _ | _ | _ | _ <;> rfl

theorem rename_emptied {source target : Place} (hs : source.dropLast ≠ d) (ht : target.dropLast ≠ d)
    (t : FileTree) :
    (t.emptied d).rename source target = (t.rename source target).map (emptied d) := by
  have haround := lookup_emptied_eq_directory (d := d) t target.dropLast
  by_cases hdir : t.lookup target.dropLast = some .directory
  · rw [rename, rename, hdir, haround.2 hdir, lookup_emptied_of_ne hs, lookup_emptied_of_ne ht, absence_emptied]
    cases t.lookup source with
    | none => rfl
    | some e =>
      cases e <;> cases t.lookup target with
      | none => simp [Except.map, emptied_set, emptied_unset, ht]
      | some e' => cases e' <;> simp [Except.map, emptied_set, emptied_unset, ht]
  · rw [rename_of_not_directory hdir, rename_of_not_directory (mt haround.1 hdir), lookup_emptied_of_ne hs,
      absence_emptied, absence_emptied]
    cases t.lookup source with
    | none => rfl
    | some e => cases e <;> rfl

end FileTree

open FileTree (emptied)

/-! ## Operations of the store -/

namespace StoreM

variable {d : Place} {α : Type}

theorem alike_perform {c c' : Change} (h : ∀ t t', emptied d t = emptied d t' →
    (c.apply t).map (emptied d) = (c'.apply t').map (emptied d)) :
    Alike (emptied d) (perform [c]) (perform [c']) := by
  intro t t' hview
  have happly := h t t' hview
  cases hc : c.apply t with
  | ok u =>
    cases hc' : c'.apply t' with
    | ok u' =>
      simp only [hc, hc', Except.map, Except.ok.injEq] at happly
      rw [perform_cons_of_ok hc, perform_cons_of_ok hc']
      exact alike_pure () u u' happly
    | error e => simp [hc, hc', Except.map] at happly
  | error e =>
    cases hc' : c'.apply t' with
    | ok u' => simp [hc, hc', Except.map] at happly
    | error e' =>
      simp only [hc, hc', Except.map, Except.error.injEq] at happly
      rw [perform_cons_of_error hc, perform_cons_of_error hc']
      simp only [observed, happly, hview]

/-- A change elsewhere is made to the emptied tree as well. -/
theorem alike_perform_self {c : Change} (h : ∀ t, c.apply (emptied d t) = (c.apply t).map (emptied d)) :
    Alike (emptied d) (perform [c]) (perform [c]) :=
  alike_perform fun t t' hview => by rw [← h, ← h, hview]

theorem alike_look {f : FileTree → Except FileError α} (h : ∀ t, f (emptied d t) = f t) :
    Alike (emptied d) (look f) (look f) := by
  intro t t' hview
  have hf : f t = f t' := by rw [← h t, ← h t', hview]
  rw [look, look, hf]
  cases f t' with
  | ok a => simp only [observed, hview]
  | error e => simp only [observed, hview]

theorem alike_ofText (c : Codec α) (text : String) : Alike (emptied d) (ofText c text) (ofText c text) := by
  rw [ofText]
  cases c.ofJson text with
  | ok a => exact alike_pure a
  | error why => exact alike_throw _

theorem alike_readRecord (c : Codec α) {p : Place} (hp : p.dropLast ≠ d) (missing : StoreError) :
    Alike (emptied d) (readRecord c p missing) (readRecord c p missing) := by
  have hread : Alike (emptied d) (readRecord? c p) (readRecord? c p) := by
    intro t t' hview
    have hsame : t.read p = t'.read p := by
      rw [← FileTree.read_emptied hp t, ← FileTree.read_emptied hp t', hview]
    rw [readRecord?, readRecord?, hsame]
    cases t'.read p with
    | ok text => exact (alike_ofText c text).map some t t' hview
    | error e => cases e <;> simp only [observed, hview]
  refine hread.bind fun r => ?_
  cases r with
  | none => exact alike_throw missing
  | some a => exact alike_pure a

theorem alike_recordNames {p : Place} (hp : p.dropLast ≠ d) :
    Alike (emptied d) (look fun t => recordNames t p) (look fun t => recordNames t p) :=
  alike_look fun t => by
    rw [recordNames, recordNames, FileTree.lookup_emptied_of_ne hp, FileTree.children_emptied,
      FileTree.absence_emptied]

end StoreM

namespace Store

variable (s : Store)

theorem dropLast_jobs_append (name : String) : (s.jobs ++ [name]).dropLast ≠ s.tasks := by
  simp [jobs, tasks]

theorem dropLast_jobFile (id : Uuid) : (s.jobFile id).dropLast ≠ s.tasks := s.dropLast_jobs_append _

theorem dropLast_besideOf_jobFile (id : Uuid) : (StoreM.besideOf (s.jobFile id)).dropLast ≠ s.tasks := by
  rw [jobFile, StoreM.besideOf_append]
  exact s.dropLast_jobs_append _

theorem dropLast_jobs : s.jobs.dropLast ≠ s.tasks := by
  simp [jobs, tasks]

theorem alike_lock : Alike (emptied s.tasks) (StoreM.perform [s.lock]) (StoreM.perform [s.lock]) :=
  StoreM.alike_perform_self fun t => FileTree.touch_emptied (by simp [tasks]) t

theorem alike_getJob (id : Uuid) : Alike (emptied s.tasks) (s.getJob id) (s.getJob id) :=
  StoreM.alike_readRecord Job.codec (s.dropLast_jobFile id) _

theorem alike_jobInput (id : Uuid) : Alike (emptied s.tasks) (s.jobInput id) (s.jobInput id) :=
  (s.alike_getJob id).bind fun job => alike_pure job.input

/-- **One task is kept like any other.** -/
theorem alike_saveTask (id : Uuid) (task task' : Task) :
    Alike (emptied s.tasks) (s.saveTask id task) (s.saveTask id task') := by
  have hplace : (s.taskFile id).dropLast = s.tasks := List.dropLast_concat
  refine StoreM.alike_perform fun t t' hview => ?_
  simp only [Change.apply, FileTree.map_emptied_write hplace, hview]

theorem alike_writeBeside (id : Uuid) (text : String) :
    Alike (emptied s.tasks) (StoreM.perform [.write (StoreM.besideOf (s.jobFile id)) text])
      (StoreM.perform [.write (StoreM.besideOf (s.jobFile id)) text]) :=
  StoreM.alike_perform_self fun t => FileTree.write_emptied (s.dropLast_besideOf_jobFile id) t text

theorem alike_putInPlace (id : Uuid) :
    Alike (emptied s.tasks) (StoreM.perform [.rename (StoreM.besideOf (s.jobFile id)) (s.jobFile id)])
      (StoreM.perform [.rename (StoreM.besideOf (s.jobFile id)) (s.jobFile id)]) :=
  StoreM.alike_perform_self fun t =>
    FileTree.rename_emptied (s.dropLast_besideOf_jobFile id) (s.dropLast_jobFile id) t

end Store

/-! ## Operations of the service -/

namespace Service

variable {α : Type}

/-- The service with empty copies of tasks. -/
def withoutCopies (s : Service) : Service := { s with files := emptied s.store.tasks s.files }

theorem withoutCopies_eq_iff {s s' : Service} : s.withoutCopies = s'.withoutCopies ↔
    s.engine = s'.engine ∧ s.store = s'.store ∧
      emptied s.store.tasks s.files = emptied s'.store.tasks s'.files := by
  simp [withoutCopies]

theorem alike_onStore {f g : Store → StoreM α} (h : ∀ store : Store, Alike (emptied store.tasks) (f store) (g store))
    (wrap : StoreError → ChainError) : Alike withoutCopies (onStore f wrap) (onStore g wrap) := by
  rintro ⟨engine, store, files⟩ ⟨engine', store', files'⟩ hview
  obtain ⟨rfl, rfl, hfiles⟩ := withoutCopies_eq_iff.1 hview
  simp only [onStore]
  rcases observed_eq_cases (h store files files' hfiles) with ⟨a, t, t', hf, hg, ht⟩ | ⟨e, t, t', hf, hg, ht⟩
  all_goals simp only [hf, hg, observed, withoutCopies, ht]

theorem alike_onEngine (f : Engine → α × Engine) : Alike withoutCopies (onEngine f) (onEngine f) := by
  rintro ⟨engine, store, files⟩ ⟨engine', store', files'⟩ hview
  obtain ⟨rfl, rfl, hfiles⟩ := withoutCopies_eq_iff.1 hview
  simp only [onEngine, observed, withoutCopies, hfiles]

theorem alike_referencedId (given : String) :
    Alike withoutCopies (referencedId given) (referencedId given) := by
  rw [referencedId]
  cases Uuid.parse (Text.trim given) with
  | ok id => exact alike_pure id
  | error why => exact alike_throw _

theorem alike_resolveInput (reference : InputRef) :
    Alike withoutCopies (resolveInput reference) (resolveInput reference) := by
  cases reference with
  | inline value => exact alike_pure value
  | job jobId =>
    exact (alike_referencedId jobId).bind fun id => alike_onStore (fun store => store.alike_jobInput id) _
  | output jobId step =>
    refine (alike_referencedId jobId).bind fun id =>
      (alike_onStore (fun store => store.alike_getJob id) _).bind fun job => ?_
    cases (Entries.get? step job.results).bind Outcome.value? with
    | none => exact alike_throw _
    | some value => exact alike_pure value

/-- Tasks whose first steps have the same reference work on the same. -/
theorem alike_inputOf {task task' : Task} (h : task.initialInput? = task'.initialInput?)
    (given : Option Data) : Alike withoutCopies (inputOf task given) (inputOf task' given) := by
  rw [inputOf, inputOf, h]
  cases task'.initialInput? with
  | none => exact alike_pure _
  | some reference => exact alike_resolveInput reference

end Service

end PluginChain
