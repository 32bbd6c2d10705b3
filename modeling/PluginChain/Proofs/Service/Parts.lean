import PluginChain.Proofs.Store
import PluginChain.Service

/-!
# Parts of the operations of the service

What an operation of the store or a step of the engine comes to as a part of an operation of the service:
the one changes the files only, the other the engine only.
-/

set_option autoImplicit false

namespace PluginChain.Service

open Operation

variable {α : Type} {s s' : Service}

theorem onStore_eq_ok {f : Store → StoreM α} {wrap : StoreError → ChainError} {a : α}
    (h : onStore f wrap s = .ok a s') :
    ∃ files, f s.store s.files = .ok a files ∧ s' = { s with files } := by
  unfold onStore at h
  split at h
  · next files hf =>
    cases h
    exact ⟨files, hf, rfl⟩
  · cases h

theorem onStore_of_ok {f : Store → StoreM α} {a : α} {files : FileTree}
    (h : f s.store s.files = .ok a files) (wrap : StoreError → ChainError) :
    onStore f wrap s = .ok a { s with files } := by
  simp only [onStore, h]

theorem onStore_of_error {f : Store → StoreM α} {e : StoreError} {files : FileTree}
    (h : f s.store s.files = .error e files) (wrap : StoreError → ChainError) :
    onStore f wrap s = .error (wrap e) { s with files } := by
  simp only [onStore, h]

theorem onStore_look_of_ok {f : Store → FileTree → Except FileError α} {a : α}
    (h : f s.store s.files = .ok a) (wrap : StoreError → ChainError) :
    onStore (fun store => StoreM.look (f store)) wrap s = .ok a s :=
  onStore_of_ok (f := fun store => StoreM.look (f store)) (StoreM.look_of_ok h) wrap

theorem onStore_look_of_error {f : Store → FileTree → Except FileError α} {e : FileError}
    (h : f s.store s.files = .error e) (wrap : StoreError → ChainError) :
    onStore (fun store => StoreM.look (f store)) wrap s = .error (wrap (.file e)) s :=
  onStore_of_error (f := fun store => StoreM.look (f store)) (StoreM.look_of_error h) wrap

/-- A change of the store is made, or it fails and changes nothing. -/
theorem onStore_perform_cases (f : Store → Change) (wrap : StoreError → ChainError) (s : Service) :
    (∃ files, (f s.store).apply s.files = .ok files ∧
      onStore (fun store => StoreM.perform [f store]) wrap s = .ok () { s with files }) ∨
    ∃ e, onStore (fun store => StoreM.perform [f store]) wrap s = .error e s := by
  cases hf : (f s.store).apply s.files with
  | ok files =>
    refine Or.inl ⟨files, rfl, ?_⟩
    simp only [onStore, StoreM.perform, hf]
    rfl
  | error e =>
    refine Or.inr ⟨wrap (.file e), ?_⟩
    simp only [onStore, StoreM.perform, hf]

theorem looksOnly_onStore {f : Store → StoreM α} (h : ∀ store, LooksOnly (f store))
    (wrap : StoreError → ChainError) : LooksOnly (onStore f wrap) := by
  intro s
  have hs := h s.store s.files
  cases hf : f s.store s.files with
  | ok a files =>
    rw [hf] at hs
    cases hs
    simp only [onStore, hf]
    rfl
  | error e files =>
    rw [hf] at hs
    cases hs
    simp only [onStore, hf]
    rfl

/-- An operation of the store keeps the store where it is, and of its files what it keeps. -/
theorem keeps_onStore {r : Store → FileTree → FileTree → Prop} {f : Store → StoreM α}
    (h : ∀ store, Keeps (r store) (f store)) (wrap : StoreError → ChainError) :
    Keeps (fun s s' : Service => s'.store = s.store ∧ r s.store s.files s'.files) (onStore f wrap) := by
  intro s
  have hs := h s.store s.files
  cases hf : f s.store s.files with
  | ok a files =>
    rw [hf] at hs
    simp only [onStore, hf]
    exact ⟨rfl, hs⟩
  | error e files =>
    rw [hf] at hs
    simp only [onStore, hf]
    exact ⟨rfl, hs⟩

theorem onStore_bind {β : Type} (f : Store → StoreM α) (g : Store → α → StoreM β)
    (wrap : StoreError → ChainError) :
    onStore (fun store => f store >>= g store) wrap =
      onStore f wrap >>= fun a => onStore (fun store => g store a) wrap := by
  funext s
  cases hf : f s.store s.files with
  | ok a files =>
    rw [bind_of_ok (onStore_of_ok hf wrap)]
    simp only [onStore, bind_of_ok hf]
  | error e files =>
    rw [bind_of_error (onStore_of_error hf wrap)]
    simp only [onStore, bind_of_error hf]

theorem get_bind_const (f : ServiceM α) : (get >>= fun _ => f : ServiceM α) = f := rfl

theorem onEngine_eq_ok {f : Engine → α × Engine} {a : α} (h : onEngine f s = .ok a s') :
    (f s.engine).1 = a ∧ s' = { s with engine := (f s.engine).2 } := by
  unfold onEngine at h
  generalize f s.engine = run at h ⊢
  cases h
  exact ⟨rfl, rfl⟩

theorem onEngine_of_fst {f : Engine → α × Engine} {a : α} (h : (f s.engine).1 = a) :
    onEngine f s = .ok a { s with engine := (f s.engine).2 } := by
  rw [← h]
  rfl

end PluginChain.Service
