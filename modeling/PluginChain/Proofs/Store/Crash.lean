import PluginChain.Proofs.Store.Opening

/-!
# Stores that are cut off

An operation of the store can be cut off at any point: between two of its changes, and also within a write,
which leaves a file with the first bytes of what was to be written (`CutOff`).  Nothing is undone then and
nothing is tidied up.

Among the changes of a request only the last one is at the file of a record, and it is one that is done as a
whole (`DiskRequest.wholeLast_changes`).  What comes before it is at files that are no records, which nobody
looks at.  So a request that was cut off has been carried out or has not begun, for all that can be
seen from then on (`Catalogue.StandsIn.cut`).

`Store.Reached` are the states that a store gets into by requests of which any may be cut off.  In each of
them it can be opened again, and it is answered there as by a catalogue (`Store.crash_atomic`).
-/

set_option autoImplicit false

namespace PluginChain

open Operation FileTree

/-! ## Cuts -/

/-- A file with these bytes, which may be a text or not. -/
def FileEntry.ofBytes (bytes : ByteArray) : FileEntry :=
  match String.fromUTF8? bytes with
  | some text => .file text
  | none => .binary

theorem FileEntry.ofBytes_ne_directory (bytes : ByteArray) : FileEntry.ofBytes bytes ≠ .directory := by
  unfold ofBytes
  split <;> simp

/-- The trees that changes leave which are cut off somewhere. -/
inductive CutOff : List Change → FileTree → FileTree → Prop
  | before (changes : List Change) (t : FileTree) : CutOff changes t t
  /-- Of what was to be written only the first bytes were. -/
  | within {p : Place} {content : String} {rest : List Change} {t t' : FileTree} (n : Nat)
      (h : t.write p content = .ok t') :
      CutOff (.write p content :: rest) t (t.set p (.ofBytes (content.toUTF8.extract 0 n)))
  | after {c : Change} {rest : List Change} {t t' t'' : FileTree} (h : c.apply t = .ok t')
      (hrest : CutOff rest t' t'') : CutOff (c :: rest) t t''

/-- The place is not that of a record. -/
def NoRecord (p : Place) : Prop := ∀ directory stem, p ≠ directory ++ [stem ++ ".json"]

theorem noRecord_append {name : String} (directory : Place) (h : name.toList.getLast? ≠ some 'n') :
    NoRecord (directory ++ [name]) := by
  intro directory' stem heq
  rw [(append_singleton_inj.1 heq).2] at h
  simp at h

/-- From one tree to the other no record is another one, and no directory. -/
structure SameRecords (t t' : FileTree) : Prop where
  directories : SameDirectories t t'
  proper : t.Proper → t'.Proper
  record : ∀ directory stem,
    t'.lookup (directory ++ [stem ++ ".json"]) = t.lookup (directory ++ [stem ++ ".json"])

namespace SameRecords

variable {t t' t'' : FileTree}

theorem refl (t : FileTree) : SameRecords t t := ⟨.refl t, id, fun _ _ => rfl⟩

theorem trans (h : SameRecords t t') (h' : SameRecords t' t'') : SameRecords t t'' :=
  ⟨h.directories.trans h'.directories, h'.proper ∘ h.proper,
    fun directory stem => (h'.record directory stem).trans (h.record directory stem)⟩

end SameRecords

/-- The change makes or writes a file that is no record. -/
def Change.IsBeside : Change → Prop
  | .touch p | .write p _ => NoRecord p
  | .rename _ _ | .remove _ => False

theorem Change.IsBeside.sameRecords {c : Change} {t t' : FileTree} (hc : c.IsBeside) (h : c.apply t = .ok t') :
    SameRecords t t' := by
  refine ⟨sameDirectories_of_apply h, proper_of_apply h, fun directory stem => lookup_of_apply h ?_⟩
  cases c with
  | touch p => exact fun hmem => hc _ _ (List.mem_singleton.1 hmem).symm
  | write p content => exact fun hmem => hc _ _ (List.mem_singleton.1 hmem).symm
  | rename source target => cases hc
  | remove p => cases hc

/-- Whatever stands in a file that is no record. -/
theorem sameRecords_set {t : FileTree} {p : Place} (hp : NoRecord p) (hfile : t.lookup p ≠ some .directory)
    {e : FileEntry} (he : e ≠ .directory) : SameRecords t (t.set p e) := by
  refine ⟨sameDirectories_set hfile he, fun ht => ht.set p e, fun directory stem => ?_⟩
  rw [lookup_set_of_ne_nil (ne_nil_of_lookup_ne_directory hfile), if_neg (hp directory stem)]

/-- Of the changes only the last may be at a record, and a write is never at one. -/
inductive WholeLast : List Change → Prop
  | nil : WholeLast []
  | rename (source target : Place) : WholeLast [.rename source target]
  | remove (p : Place) : WholeLast [.remove p]
  | beside {c : Change} {rest : List Change} (hc : c.IsBeside) (hrest : WholeLast rest) : WholeLast (c :: rest)

/-- **Changes that are cut off** have all been made, or no record is another. -/
theorem CutOff.sameRecords_or {changes : List Change} {t t' : FileTree} (hcut : CutOff changes t t')
    (h : WholeLast changes) : SameRecords t t' ∨ StoreM.perform changes t = .ok () t' := by
  induction hcut with
  | before changes t => exact Or.inl (.refl t)
  | within n hwrite =>
    cases h with
    | beside hc hrest =>
      exact Or.inl (sameRecords_set hc (lookup_of_write hwrite).1 (FileEntry.ofBytes_ne_directory _))
  | after happly hrest ih =>
    cases h with
    | rename source target =>
      cases hrest
      exact Or.inr (StoreM.perform_cons_of_ok happly)
    | remove p =>
      cases hrest
      exact Or.inr (StoreM.perform_cons_of_ok happly)
    | beside hc hlast =>
      refine (ih hlast).imp (hc.sameRecords happly).trans fun hperform => ?_
      rw [StoreM.perform_cons_of_ok happly, hperform]

/-! ## Requests that are cut off -/

namespace Store

variable {s : Store} {t t' : FileTree}

theorem noRecord_lock (s : Store) : NoRecord (s.root ++ [".lock"]) := noRecord_append _ (by decide)

theorem noRecord_taskFile (s : Store) (id : Uuid) : NoRecord (s.taskFile id) := noRecord_append _ (by simp)

/-- The text of a record is written beside it. -/
theorem wholeLast_recordChanges (directory : Place) (stem content : String) :
    WholeLast (StoreM.recordChanges (directory ++ [stem ++ ".json"]) content) :=
  .beside (fun directory' stem' => StoreM.besideOf_ne_json directory directory' stem stem') (.rename ..)

theorem wholeLast_lockedChanges {α : Type} (s : Store) {rest : α → List Change}
    (h : ∀ a, WholeLast (rest a)) (found : EStateM.Result StoreError FileTree α) :
    WholeLast (s.lockedChanges rest found) := by
  cases found with
  | ok a t => exact .beside s.noRecord_lock (h a)
  | error e t => exact .beside s.noRecord_lock .nil

/-- **No request writes into the file of a record**: what it has written takes its place as a whole. -/
theorem DiskRequest.wholeLast_changes (s : Store) (t : FileTree) (r : DiskRequest) :
    WholeLast (r.changes s t) := by
  cases r with
  | savePlugin now record =>
    exact s.wholeLast_lockedChanges (fun draft => wholeLast_recordChanges _ _ _) _
  | deletePlugin name =>
    rw [changes]
    split
    · exact .nil
    · exact .remove _
  | saveJob job => exact .beside s.noRecord_lock (wholeLast_recordChanges _ _ _)
  | updateJob now id results status =>
    exact s.wholeLast_lockedChanges (fun job => wholeLast_recordChanges _ _ _) _
  | saveTask id task => exact .beside (s.noRecord_taskFile id) .nil
  | pluginSource name => exact .nil
  | listPlugins => exact .nil
  | getJob id => exact .nil
  | jobInput id => exact .nil
  | listJobs => exact .nil

end Store

namespace Catalogue.StandsIn

open Store (DiskRequest)

variable {m : Catalogue} {s : Store} {t t' : FileTree} {r : DiskRequest}

/-- **A request that was cut off** has left all records as they were, or has been carried out. -/
theorem cut (h : m.StandsIn s t) (hr : r.Fits) (hcut : CutOff (r.changes s t) t t') :
    m.StandsIn s t' ∨ (m.next r).StandsIn s t' := by
  refine (hcut.sameRecords_or (r.wholeLast_changes s t)).imp (fun hsame => ?_) fun hperform => ?_
  · exact h.congr hsame.directories (hsame.proper h.proper) (hsame.record _) (hsame.record _)
  · have hserve : (s.serve r t).2 = t' := by
      rw [Store.snd_serve, DiskRequest.stateOf_run, hperform]
      rfl
    rw [← hserve]
    exact (h.serve hr).2

end Catalogue.StandsIn

/-- All requests that may come now are answered as the catalogue says. -/
def Catalogue.ShownBy (m : Catalogue) (s : Store) (t : FileTree) : Prop :=
  ∀ requests : List Store.DiskRequest, (∀ r ∈ requests, r.Fits) →
    m.AnswersAll requests (s.serveAll requests t).1

namespace Store

variable {current : Place} {home : String} {s : Store} {t t' : FileTree} {r : DiskRequest}

/-- The files that a store has after it was opened with nothing in it, and after any number of requests,
each of which was carried out or cut off. -/
inductive Reached (current : Place) (home : String) (s : Store) : FileTree → Prop
  | opened {t t' : FileTree} (hproper : t.Proper) (hclosed : t.Closed) (h : openAt current home t = .ok s t')
      (hempty : s.IsEmpty t') : Reached current home s t'
  | served {t : FileTree} (h : Reached current home s t) {r : DiskRequest} (hr : r.Fits) :
      Reached current home s (s.serve r t).2
  | cut {t t' : FileTree} (h : Reached current home s t) {r : DiskRequest} (hr : r.Fits)
      (hcut : CutOff (r.changes s t) t t') : Reached current home s t'

theorem sameDirectories_cut (hcut : CutOff (r.changes s t) t t') : SameDirectories t t' := by
  rcases hcut.sameRecords_or (r.wholeLast_changes s t) with hsame | hperform
  · exact hsame.directories
  · have hserve := s.sameDirectories_serve r t
    rw [snd_serve, DiskRequest.stateOf_run, hperform] at hserve
    exact hserve

/-- What a store has come to is a catalogue, and it can be opened again. -/
theorem Reached.exists_catalogue (h : Reached current home s t) :
    openAt current home t = .ok s t ∧ ∃ m : Catalogue, m.StandsIn s t := by
  induction h with
  | opened hproper hclosed h hempty =>
    exact ⟨openAt_again h (.refl _), .empty, standsIn_of_openAt hproper hclosed h hempty⟩
  | @served t _ r hr ih =>
    obtain ⟨hopen, m, hm⟩ := ih
    exact ⟨openAt_again hopen (s.sameDirectories_serve r t).stay, m.next r, (hm.serve hr).2⟩
  | cut _ hr hcut ih =>
    obtain ⟨hopen, m, hm⟩ := ih
    exact ⟨openAt_again hopen (sameDirectories_cut hcut).stay, (hm.cut hr hcut).elim (⟨_, ·⟩) (⟨_, ·⟩)⟩

/-- **A request is carried out or not begun**, wherever it is cut off.  The store can be opened again, and
shows what it showed before or what it would show after the request: the record that was being written is
the old one or the new one, and all others are what they were.  What is left over of a write is neither
listed nor in the way of the requests that come. -/
theorem crash_atomic (h : Reached current home s t) (hr : r.Fits) (hcut : CutOff (r.changes s t) t t') :
    openAt current home t' = .ok s t' ∧
      ∃ m m' : Catalogue, m.ShownBy s t ∧ (m' = m ∨ m' = m.next r) ∧ m'.ShownBy s t' := by
  obtain ⟨hopen, m, hm⟩ := h.exists_catalogue
  refine ⟨openAt_again hopen (sameDirectories_cut hcut).stay, m, ?_⟩
  have hshown : m.ShownBy s t := fun requests hfits => (hm.serveAll requests hfits).1
  rcases hm.cut hr hcut with hm' | hm'
  · exact ⟨m, hshown, Or.inl rfl, fun requests hfits => (hm'.serveAll requests hfits).1⟩
  · exact ⟨m.next r, hshown, Or.inr rfl, fun requests hfits => (hm'.serveAll requests hfits).1⟩

/-- A job of which the first seven bytes were written. -/
theorem crash_atomic_within :
    let s : Store := ⟨[]⟩
    let job : Job := .uploaded ⟨1⟩ ⟨0, 0⟩ .null
    let t := (vacant.set [".lock"] (.file "")).set (StoreM.besideOf (s.jobFile job.id))
      (.ofBytes ((Job.codec.toJson job).toUTF8.extract 0 7))
    openAt [] "/" t = .ok s t ∧
      ∃ m m' : Catalogue, m.ShownBy s vacant ∧ (m' = m ∨ m' = m.next (.saveJob job)) ∧ m'.ShownBy s t := by
  intro s job t
  have hreached : Reached [] "/" s vacant := by
    refine .opened (by decide) (fun p name hp => ?_) openAt_nothing isEmpty_vacant
    exact absurd (if_neg (append_singleton_ne_nil p name)) hp
  have hlock : s.lock.apply vacant = .ok (vacant.set [".lock"] (.file "")) := rfl
  have hwrite : (vacant.set [".lock"] (.file "")).write (StoreM.besideOf (s.jobFile job.id))
      (Job.codec.toJson job) = .ok _ := rfl
  exact crash_atomic hreached (by decide : 1 < 2 ^ 128) (.after hlock (.within 7 hwrite))

end Store

end PluginChain
