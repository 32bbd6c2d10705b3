import PluginChain.Proofs.Store

/-!
# Requests to a store

A `Store.DiskRequest` is a call of one of the operations of a store, and `Store.serveAll` carries several out,
one after the other.

What a request does to the disk is a list of single changes (`DiskRequest.changes`): the operation ends where
the changes end when they are performed (`DiskRequest.stateOf_run`).  That is what can be said of an
operation without its answer, and where it can be cut off.  The changes are at places that a store has
for its own (`Store.Has`), which are directly in one of its directories, whatever names and ids a request
comes with.
-/

set_option autoImplicit false

namespace PluginChain

open Operation FileTree

/-! ## Single changes -/

/-- The places that a change is made at. -/
def Change.places : Change → List Place
  | .touch p | .write p _ | .remove p => [p]
  | .rename source target => [source, target]

namespace Change

variable {c : Change} {t t' : FileTree} {q : Place}

theorem lookup_of_apply (h : c.apply t = .ok t') (hq : q ∉ c.places) : t'.lookup q = t.lookup q := by
  cases c with
  | touch p => exact lookup_of_touch h fun hp => hq (List.mem_singleton.2 hp.symm)
  | write p content =>
    rw [(lookup_of_write h).2, if_neg]
    exact fun hp => hq (List.mem_singleton.2 hp.symm)
  | rename source target =>
    have hne : q ≠ source ∧ q ≠ target := by simpa [places] using hq
    rw [(lookup_of_rename h).2.2, if_neg hne.2.symm, if_neg hne.1.symm]
  | remove p =>
    rw [(lookup_of_remove h).2.2, if_neg]
    exact fun hp => hq (List.mem_singleton.2 hp.symm)

/-- No change makes a directory or takes one away. -/
theorem sameDirectories_of_apply (h : c.apply t = .ok t') : SameDirectories t t' := by
  have hwrite : ∀ {p : Place} {content : String}, t.write p content = .ok t' → SameDirectories t t' := by
    intro p content h
    obtain ⟨hfile, hlookup⟩ := lookup_of_write h
    refine sameDirectories_of_lookup fun q => ?_
    rw [hlookup]
    split
    · next hq =>
      subst hq
      exact Or.inr ⟨hfile, nofun⟩
    · exact Or.inl rfl
  cases c with
  | touch p =>
    change t.touch p = .ok t' at h
    unfold FileTree.touch at h
    split at h
    · cases h
      exact .refl t
    · cases h
      exact .refl t
    · exact hwrite h
  | write p content => exact hwrite h
  | rename source target =>
    obtain ⟨hsource, htarget, hlookup⟩ := lookup_of_rename h
    refine sameDirectories_of_lookup fun q => ?_
    rw [hlookup]
    split
    · next hq =>
      subst hq
      exact Or.inr ⟨htarget, hsource⟩
    · split
      · next hq =>
        subst hq
        exact Or.inr ⟨hsource, nofun⟩
      · exact Or.inl rfl
  | remove p =>
    obtain ⟨hfile, -, hlookup⟩ := lookup_of_remove h
    refine sameDirectories_of_lookup fun q => ?_
    rw [hlookup]
    split
    · next hq =>
      subst hq
      exact Or.inr ⟨hfile, nofun⟩
    · exact Or.inl rfl

theorem proper_of_apply (h : c.apply t = .ok t') (ht : t.Proper) : t'.Proper := by
  have hwrite : ∀ {p : Place} {content : String}, t.write p content = .ok t' → t'.Proper := by
    intro p content h
    unfold FileTree.write at h
    split at h
    · cases h
    · cases h
      exact ht.set _ _
    · cases h
  cases c with
  | touch p =>
    change t.touch p = .ok t' at h
    unfold FileTree.touch at h
    split at h
    · cases h
      exact ht
    · cases h
      exact ht
    · exact hwrite h
  | write p content => exact hwrite h
  | rename source target =>
    change t.rename source target = .ok t' at h
    unfold FileTree.rename at h
    split at h
    · cases h
    · cases h
    · cases h
    · cases h
      exact (ht.unset _).set _ _
    · cases h
  | remove p =>
    change t.remove p = .ok t' at h
    unfold FileTree.remove at h
    split at h
    · cases h
    · cases h
    · cases h
      exact ht.unset _

end Change

namespace StoreM

variable {t t' : FileTree}

theorem perform_cons (c : Change) (rest : List Change) :
    perform (c :: rest) = perform [c] >>= fun _ => perform rest := by
  funext t
  cases hc : c.apply t with
  | ok t' =>
    have hfirst : perform [c] t = .ok () t' := perform_cons_of_ok hc
    rw [perform_cons_of_ok hc, bind_of_ok hfirst]
  | error e =>
    have hfirst : perform [c] t = .error (.file e) t := perform_cons_of_error hc
    rw [perform_cons_of_error hc, bind_of_error hfirst]

/-- Whatever each change keeps is kept by all of them. -/
theorem keeps_perform {r : FileTree → FileTree → Prop} (hrefl : ∀ t, r t t)
    (htrans : ∀ t t' t'', r t t' → r t' t'' → r t t'') {changes : List Change}
    (h : ∀ c ∈ changes, ∀ t t', c.apply t = .ok t' → r t t') : Keeps r (perform changes) := by
  induction changes with
  | nil => exact hrefl
  | cons c rest ih =>
    intro t
    cases hc : c.apply t with
    | ok t' =>
      rw [perform_cons_of_ok hc]
      exact htrans _ _ _ (h c List.mem_cons_self t t' hc)
        (ih (fun c hc => h c (List.mem_cons_of_mem _ hc)) t')
    | error e =>
      rw [perform_cons_of_error hc]
      exact hrefl t

end StoreM

/-! ## Requests and replies -/

namespace Store

/-- A call of an operation, with the reading of the clock or the new id that it makes use of. -/
inductive DiskRequest
  | savePlugin (now : Instant) (record : PluginRecord)
  | pluginSource (name : String)
  | deletePlugin (name : String)
  | listPlugins
  | saveJob (job : Job)
  | getJob (id : Uuid)
  | jobInput (id : Uuid)
  | updateJob (now : Instant) (id : Uuid) (results : Results) (status : RunStatus)
  | listJobs
  | saveTask (id : Uuid) (task : Task)

/-- What an operation gives. -/
inductive Reply
  | done
  | source (text : String)
  | plugins (records : List PluginRecord)
  | job (job : Job)
  | input (d : Data)
  | jobs (jobs : List Job)

namespace DiskRequest

def run (s : Store) : DiskRequest → StoreM Reply
  | savePlugin now record => (fun _ => .done) <$> s.savePlugin now record
  | pluginSource name => .source <$> s.pluginSource name
  | deletePlugin name => (fun _ => .done) <$> s.deletePlugin name
  | listPlugins => .plugins <$> s.listPlugins
  | saveJob job => (fun _ => .done) <$> s.saveJob job
  | getJob id => .job <$> s.getJob id
  | jobInput id => .input <$> s.jobInput id
  | updateJob now id results status => (fun _ => .done) <$> s.updateJob now id results status
  | listJobs => .jobs <$> s.listJobs
  | saveTask id task => (fun _ => .done) <$> s.saveTask id task

/-- The values that a request comes with are those there are: an id has 128 bits, and an instant that is
kept can be written. -/
def Fits : DiskRequest → Prop
  | savePlugin now record => now.Representable ∧ record.createdAt.Representable
  | saveJob job => job.id.value < 2 ^ 128
  | getJob id | jobInput id | updateJob _ id _ _ => id.value < 2 ^ 128
  | _ => True

end DiskRequest

/-- The reply to a request, and the files after it. -/
def serve (s : Store) (r : DiskRequest) (t : FileTree) : Except StoreError Reply × FileTree :=
  match r.run s t with
  | .ok reply t => (.ok reply, t)
  | .error e t => (.error e, t)

/-- The replies to several requests, one after the other. -/
def serveAll (s : Store) : List DiskRequest → FileTree → List (Except StoreError Reply) × FileTree
  | [], t => ([], t)
  | r :: rest, t =>
    let (reply, t) := s.serve r t
    let (replies, t) := s.serveAll rest t
    (reply :: replies, t)

variable {s : Store} {r : DiskRequest} {t t' : FileTree}

theorem serve_of_ok {reply : Reply} (h : r.run s t = .ok reply t') : s.serve r t = (.ok reply, t') := by
  rw [serve, h]

theorem serve_of_error {e : StoreError} (h : r.run s t = .error e t') : s.serve r t = (.error e, t') := by
  rw [serve, h]

/-! ## What a request changes -/

/-- The job that outcomes are entered into, which is looked for behind the lock. -/
def lockedJob (s : Store) (id : Uuid) : StoreM Job := do
  StoreM.perform [s.lock]
  StoreM.readRecord Job.codec (s.jobFile id) (noJob id)

/-- The lock, and the changes that follow if what was looked for behind it is found. -/
def lockedChanges {α : Type} (s : Store) (rest : α → List Change) :
    EStateM.Result StoreError FileTree α → List Change
  | .ok a _ => s.lock :: rest a
  | .error _ _ => [s.lock]

namespace DiskRequest

/-- The single changes of an operation, in their order.  What is written depends on what is there. -/
def changes (s : Store) (t : FileTree) : DiskRequest → List Change
  | savePlugin now record =>
    s.lockedChanges
      (fun draft => StoreM.recordChanges (s.pluginFile draft.name) (PluginRecord.codec.toJson draft))
      (s.draftPlugin now record t)
  | deletePlugin name =>
    match t.read (s.pluginFile name) with
    | .error .missing => []
    | _ => [.remove (s.pluginFile name)]
  | saveJob job => s.lock :: StoreM.recordChanges (s.jobFile job.id) (Job.codec.toJson job)
  | updateJob now id results status =>
    s.lockedChanges (fun job => StoreM.recordChanges (s.jobFile id)
        (Job.codec.toJson (withRun job now results status)))
      (s.lockedJob id t)
  | saveTask id task => [.write (s.taskFile id) (Task.codec.toYaml task)]
  | pluginSource _ | listPlugins | getJob _ | jobInput _ | listJobs => []

end DiskRequest

/-- What is looked for behind the lock, and then changed, is changed as the single changes say. -/
theorem stateOf_behind_lock {α β : Type} (s : Store) {look : StoreM α} (hlook : LooksOnly look)
    (next : α → StoreM β) {rest : α → List Change}
    (hnext : ∀ a t, stateOf (next a t) = stateOf (StoreM.perform (rest a) t)) (t : FileTree) :
    let found := StoreM.perform [s.lock] >>= fun _ => look
    stateOf ((found >>= next) t) = stateOf (StoreM.perform (s.lockedChanges rest (found t)) t) := by
  intro found
  cases hlock : StoreM.perform [s.lock] t with
  | error e t₁ =>
    have hfound : found t = .error e t₁ := bind_of_error hlock _
    rw [bind_of_error hfound, hfound, lockedChanges, hlock]
    rfl
  | ok u t₁ =>
    have hfound : found t = look t₁ := bind_of_ok hlock _
    rcases hlook.cases t₁ with ⟨a, ha⟩ | ⟨e, he⟩
    · rw [bind_of_ok (hfound.trans ha), hfound, ha, lockedChanges, StoreM.perform_cons, bind_of_ok hlock,
        hnext]
    · rw [bind_of_error (hfound.trans he), hfound, he, lockedChanges, hlock]
      rfl

namespace DiskRequest

/-- **An operation ends where its changes end.** -/
theorem stateOf_run (s : Store) (r : DiskRequest) (t : FileTree) :
    stateOf (r.run s t) = stateOf (StoreM.perform (r.changes s t) t) := by
  cases r with
  | savePlugin now record =>
    rw [run, stateOf_map]
    exact s.stateOf_behind_lock ((StoreM.looksOnly_readRecord? _ _).bind fun _ => looksOnly_pure _)
      s.keepPlugin (fun _ _ => rfl) t
  | pluginSource name =>
    rw [run, stateOf_map]
    exact ((StoreM.looksOnly_readRecord _ _ _).bind fun _ => looksOnly_pure _) t
  | deletePlugin name =>
    rw [run, stateOf_map, changes]
    split
    · next h =>
      rw [deletePlugin_of_missing h]
      rfl
    · next h => rw [deletePlugin_of_ne_missing h]
  | listPlugins =>
    rw [run, stateOf_map]
    exact StoreM.looksOnly_readRecords _ _ t
  | saveJob job =>
    rw [run, stateOf_map, changes, StoreM.perform_cons]
    rfl
  | getJob id =>
    rw [run, stateOf_map]
    exact StoreM.looksOnly_readRecord _ _ _ t
  | jobInput id =>
    rw [run, stateOf_map]
    exact ((StoreM.looksOnly_readRecord _ _ _).bind fun _ => looksOnly_pure _) t
  | updateJob now id results status =>
    have hupdate : s.updateJob now id results status = s.lockedJob id >>= fun job =>
        StoreM.writeRecord Job.codec (s.jobFile id) (withRun job now results status) := by
      rw [lockedJob, bind_assoc]
      rfl
    rw [run, stateOf_map, hupdate]
    exact s.stateOf_behind_lock (StoreM.looksOnly_readRecord _ _ _) _ (fun _ _ => rfl) t
  | listJobs =>
    rw [run, stateOf_map]
    exact ((StoreM.looksOnly_readRecords _ _).bind fun _ => looksOnly_pure _) t
  | saveTask id task =>
    rw [run, stateOf_map]
    rfl

end DiskRequest

/-! ## Where a request changes something -/

/-- The store has this place for its own: it is directly in one of the three directories, or is that of
the lock. -/
def Has (s : Store) (q : Place) : Prop :=
  q = s.root ++ [".lock"] ∨
    ∃ name, IsName name ∧ (q = s.plugins ++ [name] ∨ q = s.jobs ++ [name] ∨ q = s.tasks ++ [name])

theorem isName_pluginName (name : String) {suffix : String}
    (hsuffix : '/' ∉ suffix.toList ∧ '\x00' ∉ suffix.toList) :
    IsName (Digest.ofText (Text.trim name) ++ suffix) := by
  refine isName_append (Digest.ofText_ne_empty _) (fun c hc => ?_) hsuffix
  have hdigit := Digest.isDigit_of_mem_ofText hc
  exact ⟨hdigit.ne (by decide), hdigit.ne (by decide), hdigit.ne (by decide)⟩

theorem isName_idName (id : Uuid) {suffix : String}
    (hsuffix : '/' ∉ suffix.toList ∧ '\x00' ∉ suffix.toList) : IsName (id.toText ++ suffix) := by
  refine isName_append id.toText_ne_empty (fun c hc => ?_) hsuffix
  have hdigit : ∀ n < 16, Uuid.hexDigit n ≠ '.' ∧ Uuid.hexDigit n ≠ '/' ∧ Uuid.hexDigit n ≠ '\x00' := by
    decide
  rcases Uuid.isDigit_or_hyphen hc with ⟨n, hn, rfl⟩ | rfl
  · exact hdigit n hn
  · decide

/-- The changes that write a record are at its file and at the one beside it. -/
theorem mem_places_recordChanges {p q : Place} {content : String} {c : Change}
    (hc : c ∈ StoreM.recordChanges p content) (hq : q ∈ c.places) : q = p ∨ q = StoreM.besideOf p := by
  simp only [StoreM.recordChanges, List.mem_cons, List.not_mem_nil, or_false] at hc
  rcases hc with rfl | rfl
  · exact Or.inr (List.mem_singleton.1 hq)
  · simp only [Change.places, List.mem_cons, List.not_mem_nil, or_false] at hq
    exact hq.symm

theorem has_lock {q : Place} (hq : q ∈ s.lock.places) : s.Has q := Or.inl (List.mem_singleton.1 hq)

theorem has_of_mem_lockedChanges {α : Type} {rest : α → List Change}
    {found : EStateM.Result StoreError FileTree α}
    (hrest : ∀ a, ∀ c ∈ rest a, ∀ q ∈ c.places, s.Has q) {c : Change} (hc : c ∈ s.lockedChanges rest found)
    {q : Place} (hq : q ∈ c.places) : s.Has q := by
  cases found with
  | error e t =>
    obtain rfl := List.mem_singleton.1 hc
    exact has_lock hq
  | ok a t =>
    rcases List.mem_cons.1 hc with rfl | hc
    · exact has_lock hq
    · exact hrest a c hc q hq

theorem has_pluginFile (s : Store) (name : String) : s.Has (s.pluginFile name) :=
  Or.inr ⟨_, isName_pluginName name (by decide), Or.inl rfl⟩

theorem has_jobFile (s : Store) (id : Uuid) : s.Has (s.jobFile id) :=
  Or.inr ⟨_, isName_idName id (by decide), Or.inr (Or.inl rfl)⟩

theorem has_plugin_changes {name content : String} {c : Change}
    (hc : c ∈ StoreM.recordChanges (s.pluginFile name) content) {q : Place} (hq : q ∈ c.places) : s.Has q := by
  rcases mem_places_recordChanges hc hq with rfl | rfl
  · exact s.has_pluginFile name
  · rw [pluginFile, StoreM.besideOf_append, String.append_assoc]
    exact Or.inr ⟨_, isName_pluginName name (by decide), Or.inl rfl⟩

theorem has_job_changes {id : Uuid} {content : String} {c : Change}
    (hc : c ∈ StoreM.recordChanges (s.jobFile id) content) {q : Place} (hq : q ∈ c.places) : s.Has q := by
  rcases mem_places_recordChanges hc hq with rfl | rfl
  · exact s.has_jobFile id
  · rw [jobFile, StoreM.besideOf_append, String.append_assoc]
    exact Or.inr ⟨_, isName_idName id (by decide), Or.inr (Or.inl rfl)⟩

/-- **A request stays inside the store.** -/
theorem has_of_mem_changes {c : Change} (hc : c ∈ r.changes s t) {q : Place} (hq : q ∈ c.places) : s.Has q := by
  cases r with
  | savePlugin now record => exact has_of_mem_lockedChanges (fun a c hc q hq => has_plugin_changes hc hq) hc hq
  | deletePlugin name =>
    rw [DiskRequest.changes] at hc
    split at hc
    · cases hc
    · obtain rfl := List.mem_singleton.1 hc
      rw [List.mem_singleton.1 hq]
      exact s.has_pluginFile name
  | saveJob job =>
    rcases List.mem_cons.1 hc with rfl | hc
    · exact has_lock hq
    · exact has_job_changes hc hq
  | updateJob now id results status =>
    exact has_of_mem_lockedChanges (fun a c hc q hq => has_job_changes hc hq) hc hq
  | saveTask id task =>
    obtain rfl := List.mem_singleton.1 hc
    rw [List.mem_singleton.1 hq]
    exact Or.inr ⟨_, isName_idName id (by decide), Or.inr (Or.inr rfl)⟩
  | _ => cases hc

/-! ## What a request leaves -/

theorem snd_serve (s : Store) (r : DiskRequest) (t : FileTree) : (s.serve r t).2 = stateOf (r.run s t) := by
  rw [serve]
  cases r.run s t <;> rfl

/-- What holds between a disk and the next one, change by change, holds between those before and after a
request. -/
theorem serve_rel (rel : FileTree → FileTree → Prop) (hrefl : ∀ t, rel t t)
    (htrans : ∀ t t' t'', rel t t' → rel t' t'' → rel t t'')
    (h : ∀ c ∈ r.changes s t, ∀ t t', c.apply t = .ok t' → rel t t') : rel t (s.serve r t).2 := by
  rw [snd_serve, DiskRequest.stateOf_run]
  exact StoreM.keeps_perform hrefl htrans h t

/-- **What a request changes is the store's own.** -/
theorem lookup_serve_of_not_has {q : Place} (hq : ¬ s.Has q) : (s.serve r t).2.lookup q = t.lookup q :=
  serve_rel (fun t t' => t'.lookup q = t.lookup q) (fun _ => rfl) (fun _ _ _ h h' => h'.trans h)
    fun _ hc _ _ happly => Change.lookup_of_apply happly fun hmem => hq (has_of_mem_changes hc hmem)

theorem sameDirectories_serve (s : Store) (r : DiskRequest) (t : FileTree) :
    SameDirectories t (s.serve r t).2 :=
  serve_rel SameDirectories .refl (fun _ _ _ => .trans) fun _ _ _ _ => Change.sameDirectories_of_apply

theorem proper_serve (s : Store) (r : DiskRequest) (h : t.Proper) : (s.serve r t).2.Proper :=
  serve_rel (fun t t' => t.Proper → t'.Proper) (fun _ h => h) (fun _ _ _ h h' ht => h' (h ht))
    (fun _ _ _ _ => Change.proper_of_apply) h

end Store

end PluginChain
