import PluginChain.Proofs.Service.Agreement
import PluginChain.Proofs.Store.Crash

/-!
# Registrations among other calls

Any number of clients have calls under way on one service: some register plugins, some look plugins up and
some run them.  A `Client` is how far one of them got, and between two of its steps any other may move.  A
registration moves as in `Stage.advance`; a plugin is run in two steps, because it is looked up in the
first and what happens to the registry after that does not matter to it (`Client.execute_eq_steps`).

What has happened that others can see is written into a log (`Event`).

* `Stage.registers_proceed` says all that a step of a registration can do.
* `Contest.Step` is a step of some client.  A store can also fail for reasons of its own, wherever it is
  asked for something.
-/

set_option autoImplicit false

namespace PluginChain

open Operation FileTree

/-! ## The steps of a registration -/

namespace StoreM

/-- Changes fail at the first, which changes nothing, or behind it. -/
theorem perform_cons_eq_error {c : Change} {rest : List Change} {t t' : FileTree} {e : StoreError}
    (h : perform (c :: rest) t = .error e t') :
    t' = t ∨ ∃ t₁, c.apply t = .ok t₁ ∧ perform rest t₁ = .error e t' := by
  cases happly : c.apply t with
  | ok t₁ => exact Or.inr ⟨t₁, rfl, (perform_cons_of_ok happly).symm.trans h⟩
  | error why =>
    rw [perform_cons_of_error happly] at h
    cases h
    exact Or.inl rfl

/-- Where changes fail of which only the last is at a record, no record is another. -/
theorem sameRecords_of_error {changes : List Change} (hlast : WholeLast changes) {t t' : FileTree}
    {e : StoreError} (h : perform changes t = .error e t') : SameRecords t t' := by
  induction changes generalizing t with
  | nil => cases h
  | cons c rest ih =>
    rcases perform_cons_eq_error h with rfl | ⟨t₁, happly, hrest⟩
    · exact .refl _
    · cases hlast with
      | rename source target => cases hrest
      | remove p => cases hrest
      | beside hc hlast => exact (hc.sameRecords happly).trans (ih hlast hrest)

end StoreM

namespace Store

variable {s : Store} {t : FileTree}

/-- To look at the old record of a plugin changes no record. -/
theorem sameRecords_draftPlugin (s : Store) (now : Instant) (record : PluginRecord) (t : FileTree) :
    SameRecords t (stateOf (s.draftPlugin now record t)) := by
  have hlock : Keeps SameRecords (StoreM.perform [s.lock]) :=
    StoreM.keeps_perform .refl (fun _ _ _ => .trans) fun c hc t t' happly => by
      obtain rfl := List.mem_singleton.1 hc
      exact Change.IsBeside.sameRecords (c := s.lock) s.noRecord_lock happly
  exact hlock.bind (fun _ _ _ => .trans) (fun _ =>
    (LooksOnly.keeps .refl ((StoreM.looksOnly_readRecord? _ _).bind fun _ => looksOnly_pure _))) t

end Store

/-- What is installed for a registration. -/
def Registration.plugin (r : Registration) : CompiledPlugin := ⟨r.compiled, r.name, r.description, r.now⟩

/-- The record tells what was to be registered. -/
structure PluginRecord.IsOf (record : PluginRecord) (r : Registration) : Prop where
  name : record.name = r.name
  description : record.description = r.description
  source : record.source = r.source

namespace Stage

/-- All that a step of a registration can do: the stage after it and the service then. -/
inductive Registers (s : Service) : Stage → Stage → Service → Prop
  | refused (now : Instant) (given description source : String) (e : ChainError) :
      Registers s (ready (.register now given description source)) (returned (.error e)) s
  | compiled {r : Registration} {given : String} (hname : r.name = Text.trim given) :
      Registers s (ready (.register r.now given r.description r.source)) (waiting r) s
  | admitted (r : Registration) : Registers s (waiting r) (admitted r) s
  | drafted (r : Registration) (record : PluginRecord) {files : FileTree}
      (hsame : SameRecords s.files files) :
      Registers s (admitted r) (drafted r record) { s with files }
  | failed {stage : Stage} (e : ChainError) {files : FileTree} (hstage : stage.isAlone = true)
      (hkept : ∀ r moment, stage ≠ kept r moment) (hsame : SameRecords s.files files) :
      Registers s stage (returned (.error e)) { s with files }
  | kept (r : Registration) {record : PluginRecord} {files : FileTree} (hrecord : record.IsOf r)
      (hfile : StoreM.recordAt? PluginRecord.codec files (s.store.pluginFile r.name) = some record)
      (hothers : ∀ k, k ≠ Store.key r.name →
        files.lookup (s.store.plugins ++ [k ++ ".json"]) =
          s.files.lookup (s.store.plugins ++ [k ++ ".json"])) :
      Registers s (drafted r record) (kept r files) { s with files }
  | installed (r : Registration) (moment : FileTree) :
      Registers s (kept r moment) (returned (.ok (.info r.plugin.info)))
        { s with engine := { s.engine with registry := s.engine.registry.insert r.plugin } }
  | ended (r : Except ChainError Answer) : Registers s (returned r) (returned r) s

/-- The stage is one of a call that registers a plugin. -/
def IsRegistering : Stage → Prop
  | ready (.register _ _ _ _) | waiting _ | admitted _ | drafted _ _ | kept _ _ | returned _ => True
  | _ => False

variable {stage next : Stage} {s s' : Service}

theorem registers_ready (s : Service) (now : Instant) (given description source : String) :
    let stage := ready (.register now given description source)
    stage.Registers s (stage.proceed s).1 (stage.proceed s).2 := by
  intro stage
  rcases proceed_register s now given description source with ⟨e, hproceed⟩ | ⟨name, c, hname, -, hproceed⟩
  · rw [show stage.proceed s = _ from hproceed]
    exact .refused ..
  · rw [show stage.proceed s = _ from hproceed]
    exact .compiled (r := ⟨now, name, description, source, c⟩) (Registry.nameOf_eq_ok hname).1

theorem registers_admitted (s : Service) (r : Registration) :
    (admitted r).Registers s ((admitted r).proceed s).1 ((admitted r).proceed s).2 := by
  have hsame := s.store.sameRecords_draftPlugin r.now r.record s.files
  rcases proceed_admitted s r with ⟨e, files, hdraft, hproceed⟩ | ⟨draft, files, hdraft, hproceed⟩
  · rw [hdraft] at hsame
    rw [hproceed]
    exact .failed _ rfl nofun hsame
  · rw [hdraft] at hsame
    rw [hproceed]
    exact .drafted r draft hsame

theorem registers_drafted {r : Registration} {record : PluginRecord}
    (h : (drafted r record).Sound s.limits s.store) :
    (drafted r record).Registers s ((drafted r record).proceed s).1 ((drafted r record).proceed s).2 := by
  obtain ⟨-, hname, hview, hsource, hcreated, hupdated⟩ := h
  rcases proceed_drafted s r record with ⟨e, files, hkeep, hproceed⟩ | ⟨files, hkeep, hproceed⟩
  · rw [hproceed]
    exact .failed _ rfl nofun (StoreM.sameRecords_of_error (Store.wholeLast_recordChanges _ _ _) hkeep)
  · have hfile := Store.recordAt?_keepPlugin hkeep hcreated hupdated
    have hdescription : record.description = r.description := congrArg PluginView.description hview
    rw [Store.keepPlugin, Store.pluginFile_eq, hname] at hkeep
    rw [hname] at hfile
    rw [hproceed]
    refine .kept r ⟨hname, hdescription, hsource⟩ hfile fun k hk => ?_
    rw [StoreM.lookup_json_of_writeRecord hkeep, if_neg fun h => hk h.2.symm]

theorem registers_kept {r : Registration} {moment : FileTree} (h : (kept r moment).Sound s.limits s.store) :
    (kept r moment).Registers s ((kept r moment).proceed s).1 ((kept r moment).proceed s).2 := by
  rw [proceed_kept h.1.name]
  exact .installed r moment

/-- **What a step of a registration does**, in a stage that knows what it knows. -/
theorem registers_proceed (hstage : stage.IsRegistering) (h : stage.Sound s.limits s.store) :
    stage.Registers s (stage.proceed s).1 (stage.proceed s).2 := by
  cases stage with
  | ready call =>
    cases call with
    | register now given description source => exact registers_ready s now given description source
    | remove given => exact hstage.elim
    | load now => exact hstage.elim
  | waiting r => exact .admitted r
  | admitted r => exact registers_admitted s r
  | drafted r record => exact registers_drafted h
  | kept r moment => exact registers_kept h
  | deleted given stored moment => exact hstage.elim
  | reading now left found => exact hstage.elim
  | loading now left report => exact hstage.elim
  | returned r => exact .ended r

end Stage

/-! ## Clients -/

/-- A call of a client. -/
inductive ClientCall
  | register (now : Instant) (given description source : String)
  | lookUp (name : String)
  | execute (name : String) (input params : Data)

/-- The readings of the clock can be written. -/
def ClientCall.Fits : ClientCall → Prop
  | register now _ _ _ => now.Representable
  | lookUp _ | execute _ _ _ => True

/-- How far a client got with its call. -/
inductive Client
  | registering (stage : Stage)
  | looking (name : String)
  | looked (r : Except ChainError CompiledPlugin)
  | starting (name : String) (input params : Data)
  /-- The plugin was looked up, and now it runs. -/
  | running (p : CompiledPlugin) (input params : Data)
  | executed (r : Except ChainError Data)

/-- What has happened that others can see. -/
inductive Event
  /-- The store has kept the plugin of a client.  These are the files right after. -/
  | kept (client : Nat) (r : Registration) (moment : FileTree)
  /-- The registry has taken the plugin of a client in, whose registration is over. -/
  | installed (client : Nat) (r : Registration)
  /-- Someone has looked a name up and has found a plugin. -/
  | saw (name : String) (p : CompiledPlugin)

/-- What a registration does that others can see, in the step from one stage to the next. -/
def Stage.events (client : Nat) : Stage → Stage → List Event
  | drafted _ _, kept r moment => [.kept client r moment]
  | kept r _, returned (.ok _) => [.installed client r]
  | _, _ => []

/-- What is seen when a name is looked up. -/
def Registry.sights (r : Registry) (name : String) : List Event :=
  match r.get? name with
  | some p => [.saw name p]
  | none => []

namespace Client

/-- A client that has not begun. -/
def ofCall : ClientCall → Client
  | .register now given description source => registering (.ready (.register now given description source))
  | .lookUp name => looking name
  | .execute name input params => starting name input params

/-- The next step of a client: how far it is then, the service then, and what can be seen of it. -/
def proceed (i : Nat) (s : Service) : Client → Client × Service × List Event
  | registering stage =>
    let (next, s') := stage.proceed s
    (registering next, s', stage.events i next)
  | looking name => (looked (s.engine.registry.lookup name), s, s.engine.registry.sights name)
  | starting name input params =>
    match s.engine.start name with
    | .ok (p, engine) => (running p input params, { s with engine }, s.engine.registry.sights name)
    | .error f => (executed (.error (.ofFailure f)), s, [])
  | running p input params =>
    let r := ((s.engine.evaluator none) p input params).mapError ExecutionError.toFailure
    (executed (r.mapError ChainError.ofFailure), { s with engine := s.engine.finish }, [])
  | looked r => (looked r, s, [])
  | executed r => (executed r, s, [])

/-- The client needs that no other is alone. -/
def isWaiting : Client → Bool
  | registering stage => stage.isWaiting
  | _ => false

/-- The client is alone among those that register a plugin. -/
def isAlone : Client → Bool
  | registering stage => stage.isAlone
  | _ => false

/-- The store has kept the plugin of the client, and the registry has not taken it in yet. -/
def isBetween : Client → Bool
  | registering (.kept _ _) => true
  | _ => false

/-- The client registers a plugin. -/
def isRegistering : Client → Bool
  | registering _ => true
  | _ => false

/-- The registration of the client is over. -/
def isOver : Client → Bool
  | registering (.returned _) => true
  | _ => false

variable {client : Client}

/-- A client that registers nothing has no part in who is alone and who has passed. -/
theorem of_reader (h : client.isRegistering = false) :
    client.isAlone = false ∧ client.isBetween = false ∧ client.isOver = false := by
  cases client with
  | registering stage => cases h
  | _ => exact ⟨rfl, rfl, rfl⟩

/-- A plugin that nothing comes between to run is run as the service does it. -/
theorem execute_eq_steps (i : Nat) (s : Service) (name : String) (input params : Data) :
    let first := (starting name input params).proceed i s
    let second := first.1.proceed i first.2.1
    (second.1, second.2.1) =
      match Service.execute name input params s with
      | .ok d s' => (executed (.ok d), s')
      | .error e s' => (executed (.error e), s') := by
  intro first second
  have hexecute : Service.execute name input params s =
      (ofExcept (s.engine.executePlugin name input params none).1 : ServiceM Data)
        { s with engine := (s.engine.executePlugin name input params none).2 } := rfl
  rw [hexecute, Engine.executePlugin, Engine.runPlugin]
  cases hget : s.engine.registry.get? name with
  | none => simp only [second, first, proceed, Engine.start, hget, Except.mapError]; rfl
  | some p =>
    simp only [second, first, proceed, Engine.start, hget]
    change (executed (Except.mapError _ (Except.mapError _ (s.engine.evaluator none p input params))), _) = _
    cases s.engine.evaluator none p input params <;> rfl

end Client

/-- A service with clients whose calls are under way, and what has happened so far, the latest first. -/
structure Contest where
  service : Service
  clients : List Client
  log : List Event

namespace Contest

def begin_ (s : Service) (calls : List ClientCall) : Contest := ⟨s, calls.map .ofCall, []⟩

/-- A step of the client at an index, if it can move. -/
def move (t : Contest) (i : Nat) : Option Contest :=
  match t.clients[i]? with
  | none => none
  | some client =>
    if client.isWaiting && t.clients.any Client.isAlone then none
    else
      let (next, service, events) := client.proceed i t.service
      some ⟨service, t.clients.set i next, events ++ t.log⟩

/-- The clients moving in an order, if each of them can. -/
def after (t : Contest) (turns : List Nat) : Option Contest := turns.foldlM move t

/-- A step of some client. -/
inductive Step (t : Contest) : Contest → Prop
  | move {t' : Contest} (i : Nat) (h : t.move i = some t') : Step t t'
  /-- The store fails a client that looks at it or writes to it.  Nothing is known then of the files that
  are no records. -/
  | fail {i : Nat} {stage : Stage} (e : StoreError) {files : FileTree}
      (hi : t.clients[i]? = some (.registering stage)) (hstage : stage.isAlone = true)
      (hkept : ∀ r moment, stage ≠ .kept r moment) (hsame : SameRecords t.service.files files) :
      Step t ⟨{ t.service with files }, t.clients.set i (.registering (.returned (.error (.store e)))), t.log⟩

/-- What a service can come to on which these calls are made, in any order of their steps. -/
inductive Reached (s : Service) (calls : List ClientCall) : Contest → Prop
  | begin_ : Reached s calls (begin_ s calls)
  | step {t t' : Contest} (h : Reached s calls t) (hstep : t.Step t') : Reached s calls t'

variable {s : Service} {calls : List ClientCall} {t t' : Contest}

theorem Reached.after (h : Reached s calls t) {turns : List Nat} (hafter : t.after turns = some t') :
    Reached s calls t' :=
  foldlM_keeps (fun h hmove => h.step (.move _ hmove)) h hafter

end Contest

end PluginChain
