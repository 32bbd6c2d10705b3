import Mathlib.Data.List.Find
import PluginChain.Proofs.Service.Contest

/-!
# Registrations have one winner

Registrations pass one after the other: from before a client looks at the store until its plugin is installed
it is alone among those that register one.  So the plugins that the store has kept are those that were
installed, in the same order, but for one at most that is between the store and the registry
(`Contest.Ordered`).  The registry has what was installed last under a name, and the store what was kept last
under a key (`Contest.Mirrored`).

Names have a key in common where their digests are the same.  A name that has its digest for itself has one
winner, the client that succeeded last: registry and store both have just what this client asked for
(`Contest.one_winner`).  Two names of one digest have two plugins in the registry but one record in the
store (`Contest.two_plugins_one_record`).

* `Contest.Turned` says all that a step can do to what others see, and `Contest.Knows.step` that every step
  is one of these.
* `Contest.Logged` is about what was done before what: nothing is installed that was not kept before, and
  nothing is found that was not installed before or there at the start.
-/

set_option autoImplicit false

namespace PluginChain

open Operation FileTree

/-! ## What a client knows -/

/-- The stage is one of the registration that was asked for. -/
def Stage.IsOf (call : ClientCall) : Stage → Prop
  | ready (.register now given description source) => call = .register now given description source
  | waiting r | admitted r | drafted r _ | kept r _ =>
    ∃ given, call = .register r.now given r.description r.source ∧ r.name = Text.trim given
  | returned _ => True
  | _ => False

namespace Stage

variable {stage next : Stage} {call : ClientCall} {s s' : Service}

theorem IsOf.isRegistering (h : stage.IsOf call) : stage.IsRegistering := by
  unfold IsOf at h
  split at h <;> trivial

theorem Registers.isOf (h : stage.Registers s next s') (hcall : stage.IsOf call) : next.IsOf call := by
  cases h with
  | refused now given description source e => trivial
  | compiled hname => exact ⟨_, hcall, hname⟩
  | admitted r => exact hcall
  | drafted r record hsame => exact hcall
  | failed e hstage hkept hsame => trivial
  | kept r hrecord hfile hothers => exact hcall
  | installed r moment => trivial
  | ended r => trivial

theorem Registers.limits (h : stage.Registers s next s') : s'.limits = s.limits := by
  cases h <;> rfl

theorem Registers.store (h : stage.Registers s next s') : s'.store = s.store := by
  cases h <;> rfl

end Stage

namespace Contest

variable {s₀ : Service} {calls : List ClientCall} {t t' : Contest} {i j : Nat} {client : Client}

/-- What the clients know, however far they got. -/
structure Knows (s₀ : Service) (calls : List ClientCall) (t : Contest) : Prop where
  limits : t.service.limits = s₀.limits
  store : t.service.store = s₀.store
  stages : ∀ (i : Nat) (stage : Stage), t.clients[i]? = some (.registering stage) →
    stage.Sound s₀.limits s₀.store ∧ ∃ call, calls[i]? = some call ∧ stage.IsOf call

/-! ## What a step does -/

/-- All that a step of a client can do to what others see.  What is not said to change stays. -/
inductive Turned (t : Contest) : Contest → Prop
  | quiet {i : Nat} {client next : Client} {service : Service} {events : List Event}
      (hi : t.clients[i]? = some client) (hclient : client.isBetween = false) (hnext : next.isBetween = false)
      (hended : client.isOver = false ∨ next = client)
      (halone : next.isAlone = false ∨ client.isAlone = true ∨ ∀ c ∈ t.clients, c.isAlone = false)
      (hregistry : service.engine.registry = t.service.engine.registry)
      (hfiles : SameRecords t.service.files service.files)
      (hevents : events = [] ∨
        ∃ name p, events = [.saw name p] ∧ t.service.engine.registry.get? name = some p) :
      Turned t ⟨service, t.clients.set i next, events ++ t.log⟩
  | keeps {i : Nat} {r : Registration} {record : PluginRecord} {files : FileTree}
      (hi : t.clients[i]? = some (.registering (.drafted r record))) (hrecord : record.IsOf r)
      (hfile : StoreM.recordAt? PluginRecord.codec files (t.service.store.pluginFile r.name) = some record)
      (hothers : ∀ k, k ≠ Store.key r.name → files.lookup (t.service.store.plugins ++ [k ++ ".json"]) =
        t.service.files.lookup (t.service.store.plugins ++ [k ++ ".json"])) :
      Turned t ⟨{ t.service with files }, t.clients.set i (.registering (.kept r files)),
        .kept i r files :: t.log⟩
  | installs {i : Nat} {r : Registration} {moment : FileTree}
      (hi : t.clients[i]? = some (.registering (.kept r moment))) :
      Turned t ⟨{ t.service with
          engine := { t.service.engine with registry := t.service.engine.registry.insert r.plugin } },
        t.clients.set i (.registering (.returned (.ok (.info r.plugin.info)))), .installed i r :: t.log⟩

/-- The step of a registration. -/
theorem turned_of_registers {stage next : Stage} {service : Service}
    (hi : t.clients[i]? = some (.registering stage))
    (hfree : stage.isWaiting = true → ∀ c ∈ t.clients, c.isAlone = false)
    (h : stage.Registers t.service next service) :
    t.Turned ⟨service, t.clients.set i (.registering next), stage.events i next ++ t.log⟩ := by
  cases h with
  | refused now given description source e =>
    exact .quiet hi rfl rfl (Or.inl rfl) (Or.inl rfl) rfl (.refl _) (Or.inl rfl)
  | compiled hname => exact .quiet hi rfl rfl (Or.inl rfl) (Or.inl rfl) rfl (.refl _) (Or.inl rfl)
  | admitted r =>
    exact .quiet hi rfl rfl (Or.inl rfl) (Or.inr (Or.inr (hfree rfl))) rfl (.refl _) (Or.inl rfl)
  | drafted r record hsame =>
    exact .quiet hi rfl rfl (Or.inl rfl) (Or.inr (Or.inl rfl)) rfl hsame (Or.inl rfl)
  | failed e hstage hkept hsame =>
    cases stage with
    | admitted r => exact .quiet hi rfl rfl (Or.inl rfl) (Or.inl rfl) rfl hsame (Or.inl rfl)
    | drafted r record => exact .quiet hi rfl rfl (Or.inl rfl) (Or.inl rfl) rfl hsame (Or.inl rfl)
    | kept r moment => exact absurd rfl (hkept r moment)
    | _ => cases hstage
  | kept r hrecord hfile hothers => exact .keeps hi hrecord hfile hothers
  | installed r moment => exact .installs hi
  | ended r => exact .quiet hi rfl rfl (Or.inr rfl) (Or.inl rfl) rfl (.refl _) (Or.inl rfl)

theorem sights_cases (r : Registry) (name : String) :
    r.sights name = [] ∨ ∃ name' p, r.sights name = [.saw name' p] ∧ r.get? name' = some p := by
  rw [Registry.sights]
  cases hget : r.get? name with
  | none => exact Or.inl rfl
  | some p => exact Or.inr ⟨name, p, rfl, hget⟩

/-- The step of a client that registers nothing. -/
theorem proceed_of_reader (hclient : client.isRegistering = false) (s : Service) :
    (client.proceed i s).1.isRegistering = false ∧ (client.proceed i s).2.1.store = s.store ∧
      (client.proceed i s).2.1.engine.registry = s.engine.registry ∧
      (client.proceed i s).2.1.files = s.files ∧
      ((client.proceed i s).2.2 = [] ∨
        ∃ name p, (client.proceed i s).2.2 = [.saw name p] ∧ s.engine.registry.get? name = some p) := by
  cases client with
  | registering stage => cases hclient
  | looking name => exact ⟨rfl, rfl, rfl, rfl, sights_cases _ name⟩
  | looked r => exact ⟨rfl, rfl, rfl, rfl, Or.inl rfl⟩
  | starting name input params =>
    rw [Client.proceed, Engine.start]
    cases s.engine.registry.get? name with
    | none => exact ⟨rfl, rfl, rfl, rfl, Or.inl rfl⟩
    | some p => exact ⟨rfl, rfl, rfl, rfl, sights_cases _ name⟩
  | running p input params => exact ⟨rfl, rfl, rfl, rfl, Or.inl rfl⟩
  | executed r => exact ⟨rfl, rfl, rfl, rfl, Or.inl rfl⟩

theorem move_eq_some (h : t.move i = some t') : ∃ client, t.clients[i]? = some client ∧
    (client.isWaiting = true → ∀ c ∈ t.clients, c.isAlone = false) ∧
    t' = ⟨(client.proceed i t.service).2.1, t.clients.set i (client.proceed i t.service).1,
      (client.proceed i t.service).2.2 ++ t.log⟩ := by
  rw [move] at h
  split at h
  · cases h
  · next client hi =>
    split at h
    · cases h
    · next hfree =>
      cases h
      refine ⟨client, hi, fun hwaiting c hc => ?_, rfl⟩
      rw [hwaiting, Bool.true_and] at hfree
      exact Bool.eq_false_iff.2 fun halone => hfree (List.any_eq_true.2 ⟨c, hc, halone⟩)

/-- A client that moves on knows what it knows, if no other forgets anything. -/
theorem Knows.set (h : t.Knows s₀ calls) {next : Client} {service : Service} {log : List Event}
    (hlimits : service.limits = t.service.limits) (hstore : service.store = t.service.store)
    (hnext : ∀ stage, next = .registering stage →
      stage.Sound s₀.limits s₀.store ∧ ∃ call, calls[i]? = some call ∧ stage.IsOf call) :
    Knows s₀ calls ⟨service, t.clients.set i next, log⟩ := by
  refine ⟨hlimits.trans h.limits, hstore.trans h.store, fun j stage hj => ?_⟩
  rcases getElem?_set_cases hj with ⟨rfl, hstage⟩ | ⟨-, hj⟩
  · exact hnext stage hstage.symm
  · exact h.stages j stage hj

/-- **A step of a client** is one of those there are, and what the clients know stays true. -/
theorem Knows.step (h : t.Knows s₀ calls) (hstep : t.Step t') : t'.Knows s₀ calls ∧ t.Turned t' := by
  cases hstep with
  | move i hmove =>
    obtain ⟨client, hi, hfree, rfl⟩ := move_eq_some hmove
    by_cases hclient : client.isRegistering = true
    · cases client with
      | registering stage =>
        obtain ⟨hsound, call, hcall, hof⟩ := h.stages i stage hi
        rw [← h.limits, ← h.store] at hsound
        have hturn := Stage.registers_proceed hof.isRegistering hsound
        refine ⟨h.set hturn.limits hturn.store fun next hnext => ?_, turned_of_registers hi hfree hturn⟩
        cases hnext
        rw [← h.limits, ← h.store]
        exact ⟨hsound.stepped.sound, call, hcall, hturn.isOf hof⟩
      | _ => cases hclient
    · have hclient := Bool.eq_false_iff.2 hclient
      obtain ⟨hnext, hstore, hregistry, hfiles, hevents⟩ :=
        proceed_of_reader (i := i) hclient t.service
      obtain ⟨-, hbetween, hover⟩ := Client.of_reader hclient
      obtain ⟨halone', hbetween', -⟩ := Client.of_reader hnext
      refine ⟨h.set ?_ hstore fun stage hstage => ?_, ?_⟩
      · rw [Service.limits, hregistry]
        rfl
      · rw [hstage] at hnext
        cases hnext
      · refine .quiet hi hbetween hbetween' (Or.inl hover) (Or.inl halone') hregistry ?_ hevents
        rw [hfiles]
        exact .refl _
  | @fail i stage e files hi hstage hkept hsame =>
    refine ⟨h.set rfl rfl fun next hnext => ?_, ?_⟩
    · cases hnext
      obtain ⟨-, call, hcall, -⟩ := h.stages i stage hi
      exact ⟨trivial, call, hcall, trivial⟩
    · have hevents : stage.events i (.returned (.error (.store e))) = [] := by
        cases stage with
        | kept r moment => exact absurd rfl (hkept r moment)
        | _ => rfl
      have hwaiting : stage.isWaiting = false := by
        cases stage with
        | waiting r => cases hstage
        | _ => rfl
      have hturned := turned_of_registers hi (fun hw => absurd hw (Bool.eq_false_iff.1 hwaiting))
        (.failed (.store e) hstage hkept hsame)
      rw [hevents] at hturned
      exact hturned

/-! ## Who has passed -/

/-- The client whose plugin the store has kept. -/
def keeper? : Event → Option (Nat × Registration)
  | .kept i r _ => some (i, r)
  | _ => none

/-- The client whose registration is over. -/
def installer? : Event → Option (Nat × Registration)
  | .installed i r => some (i, r)
  | _ => none

/-- The registrations that the store has kept, the latest first. -/
def kept (t : Contest) : List (Nat × Registration) := t.log.filterMap keeper?

/-- The registrations that have succeeded, the latest first. -/
def installed (t : Contest) : List (Nat × Registration) := t.log.filterMap installer?

/-- The last registration that has succeeded under a name. -/
def winner (t : Contest) (name : String) : Option (Nat × Registration) :=
  t.installed.find? fun x => x.2.name = Text.trim name

/-- No two clients are alone. -/
def OneAlone (clients : List Client) : Prop :=
  ∀ (i j : Nat) (c d : Client), clients[i]? = some c → clients[j]? = some d →
    c.isAlone = true → d.isAlone = true → i = j

theorem OneAlone.set {clients : List Client} (h : OneAlone clients) (hi : clients[i]? = some client)
    {next : Client}
    (hnext : next.isAlone = false ∨ client.isAlone = true ∨ ∀ c ∈ clients, c.isAlone = false) :
    OneAlone (clients.set i next) := by
  have hother : ∀ (j : Nat) (c : Client), j ≠ i → clients[j]? = some c → c.isAlone = true →
      next.isAlone = false := by
    intro j c hji hj hc
    rcases hnext with hnext | hclient | hnone
    · exact hnext
    · exact absurd (h j i c client hj hi hc hclient) hji
    · rw [hnone c (List.mem_of_getElem? hj)] at hc
      cases hc
  intro j k c d hj hk hc hd
  rcases getElem?_set_cases hj with ⟨hji, hcnext⟩ | ⟨hji, hjold⟩
  · rcases getElem?_set_cases hk with ⟨hki, -⟩ | ⟨hki, hkold⟩
    · rw [hji, hki]
    · rw [hcnext, hother k d hki hkold hd] at hc
      cases hc
  · rcases getElem?_set_cases hk with ⟨-, hdnext⟩ | ⟨-, hkold⟩
    · rw [hdnext, hother j c hji hjold hc] at hd
      cases hd
    · exact h j k c d hjold hkold hc hd

/-- Registrations pass one after the other: no more than one is between the store and the registry, and
all others that were kept are over. -/
structure Ordered (t : Contest) : Prop where
  alone : OneAlone t.clients
  passed : (t.kept = t.installed ∧
      ∀ (i : Nat) (r : Registration) (moment : FileTree),
        t.clients[i]? ≠ some (.registering (.kept r moment))) ∨
    ∃ (i : Nat) (r : Registration) (moment : FileTree),
      t.clients[i]? = some (.registering (.kept r moment)) ∧ t.kept = (i, r) :: t.installed
  ended : ∀ (i : Nat) (r : Registration), (i, r) ∈ t.installed →
    t.clients[i]? = some (.registering (.returned (.ok (.info r.plugin.info))))

/-- The client between the store and the registry is the one that was kept last. -/
theorem Ordered.kept_of_between (h : t.Ordered) {r : Registration} {moment : FileTree}
    (hi : t.clients[i]? = some (.registering (.kept r moment))) : t.kept = (i, r) :: t.installed := by
  rcases h.passed with ⟨-, hnone⟩ | ⟨j, r', moment', hj, hkept⟩
  · exact absurd hi (hnone i r moment)
  · obtain rfl : i = j := h.alone i j _ _ hi hj rfl rfl
    rw [hi] at hj
    cases hj
    exact hkept

/-- Where a client is about to write nobody is between the store and the registry. -/
theorem Ordered.kept_of_drafted (h : t.Ordered) {r : Registration} {record : PluginRecord}
    (hi : t.clients[i]? = some (.registering (.drafted r record))) : t.kept = t.installed := by
  rcases h.passed with ⟨hkept, -⟩ | ⟨j, r', moment, hj, -⟩
  · exact hkept
  · obtain rfl : i = j := h.alone i j _ _ hi hj rfl rfl
    rw [hi] at hj
    cases hj

/-- A registration that has succeeded is not touched when a client moves on that is not over. -/
theorem Ordered.ended_set (h : t.Ordered) (hi : t.clients[i]? = some client) (hclient : client.isOver = false)
    (next : Client) {r : Registration} (hj : (j, r) ∈ t.installed) :
    (t.clients.set i next)[j]? = some (.registering (.returned (.ok (.info r.plugin.info)))) := by
  have hended := h.ended j r hj
  have hij : i ≠ j := by
    rintro rfl
    rw [hi] at hended
    cases hended
    cases hclient
  exact (List.getElem?_set_ne hij).trans hended

theorem Ordered.step (h : t.Ordered) (hturn : t.Turned t') : t'.Ordered := by
  cases hturn with
  | @quiet i client next service events hi hclient hnext hended halone hregistry hfiles hevents =>
    have hlists : ∀ f : Event → Option (Nat × Registration), (∀ name p, f (.saw name p) = none) →
        (events ++ t.log).filterMap f = t.log.filterMap f := by
      intro f hf
      rcases hevents with rfl | ⟨name, p, rfl, -⟩
      · rfl
      · exact List.filterMap_cons_none (hf name p)
    have hkept : (events ++ t.log).filterMap keeper? = t.kept := hlists keeper? fun _ _ => rfl
    have hinstalled : (events ++ t.log).filterMap installer? = t.installed := hlists installer? fun _ _ => rfl
    refine ⟨h.alone.set hi halone, ?_, fun j r hj => ?_⟩
    · rw [kept, installed, hkept, hinstalled]
      rcases h.passed with ⟨heq, hnone⟩ | ⟨j, r, moment, hj, heq⟩
      · refine Or.inl ⟨heq, fun j r moment hj => ?_⟩
        rcases getElem?_set_cases hj with ⟨rfl, rfl⟩ | ⟨-, hj⟩
        · cases hnext
        · exact hnone j r moment hj
      · have hij : i ≠ j := by
          rintro rfl
          rw [hi] at hj
          cases hj
          cases hclient
        exact Or.inr ⟨j, r, moment, (List.getElem?_set_ne hij).trans hj, heq⟩
    · rw [installed, hinstalled] at hj
      rcases hended with hended | rfl
      · exact h.ended_set hi hended next hj
      · change (t.clients.set i next)[j]? = _
        rw [← set_of_getElem? hi]
        exact h.ended j r hj
  | @keeps i r record files hi hrecord hfile hothers =>
    refine ⟨h.alone.set hi (Or.inr (Or.inl rfl)), Or.inr ⟨i, r, files, ?_, ?_⟩,
      fun j r' hj => h.ended_set hi rfl _ hj⟩
    · exact List.getElem?_set_self (List.getElem?_eq_some_iff.1 hi).1
    · exact congrArg ((i, r) :: ·) (h.kept_of_drafted hi)
  | @installs i r moment hi =>
    refine ⟨h.alone.set hi (Or.inl rfl), Or.inl ⟨h.kept_of_between hi, fun j r' moment' hj => ?_⟩,
      fun j r' hj => ?_⟩
    · rcases getElem?_set_cases hj with ⟨-, hend⟩ | ⟨hji, hj⟩
      · cases hend
      · exact hji (h.alone j i _ _ hj hi rfl rfl)
    · rcases List.mem_cons.1 hj with hnew | hold
      · cases hnew
        exact List.getElem?_set_self (List.getElem?_eq_some_iff.1 hi).1
      · exact h.ended_set hi rfl _ hold

/-! ## What the registry and the store have -/

/-- What the store has under a key: the record of a registration, or what was there at the start. -/
def HasOf (s₀ : Service) (files : FileTree) (key : String) : Option (Nat × Registration) → Prop
  | some (_, r) => ∃ record, record.IsOf r ∧
      StoreM.recordAt? PluginRecord.codec files (s₀.store.plugins ++ [key ++ ".json"]) = some record
  | none => files.lookup (s₀.store.plugins ++ [key ++ ".json"]) =
      s₀.files.lookup (s₀.store.plugins ++ [key ++ ".json"])

theorem HasOf.congr {files files' : FileTree} {key : String} {last : Option (Nat × Registration)}
    (h : HasOf s₀ files key last) (hfiles : files'.lookup (s₀.store.plugins ++ [key ++ ".json"]) =
      files.lookup (s₀.store.plugins ++ [key ++ ".json"])) : HasOf s₀ files' key last := by
  cases last with
  | none => exact hfiles.trans h
  | some x =>
    obtain ⟨record, hrecord, hfile⟩ := h
    refine ⟨record, hrecord, ?_⟩
    rw [StoreM.recordAt?, hfiles]
    exact hfile

/-- The registry has what was installed last under a name, and the store what was kept last under a key. -/
structure Mirrored (s₀ : Service) (t : Contest) : Prop where
  live : ∀ name, t.service.engine.registry.get? name =
    ((t.winner name).map fun x => x.2.plugin).or (s₀.engine.registry.get? name)
  files : ∀ key, HasOf s₀ t.service.files key (t.kept.find? fun x => Store.key x.2.name = key)

theorem Mirrored.step (h : t.Mirrored s₀) (hstore : t.service.store = s₀.store) (hturn : t.Turned t') :
    t'.Mirrored s₀ := by
  cases hturn with
  | @quiet i client next service events hi hclient hnext hended halone hregistry hfiles hevents =>
    have hlive : ∀ name, service.engine.registry.get? name =
        ((t.winner name).map fun x => x.2.plugin).or (s₀.engine.registry.get? name) := by
      rw [hregistry]
      exact h.live
    have hfiles : ∀ key, HasOf s₀ service.files key (t.kept.find? fun x => Store.key x.2.name = key) :=
      fun key => (h.files key).congr (hfiles.record _ _)
    rcases hevents with rfl | ⟨name, p, rfl, -⟩
    · exact ⟨hlive, hfiles⟩
    · exact ⟨hlive, hfiles⟩
  | @keeps i r record files hi hrecord hfile hothers =>
    refine ⟨h.live, fun key => ?_⟩
    change HasOf s₀ files key (((i, r) :: t.kept).find? fun x => Store.key x.2.name = key)
    rw [List.find?_cons]
    by_cases hkey : Store.key r.name = key
    · rw [decide_eq_true hkey]
      refine ⟨record, hrecord, ?_⟩
      rw [← hkey, ← Store.pluginFile_eq, ← hstore]
      exact hfile
    · rw [decide_eq_false hkey]
      refine (h.files key).congr ?_
      rw [← hstore]
      exact hothers key fun heq => hkey heq.symm
  | @installs i r moment hi =>
    refine ⟨fun name => ?_, h.files⟩
    change (t.service.engine.registry.insert r.plugin).get? name =
      ((((i, r) :: t.installed).find? fun x => x.2.name = Text.trim name).map fun x => x.2.plugin).or _
    rw [Registry.get?_insert, List.find?_cons]
    by_cases hname : r.name = Text.trim name
    · rw [decide_eq_true hname]
      exact if_pos hname
    · rw [decide_eq_false hname]
      exact (if_neg hname).trans (h.live name)

/-! ## What was done before what -/

/-- The store has kept a record of a registration, and this was before it was installed. -/
structure Logged (s₀ : Service) (calls : List ClientCall) (t : Contest) : Prop where
  asked : ∀ (i : Nat) (r : Registration), (i, r) ∈ t.kept → r.Sound s₀.limits ∧
    ∃ given, calls[i]? = some (.register r.now given r.description r.source) ∧ r.name = Text.trim given
  persisted : ∀ (i : Nat) (r : Registration) (moment : FileTree), .kept i r moment ∈ t.log →
    ∃ record, record.IsOf r ∧
      StoreM.recordAt? PluginRecord.codec moment (s₀.store.pluginFile r.name) = some record
  before : ∀ (earlier : List Event) (i : Nat) (r : Registration), (.installed i r :: earlier) <:+ t.log →
    ∃ moment, .kept i r moment ∈ earlier
  seen : ∀ (earlier : List Event) (name : String) (p : CompiledPlugin), (.saw name p :: earlier) <:+ t.log →
    s₀.engine.registry.get? name = some p ∨
      ∃ (i : Nat) (r : Registration), .installed i r ∈ earlier ∧ r.plugin = p ∧ p.name = Text.trim name

theorem mem_installed {r : Registration} : (i, r) ∈ t.installed ↔ .installed i r ∈ t.log := by
  rw [installed, List.mem_filterMap]
  constructor
  · rintro ⟨event, hmem, hevent⟩
    cases event with
    | installed j r' =>
      cases hevent
      exact hmem
    | kept j r' moment => cases hevent
    | saw name p => cases hevent
  · exact fun hmem => ⟨_, hmem, rfl⟩

theorem mem_kept {r : Registration} : (i, r) ∈ t.kept ↔ ∃ moment, .kept i r moment ∈ t.log := by
  rw [kept, List.mem_filterMap]
  constructor
  · rintro ⟨event, hmem, hevent⟩
    cases event with
    | kept j r' moment =>
      cases hevent
      exact ⟨moment, hmem⟩
    | installed j r' => cases hevent
    | saw name p => cases hevent
  · rintro ⟨moment, hmem⟩
    exact ⟨_, hmem, rfl⟩

theorem mem_of_winner {name : String} {r : Registration} (h : t.winner name = some (i, r)) :
    (i, r) ∈ t.installed ∧ r.name = Text.trim name := by
  have hname := List.find?_some h
  exact ⟨List.mem_of_find?_eq_some h, of_decide_eq_true hname⟩

/-- What is in the registry was there at the start, or a registration has installed it. -/
theorem Mirrored.cases_of_get? (h : t.Mirrored s₀) {name : String} {p : CompiledPlugin}
    (hget : t.service.engine.registry.get? name = some p) :
    s₀.engine.registry.get? name = some p ∨
      ∃ (i : Nat) (r : Registration), .installed i r ∈ t.log ∧ r.plugin = p ∧ p.name = Text.trim name := by
  rw [h.live] at hget
  cases hwinner : t.winner name with
  | none =>
    rw [hwinner] at hget
    exact Or.inl hget
  | some x =>
    obtain ⟨i, r⟩ := x
    rw [hwinner] at hget
    cases hget
    obtain ⟨hmem, hname⟩ := mem_of_winner hwinner
    exact Or.inr ⟨i, r, mem_installed.1 hmem, rfl, hname⟩

/-- The log goes on, if what is new in it comes after what it needs. -/
theorem Logged.cons (h : t.Logged s₀ calls) {event : Event} {service : Service} {clients : List Client}
    (hkept : ∀ i r moment, event = .kept i r moment →
      (r.Sound s₀.limits ∧
        ∃ given, calls[i]? = some (.register r.now given r.description r.source) ∧ r.name = Text.trim given) ∧
      ∃ record, record.IsOf r ∧
        StoreM.recordAt? PluginRecord.codec moment (s₀.store.pluginFile r.name) = some record)
    (hinstalled : ∀ i r, event = .installed i r → ∃ moment, .kept i r moment ∈ t.log)
    (hsaw : ∀ name p, event = .saw name p → s₀.engine.registry.get? name = some p ∨
      ∃ (i : Nat) (r : Registration), .installed i r ∈ t.log ∧ r.plugin = p ∧ p.name = Text.trim name) :
    Logged s₀ calls ⟨service, clients, event :: t.log⟩ := by
  refine ⟨fun i r hmem => ?_, fun i r moment hmem => ?_, fun earlier i r hsuffix => ?_,
    fun earlier name p hsuffix => ?_⟩
  · obtain ⟨moment, hmem⟩ := mem_kept.1 hmem
    rcases List.mem_cons.1 hmem with hnew | hold
    · exact (hkept i r moment hnew.symm).1
    · exact h.asked i r (mem_kept.2 ⟨moment, hold⟩)
  · rcases List.mem_cons.1 hmem with hnew | hold
    · exact (hkept i r moment hnew.symm).2
    · exact h.persisted i r moment hold
  · rcases List.suffix_cons_iff.1 hsuffix with hnew | hold
    · cases hnew
      exact hinstalled i r rfl
    · exact h.before earlier i r hold
  · rcases List.suffix_cons_iff.1 hsuffix with hnew | hold
    · cases hnew
      exact hsaw name p rfl
    · exact h.seen earlier name p hold

theorem Logged.step (h : t.Logged s₀ calls) (hknows : t.Knows s₀ calls) (hordered : t.Ordered)
    (hmirrored : t.Mirrored s₀) (hturn : t.Turned t') : t'.Logged s₀ calls := by
  cases hturn with
  | quiet hi hclient hnext hended halone hregistry hfiles hevents =>
    rcases hevents with rfl | ⟨name, p, rfl, hget⟩
    · exact ⟨h.asked, h.persisted, h.before, h.seen⟩
    · refine h.cons nofun nofun fun name' p' hevent => ?_
      cases hevent
      exact hmirrored.cases_of_get? hget
  | @keeps i r record files hi hrecord hfile hothers =>
    refine h.cons (fun j r' moment hevent => ?_) nofun nofun
    cases hevent
    obtain ⟨hsound, call, hcall, given, rfl, hname⟩ := hknows.stages i _ hi
    exact ⟨⟨hsound.1, given, hcall, hname⟩, record, hrecord, hknows.store ▸ hfile⟩
  | installs hi =>
    refine h.cons nofun (fun j r' hevent => ?_) nofun
    cases hevent
    exact mem_kept.1 (hordered.kept_of_between hi ▸ List.mem_cons_self)

/-! ## Every state that is reached -/

/-- What is true of a contest, however far the clients got. -/
structure Sound (s₀ : Service) (calls : List ClientCall) (t : Contest) : Prop where
  knows : t.Knows s₀ calls
  ordered : t.Ordered
  mirrored : t.Mirrored s₀
  logged : t.Logged s₀ calls

theorem Sound.step (h : t.Sound s₀ calls) (hstep : t.Step t') : t'.Sound s₀ calls := by
  obtain ⟨hknows, hturn⟩ := h.knows.step hstep
  exact ⟨hknows, h.ordered.step hturn, h.mirrored.step h.knows.store hturn,
    h.logged.step h.knows h.ordered h.mirrored hturn⟩

theorem sound_begin (s₀ : Service) (hfits : ∀ call ∈ calls, call.Fits) :
    (begin_ s₀ calls).Sound s₀ calls := by
  have hclient : ∀ (i : Nat) (c : Client), (begin_ s₀ calls).clients[i]? = some c →
      ∃ call, calls[i]? = some call ∧ c = .ofCall call := by
    intro i c hi
    obtain ⟨call, hcall, rfl⟩ := Option.map_eq_some_iff.1 ((List.getElem?_map ..).symm.trans hi)
    exact ⟨call, hcall, rfl⟩
  refine ⟨⟨rfl, rfl, fun i stage hi => ?_⟩,
    ⟨fun i j c d hi hj hc hd => ?_, Or.inl ⟨rfl, fun i r moment hi => ?_⟩, nofun⟩,
    ⟨fun name => rfl, fun key => rfl⟩,
    ⟨nofun, nofun, fun earlier i r hsuffix => ?_, fun earlier name p hsuffix => ?_⟩⟩
  · obtain ⟨call, hcall, hstage⟩ := hclient i _ hi
    cases call with
    | register now given description source =>
      cases hstage
      exact ⟨hfits _ (List.mem_of_getElem? hcall), _, hcall, rfl⟩
    | lookUp name => cases hstage
    | execute name input params => cases hstage
  · obtain ⟨call, -, rfl⟩ := hclient i c hi
    cases call <;> cases hc
  · obtain ⟨call, -, hstage⟩ := hclient i _ hi
    cases call <;> cases hstage
  · cases List.suffix_nil.1 hsuffix
  · cases List.suffix_nil.1 hsuffix

theorem Reached.sound (h : Reached s₀ calls t) (hfits : ∀ call ∈ calls, call.Fits) : t.Sound s₀ calls := by
  induction h with
  | begin_ => exact sound_begin s₀ hfits
  | step h hstep ih => exact ih.step hstep

/-- No registration that was asked for has another name of the same digest. -/
def Apart (calls : List ClientCall) (name : String) : Prop :=
  ∀ now given description source, .register now given description source ∈ calls →
    Store.key given = Store.key name → Text.trim given = Text.trim name

/-- A client has won a name: its call asked for the plugin and has succeeded, and both the registry and the
store have just what it asked for. -/
structure Won (s₀ : Service) (calls : List ClientCall) (t : Contest) (name : String) (i : Nat)
    (r : Registration) : Prop where
  asked : ∃ given, calls[i]? = some (.register r.now given r.description r.source) ∧
    Text.trim given = Text.trim name
  ended : t.clients[i]? = some (.registering (.returned (.ok (.info r.plugin.info))))
  live : t.service.engine.registry.get? name = some r.plugin
  stored : ∃ record, StoreM.recordAt? PluginRecord.codec t.service.files (s₀.store.pluginFile name) = some record ∧
    record.name = Text.trim name ∧ record.source = r.source ∧ record.view = r.plugin.view

/-- Where nobody is between the store and the registry, what was kept was installed. -/
theorem Ordered.kept_eq_installed (h : t.Ordered) (hbetween : ∀ c ∈ t.clients, c.isBetween = false) :
    t.kept = t.installed := by
  rcases h.passed with ⟨hkept, -⟩ | ⟨i, r, moment, hi, -⟩
  · exact hkept
  · cases hbetween _ (List.mem_of_getElem? hi)

/-- Where a name has its digest for itself, what was kept under its key was kept under the name. -/
theorem Logged.find?_kept (h : t.Logged s₀ calls) {name : String} (hapart : Apart calls name) :
    t.kept.find? (fun x => Store.key x.2.name = Store.key name) =
      t.kept.find? (fun x => x.2.name = Text.trim name) := by
  refine List.find?_congr fun x hx => ?_
  obtain ⟨i, r⟩ := x
  obtain ⟨hsound, given, hcall, hname⟩ := h.asked i r hx
  have htrim : Text.trim r.name = r.name := (Registry.nameOf_eq_ok hsound.name).2.1
  refine decide_eq_decide.2 ⟨fun hkey => ?_, fun heq => Store.key_congr (htrim.trans heq)⟩
  rw [hname]
  refine hapart _ given _ _ (List.mem_of_getElem? hcall) ?_
  rw [← hkey]
  exact Store.key_congr (hname.symm.trans htrim.symm)

/-- **Registrations have one winner.**  What is installed was kept before, and what is found was installed
before or was there at the start.  Where no call is between the store and the registry, the last one to have
succeeded under a name has both the registry and the store to itself, if no other name that was asked for
has the digest of this one; and where none has succeeded both are as they were at the start. -/
theorem one_winner (hfits : ∀ call ∈ calls, call.Fits) (h : Reached s₀ calls t) :
    (∀ earlier i r, (.installed i r :: earlier) <:+ t.log → ∃ moment, .kept i r moment ∈ earlier ∧
      ∃ record, record.IsOf r ∧
        StoreM.recordAt? PluginRecord.codec moment (s₀.store.pluginFile r.name) = some record) ∧
    (∀ earlier name p, (.saw name p :: earlier) <:+ t.log → s₀.engine.registry.get? name = some p ∨
      ∃ i r, .installed i r ∈ earlier ∧ r.plugin = p ∧ p.name = Text.trim name) ∧
    (∀ name p, t.service.engine.registry.get? name = some p → s₀.engine.registry.get? name = some p ∨
      ∃ i r, .installed i r ∈ t.log ∧ r.plugin = p ∧ p.name = Text.trim name) ∧
    ((∀ c ∈ t.clients, c.isBetween = false) → ∀ name, Apart calls name →
      match t.winner name with
      | some (i, r) => Won s₀ calls t name i r
      | none => t.service.engine.registry.get? name = s₀.engine.registry.get? name ∧
          t.service.files.lookup (s₀.store.pluginFile name) = s₀.files.lookup (s₀.store.pluginFile name)) := by
  have hsound := h.sound hfits
  refine ⟨fun earlier i r hsuffix => ?_, hsound.logged.seen, fun name p => hsound.mirrored.cases_of_get?,
    fun hbetween name hapart => ?_⟩
  · obtain ⟨moment, hmem⟩ := hsound.logged.before earlier i r hsuffix
    exact ⟨moment, hmem, hsound.logged.persisted i r moment (hsuffix.subset (List.mem_cons_of_mem _ hmem))⟩
  · have hkept := hsound.ordered.kept_eq_installed hbetween
    have hlive := hsound.mirrored.live name
    have hfile := hsound.mirrored.files (Store.key name)
    rw [hsound.logged.find?_kept hapart, hkept] at hfile
    change HasOf s₀ t.service.files (Store.key name) (t.winner name) at hfile
    cases hwinner : t.winner name with
    | none =>
      rw [hwinner] at hlive hfile
      exact ⟨hlive, s₀.store.pluginFile_eq name ▸ hfile⟩
    | some x =>
      obtain ⟨i, r⟩ := x
      rw [hwinner] at hlive hfile
      obtain ⟨hmem, hname⟩ := mem_of_winner hwinner
      obtain ⟨hr, given, hcall, hgiven⟩ := hsound.logged.asked i r (hkept ▸ hmem)
      obtain ⟨record, hrecord, hrecordAt⟩ := hfile
      refine ⟨⟨given, hcall, hgiven.symm.trans hname⟩, hsound.ordered.ended i r hmem, hlive, record,
        s₀.store.pluginFile_eq name ▸ hrecordAt, hrecord.name.trans hname, hrecord.source, ?_⟩
      rw [PluginRecord.view, CompiledPlugin.view, hrecord.source, hrecord.description]
      exact congrArg (PluginView.mk · _) hr.digest.symm

/-- Of two that register a plugin of one name the one that passes last has won, although it compiled first. -/
theorem one_winner_contested :
    let calls : List ClientCall :=
      [.register ⟨0, 0⟩ "p" "first" "", .register ⟨0, 0⟩ " p " "second" "", .lookUp "p"]
    ∃ t, (begin_ Traffic.bare calls).after [0, 1, 1, 1, 1, 1, 2, 0, 0, 0, 0] = some t ∧
      ∃ r, r.description = "first" ∧ Won Traffic.bare calls t "p" 0 r := by
  intro calls
  have hfits : ∀ call ∈ calls, call.Fits := by
    simp [calls, ClientCall.Fits, Instant.representable_epoch]
  have hapart : Apart calls "p" := by
    have htrim : Text.trim " p " = Text.trim "p" := by decide +kernel
    intro now given description source hmem hkey
    simp only [calls, List.mem_cons, ClientCall.register.injEq, reduceCtorEq, List.not_mem_nil,
      or_false] at hmem
    rcases hmem with ⟨-, rfl, -⟩ | ⟨-, rfl, -⟩
    · rfl
    · exact htrim
  have hrun : ((begin_ Traffic.bare calls).after [0, 1, 1, 1, 1, 1, 2, 0, 0, 0, 0]).map (fun t =>
      (t.clients.all (fun c => !c.isBetween), (t.winner "p").map fun x => (x.1, x.2.description))) =
      some (true, some (0, "first")) := by
    decide +kernel
  obtain ⟨t, hafter, ht⟩ := Option.map_eq_some_iff.1 hrun
  obtain ⟨hbetween, hwinner⟩ := Prod.mk.inj ht
  obtain ⟨⟨i, r⟩, hwon, hr⟩ := Option.map_eq_some_iff.1 hwinner
  obtain ⟨rfl, hdescription⟩ := Prod.mk.inj hr
  have hlast := (one_winner hfits (Reached.begin_.after hafter)).2.2.2
    (fun c hc => by simpa using List.all_eq_true.1 hbetween c hc) "p" hapart
  rw [hwon] at hlast
  exact ⟨t, hafter, r, hdescription, hlast⟩

/-- Two names of one digest have two plugins in the registry and one record in the store. -/
theorem two_plugins_one_record :
    ∃ t, Reached Traffic.bare [.register ⟨0, 0⟩ "d16d7d2bde305b8c" "first" "",
        .register ⟨0, 0⟩ "6a22137b458388c8" "second" ""] t ∧
      (∀ c ∈ t.clients, c.isBetween = false) ∧
      ∃ p record, t.service.engine.registry.get? "d16d7d2bde305b8c" = some p ∧
        StoreM.recordAt? PluginRecord.codec t.service.files
          (t.service.store.pluginFile "d16d7d2bde305b8c") = some record ∧
        p.view ≠ record.view := by
  have hrun : ((begin_ Traffic.bare [.register ⟨0, 0⟩ "d16d7d2bde305b8c" "first" "",
      .register ⟨0, 0⟩ "6a22137b458388c8" "second" ""]).after [0, 0, 0, 0, 0, 1, 1, 1, 1, 1]).map (fun t =>
      (t.clients.all (fun c => !c.isBetween),
        (t.service.engine.registry.get? "d16d7d2bde305b8c").map fun p => p.view.description,
        (StoreM.recordAt? PluginRecord.codec t.service.files
          (t.service.store.pluginFile "d16d7d2bde305b8c")).map fun r => r.view.description)) =
      some (true, some "first", some "second") := by
    decide +kernel
  obtain ⟨t, hafter, ht⟩ := Option.map_eq_some_iff.1 hrun
  obtain ⟨hbetween, ht⟩ := Prod.mk.inj ht
  obtain ⟨hlive, hstored⟩ := Prod.mk.inj ht
  obtain ⟨p, hp, hfirst⟩ := Option.map_eq_some_iff.1 hlive
  obtain ⟨record, hrecord, hsecond⟩ := Option.map_eq_some_iff.1 hstored
  refine ⟨t, Reached.begin_.after hafter, fun c hc => by simpa using List.all_eq_true.1 hbetween c hc,
    p, record, hp, hrecord, fun hview => ?_⟩
  rw [hview, hsecond] at hfirst
  exact absurd hfirst (by decide)

end Contest

end PluginChain
