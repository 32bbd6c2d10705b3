import Mathlib.Data.List.Induction
import Mathlib.Logic.Function.Basic
import PluginChain.Proofs.Registry

/-!
# A registry that is shared

Any number of callers have calls under way on one registry.  A call begins, takes one step or two, and
returns; between two of its moves any other call may move.  Only the registration of a plugin takes two
steps: it compiles the source, which nobody sees, and installs what came of it, under the name as it was
then and with whatever the registry holds by now.

The specification is a table, from names to plugins, on which a call is carried out in one step
(`RegistryTable.Takes`).  A call enters into a log what it came to, in the move in which it takes effect.

* `RegistryPhase.Proceeds` is all that a move can do to a call and to the registry.
* `SharedRegistry.Sound` is kept by every move, and says that the calls in the order of the log, each
  carried out in one step, come to what they came to.
* `RegistryTable.Replays.standing` reads off the log what a name stands for.
-/

set_option autoImplicit false

namespace PluginChain

/-! ## Calls -/

/-- The script and the digest are those of one source. -/
def CompiledSource.Genuine (c : CompiledSource) : Prop :=
  ∃ limits source, Script.Program.compile limits source = .ok c.program ∧ c.digest = Digest.ofText source

inductive RegistryCall
  | register (given description source : String)
  /-- Installs what was compiled before. -/
  | install (given description : String) (compiled : CompiledSource) (genuine : compiled.Genuine)
  | remove (given : String)
  | lookUp (given : String)
  | contains (given : String)
  | list
  | size

inductive RegistryReply
  | plugin (p : CompiledPlugin)
  | done
  | flag (b : Bool)
  | infos (infos : List PluginInfo)
  | count (n : Nat)

/-- How far a call got. -/
inductive RegistryPhase
  | waiting (call : RegistryCall)
  | begun (call : RegistryCall)
  /-- A plugin that is registered is compiled, and the registry is as it was. -/
  | compiled (given description source name : String) (c : CompiledSource)
  /-- The call has taken effect. -/
  | settled (reply : Except ChainError RegistryReply)
  | returned (reply : Except ChainError RegistryReply)

namespace RegistryPhase

def settle (r : Registry) : Except ChainError (RegistryReply × Registry) → RegistryPhase × Registry
  | .ok (reply, r') => (settled (.ok reply), r')
  | .error e => (settled (.error e), r)

/-- The next move of a call, at an instant. -/
def proceed (now : Instant) (r : Registry) : RegistryPhase → RegistryPhase × Registry
  | waiting call => (begun call, r)
  | begun (.register given description source) =>
    match Registry.nameOf given with
    | .error e => (settled (.error e), r)
    | .ok name =>
      match r.compile name source with
      | .error e => (settled (.error e), r)
      | .ok c => (compiled given description source name c, r)
  | compiled _ description _ name c =>
    settle r ((r.install now name description c).map fun x => (.plugin x.1, x.2))
  | begun (.install given description c _) =>
    settle r ((r.install now given description c).map fun x => (.plugin x.1, x.2))
  | begun (.remove given) => settle r ((r.remove given).map fun r' => (.done, r'))
  | begun (.lookUp given) => (settled ((r.lookup given).map .plugin), r)
  | begun (.contains given) => (settled (.ok (.flag (r.contains given))), r)
  | begun .list => (settled (.ok (.infos r.list)), r)
  | begun .size => (settled (.ok (.count r.size)), r)
  | settled reply => (returned reply, r)
  | returned reply => (returned reply, r)

/-- The call, as long as it has not taken effect. -/
def call? : RegistryPhase → Option RegistryCall
  | waiting call | begun call => some call
  | compiled given description source _ _ => some (.register given description source)
  | settled _ | returned _ => none

/-- What the call came to. -/
def reply? : RegistryPhase → Option (Except ChainError RegistryReply)
  | settled reply | returned reply => some reply
  | _ => none

end RegistryPhase

/-- A call that took effect. -/
structure RegistryEntry where
  caller : Nat
  call : RegistryCall
  now : Instant
  reply : Except ChainError RegistryReply

structure SharedRegistry where
  registry : Registry
  phases : List RegistryPhase
  /-- The calls that took effect, in the order in which they did. -/
  log : List RegistryEntry

namespace SharedRegistry

def begin_ (limits : Limits) (calls : List RegistryCall) : SharedRegistry :=
  ⟨{ limits }, calls.map .waiting, []⟩

/-- The log after a move, with an entry if the call takes effect in it. -/
def logged (log : List RegistryEntry) (i : Nat) (now : Instant) (phase next : RegistryPhase) :
    List RegistryEntry :=
  match phase.call?, next.reply? with
  | some call, some reply => log ++ [⟨i, call, now, reply⟩]
  | _, _ => log

/-- The call at an index moves, at an instant. -/
def move (t : SharedRegistry) (turn : Nat × Instant) : SharedRegistry :=
  match t.phases[turn.1]? with
  | none => t
  | some phase =>
    let (next, registry) := phase.proceed turn.2 t.registry
    ⟨registry, t.phases.set turn.1 next, logged t.log turn.1 turn.2 phase next⟩

def after (t : SharedRegistry) (turns : List (Nat × Instant)) : SharedRegistry := turns.foldl move t

/-- What a call came to, once it has taken effect. -/
def replyOf (t : SharedRegistry) (i : Nat) : Option (Except ChainError RegistryReply) :=
  t.phases[i]?.bind RegistryPhase.reply?

end SharedRegistry

/-! ## The specification -/

/-- What each name stands for. -/
abbrev RegistryTable := String → Option CompiledPlugin

def Registry.table (r : Registry) : RegistryTable := fun name => Entries.get? name r.plugins

namespace RegistryTable

/-- How a call is answered by a table in one step, and what the table is then. -/
inductive Takes (limits : Limits) (now : Instant) (t : RegistryTable) :
    RegistryCall → Except ChainError RegistryReply → RegistryTable → Prop
  | registered {given description source : String} {c : CompiledSource} (hname : Text.trim given ≠ "")
      (hprogram : Script.Program.compile limits source = .ok c.program)
      (hdigest : c.digest = Digest.ofText source) :
      Takes limits now t (.register given description source)
        (.ok (.plugin ⟨c, Text.trim given, description, now⟩))
        (Function.update t (Text.trim given) (some ⟨c, Text.trim given, description, now⟩))
  | registeredBlank {given description source : String} (hname : Text.trim given = "") :
      Takes limits now t (.register given description source) (.error (.invalidName given)) t
  | rejected {given description source : String} {e : Script.SyntaxError} (hname : Text.trim given ≠ "")
      (hprogram : Script.Program.compile limits source = .error e) :
      Takes limits now t (.register given description source)
        (.error (.compile (Text.trim given) e.message)) t
  | installed {given description : String} {c : CompiledSource} (hc : c.Genuine)
      (hname : Text.trim given ≠ "") :
      Takes limits now t (.install given description c hc)
        (.ok (.plugin ⟨c, Text.trim given, description, now⟩))
        (Function.update t (Text.trim given) (some ⟨c, Text.trim given, description, now⟩))
  | installedBlank {given description : String} {c : CompiledSource} (hc : c.Genuine)
      (hname : Text.trim given = "") :
      Takes limits now t (.install given description c hc) (.error (.invalidName given)) t
  | removed {given : String} (h : t (Text.trim given) ≠ none) :
      Takes limits now t (.remove given) (.ok .done) (Function.update t (Text.trim given) none)
  | nothingToRemove {given : String} (h : t (Text.trim given) = none) :
      Takes limits now t (.remove given) (.error (.pluginNotFound (Text.trim given))) t
  | found {given : String} {p : CompiledPlugin} (h : t (Text.trim given) = some p) :
      Takes limits now t (.lookUp given) (.ok (.plugin p)) t
  | notFound {given : String} (h : t (Text.trim given) = none) :
      Takes limits now t (.lookUp given) (.error (.pluginNotFound (Text.trim given))) t
  | told (given : String) :
      Takes limits now t (.contains given) (.ok (.flag (t (Text.trim given)).isSome)) t
  | listed {infos : List PluginInfo} (hsorted : infos.Pairwise fun a b => a.name < b.name)
      (hall : ∀ info, info ∈ infos ↔ ∃ name p, t name = some p ∧ info = p.info) :
      Takes limits now t .list (.ok (.infos infos)) t
  | counted {names : List String} (hnodup : names.Nodup) (hall : ∀ name, name ∈ names ↔ t name ≠ none) :
      Takes limits now t .size (.ok (.count names.length)) t

/-- Calls are carried out one after the other. -/
def Replays (limits : Limits) (t : RegistryTable) : List RegistryEntry → RegistryTable → Prop
  | [], t' => t' = t
  | e :: log, t' => ∃ t₁ : RegistryTable, Takes limits e.now t e.call e.reply t₁ ∧ t₁.Replays limits log t'

end RegistryTable

/-- What a call that came to this has put under a name; nothing, if it took away what was there. -/
def RegistryCall.change? : RegistryCall → Except ChainError RegistryReply → Option (String × Option CompiledPlugin)
  | register _ _ _, .ok (.plugin p) | install _ _ _ _, .ok (.plugin p) => some (p.name, some p)
  | remove given, .ok _ => some (Text.trim given, none)
  | _, _ => none

def RegistryEntry.change? (e : RegistryEntry) : Option (String × Option CompiledPlugin) :=
  e.call.change? e.reply

/-- The plugin was the last to be installed under the name, and was not removed since. -/
def Standing (log : List RegistryEntry) (name : String) (p : CompiledPlugin) : Prop :=
  Entries.IsLast (log.filterMap RegistryEntry.change?) (name, some p)

/-- A plugin that may stand under a name. -/
structure CompiledPlugin.Fits (p : CompiledPlugin) (name : String) : Prop where
  ne : name ≠ ""
  trimmed : Text.trim name = name
  named : p.name = name
  genuine : p.toCompiledSource.Genuine

namespace RegistryTable

variable {limits : Limits} {now : Instant} {t t' : RegistryTable} {log more : List RegistryEntry}
  {call : RegistryCall} {reply : Except ChainError RegistryReply} {e : RegistryEntry} {name : String}
  {p : CompiledPlugin}

/-- What a call does to the table can be told from what it came to. -/
theorem Takes.apply_eq (h : Takes limits now t call reply t') (name : String) :
    t' name = match call.change? reply with
      | some (changed, value) => if name = changed then value else t name
      | none => t name := by
  cases h with
  | registered => exact Function.update_apply ..
  | installed => exact Function.update_apply ..
  | removed => exact Function.update_apply ..
  | _ => rfl

/-- A call that fails does nothing to the table. -/
theorem Takes.eq_of_error {why : ChainError} (h : Takes limits now t call (.error why) t') : t' = t := by
  cases h <;> rfl

theorem Takes.fits (h : Takes limits now t call reply t') (ht : ∀ name p, t name = some p → p.Fits name)
    (hp : t' name = some p) : p.Fits name := by
  -- Only what the call has put there is not from before.
  have hupdate : ∀ {given : String} {value : Option CompiledPlugin},
      (∀ q, value = some q → q.Fits (Text.trim given)) →
      Function.update t (Text.trim given) value name = some p → p.Fits name := by
    intro given value hvalue hp
    rw [Function.update_apply] at hp
    split at hp
    · next hname => exact hname ▸ hvalue p hp
    · exact ht name p hp
  cases h with
  | registered hname hprogram hdigest =>
    refine hupdate (fun q hq => ?_) hp
    cases hq
    exact ⟨hname, Text.trim_trim _, rfl, limits, _, hprogram, hdigest⟩
  | installed hc hname =>
    refine hupdate (fun q hq => ?_) hp
    cases hq
    exact ⟨hname, Text.trim_trim _, rfl, hc⟩
  | removed => exact hupdate (fun q hq => by cases hq) hp
  | _ => exact ht name p hp

theorem replays_append : t.Replays limits (log ++ more) t' ↔
    ∃ t₁ : RegistryTable, t.Replays limits log t₁ ∧ t₁.Replays limits more t' := by
  induction log generalizing t with
  | nil => exact ⟨fun h => ⟨t, rfl, h⟩, fun ⟨_, heq, h⟩ => heq ▸ h⟩
  | cons e log ih =>
    constructor
    · rintro ⟨t₁, he, h⟩
      obtain ⟨t₂, hlog, hmore⟩ := ih.1 h
      exact ⟨t₂, ⟨t₁, he, hlog⟩, hmore⟩
    · rintro ⟨t₂, ⟨t₁, he, hlog⟩, hmore⟩
      exact ⟨t₁, he, ih.2 ⟨t₂, hlog, hmore⟩⟩

theorem Replays.concat {t'' : RegistryTable} (h : t.Replays limits log t')
    (he : Takes limits e.now t' e.call e.reply t'') : t.Replays limits (log ++ [e]) t'' :=
  replays_append.2 ⟨t', h, t'', he, rfl⟩

/-- **What a table can hold** that nothing was in: under a trimmed name a plugin of this name, with the
script and the digest of one source. -/
theorem Replays.fits (h : Replays limits (fun _ => none) log t) : ∀ name p, t name = some p → p.Fits name := by
  induction log using List.reverseRecOn generalizing t with
  | nil =>
    intro name p hp
    cases congrFun h name ▸ hp
  | append_singleton log e ih =>
    obtain ⟨t₁, hlog, t₂, he, rfl⟩ := replays_append.1 h
    exact fun name p hp => he.fits (ih hlog) hp

/-- **What a name stands for**: the plugin that was the last to be installed under it and was not
removed since. -/
theorem Replays.standing (h : Replays limits (fun _ => none) log t) (name : String) (p : CompiledPlugin) :
    t name = some p ↔ Standing log name p := by
  rw [Standing]
  induction log using List.reverseRecOn generalizing t with
  | nil =>
    rw [show t = fun _ => none from h]
    refine ⟨nofun, ?_⟩
    rintro ⟨before, later, hsplit, -⟩
    simp at hsplit
  | append_singleton log e ih =>
    obtain ⟨t₁, hlog, t₂, he, rfl⟩ := replays_append.1 h
    rw [he.apply_eq name, List.filterMap_append, List.filterMap_cons, RegistryEntry.change?]
    cases e.call.change? e.reply with
    | none =>
      rw [List.filterMap_nil, List.append_nil]
      exact ih hlog
    | some change =>
      obtain ⟨changed, value⟩ := change
      rw [List.filterMap_nil, Entries.isLast_concat_iff, ← ih hlog]
      by_cases hname : name = changed
      · simp [hname, eq_comm]
      · simp [hname, Ne.symm hname]

end RegistryTable

end PluginChain
