import PluginChain.Proofs.Registry.Shared
import PluginChain.Proofs.Row

/-!
# The registry is an atomic map

`RegistryPhase.proceeds` says of one move that the call it belongs to takes effect as on a table, or that
the registry stays as it is.  From this `SharedRegistry.Sound` follows for every move and so for every run:
however the calls are mixed, they come to what they would have come to one after the other, in the order
in which they took effect.

What a registry holds in between is always a map from trimmed names (`Registry.IsMap`), for the calls that
look at it see it between two changes and never within one.
-/

set_option autoImplicit false

namespace PluginChain

/-! ## The table of a registry -/

namespace Registry

variable {r r' : Registry} {given name : String} {p : CompiledPlugin}

/-- A registry as its callers see it. -/
structure IsMap (r : Registry) : Prop where
  fits : ∀ name p, r.table name = some p → p.Fits name
  sorted : r.list.Pairwise fun a b => a.name < b.name
  length : r.list.length = r.size
  lookup : ∀ given, r.contains given = true ↔ ∃ p, r.lookup given = .ok p
  listed : ∀ given, r.contains given = true ↔ ∃ info ∈ r.list, info.name = Text.trim given

theorem table_insert (r : Registry) (p : CompiledPlugin) :
    (r.insert p).table = Function.update r.table p.name (some p) := by
  funext name
  rw [table, insert, Entries.get?_put, Function.update_apply]
  simp only [eq_comm, table]

theorem table_remove (h : r.remove given = .ok r') :
    r'.table = Function.update r.table (Text.trim given) none := by
  unfold remove at h
  split at h
  · cases h
    funext name
    rw [table, Entries.get?_erase, Function.update_apply]
    simp only [eq_comm, table]
  · cases h

theorem mem_names_iff (r : Registry) (name : String) : name ∈ Entries.names r.plugins ↔ r.table name ≠ none := by
  rw [← Entries.isSome_get?_iff, Option.isSome_iff_ne_none, table]

theorem Whole.mem_list_iff (h : r.Whole) (info : PluginInfo) :
    info ∈ r.list ↔ ∃ name p, r.table name = some p ∧ info = p.info := by
  rw [list, List.mem_map]
  constructor
  · rintro ⟨⟨name, p⟩, hmem, rfl⟩
    exact ⟨name, p, h.sorted.get?_of_mem hmem, rfl⟩
  · rintro ⟨name, p, hp, rfl⟩
    exact ⟨(name, p), Entries.mem_of_get? hp, rfl⟩

theorem Whole.sorted_list (h : r.Whole) : r.list.Pairwise fun a b => a.name < b.name := by
  rw [list, List.pairwise_map]
  refine h.sorted.imp_of_mem fun {a b} ha hb hlt => ?_
  change a.2.name < b.2.name
  rwa [(h.named a ha).1, (h.named b hb).1]

theorem Whole.isMap (h : r.Whole) (hfits : ∀ name p, r.table name = some p → p.Fits name) : r.IsMap where
  fits := hfits
  sorted := h.sorted_list
  length := by rw [list, List.length_map, size]
  lookup given := by
    rw [contains, Registry.lookup]
    cases r.get? given <;> simp
  listed given := by
    rw [contains, Option.isSome_iff_exists]
    constructor
    · rintro ⟨p, hp⟩
      exact ⟨p.info, (h.mem_list_iff _).2 ⟨_, p, hp, rfl⟩, (hfits _ p hp).named⟩
    · rintro ⟨info, hinfo, hname⟩
      obtain ⟨name, p, hp, rfl⟩ := (h.mem_list_iff info).1 hinfo
      obtain rfl : Text.trim given = name := hname.symm.trans (hfits name p hp).named
      exact ⟨p, hp⟩

end Registry

/-! ## Moves -/

namespace RegistryPhase

variable {limits : Limits} {now : Instant} {r r' : Registry} {phase next : RegistryPhase} {call : RegistryCall}
  {reply : Except ChainError RegistryReply} {given name description source : String} {c : CompiledSource}

/-- What was compiled is what was asked for. -/
def Fits (limits : Limits) : RegistryPhase → Prop
  | compiled given _ source name c => Registry.nameOf given = .ok name ∧
      Script.Program.compile limits source = .ok c.program ∧ c.digest = Digest.ofText source
  | _ => True

/-- All that a move can do: the phase after it and the registry then. -/
inductive Proceeds (limits : Limits) (now : Instant) (r : Registry) :
    RegistryPhase → RegistryPhase → Registry → Prop
  | began (call : RegistryCall) : Proceeds limits now r (waiting call) (begun call) r
  | compiled {given description source name : String} {c : CompiledSource}
      (hfits : Fits limits (compiled given description source name c)) :
      Proceeds limits now r (begun (.register given description source))
        (compiled given description source name c) r
  | took {phase : RegistryPhase} {call : RegistryCall} {reply : Except ChainError RegistryReply} {r' : Registry}
      (hcall : phase.call? = some call) (htakes : RegistryTable.Takes limits now r.table call reply r'.table)
      (hwhole : r'.Whole) (hlimits : r'.limits = r.limits) (hsame : ∀ e, reply = .error e → r' = r) :
      Proceeds limits now r phase (settled reply) r'
  | handed (reply : Except ChainError RegistryReply) : Proceeds limits now r (settled reply) (returned reply) r
  | rested (reply : Except ChainError RegistryReply) : Proceeds limits now r (returned reply) (returned reply) r

/-- Where the registry stays as it is. -/
theorem Proceeds.of_same (hr : r.Whole) (hcall : phase.call? = some call)
    (htakes : RegistryTable.Takes limits now r.table call reply r.table) :
    Proceeds limits now r phase (settled reply) r :=
  .took hcall htakes hr rfl fun _ _ => rfl

theorem proceeds_install (hr : r.Whole) (hcall : phase.call? = some call) (hname : Registry.nameOf given = .ok name)
    {moved : RegistryPhase × Registry}
    (hmoved : moved = settle r ((r.install now given description c).map fun x => (.plugin x.1, x.2)))
    (htakes : RegistryTable.Takes limits now r.table call (.ok (.plugin ⟨c, name, description, now⟩))
      (Function.update r.table name (some ⟨c, name, description, now⟩))) :
    Proceeds limits now r phase moved.1 moved.2 := by
  rw [Registry.install_of_nameOf hname] at hmoved
  subst hmoved
  have htable : (r.insert ⟨c, name, description, now⟩).table =
      Function.update r.table name (some ⟨c, name, description, now⟩) := r.table_insert _
  rw [← htable] at htakes
  exact .took hcall htakes (hr.insert (Registry.nameOf_eq_ok hname).2.1) rfl fun _ he => by cases he

theorem proceeds_register (hr : r.Whole) (hlimits : r.limits = limits) :
    let moved := proceed now r (begun (.register given description source))
    Proceeds limits now r (begun (.register given description source)) moved.1 moved.2 := by
  intro moved
  cases hname : Registry.nameOf given with
  | error e =>
    obtain ⟨hblank, rfl⟩ := Registry.nameOf_eq_error hname
    simp only [moved, proceed, hname]
    exact .of_same hr rfl (.registeredBlank hblank)
  | ok name =>
    obtain ⟨hne, rfl⟩ := Registry.nameOf_eq_ok_iff.1 hname
    cases hc : r.compile (Text.trim given) source with
    | error e =>
      obtain ⟨why, hprogram, rfl⟩ := Registry.compile_eq_error_iff.1 hc
      simp only [moved, proceed, hname, hc]
      exact .of_same hr rfl (.rejected hne (hlimits ▸ hprogram))
    | ok c =>
      obtain ⟨hprogram, hdigest⟩ := Registry.compile_eq_ok_iff.1 hc
      simp only [moved, proceed, hname, hc]
      exact .compiled ⟨hname, hlimits ▸ hprogram, hdigest⟩

theorem proceeds_remove (hr : r.Whole) :
    let moved := proceed now r (begun (.remove given))
    Proceeds limits now r (begun (.remove given)) moved.1 moved.2 := by
  intro moved
  rcases r.remove_cases given with ⟨r', hremove, hsome⟩ | ⟨hnone, hremove⟩
  · have hmoved : moved = (settled (.ok .done), r') := by
      simp only [moved, proceed, hremove]
      rfl
    rw [hmoved]
    refine .took rfl ?_ (hr.remove hremove) (Registry.limits_remove hremove) fun _ he => by cases he
    rw [Registry.table_remove hremove]
    exact .removed hsome
  · simp only [moved, proceed, hremove]
    exact .of_same hr rfl (.nothingToRemove hnone)

/-- A call takes effect as on a table, or the registry stays as it is. -/
theorem proceeds (hr : r.Whole) (hlimits : r.limits = limits) (hphase : phase.Fits limits) :
    Proceeds limits now r phase (phase.proceed now r).1 (phase.proceed now r).2 := by
  cases phase with
  | waiting call => exact .began call
  | compiled given description source name c =>
    obtain ⟨hname, hprogram, hdigest⟩ := hphase
    obtain ⟨hne, rfl⟩ := Registry.nameOf_eq_ok_iff.1 hname
    exact proceeds_install hr rfl (Registry.nameOf_eq_ok hname).2.2 (by rw [proceed])
      (.registered hne hprogram hdigest)
  | settled reply => exact .handed reply
  | returned reply => exact .rested reply
  | begun call =>
    cases call with
    | register given description source => exact proceeds_register hr hlimits
    | install given description c hc =>
      cases hname : Registry.nameOf given with
      | error e =>
        obtain ⟨hblank, rfl⟩ := Registry.nameOf_eq_error hname
        simp only [proceed, Registry.install, hname]
        exact .of_same hr rfl (.installedBlank hc hblank)
      | ok name =>
        obtain ⟨hne, rfl⟩ := Registry.nameOf_eq_ok_iff.1 hname
        exact proceeds_install hr rfl hname (by rw [proceed]) (.installed hc hne)
    | remove given => exact proceeds_remove hr
    | lookUp given =>
      simp only [proceed, Registry.lookup]
      cases hget : r.get? given with
      | some p => exact .of_same hr rfl (.found hget)
      | none => exact .of_same hr rfl (.notFound hget)
    | contains given => exact .of_same hr rfl (.told given)
    | list => exact .of_same hr rfl (.listed hr.sorted_list hr.mem_list_iff)
    | size =>
      have hsize : r.size = (Entries.names r.plugins).length := by rw [Entries.names, List.length_map, Registry.size]
      simp only [proceed, hsize]
      exact .of_same hr rfl (.counted hr.sorted.nodup_names r.mem_names_iff)

/-- **A registration that nothing comes between** is the operation of the registry. -/
theorem register_in_two_steps (now : Instant) (r : Registry) (given description source : String) :
    let first := proceed now r (begun (.register given description source))
    let second := first.1.proceed now first.2
    match r.register now given description source with
    | .ok (p, r') => second = (settled (.ok (.plugin p)), r')
    | .error e => first = (settled (.error e), r) := by
  intro first second
  cases hname : Registry.nameOf given with
  | error e => simp only [Registry.register, first, proceed, hname, bind, Except.bind]
  | ok name =>
    cases hc : r.compile name source with
    | error e => simp only [Registry.register, first, proceed, hname, hc, bind, Except.bind]
    | ok c =>
      have hinstall : r.install now name description c = .ok _ :=
        Registry.install_of_nameOf (Registry.nameOf_eq_ok hname).2.2
      simp only [Registry.register, second, first, proceed, hname, hc, hinstall, bind, Except.bind]
      rfl

end RegistryPhase

/-! ## Runs -/

namespace SharedRegistry

open RegistryPhase

variable {limits : Limits} {calls : List RegistryCall} {t t' : SharedRegistry} {i j : Nat} {now : Instant}
  {phase next : RegistryPhase} {registry : Registry} {call : RegistryCall}
  {reply : Except ChainError RegistryReply}

/-- The calls came to what their entries say, and each of them has one. -/
structure Entered (calls : List RegistryCall) (t : SharedRegistry) : Prop where
  asked : ∀ e ∈ t.log, calls[e.caller]? = some e.call
  once : (t.log.map RegistryEntry.caller).Nodup
  replied : ∀ e ∈ t.log, t.replyOf e.caller = some e.reply
  entry : ∀ i reply, t.replyOf i = some reply → ∃ call now, ⟨i, call, now, reply⟩ ∈ t.log

/-- What every move keeps. -/
structure Sound (limits : Limits) (calls : List RegistryCall) (t : SharedRegistry) : Prop where
  fits : ∀ phase ∈ t.phases, phase.Fits limits
  asked : ∀ (i : Nat) (phase : RegistryPhase) (call : RegistryCall), t.phases[i]? = some phase →
    phase.call? = some call → calls[i]? = some call
  entered : t.Entered calls
  replays : RegistryTable.Replays limits (fun _ => none) t.log t.registry.table
  whole : t.registry.Whole
  bounds : t.registry.limits = limits

/-- A move of the call at an index. -/
inductive Moved (limits : Limits) (t : SharedRegistry) (i : Nat) (now : Instant) : SharedRegistry → Prop
  /-- There is no such call. -/
  | idle (hi : t.phases[i]? = none) : Moved limits t i now t
  | passed {phase next : RegistryPhase} (hi : t.phases[i]? = some phase) (hreply : next.reply? = phase.reply?)
      (hcall : ∀ call, next.call? = some call → phase.call? = some call) (hfits : next.Fits limits) :
      Moved limits t i now { t with phases := t.phases.set i next }
  | took {phase : RegistryPhase} {call : RegistryCall} {reply : Except ChainError RegistryReply}
      {registry : Registry} (hi : t.phases[i]? = some phase) (hcall : phase.call? = some call)
      (htakes : RegistryTable.Takes limits now t.registry.table call reply registry.table)
      (hwhole : registry.Whole) (hbounds : registry.limits = t.registry.limits)
      (hsame : ∀ e, reply = .error e → registry = t.registry) :
      Moved limits t i now ⟨registry, t.phases.set i (settled reply), t.log ++ [⟨i, call, now, reply⟩]⟩

theorem reply?_eq_none (h : phase.call? = some call) : phase.reply? = none := by
  cases phase with
  | settled reply => cases h
  | returned reply => cases h
  | _ => rfl

theorem move_of_proceed (hi : t.phases[i]? = some phase)
    (hproceed : phase.proceed now t.registry = (next, registry)) :
    t.move (i, now) = ⟨registry, t.phases.set i next, logged t.log i now phase next⟩ := by
  simp only [move, hi, hproceed]

theorem moved (h : t.Sound limits calls) (i : Nat) (now : Instant) : t.Moved limits i now (t.move (i, now)) := by
  cases hi : t.phases[i]? with
  | none =>
    have hmove : t.move (i, now) = t := by simp only [move, hi]
    exact hmove.symm ▸ .idle hi
  | some phase =>
    have hproceeds : Proceeds limits now t.registry phase _ _ :=
      proceeds h.whole h.bounds (h.fits phase (List.mem_of_getElem? hi))
    obtain ⟨next, registry, hproceed⟩ : ∃ next registry, phase.proceed now t.registry = (next, registry) :=
      ⟨_, _, rfl⟩
    rw [hproceed] at hproceeds
    rw [move_of_proceed hi hproceed]
    cases hproceeds with
    | began call => exact .passed hi rfl (fun _ h => h) trivial
    | compiled hfits => exact .passed hi rfl (fun _ h => h) hfits
    | took hcall htakes hwhole hbounds hsame =>
      rw [logged, hcall]
      exact .took hi hcall htakes hwhole hbounds hsame
    | handed reply => exact .passed hi rfl (fun _ h => h) trivial
    | rested reply => exact .passed hi rfl (fun _ h => h) trivial

theorem replyOf_set (hi : t.phases[i]? = some phase) (next : RegistryPhase) (j : Nat) (registry : Registry)
    (log : List RegistryEntry) : replyOf ⟨registry, t.phases.set i next, log⟩ j =
      if j = i then next.reply? else t.replyOf j := by
  rw [replyOf, List.getElem?_set]
  have hlt := (List.getElem?_eq_some_iff.1 hi).1
  by_cases hj : j = i
  · subst hj
    simp [hlt]
  · simp [hj, Ne.symm hj, replyOf]

/-- What a call has come to stays. -/
theorem Moved.replyOf_eq (h : t.Moved limits i now t') (hreply : t.replyOf j = some reply) :
    t'.replyOf j = some reply := by
  cases h with
  | idle => exact hreply
  | passed hi hsame =>
    rw [replyOf_set hi]
    split
    · next hj =>
      rw [hj, replyOf, hi] at hreply
      exact hsame.trans hreply
    · exact hreply
  | took hi hcall =>
    rw [replyOf_set hi]
    split
    · next hj =>
      rw [hj, replyOf, hi] at hreply
      cases (reply?_eq_none hcall).symm.trans hreply
    · exact hreply

theorem Moved.entered (h : t.Moved limits i now t') (ht : t.Sound limits calls) : t'.Entered calls := by
  cases h with
  | idle => exact ht.entered
  | @passed phase next hi hsame =>
    have hreply : ∀ j, replyOf ⟨t.registry, t.phases.set i next, t.log⟩ j = t.replyOf j := by
      intro j
      rw [replyOf_set hi]
      split
      · next hj => rw [hj, replyOf, hi, hsame, Option.bind_some]
      · rfl
    exact ⟨ht.entered.asked, ht.entered.once, fun e he => (hreply _).trans (ht.entered.replied e he),
      fun j reply hj => ht.entered.entry j reply ((hreply j).symm.trans hj)⟩
  | @took phase call reply registry hi hcall =>
    have hnone : t.replyOf i = none := by
      rw [replyOf, hi]
      exact reply?_eq_none hcall
    have hnew : ∀ e ∈ t.log, e.caller ≠ i := by
      intro e he hcaller
      have hreplied := ht.entered.replied e he
      rw [hcaller, hnone] at hreplied
      cases hreplied
    refine ⟨fun e he => ?_, ?_, fun e he => ?_, fun j reply' hj => ?_⟩
    · rcases List.mem_append.1 he with he | he
      · exact ht.entered.asked e he
      · cases List.mem_singleton.1 he
        exact ht.asked i _ _ hi hcall
    · rw [List.map_append, List.nodup_append]
      refine ⟨ht.entered.once, List.pairwise_singleton _ _, fun a ha b hb => ?_⟩
      obtain ⟨e, he, rfl⟩ := List.mem_map.1 ha
      cases List.mem_singleton.1 hb
      exact hnew e he
    · rw [replyOf_set hi]
      rcases List.mem_append.1 he with he | he
      · rw [if_neg (hnew e he)]
        exact ht.entered.replied e he
      · cases List.mem_singleton.1 he
        exact if_pos rfl
    · rw [replyOf_set hi] at hj
      split at hj
      · next hji =>
        cases hj
        exact ⟨call, now, hji ▸ List.mem_concat_self⟩
      · obtain ⟨call', now', hmem⟩ := ht.entered.entry j reply' hj
        exact ⟨call', now', List.mem_append_left _ hmem⟩

theorem Moved.sound (h : t.Moved limits i now t') (ht : t.Sound limits calls) : t'.Sound limits calls := by
  have hentered := h.entered ht
  cases h with
  | idle => exact ht
  | passed hi hsame hcall hfits =>
    refine ⟨fun phase hphase => ?_, fun j phase call hj hphase => ?_, hentered, ht.replays, ht.whole, ht.bounds⟩
    · rcases List.mem_or_eq_of_mem_set hphase with hphase | rfl
      · exact ht.fits phase hphase
      · exact hfits
    · rcases getElem?_set_cases hj with ⟨rfl, rfl⟩ | ⟨-, hj⟩
      · exact ht.asked _ _ call hi (hcall call hphase)
      · exact ht.asked j phase call hj hphase
  | took hi hcall htakes hwhole hbounds =>
    refine ⟨fun phase hphase => ?_, fun j phase call hj hphase => ?_, hentered, ht.replays.concat htakes, hwhole,
      hbounds.trans ht.bounds⟩
    · rcases List.mem_or_eq_of_mem_set hphase with hphase | rfl
      · exact ht.fits phase hphase
      · trivial
    · rcases getElem?_set_cases hj with ⟨rfl, rfl⟩ | ⟨-, hj⟩
      · cases hphase
      · exact ht.asked j phase call hj hphase

theorem replyOf_begin (limits : Limits) (calls : List RegistryCall) (i : Nat) :
    (begin_ limits calls).replyOf i = none := by
  change (calls.map RegistryPhase.waiting)[i]?.bind reply? = none
  rw [List.getElem?_map]
  cases calls[i]? <;> rfl

theorem sound_begin (limits : Limits) (calls : List RegistryCall) : (begin_ limits calls).Sound limits calls where
  fits phase hphase := by
    obtain ⟨call, -, rfl⟩ := List.mem_map.1 hphase
    trivial
  asked i phase call hi hcall := by
    change (calls.map RegistryPhase.waiting)[i]? = some phase at hi
    rw [List.getElem?_map] at hi
    obtain ⟨asked, hasked, rfl⟩ := Option.map_eq_some_iff.1 hi
    exact hasked.trans hcall
  entered := by
    refine ⟨fun e he => absurd he List.not_mem_nil, List.nodup_nil, fun e he => absurd he List.not_mem_nil,
      fun i reply hreply => ?_⟩
    rw [replyOf_begin] at hreply
    cases hreply
  replays := rfl
  whole := Registry.whole_of_eq_nil rfl
  bounds := rfl

theorem Sound.after (h : t.Sound limits calls) (turns : List (Nat × Instant)) :
    (t.after turns).Sound limits calls := by
  induction turns generalizing t with
  | nil => exact h
  | cons turn turns ih => exact ih ((moved h turn.1 turn.2).sound h)

theorem Moved.log_prefix (h : t.Moved limits i now t') : t.log <+: t'.log := by
  cases h with
  | idle => exact List.prefix_rfl
  | passed => exact List.prefix_rfl
  | took => exact List.prefix_append _ _

theorem Moved.registry_eq_or (h : t.Moved limits i now t') : t'.registry = t.registry ∨
    ∃ call reply, t'.log = t.log ++ [⟨i, call, now, .ok reply⟩] := by
  cases h with
  | idle => exact Or.inl rfl
  | passed => exact Or.inl rfl
  | @took phase call reply registry hi hcall htakes hwhole hbounds hsame =>
    cases reply with
    | ok reply => exact Or.inr ⟨call, reply, rfl⟩
    | error e => exact Or.inl (hsame e rfl)

/-- What has taken effect stays in its place, and what was told is not taken back. -/
theorem Sound.grows (h : t.Sound limits calls) (more : List (Nat × Instant)) :
    t.log <+: (t.after more).log ∧
      ∀ i reply, t.replyOf i = some reply → (t.after more).replyOf i = some reply := by
  induction more generalizing t with
  | nil => exact ⟨List.prefix_rfl, fun _ _ hreply => hreply⟩
  | cons turn more ih =>
    have hmoved := moved h turn.1 turn.2
    obtain ⟨hlog, hreplies⟩ := ih (hmoved.sound h)
    exact ⟨hmoved.log_prefix.trans hlog, fun i reply hreply => hreplies i reply (hmoved.replyOf_eq hreply)⟩

/-- A plugin is found if it stands under the name where the call took effect. -/
theorem Sound.lookUp (h : t.Sound limits calls) {before later : List RegistryEntry} {e : RegistryEntry}
    {given : String} (hlog : t.log = before ++ e :: later) (hcall : e.call = .lookUp given) :
    (∀ p, e.reply = .ok (.plugin p) ↔ Standing before (Text.trim given) p) ∧
      ((∀ p, ¬ Standing before (Text.trim given) p) →
        e.reply = .error (.pluginNotFound (Text.trim given))) := by
  obtain ⟨table, hbefore, _, htakes, -⟩ := RegistryTable.replays_append.1 (hlog ▸ h.replays)
  have hstanding := hbefore.standing (Text.trim given)
  obtain ⟨i, call, now, reply⟩ := e
  obtain rfl : call = .lookUp given := hcall
  cases htakes with
  | found hp =>
    refine ⟨fun p => ?_, fun hnone => absurd ((hstanding _).1 hp) (hnone _)⟩
    rw [← hstanding p, hp]
    simp
  | notFound hnone =>
    refine ⟨fun p => ?_, fun _ => rfl⟩
    rw [← hstanding p, hnone]
    simp

/-- **The registry is an atomic map.**  Whatever calls are under way on a registry that was empty at the
start, and in whatever order they move:

* they come to what they would come to if each were carried out in one step, in the order of the log;
* a call that took effect keeps its place in the log, before all that take effect later, and what it was
  told does not change any more;
* the registry changes only where a call takes effect that succeeds;
* a look at a name finds the plugin that was the last to be installed under the trimmed name and was not
  removed since, or nothing if there is none;
* and whoever looks finds a map of trimmed names, listed in their order. -/
theorem atomic_map (limits : Limits) (calls : List RegistryCall) (turns : List (Nat × Instant)) :
    let t := (begin_ limits calls).after turns
    (RegistryTable.Replays limits (fun _ => none) t.log t.registry.table ∧ t.Entered calls) ∧
      (∀ more, t.log <+: (t.after more).log ∧
        ∀ i reply, t.replyOf i = some reply → (t.after more).replyOf i = some reply) ∧
      (∀ i now, (t.move (i, now)).registry = t.registry ∨
        ∃ call reply, (t.move (i, now)).log = t.log ++ [⟨i, call, now, .ok reply⟩]) ∧
      (∀ before later e given, t.log = before ++ e :: later → e.call = .lookUp given →
        (∀ p, e.reply = .ok (.plugin p) ↔ Standing before (Text.trim given) p) ∧
        ((∀ p, ¬ Standing before (Text.trim given) p) →
          e.reply = .error (.pluginNotFound (Text.trim given)))) ∧
      t.registry.IsMap ∧ ∀ name p, t.registry.table name = some p ↔ Standing t.log name p := by
  intro t
  have hsound : t.Sound limits calls := (sound_begin limits calls).after turns
  exact ⟨⟨hsound.replays, hsound.entered⟩, hsound.grows, fun i now => (moved hsound i now).registry_eq_or,
    fun _ _ _ _ => hsound.lookUp, hsound.whole.isMap hsound.replays.fits, hsound.replays.standing⟩

/-- Of two registrations the one that is installed last stands, although it compiled first. -/
theorem atomic_map_overlap :
    let calls : List RegistryCall := [.register " p " "first" "", .register "p" "second" "", .lookUp "p"]
    let turns := [0, 0, 1, 1, 1, 0, 2, 2].map fun i => (i, (⟨0, 0⟩ : Instant))
    let t := (begin_ .standard calls).after turns
    ∃ p, t.registry.table "p" = some p ∧ p.description = "first" ∧ Standing t.log "p" p ∧ p.Fits "p" := by
  intro calls turns t
  have hrun : (t.registry.table "p").map (·.description) = some "first" := by decide +kernel
  obtain ⟨p, hp, hdescription⟩ := Option.map_eq_some_iff.1 hrun
  obtain ⟨-, -, -, -, hmap, hstanding⟩ := atomic_map .standard calls turns
  exact ⟨p, hp, hdescription, (hstanding "p" p).1 hp, hmap.fits "p" p hp⟩

end SharedRegistry

end PluginChain
