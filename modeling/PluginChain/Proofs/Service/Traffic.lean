import PluginChain.Proofs.Row
import PluginChain.Proofs.Service.Records

/-!
# Calls that overlap

Calls that change plugins may be under way at the same time.  A `Stage` is how far one of them got, and
`Stage.advance` brings it one step further.  Between two steps any other call may move: between the look
at the old record and the write of the new one, between a change of the store and that of the registry,
and between any two files that are read when plugins are loaded.  Only the calls that register a plugin
wait for each other, from before they look at the store until the plugin is installed.

* `Traffic` is a service with calls that are under way; `Traffic.after` lets the calls move in an order
  that is given.
* A call that nothing comes between does what the operation of the service does
  (`register_eq_steps`, `remove_eq_steps`, `load_eq_steps`).
-/

set_option autoImplicit false

namespace PluginChain

open Operation

/-- A call of an operation that changes plugins. -/
inductive PluginCall
  | register (now : Instant) (given description source : String)
  | remove (given : String)
  | load (now : Instant)

/-- What a call gives. -/
inductive Answer
  | info (i : PluginInfo)
  | done
  | loaded (r : LoadReport)

/-- A plugin that compiled. -/
structure Registration where
  now : Instant
  name : String
  description : String
  source : String
  compiled : CompiledSource

def Registration.record (r : Registration) : PluginRecord := .fresh r.now r.name r.description r.source

/-- A record that was read from a file, with all files as they were then. -/
structure Sighting where
  record : PluginRecord
  file : Place
  moment : FileTree

/-- How far a call got.  What a call did to the store, or read from it, comes with the files as they were
right after, which no step looks at. -/
inductive Stage
  | ready (call : PluginCall)
  /-- Waiting for its turn among those that register a plugin. -/
  | waiting (r : Registration)
  | admitted (r : Registration)
  | drafted (r : Registration) (record : PluginRecord)
  | kept (r : Registration) (moment : FileTree)
  | deleted (given : String) (stored : Bool) (moment : FileTree)
  | reading (now : Instant) (left : List String) (found : List Sighting)
  | loading (now : Instant) (left : List Sighting) (report : LoadReport)
  | returned (r : Except ChainError Answer)

namespace Stage

/-- The next step of a call. -/
def advance : Stage → ServiceM Stage
  | ready (.register now given description source) => do
    let name ← ofExcept (Registry.nameOf given)
    let compiled ← ofExcept ((← get).engine.registry.compile name source)
    return waiting ⟨now, name, description, source, compiled⟩
  | waiting r => return admitted r
  | admitted r => do
    return drafted r (← Service.onStore fun store => store.draftPlugin r.now r.record)
  | drafted r record => do
    Service.onStore fun store => store.keepPlugin record
    return kept r (← get).files
  | kept r _ => do
    let plugin ← Service.onRegistry fun reg => reg.install r.now r.name r.description r.compiled
    return returned (.ok (.info plugin.info))
  | ready (.remove given) => do
    let stored ← Service.deleteStored given
    return deleted given stored (← get).files
  | deleted given stored _ => do
    let installed ← Service.evict given
    unless stored || installed do throw (.pluginNotFound (Text.trim given))
    return returned (.ok .done)
  | ready (.load now) => do
    let names ← Service.onStore fun store => StoreM.look fun t => StoreM.recordNames t store.plugins
    return reading now names []
  | reading now [] found => return loading now found ⟨0, []⟩
  | reading now (name :: left) found => do
    let file := (← get).store.plugins ++ [name]
    let text ← Service.onStore fun _ => StoreM.look fun t => t.read file
    match PluginRecord.codec.ofJson text with
    | .ok record => return reading now left (found ++ [⟨record, file, (← get).files⟩])
    | .error _ => return reading now left found
  | loading _ [] report => return returned (.ok (.loaded report))
  | loading now (f :: left) report => fun s =>
    match s.engine.registry.register now f.record.name f.record.description f.record.source with
    | .ok (_, registry) =>
      .ok (loading now left { report with loaded := report.loaded + 1 })
        { s with engine := { s.engine with registry } }
    | .error _ => .ok (loading now left { report with skipped := report.skipped ++ [f.record.name] }) s
  | returned r => return returned r

/-- The stage after a step, and the service then.  A step that fails is the last of its call. -/
def proceed (stage : Stage) (s : Service) : Stage × Service :=
  match stage.advance s with
  | .ok next s => (next, s)
  | .error e s => (returned (.error e), s)

theorem snd_proceed (stage : Stage) (s : Service) : (stage.proceed s).2 = stateOf (stage.advance s) := by
  rw [proceed]
  cases stage.advance s <;> rfl

/-- The name whose plugin the registry takes in or gives up in the next step, the file this is drawn
from, and the files as they were when the call was at that file. -/
def draws (s : Service) : Stage → Option (String × Place × FileTree)
  | kept r moment => some (r.name, s.store.pluginFile r.name, moment)
  | deleted given _ moment => some (given, s.store.pluginFile given, moment)
  | loading now (f :: _) _ =>
    match s.engine.registry.register now f.record.name f.record.description f.record.source with
    | .ok _ => some (f.record.name, f.file, f.moment)
    | .error _ => none
  | _ => none

def isReturned : Stage → Bool
  | returned _ => true
  | _ => false

/-- The call needs that no other is alone. -/
def isWaiting : Stage → Bool
  | waiting _ => true
  | _ => false

/-- The call is alone among those that register a plugin. -/
def isAlone : Stage → Bool
  | admitted _ | drafted _ _ | kept _ _ => true
  | _ => false

end Stage

/-- A service with calls under way. -/
structure Traffic where
  service : Service
  stages : List Stage
  /-- For every name whose plugin the registry took in or gave up: the file that this was drawn from last,
  and the files as they were then. -/
  basis : String → Option (Place × FileTree)

namespace Traffic

def begin_ (s : Service) (calls : List PluginCall) : Traffic := ⟨s, calls.map .ready, fun _ => none⟩

/-- A step of the call at an index, if it can move. -/
def move (t : Traffic) (i : Nat) : Option Traffic :=
  match t.stages[i]? with
  | none | some (.returned _) => none
  | some stage =>
    if stage.isWaiting && t.stages.any Stage.isAlone then none
    else
      let (next, service) := stage.proceed t.service
      let basis := match stage.draws t.service with
        | some (name, drawn) => fun n => if Text.trim n = Text.trim name then some drawn else t.basis n
        | none => t.basis
      some ⟨service, t.stages.set i next, basis⟩

/-- The calls moving in an order, if each of them can. -/
def after (t : Traffic) (turns : List Nat) : Option Traffic := turns.foldlM move t

/-- All calls have returned. -/
def Finished (t : Traffic) : Prop := ∀ stage ∈ t.stages, stage.isReturned = true

end Traffic

/-! ## Calls that nothing comes between -/

namespace Stage

open Service (onStore_bind get_bind_const)

theorem register_eq_steps (now : Instant) (given description source : String) :
    (fun i => returned (.ok (.info i))) <$> Service.register now given description source =
      repeated advance 5 (ready (.register now given description source)) := by
  simp only [repeated, advance, Service.register, Store.savePlugin, onStore_bind, map_eq_pure_bind,
    bind_assoc, pure_bind, get_bind_const]
  rfl

theorem remove_eq_steps (given : String) :
    (fun _ => returned (.ok .done)) <$> Service.remove given =
      repeated advance 2 (ready (.remove given)) := by
  simp only [repeated, advance, Service.remove, map_eq_pure_bind, bind_assoc, pure_bind, get_bind_const]
  refine congrArg (Service.deleteStored given >>= ·) (funext fun stored => ?_)
  refine congrArg (Service.evict given >>= ·) (funext fun installed => ?_)
  cases stored || installed with
  | true => rfl
  | false => rfl

/-- Installing plugins one after the other. -/
theorem steps_loading (now : Instant) (left : List Sighting) (report : LoadReport) (s : Service) :
    ∃ more s', Service.installAll now (left.map Sighting.record) s = .ok more s' ∧
      repeated advance left.length (loading now left report) s =
        .ok (loading now [] ⟨report.loaded + more.loaded, report.skipped ++ more.skipped⟩) s' := by
  induction left generalizing report s with
  | nil => exact ⟨⟨0, []⟩, s, rfl, by rw [List.append_nil]; rfl⟩
  | cons f left ih =>
    cases hregister : s.engine.registry.register now f.record.name f.record.description
        f.record.source with
    | ok installed =>
      obtain ⟨p, registry⟩ := installed
      have hadvance : (loading now (f :: left) report).advance s = .ok (loading now left
          { report with loaded := report.loaded + 1 }) { s with engine := { s.engine with registry } } := by
        simp only [advance, hregister]
      obtain ⟨more, s', hinstall, hsteps⟩ := ih { report with loaded := report.loaded + 1 }
        { s with engine := { s.engine with registry } }
      refine ⟨{ more with loaded := more.loaded + 1 }, s', ?_, ?_⟩
      · simp only [List.map_cons, Service.installAll, hregister]
        exact bind_of_ok hinstall _
      · rw [List.length_cons, repeated, bind_of_ok hadvance, hsteps, Nat.add_assoc, Nat.add_comm 1]
    | error e =>
      have hadvance : (loading now (f :: left) report).advance s = .ok (loading now left
          { report with skipped := report.skipped ++ [f.record.name] }) s := by
        simp only [advance, hregister]
      obtain ⟨more, s', hinstall, hsteps⟩ :=
        ih { report with skipped := report.skipped ++ [f.record.name] } s
      refine ⟨{ more with skipped := f.record.name :: more.skipped }, s', ?_, ?_⟩
      · simp only [List.map_cons, Service.installAll, hregister]
        exact bind_of_ok hinstall _
      · rw [List.length_cons, repeated, bind_of_ok hadvance, hsteps, List.append_assoc]
        rfl

theorem readsNext_reading (now : Instant) : Service.ReadsNext (reading now) Store.plugins
    (fun s file record => ⟨record, file, s.files⟩) PluginRecord.codec advance := by
  intro name left found
  refine bind_congr fun s => bind_congr fun text => ?_
  cases PluginRecord.codec.ofJson text <;> rfl

/-- How many steps it takes to load plugins depends on the files there are. -/
theorem load_eq_steps (now : Instant) (s : Service) :
    ∃ n, ((fun r => returned (.ok (.loaded r))) <$> Service.load now) s =
      repeated advance n (ready (.load now)) s := by
  have hread := Service.repeated_records (c := PluginRecord.codec) (f := advance) (ready (.load now))
    (reading now) Store.plugins Sighting.record (fun s file record => ⟨record, file, s.files⟩)
    (fun _ _ _ => rfl) rfl (readsNext_reading now) s
  cases hlist : s.store.listPlugins s.files with
  | error e files =>
    rw [show StoreM.readRecords _ _ _ = _ from hlist] at hread
    obtain ⟨rfl, n, hsteps⟩ := hread
    have hload : Service.load now s = .error (.store e) s :=
      bind_of_error (Service.onStore_of_error (f := Store.listPlugins) hlist .store) _
    exact ⟨n, by rw [map_eq_pure_bind, bind_of_error hload, hsteps]⟩
  | ok records files =>
    rw [show StoreM.readRecords _ _ _ = _ from hlist] at hread
    obtain ⟨rfl, n, found, rfl, hsteps⟩ := hread
    obtain ⟨report, s', hinstall, hloading⟩ := steps_loading now found ⟨0, []⟩ s
    have hload : Service.load now s = .ok report s' :=
      (bind_of_ok (Service.onStore_of_ok (f := Store.listPlugins) hlist .store) _).trans hinstall
    refine ⟨n + (1 + (found.length + 1)), ?_⟩
    rw [map_eq_pure_bind, bind_of_ok hload, repeated_add, bind_of_ok hsteps, Nat.add_comm 1, repeated]
    change _ = repeated advance (found.length + 1) (loading now found ⟨0, []⟩) s
    rw [repeated_add, bind_of_ok hloading, Nat.zero_add, List.nil_append]
    rfl

/-- The stage and the service after an operation, where an error is the last stage. -/
def ended : EStateM.Result ChainError Service Stage → Stage × Service
  | .ok stage s => (stage, s)
  | .error e s => (returned (.error e), s)

theorem repeated_returned (n : Nat) (r : Except ChainError Answer) :
    repeated advance n (returned r) = pure (returned r) := repeated_of_pure (f := advance) rfl n

theorem ended_repeated_succ (n : Nat) (stage : Stage) (s : Service) :
    ended (repeated advance (n + 1) stage s) =
      ended (repeated advance n (stage.proceed s).1 (stage.proceed s).2) := by
  rw [repeated]
  cases h : stage.advance s with
  | ok next s' =>
    rw [bind_of_ok h, proceed, h]
  | error e s' =>
    rw [bind_of_error h, proceed, h, repeated_returned]
    rfl

end Stage

namespace Traffic

variable {t : Traffic} {i : Nat} {stage : Stage}

/-- A call that has not returned can move where no other is alone. -/
theorem exists_move (hi : t.stages[i]? = some stage) (hstage : ∀ r, stage ≠ .returned r)
    (halone : ∀ j other, j ≠ i → t.stages[j]? = some other → other.isAlone = false) :
    ∃ t', t.move i = some t' ∧ t'.stages = t.stages.set i (stage.proceed t.service).1 ∧
      t'.service = (stage.proceed t.service).2 := by
  have hfree : (stage.isWaiting && t.stages.any Stage.isAlone) = false := by
    cases hwaiting : stage.isWaiting with
    | false => rfl
    | true =>
      rw [Bool.true_and, List.any_eq_false]
      intro other hother
      obtain ⟨j, hj⟩ := List.getElem?_of_mem hother
      by_cases hij : j = i
      · subst hij
        obtain rfl := Option.some.inj (hi.symm.trans hj)
        cases stage with
        | waiting r => exact Bool.false_ne_true
        | _ => cases hwaiting
      · rw [halone j other hij hj]
        exact Bool.false_ne_true
  rw [move]
  split
  · next h =>
    rw [hi] at h
    cases h
  · next r h =>
    rw [hi] at h
    exact absurd (Option.some.inj h) (hstage r)
  · next other _ h =>
    obtain rfl := Option.some.inj (hi.symm.trans h)
    rw [hfree]
    exact ⟨_, rfl, rfl, rfl⟩

/-- **A call that nothing comes between** ends as the operation of the service does. -/
theorem exists_after_of_steps (n : Nat) (hi : t.stages[i]? = some stage)
    (halone : ∀ j other, j ≠ i → t.stages[j]? = some other → other.isAlone = false)
    {r : Except ChainError Answer} {s : Service}
    (hsteps : Stage.ended (repeated Stage.advance n stage t.service) = (.returned r, s)) :
    ∃ k t', t.after (List.replicate k i) = some t' ∧ t'.service = s ∧
      t'.stages = t.stages.set i (.returned r) := by
  induction n generalizing t stage with
  | zero =>
    obtain ⟨hstage, hservice⟩ := Prod.mk.inj hsteps
    exact ⟨0, t, rfl, hservice, set_of_getElem? (hi.trans (congrArg some hstage))⟩
  | succ n ih =>
    by_cases hstage : ∃ r', stage = .returned r'
    · obtain ⟨r', rfl⟩ := hstage
      rw [Stage.repeated_returned] at hsteps
      obtain ⟨hend, hservice⟩ := Prod.mk.inj hsteps
      exact ⟨0, t, rfl, hservice, set_of_getElem? (hi.trans (congrArg some hend))⟩
    · obtain ⟨t₁, hmove, hstages, hservice⟩ := exists_move hi (fun r' hr' => hstage ⟨r', hr'⟩) halone
      have hlt : i < t.stages.length := (List.getElem?_eq_some_iff.1 hi).1
      have hi₁ : t₁.stages[i]? = some (stage.proceed t.service).1 := by
        rw [hstages, List.getElem?_set_self hlt]
      have halone₁ : ∀ j other, j ≠ i → t₁.stages[j]? = some other → other.isAlone = false := by
        intro j other hij hj
        rw [hstages, List.getElem?_set_ne (Ne.symm hij)] at hj
        exact halone j other hij hj
      rw [Stage.ended_repeated_succ, ← hservice] at hsteps
      obtain ⟨k, t', hafter, hs, hend⟩ := ih hi₁ halone₁ hsteps
      refine ⟨k + 1, t', ?_, hs, ?_⟩
      · rw [after, List.replicate_succ, List.foldlM_cons, hmove]
        exact hafter
      · rw [hend, hstages, List.set_set]

end Traffic

end PluginChain
