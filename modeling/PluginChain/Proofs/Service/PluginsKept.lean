import PluginChain.Proofs.Service.JobMoves
import PluginChain.Proofs.Service.Processing
import PluginChain.Proofs.Service.Spared
import PluginChain.Proofs.Store.Catalogue
import PluginChain.Proofs.Workflow.Halves

/-!
# What leaves the plugins alone

Only registrations, removals and loads change which plugins there are.  All else that a service does keeps
them (`Service.PluginsKept`): the registry is the same, and the directory of plugins holds the same records.

* A run only looks plugins up, whether the steps of its task take turns or run side by side
  (`Engine.registry_runTask`).
* No step of a request about jobs touches a plugin (`JobStage.keepsPlugins_advance`).  Since an operation on jobs
  is a number of such steps, none of these operations does (`Service.keepsPlugins_of_steps`).
* So no operation does but the three (`Service.OtherCall.keepsPlugins`).
-/

set_option autoImplicit false

namespace PluginChain

open Operation FileTree

/-! ## Runs -/

namespace FanOut

variable (eval : Nat → Evaluator) (steps : List Step) (input : Data)

theorem registry_tryMove (s : FanOut) (m : Move) :
    (s.tryMove eval steps input m).engine.registry = s.engine.registry := by
  rw [tryMove]
  cases hmove : s.move eval steps input m with
  | none => rfl
  | some s' => exact (moved_of_move hmove).registry_eq

theorem registry_run (e : Engine) : (run e eval steps input).engine.registry = e.registry := by
  suffices h : ∀ (moves : List Move) (s : FanOut),
      (moves.foldl (tryMove eval steps input) s).engine.registry = s.engine.registry from h _ _
  intro moves
  induction moves with
  | nil => exact fun _ => rfl
  | cons m moves ih => exact fun s => (ih _).trans (s.registry_tryMove eval steps input m)

end FanOut

namespace Engine

theorem registry_runFanOut (eval : Nat → Evaluator) (steps : List Step) (input : Data) (e : Engine) :
    (runFanOut eval steps input e).2.registry = e.registry := by
  rw [runFanOut]
  split
  · rfl
  · exact FanOut.registry_run eval steps input e

end Engine

/-- The run only looks plugins up. -/
structure Runner.KeepsPlugins (run : Runner) : Prop where
  runTask : ∀ task input e, (run.runTask task input e).2.registry = e.registry
  calls : ∀ calls input e, (run.calls calls input e).2.registry = e.registry

theorem Runner.keepsPlugins_ofEngine (e : Engine) : (ofEngine e).KeepsPlugins where
  runTask task input e' := by
    rw [Runner.runTask, Task.run]
    cases task.validate with
    | error why => rfl
    | ok u =>
      cases task.parallel with
      | true => exact Engine.registry_runFanOut _ task.steps input e'
      | false => exact (Engine.samePlugins_chain _ 0 task.steps input [] e').registry
  calls calls input e' := Service.registry_callAll _ calls input [] e'

/-- **A run changes nothing of the registry**, whatever comes of it. -/
theorem Engine.registry_runTask (e : Engine) (task : Task) (input : Data) :
    (e.runTask task input).2.registry = e.registry := by
  rw [← Runner.runTask_ofEngine]
  exact (Runner.keepsPlugins_ofEngine e).runTask task input e

/-! ## Records of plugins -/

/-- The directory of plugins holds the same records. -/
def Store.PluginsKept (s : Store) (t t' : FileTree) : Prop :=
  ∀ name, suffix? name = some "json" →
    StoreM.recordAt? PluginRecord.codec t' (s.plugins ++ [name]) =
      StoreM.recordAt? PluginRecord.codec t (s.plugins ++ [name])

namespace Store

variable (s : Store) {t t' : FileTree}

theorem pluginsKept_of_recordsKept {places : List Place} (h : RecordsKept places t t')
    (hplaces : ∀ name, s.plugins ++ [name] ∉ places) : s.PluginsKept t t' :=
  fun name hname => h.recordAt?_eq hname (hplaces name)

/-- A change at places that are not in the directory of plugins. -/
theorem keepsPlugins_perform {c : Change} (hc : ∀ name, s.plugins ++ [name] ∉ c.places) :
    Keeps s.PluginsKept (StoreM.perform [c]) :=
  StoreM.keeps_perform (fun _ _ _ => rfl) (fun _ _ _ h h' name hname => (h' name hname).trans (h name hname))
    fun c' hc' t t' happly name _ => by
      rw [List.mem_singleton.1 hc'] at happly
      rw [StoreM.recordAt?, StoreM.recordAt?, Change.lookup_of_apply happly (hc name)]

theorem keepsPlugins_lock : Keeps s.PluginsKept (StoreM.perform [s.lock]) :=
  s.keepsPlugins_perform fun name h => s.lock_ne_plugins_append name (List.mem_singleton.1 h).symm

theorem plugins_append_ne_jobs_append (name name' : String) : s.plugins ++ [name] ≠ s.jobs ++ [name'] :=
  fun h => s.plugins_ne_jobs (append_singleton_inj.1 h).1

theorem keepsPlugins_saveTask (id : Uuid) (task : Task) : Keeps s.PluginsKept (s.saveTask id task) :=
  s.keepsPlugins_perform fun _ h =>
    s.tasks_ne_plugins (append_singleton_inj.1 (List.mem_singleton.1 h)).1.symm

/-- The text of a job is written beside its file. -/
theorem keepsPlugins_writeBeside (id : Uuid) (content : String) :
    Keeps s.PluginsKept (StoreM.perform [.write (StoreM.besideOf (s.jobFile id)) content]) := by
  rw [jobFile, StoreM.besideOf_append]
  exact s.keepsPlugins_perform fun _ h => s.plugins_append_ne_jobs_append _ _ (List.mem_singleton.1 h)

theorem keepsPlugins_putInPlace (id : Uuid) :
    Keeps s.PluginsKept (StoreM.perform [.rename (StoreM.besideOf (s.jobFile id)) (s.jobFile id)]) := by
  rw [jobFile, StoreM.besideOf_append]
  refine s.keepsPlugins_perform fun name h => ?_
  rcases List.mem_cons.1 h with h | h
  · exact s.plugins_append_ne_jobs_append _ _ h
  · exact s.plugins_append_ne_jobs_append _ _ (List.mem_singleton.1 h)

end Store

/-! ## Parts of operations -/

namespace Service

variable {α : Type} {s s' s'' : Service}

/-- The registry is the same, and so are the records of plugins. -/
structure PluginsKept (s s' : Service) : Prop where
  store : s'.store = s.store
  registry : s'.engine.registry = s.engine.registry
  records : s.store.PluginsKept s.files s'.files

theorem PluginsKept.refl (s : Service) : s.PluginsKept s := ⟨rfl, rfl, fun _ _ => rfl⟩

theorem PluginsKept.trans (h : s.PluginsKept s') (h' : s'.PluginsKept s'') : s.PluginsKept s'' where
  store := h'.store.trans h.store
  registry := h'.registry.trans h.registry
  records name hname := by
    have hlast := h'.records name hname
    rw [h.store] at hlast
    exact hlast.trans (h.records name hname)

/-- The operation keeps the plugins, whatever it comes to. -/
abbrev KeepsPlugins (f : ServiceM α) : Prop := Operation.Keeps PluginsKept f

theorem keepsPlugins_of_looksOnly {f : ServiceM α} (h : LooksOnly f) : KeepsPlugins f := h.keeps .refl

theorem keepsPlugins_pure (a : α) : KeepsPlugins (pure a) := keeps_pure .refl a

theorem keepsPlugins_bind {β : Type} {f : ServiceM α} {g : α → ServiceM β} (hf : KeepsPlugins f)
    (hg : ∀ a, KeepsPlugins (g a)) : KeepsPlugins (f >>= g) :=
  hf.bind (fun _ _ _ => .trans) hg

theorem keepsPlugins_onStore {f : Store → StoreM α}
    (h : ∀ store, Operation.Keeps (Store.PluginsKept store) (f store)) (wrap : StoreError → ChainError) :
    KeepsPlugins (onStore f wrap) := by
  intro s
  have hs := h s.store s.files
  cases hf : f s.store s.files with
  | ok a files =>
    rw [hf] at hs
    rw [onStore_of_ok hf]
    exact ⟨rfl, rfl, hs⟩
  | error e files =>
    rw [hf] at hs
    rw [onStore_of_error hf]
    exact ⟨rfl, rfl, hs⟩

theorem keepsPlugins_onEngine {f : Engine → α × Engine} (h : ∀ e, (f e).2.registry = e.registry) :
    KeepsPlugins (onEngine f) := fun s => ⟨rfl, h s.engine, fun _ _ => rfl⟩

end Service

/-! ## Steps of requests about jobs -/

namespace JobStage

open Service

variable {run : Runner}

/-- **No step of a request about jobs touches a plugin.** -/
theorem keepsPlugins_advance (hrun : run.KeepsPlugins) (stage : JobStage) :
    KeepsPlugins (stage.advance run) := by
  have hlook : ∀ {f : ServiceM JobStage}, LooksOnly f → KeepsPlugins f := keepsPlugins_of_looksOnly
  cases stage with
  | ready r =>
    cases r with
    | call c =>
      cases c with
      | upload now id input => exact keepsPlugins_pure _
      | submit now taskId jobId task given =>
        refine keepsPlugins_bind (keeps_ofExcept .refl _) fun _ => ?_
        exact keepsPlugins_bind (keepsPlugins_onStore (fun store => store.keepsPlugins_saveTask taskId task) _)
          fun _ => keepsPlugins_pure _
      | process now id calls =>
        exact hlook ((looksOnly_onStore (fun store => looksOnly_jobInput store id) _).bind fun _ => looksOnly_pure _)
    | get id => exact hlook ((looksOnly_getJob id).bind fun _ => looksOnly_pure _)
    | list =>
      exact hlook ((looksOnly_onStore (fun _ => StoreM.looksOnly_look _) _).bind fun _ => looksOnly_pure _)
  | submitted now jobId task given => exact hlook ((looksOnly_inputOf task given).bind fun _ => looksOnly_pure _)
  | resolved now jobId task input =>
    refine keepsPlugins_bind (keepsPlugins_onEngine (hrun.runTask task input)) fun r => ?_
    rcases r with (why | places) | report
    · exact keepsPlugins_pure _
    · exact keeps_throw .refl _
    · exact keepsPlugins_pure _
  | loaded now id calls input =>
    exact keepsPlugins_bind (keepsPlugins_onEngine (hrun.calls calls input)) fun _ => keepsPlugins_pure _
  | opening e =>
    exact keepsPlugins_bind (keepsPlugins_onStore (fun store => store.keepsPlugins_lock) _) fun _ => keepsPlugins_pure _
  | waiting e => exact keepsPlugins_pure _
  | locked e =>
    exact hlook ((looksOnly_onStore (fun store => e.looksOnly_draft store) _).bind fun _ => looksOnly_pure _)
  | drafted e job =>
    exact keepsPlugins_bind (keepsPlugins_onStore (fun store => store.keepsPlugins_writeBeside e.id _) _)
      fun _ => keepsPlugins_pure _
  | written e job =>
    exact keepsPlugins_bind (keepsPlugins_onStore (fun store => store.keepsPlugins_putInPlace e.id) _)
      fun _ => keepsPlugins_pure _
  | placed e => exact keepsPlugins_bind (keeps_ofExcept .refl _) fun _ => keepsPlugins_pure _
  | listing left found =>
    cases left with
    | nil => exact keepsPlugins_pure _
    | cons name left =>
      refine keepsPlugins_bind (fun s => .refl s) fun s => hlook ?_
      refine (looksOnly_onStore (fun _ => StoreM.looksOnly_look _) _).bind fun text => ?_
      cases Job.codec.ofJson text <;> exact looksOnly_pure _
  | returned r => exact keepsPlugins_pure _

theorem pluginsKept_proceed (hrun : run.KeepsPlugins) (stage : JobStage) (s : Service) :
    s.PluginsKept (stage.proceed run s).2 := by
  rw [snd_proceed]
  exact keepsPlugins_advance hrun stage s

end JobStage

/-! ## Operations -/

namespace Service

/-- An operation that comes to what so many steps of a request come to keeps the plugins, as each step does. -/
theorem keepsPlugins_of_steps {α : Type} {f : ServiceM α} {g : α → JobStage}
    (h : ∀ s, ∃ n stage, (g <$> f) s = repeated (JobStage.advance (.ofEngine s.engine)) n stage s) :
    KeepsPlugins f := by
  have hsteps : ∀ {run : Runner}, run.KeepsPlugins → ∀ n stage,
      KeepsPlugins (repeated (JobStage.advance run) n stage) := by
    intro run hrun n
    induction n with
    | zero => exact fun stage => keepsPlugins_pure stage
    | succ n ih => exact fun stage => keepsPlugins_bind (JobStage.keepsPlugins_advance hrun stage) ih
  intro s
  obtain ⟨n, stage, hs⟩ := h s
  rw [← stateOf_map g, hs]
  exact hsteps (Runner.keepsPlugins_ofEngine s.engine) n stage s

theorem keepsPlugins_upload (now : Instant) (id : Uuid) (input : Data) : KeepsPlugins (upload now id input) :=
  keepsPlugins_of_steps fun s => ⟨_, _, congrFun (JobStage.upload_eq_steps (.ofEngine s.engine) now id input) s⟩

theorem keepsPlugins_submit (now : Instant) (taskId jobId : Uuid) (task : Task) (given : Option Data) :
    KeepsPlugins (submit now taskId jobId task given) :=
  keepsPlugins_of_steps fun s => ⟨_, _, JobStage.submit_eq_steps now taskId jobId task given s⟩

theorem keepsPlugins_process (now : Instant) (id : Uuid) (calls : List Invocation) :
    KeepsPlugins (process now id calls) :=
  keepsPlugins_of_steps fun s => ⟨_, _, JobStage.process_eq_steps now id calls s⟩

theorem keepsPlugins_execute (name : String) (input params : Data) : KeepsPlugins (execute name input params) :=
  keepsPlugins_bind (keepsPlugins_onEngine fun e => e.registry_runPlugin (e.evaluator none) name input params)
    fun _ => keeps_ofExcept .refl _

theorem keepsPlugins_runTask (task : Task) (input : Data) : KeepsPlugins (runTask task input) :=
  keepsPlugins_bind (keepsPlugins_onEngine fun e => e.registry_runTask task input)
    fun _ => keeps_ofExcept .refl _

/-- A call of one of the operations that do not change which plugins there are. -/
inductive OtherCall
  | pluginSource (name : String)
  | listPlugins
  | execute (name : String) (input params : Data)
  | runTask (task : Task) (input : Data)
  | job (c : JobCall)
  | getJob (id : Uuid)
  | listJobs

def OtherCall.run : OtherCall → ServiceM Unit
  | pluginSource name => do let _ ← Service.pluginSource name
  | listPlugins => do let _ ← Service.listPlugins
  | execute name input params => do let _ ← Service.execute name input params
  | runTask task input => do let _ ← Service.runTask task input
  | job c => do let _ ← c.run
  | getJob id => do let _ ← Service.getJob id
  | listJobs => do let _ ← Service.listJobs

/-- **All other operations leave the plugins alone**, whatever they come to. -/
theorem OtherCall.keepsPlugins (c : OtherCall) : KeepsPlugins c.run := by
  have hlook : ∀ {α : Type} {f : ServiceM α}, LooksOnly f → KeepsPlugins (f >>= fun _ => pure ()) :=
    fun hf => keepsPlugins_bind (keepsPlugins_of_looksOnly hf) fun _ => keepsPlugins_pure ()
  cases c with
  | pluginSource name => exact hlook (looksOnly_pluginSource name)
  | listPlugins => exact hlook looksOnly_listPlugins
  | execute name input params =>
    exact keepsPlugins_bind (keepsPlugins_execute name input params) fun _ => keepsPlugins_pure ()
  | runTask task input => exact keepsPlugins_bind (keepsPlugins_runTask task input) fun _ => keepsPlugins_pure ()
  | job c =>
    refine keepsPlugins_bind ?_ fun _ => keepsPlugins_pure ()
    cases c with
    | upload now id input => exact keepsPlugins_bind (keepsPlugins_upload now id input) fun _ => keepsPlugins_pure _
    | submit now taskId jobId task given =>
      exact keepsPlugins_bind (keepsPlugins_submit now taskId jobId task given) fun _ => keepsPlugins_pure _
    | process now id calls =>
      exact keepsPlugins_bind (keepsPlugins_process now id calls) fun _ => keepsPlugins_pure _
  | getJob id => exact hlook (looksOnly_getJob id)
  | listJobs => exact hlook looksOnly_listJobs

end Service

end PluginChain
