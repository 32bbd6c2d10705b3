import PluginChain.Proofs.Service.References

/-!
# White space around names

A plugin is known by its trimmed name, and every operation that is given a name trims it before anything is
done with it: before the name is looked up, before a file is named for its digest, before it is told in an
error, and before the outcome of a call is entered under it.  So an operation that is given one of two names
that differ only in the white space around them is the same function of the service as with the other: they
come to the same value or error and leave the same registry and files, on every service and every disk.

* One exception is a registration under a name of which nothing is left, which is refused with the name as it
  was given (`Registry.nameOf_congr`).
* Of a task that is submitted a copy is kept with its text as it was given.  But for this copy two tasks whose
  steps name the same plugins are run and submitted alike (`Task.SamePlugins.runsAlike`).
-/

set_option autoImplicit false

namespace PluginChain

open Operation

variable {a b : String}

/-! ## Names in the registry -/

namespace Registry

/-- A name is fit or blank with any white space around it.  If it is blank it is told as it was given. -/
theorem nameOf_congr (h : Text.trim a = Text.trim b) (hne : Text.trim a ≠ "") : nameOf a = nameOf b := by
  rw [nameOf_eq_ok_iff.2 ⟨hne, rfl⟩, nameOf_eq_ok_iff.2 ⟨h ▸ hne, rfl⟩, h]

variable (r : Registry)

theorem get?_congr (h : Text.trim a = Text.trim b) : r.get? a = r.get? b := by
  rw [get?, get?, h]

theorem contains_congr (h : Text.trim a = Text.trim b) : r.contains a = r.contains b := by
  rw [contains, contains, r.get?_congr h]

theorem lookup_congr (h : Text.trim a = Text.trim b) : r.lookup a = r.lookup b := by
  rw [lookup, lookup, r.get?_congr h, h]

theorem remove_congr (h : Text.trim a = Text.trim b) : r.remove a = r.remove b := by
  rw [remove, remove, r.contains_congr h, h]

theorem install_congr (h : Text.trim a = Text.trim b) (hne : Text.trim a ≠ "") (now : Instant)
    (description : String) (c : CompiledSource) : r.install now a description c = r.install now b description c := by
  rw [install, install, nameOf_congr h hne]

theorem register_congr (h : Text.trim a = Text.trim b) (hne : Text.trim a ≠ "") (now : Instant)
    (description source : String) : r.register now a description source = r.register now b description source := by
  rw [register, register, nameOf_congr h hne]

end Registry

/-! ## Plugins that are run -/

namespace Engine

theorem runPlugin_congr (h : Text.trim a = Text.trim b) (e : Engine) (eval : Evaluator) (input params : Data) :
    e.runPlugin eval a input params = e.runPlugin eval b input params := by
  rw [runPlugin, runPlugin, start, start, e.registry.get?_congr h, h]

theorem executePlugin_congr (h : Text.trim a = Text.trim b) (e : Engine) (input params : Data)
    (time : Option Duration) : e.executePlugin a input params time = e.executePlugin b input params time := by
  rw [executePlugin, executePlugin, e.runPlugin_congr h]

end Engine

/-! ## Plugins in the store -/

namespace Store

variable {s : Store} {t : FileTree}

theorem pluginFile_congr (s : Store) (h : Text.trim a = Text.trim b) : s.pluginFile a = s.pluginFile b := by
  rw [pluginFile, pluginFile, h]

/-- A look at the source of a plugin comes to what is in its file, or else tells that there is none. -/
theorem pluginSource_cases (s : Store) (h : Text.trim a = Text.trim b) (t : FileTree) :
    s.pluginSource a t = s.pluginSource b t ∨
      s.pluginSource a t = .error (.notFound .plugin a) t ∧
        s.pluginSource b t = .error (.notFound .plugin b) t := by
  simp only [pluginSource, StoreM.readRecord, bind_assoc, s.pluginFile_congr h]
  rcases StoreM.readRecord?_cases PluginRecord.codec (s.pluginFile b) t with ⟨e, hread⟩ | hread | ⟨r, hread, -⟩
  · exact Or.inl (by rw [bind_of_error hread, bind_of_error hread])
  · refine Or.inr ⟨?_, ?_⟩ <;>
    · rw [bind_of_ok hread]
      rfl
  · exact Or.inl (by rw [bind_of_ok hread, bind_of_ok hread])

/-- A plugin is deleted with its file, or else it is told that there is none. -/
theorem deletePlugin_eq_or (s : Store) (h : Text.trim a = Text.trim b) (t : FileTree) :
    s.deletePlugin a t = s.deletePlugin b t ∨
      s.deletePlugin a t = .error (.notFound .plugin a) t ∧
        s.deletePlugin b t = .error (.notFound .plugin b) t := by
  have hfile := s.pluginFile_congr h
  by_cases hmissing : t.read (s.pluginFile a) = .error .missing
  · exact Or.inr ⟨deletePlugin_of_missing hmissing, deletePlugin_of_missing (hfile ▸ hmissing)⟩
  · refine Or.inl ?_
    rw [deletePlugin_of_ne_missing hmissing, deletePlugin_of_ne_missing (hfile ▸ hmissing), hfile]

end Store

/-! ## Operations that are given a name -/

namespace Service

theorem register_congr (h : Text.trim a = Text.trim b) (hne : Text.trim a ≠ "") (now : Instant)
    (description source : String) : register now a description source = register now b description source := by
  rw [register, register, Registry.nameOf_congr h hne]

theorem pluginSource_congr (h : Text.trim a = Text.trim b) : pluginSource a = pluginSource b := by
  funext s
  have herror : pluginError a = pluginError b := by
    funext e
    rw [pluginError, pluginError, h]
  rw [pluginSource, pluginSource, herror, onStore, onStore]
  rcases s.store.pluginSource_cases h s.files with hsame | ⟨ha, hb⟩
  · rw [hsame]
  · rw [ha, hb]
    rfl

theorem deleteStored_congr (h : Text.trim a = Text.trim b) : deleteStored a = deleteStored b := by
  funext s
  rw [deleteStored, deleteStored]
  rcases s.store.deletePlugin_eq_or h s.files with hsame | ⟨ha, hb⟩
  · rw [hsame]
  · rw [ha, hb]
    rfl

theorem evict_congr (h : Text.trim a = Text.trim b) : evict a = evict b := by
  funext s
  rw [evict, evict, s.engine.registry.remove_congr h]

theorem remove_congr (h : Text.trim a = Text.trim b) : remove a = remove b := by
  rw [remove, remove, deleteStored_congr h, evict_congr h, h]

theorem execute_congr (h : Text.trim a = Text.trim b) (input params : Data) :
    execute a input params = execute b input params := by
  have hrun : (fun e : Engine => e.executePlugin a input params none) =
      fun e => e.executePlugin b input params none := funext fun e => e.executePlugin_congr h input params none
  rw [execute, execute, hrun]

end Service

/-! ## Calls on a job -/

/-- The call with its name trimmed. -/
def Invocation.trimmed (call : Invocation) : Invocation := { call with name := Text.trim call.name }

namespace Service

theorem callAll_trimmed (eval : Evaluator) (calls : List Invocation) (current : Data) (results : Results) :
    callAll eval (calls.map Invocation.trimmed) current results = callAll eval calls current results := by
  induction calls generalizing current results with
  | nil => rfl
  | cons call rest ih =>
    simp only [List.map_cons, callAll, Invocation.trimmed, Text.trim_trim, ih]

theorem process_congr {calls calls' : List Invocation}
    (h : calls.map Invocation.trimmed = calls'.map Invocation.trimmed) (now : Instant) (id : Uuid) :
    process now id calls = process now id calls' := by
  have hcalls : ∀ (eval : Evaluator) (input : Data), callAll eval calls input [] = callAll eval calls' input [] := by
    intro eval input
    rw [← callAll_trimmed, h, callAll_trimmed]
  simp only [process, hcalls]

end Service

/-! ## Steps of tasks -/

/-- The step with the name of its plugin trimmed. -/
def Step.trimmed (step : Step) : Step := { step with plugin := step.plugin.map Text.trim }

theorem Text.nonBlank?_trim (s : String) : nonBlank? (trim s) = nonBlank? s := by
  rw [nonBlank?, nonBlank?, trim_trim]

/-- **No run looks at white space around the name of a plugin.** -/
theorem Step.unnoticed_trimmed : Unnoticed trimmed where
  displayName _ _ := rfl
  pluginName step index := by
    rw [pluginName, pluginName]
    cases hplugin : step.plugin with
    | none => simp only [trimmed, hplugin, Option.map_none]; rfl
    | some plugin =>
      simp only [trimmed, hplugin, Option.map_some, Option.bind_some, Text.nonBlank?_trim]
      rfl
  paramsData _ := rfl

namespace Task

/-- The tasks are the same but for white space around the names of plugins. -/
def SamePlugins (task task' : Task) : Prop := task.mapSteps Step.trimmed = task'.mapSteps Step.trimmed

variable {task task' : Task}

theorem initialInput?_mapSteps_trimmed (task : Task) :
    (task.mapSteps Step.trimmed).initialInput? = task.initialInput? := by
  obtain ⟨name, description, steps, parallel⟩ := task
  cases steps <;> rfl

/-- Tasks that name the same plugins are run alike wherever a run overlooks white space. -/
theorem SamePlugins.runsAlike (h : task.SamePlugins task') {run : Runner} (hrun : run.Overlooks Step.trimmed) :
    run.RunsAlike task task' where
  name := show (task.mapSteps Step.trimmed).name = (task'.mapSteps Step.trimmed).name by rw [h]
  description :=
    show (task.mapSteps Step.trimmed).description = (task'.mapSteps Step.trimmed).description by rw [h]
  validate := by rw [← validate_mapSteps Step.trimmed, h, validate_mapSteps]
  initialInput? := by rw [← initialInput?_mapSteps_trimmed, h, initialInput?_mapSteps_trimmed]
  runTask := hrun.runTask_eq Step.unnoticed_trimmed h

theorem SamePlugins.runTask_eq (h : task.SamePlugins task') (e : Engine) (input : Data) :
    e.runTask task input = e.runTask task' input := by
  rw [← Step.unnoticed_trimmed.runTask_eq, h, Step.unnoticed_trimmed.runTask_eq]

end Task

namespace Service

variable {task task' : Task}

theorem runTask_congr (h : task.SamePlugins task') (input : Data) : runTask task input = runTask task' input := by
  have hrun : (fun e : Engine => e.runTask task input) = fun e => e.runTask task' input :=
    funext fun e => h.runTask_eq e input
  rw [runTask, runTask, hrun]

/-- Submissions of tasks that name the same plugins cannot be told apart, but for the copies of the tasks. -/
theorem observed_submit_congr (h : task.SamePlugins task') (now : Instant) (taskId jobId : Uuid)
    (given : Option Data) (s : Service) :
    observed withoutCopies (submit now taskId jobId task given s) =
      observed withoutCopies (submit now taskId jobId task' given s) := by
  rw [← submitBy_ofEngine, ← submitBy_ofEngine]
  exact alike_submitBy_of_runsAlike (h.runsAlike (Runner.overlooks_ofEngine Step.unnoticed_trimmed s.engine))
    now taskId jobId given s s rfl

end Service

end PluginChain
