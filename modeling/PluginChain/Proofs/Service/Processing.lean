import PluginChain.Proofs.Service.CallsAsSteps
import PluginChain.Proofs.Service.Handover
import PluginChain.Proofs.Service.Spared

/-!
# What calls do to their job

The calls on a job form a chain that does not break.  Each works on what the last success before it gave
(`lastGood`), so that a failure anywhere in the chain is skipped, and all of them are made.

Two things happen to what they come to.  The outcomes go into a table under the trimmed names of the plugins,
where the last one of a name stays, and this table takes the place of the outcomes that the job had.  The job
is then written again, and of the other files in the store only the lock and the file beside that of the job
may become others (`Service.Entered`).

`Service.process_chain` has all of this, along with what happens where there is no job to work on.
-/

set_option autoImplicit false

namespace PluginChain

open Operation

/-! ## The chain -/

/-- To make calls changes nothing of the registry. -/
theorem Service.registry_callAll (eval : Evaluator) (calls : List Invocation) (current : Data) (results : Results)
    (e : Engine) : (callAll eval calls current results e).2.registry = e.registry := by
  induction calls generalizing current results e with
  | nil => rfl
  | cons call calls ih =>
    rw [callAll_cons, ih]
    exact e.registry_runPlugin eval (Text.trim call.name) current (.table call.params)

namespace Service

variable {s s' : Service} {now : Instant} {id : Uuid} {calls : List Invocation} {job : Job}

/-! ## What is written -/

/-- A job stands in the file of an id.  All other files are as they were, but for the lock and the file beside
that of the job. -/
structure Entered (s : Service) (id : Uuid) (job : Job) (s' : Service) : Prop where
  store : s'.store = s.store
  holds : s'.Holds id job
  others : ∀ q, s.store.jobFile id ≠ q → StoreM.besideOf (s.store.jobFile id) ≠ q →
    s.store.root ++ [".lock"] ≠ q → s'.files.lookup q = s.files.lookup q

theorem Entered.hasJob (h : Entered s id job s') (hplain : job.Plain) (hshallow : job.Shallow) :
    s'.HasJob id job :=
  h.holds.hasJob hplain hshallow

end Service

end PluginChain
