import PluginChain.Main
import PluginChain.Proofs.Service.Agreement
import PluginChain.Proofs.Service.Calls
import PluginChain.Proofs.Workflow.Chain
import PluginChain.Proofs.Workflow.FanOut
import PluginChain.Proofs.Workflow.Status
import PluginChain.Proofs.Service.Submission
import PluginChain.Proofs.Service.JobError
import PluginChain.Proofs.Service.JobTraffic
import PluginChain.Proofs.Service.JobMoves
import PluginChain.Proofs.Service.LifeCycle
import PluginChain.Proofs.Store.Request
import PluginChain.Proofs.Store.Shelf
import PluginChain.Proofs.Store.Catalogue
import PluginChain.Proofs.Store.Opening
import PluginChain.Proofs.Store.Crash
import PluginChain.Proofs.Service.Restart
import PluginChain.Proofs.Service.Contest
import PluginChain.Proofs.Service.Winner
import PluginChain.Proofs.Workflow.Halves
import PluginChain.Proofs.Service.Handover
import PluginChain.Proofs.Store.Unread
import PluginChain.Proofs.Service.AllOrNothing
import PluginChain.Proofs.Registry.Atomic
import PluginChain.Proofs.Workflow.Capacity
import PluginChain.Proofs.Service.CallsAsSteps
import PluginChain.Proofs.RoundTrip
import PluginChain.Proofs.Configuration
import PluginChain.Proofs.Command
import PluginChain.Proofs.Service.Processing
import PluginChain.Proofs.Service.Loading
import PluginChain.Proofs.Service.OutputNames
import PluginChain.Proofs.Service.References
import PluginChain.Proofs.InputForms
import PluginChain.Proofs.Service.AcceptedSettings
import PluginChain.Proofs.Service.Deadlines
import PluginChain.Proofs.Service.Histories
import PluginChain.Proofs.Home
import PluginChain.Proofs.Gauge
import PluginChain.Proofs.Failure
