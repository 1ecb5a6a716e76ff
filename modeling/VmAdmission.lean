import VmAdmission.Http.App
import VmAdmission.Monitor
import VmAdmission.Proofs.Interleaving
import VmAdmission.Proofs.Ledger.History
import VmAdmission.Proofs.Ledger.Batches
import VmAdmission.Proofs.FoundRequests
import VmAdmission.Proofs.Listings
import VmAdmission.Proofs.Http.Responses
import VmAdmission.Proofs.Json.Trees
import VmAdmission.Proofs.Json.Values
import VmAdmission.Proofs.OrderTexts
import VmAdmission.Proofs.StoredOrders
import VmAdmission.Proofs.Operations
import VmAdmission.Proofs.Http.Reconfigurations
import VmAdmission.Proofs.Net.Percent
import VmAdmission.Proofs.MonitorAddresses
import VmAdmission.Proofs.VmPolicies
import VmAdmission.Proofs.DeployChecks
import VmAdmission.Proofs.MonitorReplies
import VmAdmission.Proofs.LastingRequests
import VmAdmission.Proofs.Http.Locations
import VmAdmission.Proofs.Http.Orders
import VmAdmission.Proofs.Text.Blank
import VmAdmission.Proofs.Http.Lookups
import VmAdmission.Proofs.Http.Headers
import VmAdmission.Proofs.Stamps
import VmAdmission.Proofs.Http.Tokens
import VmAdmission.Proofs.Http.Scopes
import VmAdmission.Proofs.Crashes
import VmAdmission.Proofs.Http.Renderings
import VmAdmission.Proofs.Deadlines
import VmAdmission.Proofs.ReadOutcomes
import VmAdmission.Proofs.Views
import VmAdmission.Proofs.Http.Views
import VmAdmission.Proofs.Http.Columns
import VmAdmission.Proofs.Http.Lifecycle
import VmAdmission.Proofs.FreeNames
import VmAdmission.Proofs.FailureAnswers
import VmAdmission.Proofs.Settings
