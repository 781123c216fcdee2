import Pivox.AgentStream.Connections
import Pivox.AiChat.Grammar
import Pivox.AiChat.History
import Pivox.AiChat.Leases
import Pivox.AiChat.Titles
import Pivox.BrowserStorage.SignOut
import Pivox.BrowserStorage.Views
import Pivox.Connectors.Ciphertexts
import Pivox.Connectors.Dialer
import Pivox.Connectors.HeaderOrder
import Pivox.Db.RunInTx
import Pivox.Engine.ErrorRecords
import Pivox.Engine.SetAtomicity
import Pivox.Engine.StepReports
import Pivox.Filter.Discipline
import Pivox.Filter.FacetCounts
import Pivox.Filter.Matching
import Pivox.Filter.Typing
import Pivox.Gateways.Delivery
import Pivox.Gateways.EndpointUpdate
import Pivox.IdentitySync.NoSkips
import Pivox.IdentitySync.Redelivery
import Pivox.ImageEditor.CropSize
import Pivox.ImageEditor.Drag
import Pivox.ImageEditor.History
import Pivox.Lro.WaitOperation
import Pivox.OidcSessions.SingleFlight
import Pivox.Organizations.AccountDeletion
import Pivox.Organizations.DeleteOutcomes
import Pivox.Organizations.DomainVerification
import Pivox.Organizations.GraceWindow
import Pivox.Organizations.LastOwner
import Pivox.Organizations.MemberScope
import Pivox.Organizations.PermissionGate
import Pivox.Organizations.VerificationOutcome
import Pivox.Organizations.Visibility
import Pivox.Requests.StateMachine
import Pivox.StorageAgent.Convergence
import Pivox.StorageAgent.Coverage
import Pivox.StorageAgent.Files
import Pivox.StorageAgent.Mirror
import Pivox.StorageAgent.Replacement
import Pivox.StorageAgent.RoundTrips
import Pivox.Workers.PurgeOrgs
import Pivox.Workers.StrandedRuns
import Pivox.WorkflowGraph.Arranged
import Pivox.WorkflowGraph.StepPathIds
import Pivox.WorkflowVersions.Listing
import Pivox.Workflows.UnforcedDelete
