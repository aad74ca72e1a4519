import AuthorizedCalls.Main
import AuthorizedCalls.Proofs.CallProvenance
import AuthorizedCalls.Proofs.CycleReports
import AuthorizedCalls.Proofs.DeclarationOrder
import AuthorizedCalls.Proofs.DeploymentAddresses
import AuthorizedCalls.Proofs.FailClosed
import AuthorizedCalls.Proofs.FirstConflicts
import AuthorizedCalls.Proofs.FirstImports
import AuthorizedCalls.Proofs.ImpliedPrefix
import AuthorizedCalls.Proofs.ImportGate
import AuthorizedCalls.Proofs.Isolation
import AuthorizedCalls.Proofs.LaterDuplicates
import AuthorizedCalls.Proofs.NamedContracts
import AuthorizedCalls.Proofs.PolicyRelaxation
import AuthorizedCalls.Proofs.ReportDigest
import AuthorizedCalls.Proofs.SchemaReadBack
import AuthorizedCalls.Proofs.SharedIdentifiers
import AuthorizedCalls.Proofs.TokenBinding
import AuthorizedCalls.Proofs.WorkerRuns
import AuthorizedCalls.Proofs.AuthorizedImports
import AuthorizedCalls.Proofs.CallSites
import AuthorizedCalls.Proofs.ArrayForm
import AuthorizedCalls.Proofs.MemberOrder
import AuthorizedCalls.Proofs.IdentifierText
import AuthorizedCalls.Proofs.SinkRuns
import AuthorizedCalls.Proofs.AddressText
import AuthorizedCalls.Proofs.GuardedCheck
