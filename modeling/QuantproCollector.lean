import QuantproCollector.Lib.Script
import QuantproCollector.Lib.Run
import QuantproCollector.Lib.Table
import QuantproCollector.Lib.Json
import QuantproCollector.Platform
import QuantproCollector.ResearchWorkflow.Proposal
import QuantproCollector.ResearchWorkflow.Store
import QuantproCollector.ResearchWorkflow.Queue
import QuantproCollector.ResearchWorkflow.Effects
import QuantproCollector.ResearchWorkflow.Issued
import QuantproCollector.ResearchWorkflow.Terminality
import QuantproCollector.ResearchWorkflow.Fencing
import QuantproCollector.ResearchWorkflow.SubmitOutcome
import QuantproCollector.SemanticIndex.Currency
import QuantproCollector.StateGateway.Replay
import QuantproCollector.StateGateway.RunSafety
import QuantproCollector.Retention.Exactness
import QuantproCollector.StateGateway.Slots
import QuantproCollector.StateGateway.Identity
import QuantproCollector.StateGateway.Retry
import QuantproCollector.Portfolio.Observers
import QuantproCollector.Retention.Quota
import QuantproCollector.Retention.Redelivery
import QuantproCollector.ResearchReceipts.Walk
import QuantproCollector.LiveUniverse.Validity
import QuantproCollector.Retention.Accounting
import QuantproCollector.SemanticIndex.Freshness
import QuantproCollector.StateGateway.Outcome
import QuantproCollector.IssueBookkeeping.Delivery
import QuantproCollector.QuotaReconcile.Watermark
import QuantproCollector.AutomationRun.Runs
import QuantproCollector.QuoteBridge.Publishing
import QuantproCollector.SemanticIndex.Soundness
import QuantproCollector.ResearchReplica.Isolation
import QuantproCollector.ResearchReplica.Listing
import QuantproCollector.SemanticIndex.Probe
import QuantproCollector.SemanticIndex.Reingest
import QuantproCollector.ResearchWorkflow.RequestBinding
import QuantproCollector.StateGateway.CloseDependencies
import QuantproCollector.StateGateway.LatestEvents
import QuantproCollector.StateGateway.LedgerText
import QuantproCollector.Lib.JsonNormal
import QuantproCollector.StateGateway.CommandIdentity
import QuantproCollector.ResearchWorkflow.EventAudit
import QuantproCollector.LiveUniverse.Presentation
import QuantproCollector.SemanticIndex.Coverage
import QuantproCollector.SemanticIndex.Chunking
import QuantproCollector.Retention.Judgement
import QuantproCollector.ResearchReplica.Readable
import QuantproCollector.LiveUniverse.QuoteMerge
import QuantproCollector.LiveUniverse.QuoteCatalog
import QuantproCollector.Lib.Assignments
import QuantproCollector.LiveUniverse.Tencent
import QuantproCollector.AutomationRun.LegacyOrder
import QuantproCollector.ResearchReplica.TitleSearch
import QuantproCollector.AutomationRun.HistoryOrder
import QuantproCollector.IssueBookkeeping.Targets
import QuantproCollector.ProductionHealth.Snapshot
import QuantproCollector.D1Kv.Paging
import QuantproCollector.HoldingDay.Soundness
import QuantproCollector.QuotaResource.ObservedD1
import QuantproCollector.ResearchOutbound.Acceptance
import QuantproCollector.QuotaSettlement.ExactlyOnce
import QuantproCollector.ResearchScopes.Forwarding
import QuantproCollector.PromptRelease.Runs
import QuantproCollector.OfficialMeters.ExactSum
import QuantproCollector.SemanticIndex.Normalization
import QuantproCollector.LiveUniverse.Redaction
import QuantproCollector.ResearchOutbound.FloatSpelling
import QuantproCollector.QuotaBilling.Counting
import QuantproCollector.LiveUniverse.RoundTrip
import QuantproCollector.LiveUniverse.Completion
import QuantproCollector.StateGateway.RunAccounting
import QuantproCollector.QuotaMetering.Allocation
import QuantproCollector.QuotaResource.Metered
import QuantproCollector.QuotaCircuit.Gate
import QuantproCollector.StateGateway.Receipts
import QuantproCollector.ResearchScopes.Authorize
import QuantproCollector.D1Kv.Store
import QuantproCollector.ResearchRead.Retry
import QuantproCollector.ResearchOutbound.MessageId
import QuantproCollector.ResearchWorkflow.Callers
import QuantproCollector.Lib.SqlText
import QuantproCollector.QuotaReconcile.Statement
