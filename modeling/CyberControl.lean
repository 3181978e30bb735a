import CyberControl.ArtifactRetries
import CyberControl.AuditEvidence
import CyberControl.ChallengeSafety
import CyberControl.CircuitBreaker
import CyberControl.ClaimRetrievalRepeats
import CyberControl.ComplianceRenewal
import CyberControl.CourseLiveGraph
import CyberControl.ExponentGuard
import CyberControl.ExtensionVerifier
import CyberControl.FormulaEquivalence
import CyberControl.GraphAgreement
import CyberControl.KnowledgeChunker
import CyberControl.ManualOrder
import CyberControl.MemoryBounds
import CyberControl.MessageBusAnswers
import CyberControl.MessageBusCancellation
import CyberControl.MessageBusExpiry
import CyberControl.MessageBusSink
import CyberControl.MindMapFits
import CyberControl.ModuleAvailability
import CyberControl.ModuleRuns
import CyberControl.OutboxBudget
import CyberControl.OutboxFairness
import CyberControl.PostgresIdempotency
import CyberControl.PrivacyBlocking
import CyberControl.ProfilingCursor
import CyberControl.ProfilingEvidence
import CyberControl.PublicationReplay
import CyberControl.ReconciliationLeases
import CyberControl.RecordSealing
import CyberControl.ReplayCursor
import CyberControl.RevisionLineage
import CyberControl.RevisionReplay
import CyberControl.SecurityBlocking
import CyberControl.SnapshotPointers
import CyberControl.SseBrokerBounds
import CyberControl.SseReplayCacheRuns
import CyberControl.SseReplayLogOrder
import CyberControl.Stability
import CyberControl.StreamChunkAtomicity
import CyberControl.StreamChunkRoundTrip
import CyberControl.TaskQueueBounds
import CyberControl.TokenBucket
import CyberControl.VerificationDisclosure
import CyberControl.WorkflowResume
import CyberControl.CodeAnalysis
