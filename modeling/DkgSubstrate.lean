import DkgSubstrate.Runs
import DkgSubstrate.BoundedVec
import DkgSubstrate.StorageMap
import DkgSubstrate.Words
import DkgSubstrate.Ranking
import DkgSubstrate.EthAbi
import DkgSubstrate.Primitives
import DkgSubstrate.Proposals
import DkgSubstrate.Dispatch
import DkgSubstrate.VoterTree
import DkgSubstrate.Metadata
import DkgSubstrate.MetadataCalls
import DkgSubstrate.MetadataRotation
import DkgSubstrate.MetadataEffects
import DkgSubstrate.MetadataStep
import DkgSubstrate.ProposalHandler
import DkgSubstrate.ProposalHandlerEffects
import DkgSubstrate.BridgeRegistry
import DkgSubstrate.Runtime
import DkgSubstrate.SampleRuntime
import DkgSubstrate.Thresholds
import DkgSubstrate.SetIds
import DkgSubstrate.RefreshCoherence
import DkgSubstrate.NextBest
import DkgSubstrate.MisbehaviourReports
import DkgSubstrate.SignedBatches
import DkgSubstrate.RefreshSignature
import DkgSubstrate.SigningOffence
import DkgSubstrate.IncomingMessages
import DkgSubstrate.SenderAuthenticity
import DkgSubstrate.ProposalQueue
import DkgSubstrate.ProposalOrder
import DkgSubstrate.ProposalVoting
import DkgSubstrate.RotationHistory
import DkgSubstrate.VotingSafety
import DkgSubstrate.CurrentVoters
import DkgSubstrate.MetadataWorld
import DkgSubstrate.ProposerAgreement
import DkgSubstrate.BatchData
import DkgSubstrate.Combinations
import DkgSubstrate.SigningManager
import DkgSubstrate.SigningRetries
import DkgSubstrate.Components
import DkgSubstrate.HandlerPanics
import DkgSubstrate.MetadataJails
import DkgSubstrate.OffchainWorker
import DkgSubstrate.SessionSpacing
import DkgSubstrate.SignatureReplay
import DkgSubstrate.UnsignedCalls
import DkgSubstrate.BridgeComponents
import DkgSubstrate.JobLiveness
import DkgSubstrate.AttemptIsolation
import DkgSubstrate.GossipHandler
import DkgSubstrate.GossipMessages
import DkgSubstrate.KeygenExclusion
import DkgSubstrate.KeygenStarts
import DkgSubstrate.LocalSession
import DkgSubstrate.SignedProposalStore
import DkgSubstrate.SigningTasks
import DkgSubstrate.TaskResults
import DkgSubstrate.BroadcastOrigins
import DkgSubstrate.KeySubmissions
import DkgSubstrate.ReportSubmissions
import DkgSubstrate.BestAuthorities
import DkgSubstrate.FrostCompletion
import DkgSubstrate.GossipDelivery
import DkgSubstrate.KeyAcceptance
import DkgSubstrate.Loops
import DkgSubstrate.Merkle
import DkgSubstrate.ReportOutcomes
import DkgSubstrate.UnsignedWork
import DkgSubstrate.VoterTreeRoot
import DkgSubstrate.BatchExpiry
import DkgSubstrate.BridgeUpdates
import DkgSubstrate.IdleBudget
import DkgSubstrate.RefreshPriority
import DkgSubstrate.SessionProgress
import DkgSubstrate.VoteOrder
import DkgSubstrate.FrostKeygen
import DkgSubstrate.GossipMemory
import DkgSubstrate.ReportAlignment
import DkgSubstrate.SigningIndices
import DkgSubstrate.SigningRoundRobin
import DkgSubstrate.StateMachineWrapper
import DkgSubstrate.WorkPolling
import DkgSubstrate.BridgeSerde
import DkgSubstrate.FrostRobustness
import DkgSubstrate.RefreshCodec
import DkgSubstrate.SignaturePacking
import DkgSubstrate.BatchLifecycle
import DkgSubstrate.Flooding
import DkgSubstrate.GossipFlooding
import DkgSubstrate.ProposalSubmission
import DkgSubstrate.ErrorReports
import DkgSubstrate.JailSentences
import DkgSubstrate.JobOrder
import DkgSubstrate.KeyDatabase
import DkgSubstrate.SigningPipeline
import DkgSubstrate.KeyRotation
import DkgSubstrate.SignedContent
