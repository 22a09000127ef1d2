import ScalarCore.MachineInt
import ScalarCore.Bytes
import ScalarCore.StateMachine
import ScalarCore.KeyedWrites
import ScalarCore.RestartLog
import ScalarCore.StageMonitor
import ScalarCore.FallibleChecks
import ScalarCore.Poseidon2T8
import ScalarCore.Poseidon2Verifier
import ScalarCore.Imt
import ScalarCore.ImtCompleteness
import ScalarCore.ImtBinding
import ScalarCore.ImtOpening
import ScalarCore.SparseTree
import ScalarCore.SmtMessages
import ScalarCore.Smt
import ScalarCore.SmtRefinement
import ScalarCore.SmtNonMembership
import ScalarCore.SmtBinding
import ScalarCore.NullifierSet
import ScalarCore.NullifierZeroGap
import ScalarCore.HashChain
import ScalarCore.NullifierArchive
import ScalarCore.NullifierAgreement
import ScalarCore.EmissionAccumulator
import ScalarCore.UnitQueue
import ScalarCore.DeferredPool
import ScalarCore.DeferredPoolAccounts
import ScalarCore.DeferredPoolRuns
import ScalarCore.Dmm
import ScalarCore.DmmAgreement
import ScalarCore.SubEpoch
import ScalarCore.SubEpochIntegrity
import ScalarCore.SubEpochFinality
import ScalarCore.FieldConstraints
import ScalarCore.CircuitTrace
import ScalarCore.Goldilocks
import ScalarCore.TransferPublicInputs
import ScalarCore.TransferAir
import ScalarCore.TransferAirSoundness
import ScalarCore.MintAir
import ScalarCore.Poseidon2Air
import ScalarCore.Poseidon2Bijective
import ScalarCore.OwnershipAir
import ScalarCore.MembershipAir
import ScalarCore.NonMembershipAir
import ScalarCore.SmtCircuitGap
import ScalarCore.BatchTransfer
import ScalarCore.BatchTransferBinding
import ScalarCore.CommitStark
import ScalarCore.CommitStarkFinality
import ScalarCore.TailEmission
import ScalarCore.Fork
import ScalarCore.ForkLifecycle
import ScalarCore.ForkSignals
import ScalarCore.MicroCommit
import ScalarCore.Institutional
import ScalarCore.Succession
import ScalarCore.Resumption
import ScalarCore.Heartbeat
import ScalarCore.HeartbeatVerifier
import ScalarCore.KeyedSort
import ScalarCore.RejectionSampling
import ScalarCore.NmtHybrid
import ScalarCore.AnchorRateLimit
import ScalarCore.CgWindow
import ScalarCore.EpochOrchestrator
import ScalarCore.EpochLedger
import ScalarCore.CommitReveal
import ScalarCore.CounterNumbering
import ScalarCore.CommitRevealOrdering
import ScalarCore.RoutingTable
import ScalarCore.DisjointLookup
import ScalarCore.BestScan
import ScalarCore.Reconciliation
import ScalarCore.FloorShares
import ScalarCore.FeeDistribution
import ScalarCore.Poseidon2Pair
import ScalarCore.MintNullifier
import ScalarCore.BatchProtocol
import ScalarCore.PolynomialFold
import ScalarCore.Gfp3
import ScalarCore.FriFold
import ScalarCore.DuplicateLast
import ScalarCore.PerfectTree
import ScalarCore.FriMerkle
import ScalarCore.FriCommit
import ScalarCore.FriQuery
import ScalarCore.Gossip
import ScalarCore.TransferTrace
import ScalarCore.IndependentVerifier
import ScalarCore.ConstraintsPy
import ScalarCore.MerklePy
import ScalarCore.OrderStatistic
import ScalarCore.ProductionNmt
import ScalarCore.HeartbeatService
import ScalarCore.CheckpointWal
import ScalarCore.FileCheckpointWal
import ScalarCore.CheckpointAtomicity
import ScalarCore.ConsensusQuorum
import ScalarCore.TransactionOrdering
import ScalarCore.DmmEmission
import ScalarCore.ChainedAbsorption
import ScalarCore.GenesisValidation
import ScalarCore.GenesisCeremony
import ScalarCore.Maturity
import ScalarCore.TransferEncoding
import ScalarCore.OwnershipCompleteness
import ScalarCore.MembershipAgreement
import ScalarCore.TransferCompleteness
import ScalarCore.CfColumns
import ScalarCore.CfSoundness
import ScalarCore.SquareMultiply
import ScalarCore.MintTrace
import ScalarCore.Starkpack
import ScalarCore.NmtResistance
import ScalarCore.InstitutionalQuorum
import ScalarCore.ForkThresholds
import ScalarCore.ImtSource
import ScalarCore.TimeSecurity
import ScalarCore.EpochTracker
import ScalarCore.GreedyCover
import ScalarCore.CoinSelection
import ScalarCore.CoinSelectionExact
import ScalarCore.OrderingTree
import ScalarCore.EpochAnchorWire
import ScalarCore.EpochSlashing
import ScalarCore.KBucketRecency
import ScalarCore.LookupResult
import ScalarCore.NmtDiversity
import ScalarCore.AnchorAllowance
import ScalarCore.Gfp3Field
import ScalarCore.GiniCoefficient
import ScalarCore.QuaternaryProofs
import ScalarCore.FieldArithmetic
import ScalarCore.Poseidon2Width4
import ScalarCore.Poseidon2MultiClient
import ScalarCore.ValueCommitment
import ScalarCore.KycCredential
import ScalarCore.Poseidon2Sponge
import ScalarCore.GiniAgreement
import ScalarCore.Stretches
import ScalarCore.SlidingWindow
import ScalarCore.DmmRequestLimiter
import ScalarCore.RelayNode
import ScalarCore.MnemonicIdentity
import ScalarCore.FriFinalPoly
import ScalarCore.NodeState
import ScalarCore.WalRecovery
import ScalarCore.NodeLoop
import ScalarCore.RingBuffer
import ScalarCore.ExchangeOrder
import ScalarCore.RootAlignment
import ScalarCore.Longevity
import ScalarCore.AdaptiveMux
import ScalarCore.CryptoAgility
import ScalarCore.ConsensusEngine
import ScalarCore.ManifestConsensus
import ScalarCore.CollisionFree
import ScalarCore.GovernanceBinding
import ScalarCore.MicroCommitAssembly
import ScalarCore.BatchMint
import ScalarCore.Spacing
import ScalarCore.GossipLayer
import ScalarCore.StateBeacon
import ScalarCore.PendingPool
import ScalarCore.HybridPeer
import ScalarCore.SlashingRegistry
import ScalarCore.RewardUtxo
import ScalarCore.ScoreAverage
import ScalarCore.Gss
import ScalarCore.EclipseDefense
import ScalarCore.GovernancePower
import ScalarCore.BatchObfuscation
import ScalarCore.StemRouting
import ScalarCore.InclusionProof
import ScalarCore.MevRedistribution
import ScalarCore.InstitutionalRegistry
