import StxShield.Api.AuthNonces
import StxShield.Api.BlockIndexer
import StxShield.Api.Commitments
import StxShield.Api.Completeness
import StxShield.Api.EventProgram
import StxShield.Api.FeeTotal
import StxShield.Api.LatestRoot
import StxShield.Api.NoteIndex
import StxShield.Api.NoteOwners
import StxShield.Api.NoteTable
import StxShield.Api.Queries
import StxShield.Api.Scanning
import StxShield.Assets.Accounts
import StxShield.Assets.Conservation
import StxShield.Assets.DepositRange
import StxShield.Assets.Directory
import StxShield.Assets.Fees
import StxShield.Assets.FlatFees
import StxShield.Assets.NoteLimits
import StxShield.Assets.Overflow
import StxShield.Chain.Execution
import StxShield.Chain.Interface
import StxShield.Chain.Principals
import StxShield.Chain.PublicInputs
import StxShield.Chain.Storage
import StxShield.Chain.World
import StxShield.Circuits.Lib
import StxShield.Circuits.Main
import StxShield.Circuits.Transaction
import StxShield.Contracts.AssetRegistry
import StxShield.Contracts.NoteManager
import StxShield.Contracts.PoolCalls
import StxShield.Contracts.PrivacyPool
import StxShield.Contracts.PrivacyRegistry
import StxShield.Contracts.ProtocolFees
import StxShield.Contracts.Sip10Pool
import StxShield.Contracts.Sip10ProtocolFees
import StxShield.Contracts.Sip10ZkVerifier
import StxShield.Contracts.SplitMergeManager
import StxShield.Contracts.ZkVerifier
import StxShield.Effects.Books
import StxShield.Effects.Calls
import StxShield.Effects.Clearance
import StxShield.Effects.Failures
import StxShield.Effects.Footprint
import StxShield.Effects.HonestTokens
import StxShield.Effects.Paused
import StxShield.Effects.Postings
import StxShield.Effects.PrivacyRegistry
import StxShield.Effects.Relayed
import StxShield.Effects.RelayedTokens
import StxShield.Effects.Sip10Operations
import StxShield.Effects.StxOperations
import StxShield.Effects.TokenCode
import StxShield.Effects.Treasury
import StxShield.Effects.Writes
import StxShield.Fees.StxFees
import StxShield.Fees.TokenTreasury
import StxShield.Fees.Treasury
import StxShield.Library.Async
import StxShield.Library.BinaryMerkle
import StxShield.Library.Bytes
import StxShield.Library.CachedTree
import StxShield.Library.Census
import StxShield.Library.Clearance
import StxShield.Library.CountedMap
import StxShield.Library.Execution
import StxShield.Library.Failure
import StxShield.Library.Hexadecimal
import StxShield.Library.JavaScript
import StxShield.Library.Json
import StxShield.Library.Lockstep
import StxShield.Library.MerkleTree
import StxShield.Library.NoteLedger
import StxShield.Library.OrderedMap
import StxShield.Library.PromiseChain
import StxShield.Library.Ranking
import StxShield.Library.Selection
import StxShield.Library.Session
import StxShield.Library.SlidingWindow
import StxShield.Library.TwoRuns
import StxShield.Notes.Lifecycle
import StxShield.Protocol.Bookkeeping
import StxShield.Protocol.Books
import StxShield.Protocol.Clearance
import StxShield.Protocol.Invariant
import StxShield.Protocol.Layout
import StxShield.Protocol.Machine
import StxShield.Protocol.Operation
import StxShield.Protocol.Presentation
import StxShield.Protocol.Refinement
import StxShield.Protocol.Runs
import StxShield.Protocol.Solvency
import StxShield.Protocol.Soundness
import StxShield.Protocol.Spending
import StxShield.Registry.Calls
import StxShield.Registry.Deprecation
import StxShield.Registry.Lifecycle
import StxShield.Registry.Ownership
import StxShield.Registry.Store
import StxShield.Relayer.Aggregations
import StxShield.Relayer.ContractArguments
import StxShield.Relayer.DrainLoop
import StxShield.Relayer.FeeManager
import StxShield.Relayer.JobOutcomes
import StxShield.Relayer.JobQueue
import StxShield.Relayer.NonceSequence
import StxShield.Relayer.ProofValidator
import StxShield.Relayer.QueueDrivers
import StxShield.Relayer.Requests
import StxShield.Relayer.RootPublisher
import StxShield.Relayer.UnpublishedRoots
import StxShield.Sdk.Address
import StxShield.Sdk.Client
import StxShield.Sdk.CoinSelection
import StxShield.Sdk.CommitmentTree
import StxShield.Sdk.DiscoveredNotes
import StxShield.Sdk.Discovery
import StxShield.Sdk.Encryption
import StxShield.Sdk.MerkleTree
import StxShield.Sdk.NoteDelivery
import StxShield.Sdk.NoteScanner
import StxShield.Sdk.NoteStore
import StxShield.Sdk.Notes
import StxShield.Sdk.Operations
import StxShield.Sdk.Parity
import StxShield.Sdk.Payloads
import StxShield.Sdk.PublicInputs
import StxShield.Sdk.ReferenceTree
import StxShield.Sdk.RelayedStatements
import StxShield.Sdk.ScannedNotes
import StxShield.Sdk.ScannerRuns
import StxShield.Sdk.Shielding
import StxShield.Sdk.SpentNotes
import StxShield.Sdk.StoredOutputs
import StxShield.Sdk.SyncedTree
import StxShield.Sdk.TreesAgree
import StxShield.Sdk.Wire
import StxShield.Security.Aggregation
import StxShield.Security.CommitmentTree
import StxShield.Security.DoubleSpend
import StxShield.Security.Encoding
import StxShield.Security.FrozenNotes
import StxShield.Security.HonestSpends
import StxShield.Security.Interference
import StxShield.Security.LedgerAgreement
import StxShield.Security.OutputSecrets
import StxShield.Security.Pause
import StxShield.Security.Payout
import StxShield.Security.RelayedStatements
import StxShield.Security.Relayer
import StxShield.Security.ShieldStatements
import StxShield.Security.Solvency
import StxShield.Security.StxCustody
import StxShield.Security.TokenIsolation
import StxShield.Security.ViewingKeys
import StxShield.Settings.Authority
import StxShield.Settings.Calls
import StxShield.Settings.Machine
import StxShield.Settings.Runs
import StxShield.Verifiers.Calls
import StxShield.Verifiers.CircuitVersion
import StxShield.Verifiers.KeyBinding
import StxShield.Verifiers.Ledgers
import StxShield.Wiring.Administration
import StxShield.Wiring.Scripts
import StxShield.Witnesses.Assembly
import StxShield.Witnesses.Circuits
import StxShield.Witnesses.Completeness
import StxShield.Witnesses.Engine
import StxShield.Witnesses.Operations
