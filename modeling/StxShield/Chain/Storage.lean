import StxShield.Chain.Principals

/-!
# Contract storage

The data variables and maps of the ten protocol contracts, one structure each,
with the values they hold after deployment.
-/

namespace StxShield

open Library

/-! ## privacy-registry -/

inductive ProtocolState where
  | active
  | paused
  | emergency
  | upgrading
  | deprecated
  deriving DecidableEq, Repr

structure ProtocolVersions where
  protocol : Nat
  verifier : Nat
  note : Nat
  circuit : Nat
  commitment : Nat
  root : Nat
  deriving DecidableEq, Repr

structure ProtocolLimits where
  minShield : Nat
  maxShield : Nat
  minWithdrawal : Nat
  maxWithdrawal : Nat
  maxCommitments : Nat
  maxNotes : Nat
  maxFeeBps : Nat
  deriving DecidableEq, Repr

structure ProtocolStatistics where
  totalCommitments : Nat
  totalNullifiers : Nat
  totalNotes : Nat
  totalTransfers : Nat
  totalWithdrawals : Nat
  totalShieldedStx : Nat
  deriving DecidableEq, Repr

structure CommitmentRecord where
  registered : Bool
  registeredAt : Nat
  version : Nat

structure NullifierRecord where
  registered : Bool
  consumedAt : Nat

structure RootRecord where
  version : Nat
  registeredAt : Nat
  active : Bool

structure CurrentRoot where
  root : Buff32
  version : Nat
  updatedAt : Nat

structure PrivacyRegistry where
  owner : Principal
  pendingOwner : Option Principal
  administrators : DataMap (Principal × Nat) Bool
  authorizedCallers : DataMap Principal Bool
  protocolState : ProtocolState
  protocolVersions : ProtocolVersions
  protocolLimits : ProtocolLimits
  protocolStatistics : ProtocolStatistics
  commitments : DataMap Buff32 CommitmentRecord
  nullifiers : DataMap Buff32 NullifierRecord
  merkleRoots : DataMap Buff32 RootRecord
  currentRoot : CurrentRoot

namespace PrivacyRegistry

def oneStx : Nat := 1000000
def merkleTreeCapacity : Nat := 1048576
def maxFeeBpsCeiling : Nat := 1000
def stxSupplyCeiling : Nat := 1818000000000000

/-- The registry as `deployer` deploys it. -/
def deployed (deployer : Principal) : PrivacyRegistry where
  owner := deployer
  pendingOwner := none
  administrators := ∅
  authorizedCallers := ∅
  protocolState := .active
  protocolVersions :=
    { protocol := 1, verifier := 1, note := 1, circuit := 2, commitment := 1, root := 1 }
  protocolLimits :=
    { minShield := oneStx, maxShield := 1000000000000, minWithdrawal := oneStx,
      maxWithdrawal := 1000000000000, maxCommitments := merkleTreeCapacity,
      maxNotes := merkleTreeCapacity, maxFeeBps := 100 }
  protocolStatistics :=
    { totalCommitments := 0, totalNullifiers := 0, totalNotes := 0, totalTransfers := 0,
      totalWithdrawals := 0, totalShieldedStx := 0 }
  commitments := ∅
  nullifiers := ∅
  merkleRoots := ∅
  currentRoot := { root := zeroHash, version := 1, updatedAt := 0 }

/-- The registered commitments in registration order. -/
def leaves (registry : PrivacyRegistry) : List Buff32 := registry.commitments.keys.reverse

end PrivacyRegistry

/-! ## note-manager -/

inductive NoteState where
  | active
  | spent
  | withdrawn
  | frozen
  | deprecated
  deriving DecidableEq, Repr

structure NoteRecord where
  state : NoteState
  ownerCommitment : Buff32
  version : Nat
  metadata : Buff32
  registeredAt : Nat
  updatedAt : Nat

structure NoteStatistics where
  totalRegistered : Nat
  totalActive : Nat
  totalSpent : Nat
  totalWithdrawn : Nat
  totalFrozen : Nat
  totalDeprecated : Nat
  deriving DecidableEq, Repr

structure NoteManager where
  notes : DataMap Buff32 NoteRecord
  noteStatistics : NoteStatistics

def NoteManager.deployed : NoteManager where
  notes := ∅
  noteStatistics :=
    { totalRegistered := 0, totalActive := 0, totalSpent := 0, totalWithdrawn := 0,
      totalFrozen := 0, totalDeprecated := 0 }

/-! ## zk-verifier and sip10-zk-verifier -/

structure VerificationKey where
  vkeyHash : Buff32
  proofLength : Nat
  enabled : Bool
  registeredAt : Nat

structure Aggregation where
  root : Buff32
  leafCount : Nat
  postedAt : Nat
  postedBy : Principal

structure ZkVerifyBinding where
  zkvVkeyHash : Buff32
  versionHash : Buff32
  setAt : Nat

structure Relayer where
  enabled : Bool
  addedAt : Nat

structure VerifiedProof where
  proofType : Nat
  verifiedAt : Nat

structure VerificationStats where
  totalVerified : Nat
  shield : Nat
  transfer : Nat
  withdrawal : Nat
  other : Nat
  deriving DecidableEq, Repr

/-- The storage the two verifiers have in common; keys and bindings are stored
under (proof type, circuit version), aggregations under (domain, aggregation). -/
structure Verifier where
  verificationKeys : DataMap (Nat × Nat) VerificationKey
  aggregations : DataMap (Nat × Nat) Aggregation
  aggregationCount : Nat
  contextHash : Buff32
  bindings : DataMap (Nat × Nat) ZkVerifyBinding
  relayers : DataMap Principal Relayer
  relayerCount : Nat
  verifiedProofs : DataMap Buff32 VerifiedProof
  verificationStats : VerificationStats
  verificationFrozen : Bool

def Verifier.deployed : Verifier where
  verificationKeys := ∅
  aggregations := ∅
  aggregationCount := 0
  contextHash := ⟨[], by simp⟩
  bindings := ∅
  relayers := ∅
  relayerCount := 0
  verifiedProofs := ∅
  verificationStats :=
    { totalVerified := 0, shield := 0, transfer := 0, withdrawal := 0, other := 0 }
  verificationFrozen := false

/-- The SIP-10 verifier keeps its own circuit version and names the one pool
that may present proofs. -/
structure Sip10Verifier where
  verifier : Verifier
  circuitVersion : Nat
  authorizedPool : Option Principal

def Sip10Verifier.deployed : Sip10Verifier where
  verifier := .deployed
  circuitVersion := 1
  authorizedPool := none

/-! ## protocol-fees -/

structure FeeConfig where
  bps : Nat
  flat : Nat
  enabled : Bool
  deriving DecidableEq, Repr

structure Treasury where
  totalCollected : Nat
  totalWithdrawn : Nat
  balance : Nat
  deriving DecidableEq, Repr

def Treasury.zero : Treasury := { totalCollected := 0, totalWithdrawn := 0, balance := 0 }

def FeeConfig.free : FeeConfig := { bps := 0, flat := 0, enabled := true }

structure ProtocolFees where
  feeConfigs : DataMap Nat FeeConfig
  treasury : Treasury
  feeTypeStats : DataMap Nat Nat
  feesFrozen : Bool
  treasuryFrozen : Bool

/-- Every fee type exists and is free at launch. -/
def ProtocolFees.deployed : ProtocolFees where
  feeConfigs :=
    ((((∅ : DataMap Nat FeeConfig).insert 1 .free).insert 2 .free).insert 3 .free).insert 4 .free
  treasury := .zero
  feeTypeStats := ∅
  feesFrozen := false
  treasuryFrozen := false

/-! ## privacy-pool and split-merge-manager -/

structure PrivacyPool where
  shieldEnabled : Bool
  transferEnabled : Bool
  withdrawEnabled : Bool

def PrivacyPool.deployed : PrivacyPool where
  shieldEnabled := true
  transferEnabled := true
  withdrawEnabled := true

structure SplitMergeManager where
  splitEnabled : Bool
  mergeEnabled : Bool

def SplitMergeManager.deployed : SplitMergeManager where
  splitEnabled := true
  mergeEnabled := true

/-! ## asset-registry -/

inductive AssetStatus where
  | active
  | disabled
  | deprecated
  deriving DecidableEq, Repr

/-- An asset's record.  The name is kept as the bytes of its ASCII text. -/
structure Asset where
  token : Principal
  name : Bytes
  decimals : Nat
  status : AssetStatus
  minShield : Nat
  maxShield : Nat
  minNote : Nat
  maxNote : Nat
  feeRecipient : Principal
  version : Nat

structure AssetRegistry where
  assets : DataMap Nat Asset
  principalToId : DataMap Principal Nat
  assetFeeConfigs : DataMap (Nat × Nat) FeeConfig
  nextAssetId : Nat
  assetCount : Nat

def AssetRegistry.deployed : AssetRegistry where
  assets := ∅
  principalToId := ∅
  assetFeeConfigs := ∅
  nextAssetId := 1
  assetCount := 0

/-! ## sip10-protocol-fees and sip10-pool -/

structure Sip10ProtocolFees where
  assetTreasury : DataMap Nat Treasury
  assetFeeStats : DataMap (Nat × Nat) Nat
  feesFrozen : Bool
  treasuryFrozen : Bool

def Sip10ProtocolFees.deployed : Sip10ProtocolFees where
  assetTreasury := ∅
  assetFeeStats := ∅
  feesFrozen := false
  treasuryFrozen := false

structure Sip10Pool where
  shieldedTotal : DataMap Nat Nat
  operationSwitches : DataMap Nat Bool

def Sip10Pool.deployed : Sip10Pool where
  shieldedTotal := ∅
  operationSwitches := ∅

end StxShield
