import StxShield.Chain.Storage

/-!
# Public interface

The arguments of the ten value operations, and the public functions of every
contract as one `Call` type each.  Read-only functions change nothing and are
left to the models that use them.
-/

namespace StxShield

/-! ## The value operations -/

structure ShieldArgs where
  amount : Uint
  commitment : Buff32
  ownerCommitment : Buff32
  metadata : Buff32
  currentRoot : Buff32
  newRoot : Buff32
  leafIndex : Uint
  deriving DecidableEq

structure TransferArgs where
  nullifier : Buff32
  newCommitment : Buff32
  newOwnerCommitment : Buff32
  newMetadata : Buff32
  currentRoot : Buff32
  newRoot : Buff32
  leafIndex : Uint
  deriving DecidableEq

structure WithdrawArgs where
  nullifier : Buff32
  amount : Uint
  recipient : Principal
  root : Buff32
  deriving DecidableEq

structure SplitArgs where
  nullifier : Buff32
  commitment1 : Buff32
  ownerCommitment1 : Buff32
  metadata1 : Buff32
  commitment2 : Buff32
  ownerCommitment2 : Buff32
  metadata2 : Buff32
  currentRoot : Buff32
  newRoot : Buff32
  leafIndex : Uint
  deriving DecidableEq

structure MergeArgs where
  nullifier1 : Buff32
  nullifier2 : Buff32
  commitment : Buff32
  ownerCommitment : Buff32
  metadata : Buff32
  currentRoot : Buff32
  newRoot : Buff32
  leafIndex : Uint
  deriving DecidableEq

/-- Where a proof's statement sits in a published aggregation. -/
structure Inclusion where
  domainId : Nat
  aggregationId : Nat
  merklePath : { path : List Buff32 // path.length ≤ 32 }
  aggLeafIndex : Nat
  deriving DecidableEq

/-- What a note is worth: STX, or a SIP-010 token. -/
inductive Currency where
  | stx
  | sip10 (token : Principal)
  deriving DecidableEq

inductive Action where
  | shield (args : ShieldArgs)
  | transfer (args : TransferArgs)
  | withdraw (args : WithdrawArgs)
  | split (args : SplitArgs)
  | merge (args : MergeArgs)
  deriving DecidableEq

/-- One of the ten operations with its arguments. -/
structure Operation where
  currency : Currency
  action : Action
  deriving DecidableEq

/-! ## Contract functions -/

inductive PrivacyRegistry.Call where
  | registerCommitment (commitment : Buff32) (version : Nat)
  | registerNullifier (nullifier : Buff32)
  | updateRoot (newRoot : Buff32) (version : Nat)
  | setRootStatus (root : Buff32) (active : Bool)
  | pauseProtocol
  | unpauseProtocol
  | emergencyPauseProtocol
  | resolveEmergency
  | beginUpgrade
  | completeUpgrade
  | deprecateProtocol
  | updateVersions (new : ProtocolVersions)
  | setVerifierVersions (verifierVersion circuitVersion : Nat)
  | updateProtocolLimits (new : ProtocolLimits)
  | setMaxFeeBps (newMaxFeeBps : Nat)
  | recordShield (amount : Nat)
  | recordWithdrawal (amount : Nat)
  | recordTransfer
  | recordNoteCreated
  | grantRole (account : Principal) (role : Nat)
  | revokeRole (account : Principal) (role : Nat)
  | addAuthorizedCaller (caller : Principal)
  | removeAuthorizedCaller (caller : Principal)
  | transferOwnership (newOwner : Principal)
  | acceptOwnership
  | cancelOwnershipTransfer

inductive NoteManager.Call where
  | registerNote (noteId ownerCommitment metadata : Buff32) (version : Nat)
  | spendNote (noteId : Buff32)
  | withdrawNote (noteId : Buff32)
  | freezeNote (noteId : Buff32)
  | reactivateNote (noteId : Buff32)
  | deprecateNote (noteId : Buff32)

/-- The public functions the two verifiers have in common. -/
inductive Verifier.Call where
  | verifyProof (proofType circuitVersion : Nat) (publicInputsHash : Buff32)
      (inclusion : Inclusion)
  | submitAggregation (domainId aggregationId : Nat) (root : Buff32) (leafCount : Nat)
  | setZkverifyContextHash (contextHash : Buff32)
  | setZkverifyBinding (proofType circuitVersion : Nat) (zkvVkeyHash versionHash : Buff32)
  | addRelayer (who : Principal)
  | removeRelayer (who : Principal)
  | registerVerificationKey (proofType circuitVersion : Nat) (vkeyHash : Buff32)
      (proofLength : Nat)
  | setVerificationKeyStatus (proofType circuitVersion : Nat) (enabled : Bool)
  | freezeVerification
  | unfreezeVerification

inductive Sip10Verifier.Call where
  | common (call : Verifier.Call)
  | setCircuitVersion (newVersion : Nat)
  | setAuthorizedPool (pool : Principal)

inductive ProtocolFees.Call where
  | setFee (feeType bps flat : Nat) (enabled : Bool)
  | collectFee (feeType amount : Nat)
  | withdrawFees (amount : Nat) (recipient : Principal)
  | freezeFees
  | unfreezeFees
  | freezeTreasury
  | unfreezeTreasury

structure RegisterAssetArgs where
  token : Principal
  name : Library.Bytes
  decimals : Nat
  minShield : Nat
  maxShield : Nat
  minNote : Nat
  maxNote : Nat
  feeRecipient : Principal
  version : Nat
  deriving DecidableEq

inductive AssetRegistry.Call where
  | registerAsset (args : RegisterAssetArgs)
  | setAssetEnabled (assetId : Nat) (enabled : Bool)
  | deprecateAsset (assetId : Nat)
  | setAssetLimits (assetId minShield maxShield minNote maxNote : Nat)
  | setAssetFeeConfig (assetId feeType bps flat : Nat) (enabled : Bool)
  | setAssetFeeRecipient (assetId : Nat) (feeRecipient : Principal)
  deriving DecidableEq

inductive Sip10ProtocolFees.Call where
  | collectFee (assetId feeType amount : Nat) (token : Principal)
  | withdrawFees (assetId amount : Nat) (token : Principal)
  | freezeFees
  | unfreezeFees
  | freezeTreasury
  | unfreezeTreasury

inductive PrivacyPool.Call where
  | shield (args : ShieldArgs) (inclusion : Inclusion)
  | transfer (args : TransferArgs) (inclusion : Inclusion)
  | withdraw (args : WithdrawArgs) (inclusion : Inclusion)
  | setShieldEnabled (enabled : Bool)
  | setTransferEnabled (enabled : Bool)
  | setWithdrawEnabled (enabled : Bool)

inductive SplitMergeManager.Call where
  | splitNote (args : SplitArgs) (inclusion : Inclusion)
  | mergeNotes (args : MergeArgs) (inclusion : Inclusion)
  | setSplitEnabled (enabled : Bool)
  | setMergeEnabled (enabled : Bool)

inductive Sip10Pool.Call where
  | shield (token : Principal) (args : ShieldArgs) (inclusion : Inclusion)
  | transfer (token : Principal) (args : TransferArgs) (inclusion : Inclusion)
  | split (token : Principal) (args : SplitArgs) (inclusion : Inclusion)
  | mergeNotes (token : Principal) (args : MergeArgs) (inclusion : Inclusion)
  | withdraw (token : Principal) (args : WithdrawArgs) (inclusion : Inclusion)
  | setOperationEnabled (op : Nat) (enabled : Bool)

/-- The functions of a token contract: the three of the SIP-010 trait the
protocol calls, and whatever others the token has. -/
inductive TokenFunction where
  | transfer (amount : Nat) (sender recipient : Principal)
  | getBalance (who : Principal)
  | getDecimals
  | other (selector : Nat)

/-- Everything a transaction, or token code, can call. -/
inductive Call where
  | privacyRegistry (call : PrivacyRegistry.Call)
  | noteManager (call : NoteManager.Call)
  | zkVerifier (call : Verifier.Call)
  | sip10ZkVerifier (call : Sip10Verifier.Call)
  | protocolFees (call : ProtocolFees.Call)
  | assetRegistry (call : AssetRegistry.Call)
  | sip10ProtocolFees (call : Sip10ProtocolFees.Call)
  | privacyPool (call : PrivacyPool.Call)
  | splitMergeManager (call : SplitMergeManager.Call)
  | sip10Pool (call : Sip10Pool.Call)
  | stxTransfer (amount : Nat) (sender recipient : Principal)
  | token (token : Principal) (function : TokenFunction)

/-- The function of a token contract that is entered. -/
def TokenFunction.id (token : Principal) : TokenFunction → FunctionId
  | .other selector => .function token (3 + selector)
  | function => .function token function.ctorIdx

/-- The protocol function a call enters, if it enters one. -/
def Call.function? : Call → Option FunctionId
  | .privacyRegistry call => some (.function .privacyRegistry call.ctorIdx)
  | .noteManager call => some (.function .noteManager call.ctorIdx)
  | .zkVerifier call => some (.function .zkVerifier call.ctorIdx)
  | .sip10ZkVerifier (.common call) => some (.function .sip10ZkVerifier call.ctorIdx)
  | .sip10ZkVerifier (.setCircuitVersion _) => some (.function .sip10ZkVerifier 10)
  | .sip10ZkVerifier (.setAuthorizedPool _) => some (.function .sip10ZkVerifier 11)
  | .protocolFees call => some (.function .protocolFees call.ctorIdx)
  | .assetRegistry call => some (.function .assetRegistry call.ctorIdx)
  | .sip10ProtocolFees call => some (.function .sip10ProtocolFees call.ctorIdx)
  | .privacyPool call => some (.function .privacyPool call.ctorIdx)
  | .splitMergeManager call => some (.function .splitMergeManager call.ctorIdx)
  | .sip10Pool call => some (.function .sip10Pool call.ctorIdx)
  | .stxTransfer _ _ _ => none
  | .token _ _ => none

end StxShield
