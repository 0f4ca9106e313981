import StxShield.Contracts.PoolCalls
import StxShield.Contracts.Sip10ProtocolFees
import StxShield.Contracts.Sip10ZkVerifier

/-!
# sip10-pool

The five operations for SIP-010 tokens.  The pool calls the token it is given
for balances and transfers, and the token may run any code of its own then;
on the payout path it runs with the pool as transaction sender.
-/

namespace StxShield.Sip10Pool

open Library Exec World PoolCalls AssetRegistry

def errUnauthorized : Nat := 450
def errOperationDisabled : Nat := 451
def errStaleRoot : Nat := 452
def errUnknownRoot : Nat := 453
def errUnknownAsset : Nat := 454
def errAssetNotShieldable : Nat := 455
def errAmountOutOfRange : Nat := 456
def errFeeExceedsAmount : Nat := 457
def errInvalidRecipient : Nat := 458
def errTokenTransferFailed : Nat := 459
def errTokenTransferMismatch : Nat := 460
def errTokenBalanceFailed : Nat := 461
def errSwitchUnchanged : Nat := 462
def errInsufficientShielded : Nat := 463
def errInvalidOp : Nat := 464
def errLeafIndexMismatch : Nat := 465

def sip10CircuitVersion : Nat := 2

def getShieldedTotal (pool : Sip10Pool) (assetUid : Nat) : Nat :=
  (pool.shieldedTotal.lookup assetUid).getD 0

def isOperationEnabled (pool : Sip10Pool) (op : Nat) : Bool :=
  (pool.operationSwitches.lookup op).getD true

/-! ## Public inputs -/

section PublicInputs

variable (P : Primitives) (token : Principal)

def shieldInputs (args : ShieldArgs) : Bytes :=
  ((feUint proofTypeShield ++ args.commitment.bytes) ++ args.ownerCommitment.bytes) ++
    (((((feUint args.amount ++ args.currentRoot.bytes) ++ args.newRoot.bytes) ++
      feUint args.leafIndex) ++ fePrincipal P token) ++ feUint sip10CircuitVersion)

def transferInputs (args : TransferArgs) : Bytes :=
  (((feUint proofTypeTransfer ++ args.nullifier.bytes) ++ args.newCommitment.bytes) ++
    args.newOwnerCommitment.bytes) ++
    ((((args.currentRoot.bytes ++ args.newRoot.bytes) ++ feUint args.leafIndex) ++
      fePrincipal P token) ++ feUint sip10CircuitVersion)

def splitInputs (args : SplitArgs) : Bytes :=
  (((((feUint proofTypeSplit ++ args.nullifier.bytes) ++ args.commitment1.bytes) ++
    args.ownerCommitment1.bytes) ++ args.commitment2.bytes) ++ args.ownerCommitment2.bytes) ++
    ((((args.currentRoot.bytes ++ args.newRoot.bytes) ++ feUint args.leafIndex) ++
      fePrincipal P token) ++ feUint sip10CircuitVersion)

def mergeInputs (args : MergeArgs) : Bytes :=
  ((((feUint proofTypeMerge ++ args.nullifier1.bytes) ++ args.nullifier2.bytes) ++
    args.commitment.bytes) ++ args.ownerCommitment.bytes) ++
    ((((args.currentRoot.bytes ++ args.newRoot.bytes) ++ feUint args.leafIndex) ++
      fePrincipal P token) ++ feUint sip10CircuitVersion)

def withdrawInputs (args : WithdrawArgs) : Bytes :=
  (((feUint proofTypeWithdrawal ++ args.nullifier.bytes) ++ feUint args.amount) ++
    fePrincipal P args.recipient) ++
    ((args.root.bytes ++ fePrincipal P token) ++ feUint sip10CircuitVersion)

end PublicInputs

/-! ## Operations -/

/-- `pool-balance`: what the token says the pool holds. -/
def poolBalance (tokens : TokenCode) (ctx : Ctx) (token : Principal) : Exec World Nat :=
  within ctx .poolBalance fun inner =>
    orError (tokens token (inner.calledBy .sip10Pool) (.getBalance .sip10Pool))
      errTokenBalanceFailed

/-- Charges a fee through the fee contract, which calls the token in turn; a zero
fee is not collected. -/
def payFee (tokens : TokenCode) (caller : Ctx) (assetUid feeType fee : Nat)
    (token : Principal) : Exec World Unit :=
  if 0 < fee then do
    let _ ← within caller (.function .sip10ProtocolFees 0) fun inner =>
      Sip10ProtocolFees.collectFee tokens inner assetUid feeType fee token
  else pure ()

/-- The checks every spending operation starts with; returns the asset's id. -/
def checkSpendable (token : Principal) (op : Nat) : Exec World Nat := do
  let w ← read
  let assetUid ← unwrap (getAssetIdByPrincipal w.assetRegistry token) errUnknownAsset
  onRegistry PrivacyRegistry.checkActive
  require (isOperationEnabled w.sip10Pool op) errOperationDisabled
  require (canSpend w.assetRegistry assetUid) errUnknownAsset
  pure assetUid

variable (P : Primitives) (tokens : TokenCode)

def shield (ctx : Ctx) (token : Principal) (args : ShieldArgs) (inclusion : Inclusion) :
    Exec World Nat := do
  let w ← read
  let caller := ctx.calledBy .sip10Pool
  let assetUid ← unwrap (getAssetIdByPrincipal w.assetRegistry token) errUnknownAsset
  onRegistry PrivacyRegistry.checkActive
  require (isOperationEnabled w.sip10Pool proofTypeShield) errOperationDisabled
  require (canShield w.assetRegistry assetUid) errAssetNotShieldable
  let asset ← unwrap (w.assetRegistry.assets.lookup assetUid) errUnknownAsset
  require (asset.minShield ≤ args.amount ∧ args.amount ≤ asset.maxShield) errAmountOutOfRange
  checkCurrentRoot args.currentRoot errStaleRoot errUnknownRoot
  let fee ← Sip10ProtocolFees.calculateFee assetUid feeTypeShield args.amount
  let inputsHash := P.keccak256 (shieldInputs P token args)
  let balBefore ← poolBalance tokens ctx token
  let _ ← Sip10ZkVerifier.verifyProof P caller proofTypeShield sip10CircuitVersion inputsHash
    inclusion
  let _ ← orError (tokens token caller (.transfer args.amount ctx.txSender .sip10Pool))
    errTokenTransferFailed
  let balAfter ← poolBalance tokens ctx token
  let expected ← addUint balBefore args.amount
  require (balAfter = expected) errTokenTransferMismatch
  payFee tokens caller assetUid feeTypeShield fee token
  registerNote caller args.commitment args.ownerCommitment args.metadata
  let registeredIndex ← registerCommitment caller args.commitment
  require (registeredIndex = (args.leafIndex : Nat)) errLeafIndexMismatch
  updateRoot caller args.newRoot
  let after ← read
  let total ← addUint (getShieldedTotal after.sip10Pool assetUid) args.amount
  onSip10Pool (modify fun pool =>
    { pool with shieldedTotal := pool.shieldedTotal.insert assetUid total })
  record (.completed ⟨.sip10 token, .shield args⟩ sip10CircuitVersion)
  pure registeredIndex

def transfer (ctx : Ctx) (token : Principal) (args : TransferArgs) (inclusion : Inclusion) :
    Exec World Nat := do
  let caller := ctx.calledBy .sip10Pool
  let assetUid ← checkSpendable token proofTypeTransfer
  checkCurrentRoot args.currentRoot errStaleRoot errUnknownRoot
  let fee ← Sip10ProtocolFees.calculateFee assetUid feeTypeTransfer 0
  let inputsHash := P.keccak256 (transferInputs P token args)
  let _ ← Sip10ZkVerifier.verifyProof P caller proofTypeTransfer sip10CircuitVersion inputsHash
    inclusion
  payFee tokens caller assetUid feeTypeTransfer fee token
  registerNullifier caller args.nullifier
  let registeredIndex ← registerCommitment caller args.newCommitment
  require (registeredIndex = (args.leafIndex : Nat)) errLeafIndexMismatch
  registerNote caller args.newCommitment args.newOwnerCommitment args.newMetadata
  updateRoot caller args.newRoot
  record (.completed ⟨.sip10 token, .transfer args⟩ sip10CircuitVersion)
  pure registeredIndex

def split (ctx : Ctx) (token : Principal) (args : SplitArgs) (inclusion : Inclusion) :
    Exec World (Nat × Nat) := do
  let caller := ctx.calledBy .sip10Pool
  let assetUid ← checkSpendable token proofTypeSplit
  checkCurrentRoot args.currentRoot errStaleRoot errUnknownRoot
  let fee ← Sip10ProtocolFees.calculateFee assetUid feeTypeSplit 0
  let inputsHash := P.keccak256 (splitInputs P token args)
  let _ ← Sip10ZkVerifier.verifyProof P caller proofTypeSplit sip10CircuitVersion inputsHash
    inclusion
  payFee tokens caller assetUid feeTypeSplit fee token
  registerNullifier caller args.nullifier
  let leaf1 ← registerCommitment caller args.commitment1
  let leaf2 ← registerCommitment caller args.commitment2
  require (leaf1 = (args.leafIndex : Nat)) errLeafIndexMismatch
  let expected ← addUint args.leafIndex 1
  require (leaf2 = expected) errLeafIndexMismatch
  registerNote caller args.commitment1 args.ownerCommitment1 args.metadata1
  registerNote caller args.commitment2 args.ownerCommitment2 args.metadata2
  updateRoot caller args.newRoot
  record (.completed ⟨.sip10 token, .split args⟩ sip10CircuitVersion)
  pure (leaf1, leaf2)

def mergeNotes (ctx : Ctx) (token : Principal) (args : MergeArgs) (inclusion : Inclusion) :
    Exec World Nat := do
  let caller := ctx.calledBy .sip10Pool
  let assetUid ← checkSpendable token proofTypeMerge
  checkCurrentRoot args.currentRoot errStaleRoot errUnknownRoot
  let fee ← Sip10ProtocolFees.calculateFee assetUid feeTypeMerge 0
  let inputsHash := P.keccak256 (mergeInputs P token args)
  let _ ← Sip10ZkVerifier.verifyProof P caller proofTypeMerge sip10CircuitVersion inputsHash
    inclusion
  payFee tokens caller assetUid feeTypeMerge fee token
  registerNullifier caller args.nullifier1
  registerNullifier caller args.nullifier2
  let registeredIndex ← registerCommitment caller args.commitment
  require (registeredIndex = (args.leafIndex : Nat)) errLeafIndexMismatch
  registerNote caller args.commitment args.ownerCommitment args.metadata
  updateRoot caller args.newRoot
  record (.completed ⟨.sip10 token, .merge args⟩ sip10CircuitVersion)
  pure registeredIndex

/-- The accounting is done before any token leaves; fee and payout are sent as
the contract itself, and the balance must drop by exactly the amount. -/
def withdraw (ctx : Ctx) (token : Principal) (args : WithdrawArgs) (inclusion : Inclusion) :
    Exec World Nat := do
  let w ← read
  let caller := ctx.calledBy .sip10Pool
  let assetUid ← checkSpendable token proofTypeWithdrawal
  require (w.registry.isKnownRoot args.root) errUnknownRoot
  require (args.recipient ≠ .burnAddress ∧ args.recipient ≠ .sip10Pool ∧
    args.recipient ≠ .sip10ProtocolFees) errInvalidRecipient
  let fee ← Sip10ProtocolFees.calculateFee assetUid feeTypeWithdrawal args.amount
  let inputsHash := P.keccak256 (withdrawInputs P token args)
  let balBefore ← poolBalance tokens ctx token
  let before ← read
  require (fee < args.amount) errFeeExceedsAmount
  require ((args.amount : Nat) ≤ getShieldedTotal before.sip10Pool assetUid)
    errInsufficientShielded
  let _ ← Sip10ZkVerifier.verifyProof P caller proofTypeWithdrawal sip10CircuitVersion inputsHash
    inclusion
  registerNullifier caller args.nullifier
  let after ← read
  let total ← subUint (getShieldedTotal after.sip10Pool assetUid) args.amount
  onSip10Pool (modify fun pool =>
    { pool with shieldedTotal := pool.shieldedTotal.insert assetUid total })
  record (.completed ⟨.sip10 token, .withdraw args⟩ sip10CircuitVersion)
  payFee tokens (ctx.asContract .sip10Pool) assetUid feeTypeWithdrawal fee token
  let _ ← orError
    (tokens token (ctx.asContract .sip10Pool)
      (.transfer (args.amount - fee) .sip10Pool args.recipient))
    errTokenTransferFailed
  let balAfter ← poolBalance tokens ctx token
  let expected ← subUint balBefore args.amount
  require (balAfter = expected) errTokenTransferMismatch
  pure (args.amount - fee)

/-! ## Switches -/

abbrev isOperation (op : Nat) : Prop :=
  op = proofTypeShield ∨ op = proofTypeTransfer ∨ op = proofTypeSplit ∨ op = proofTypeMerge ∨
    op = proofTypeWithdrawal

def setOperationEnabled (registry : PrivacyRegistry) (ctx : Ctx) (op : Nat) (enabled : Bool) :
    Exec Sip10Pool Unit := do
  let pool ← read
  require (registry.isAdmin ctx.contractCaller PrivacyRegistry.roleEmergencyAdmin) errUnauthorized
  require (isOperation op) errInvalidOp
  require (isOperationEnabled pool op ≠ enabled) errSwitchUnchanged
  modify fun pool => { pool with operationSwitches := pool.operationSwitches.insert op enabled }

def execute (ctx : Ctx) : Call → Exec World (List Nat)
  | .shield token args inclusion => do
      let index ← shield P tokens ctx token args inclusion
      pure [index]
  | .transfer token args inclusion => do
      let index ← transfer P tokens ctx token args inclusion
      pure [index]
  | .split token args inclusion => do
      let (leaf1, leaf2) ← split P tokens ctx token args inclusion
      pure [leaf1, leaf2]
  | .mergeNotes token args inclusion => do
      let index ← mergeNotes P tokens ctx token args inclusion
      pure [index]
  | .withdraw token args inclusion => do
      let paid ← withdraw P tokens ctx token args inclusion
      pure [paid]
  | .setOperationEnabled op enabled => do
      let w ← read
      onSip10Pool (setOperationEnabled w.registry ctx op enabled)
      pure []

end StxShield.Sip10Pool
