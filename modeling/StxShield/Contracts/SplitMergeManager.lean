import StxShield.Contracts.PoolCalls
import StxShield.Contracts.ProtocolFees
import StxShield.Contracts.ZkVerifier

/-!
# split-merge-manager

Splitting one STX note into two and merging two into one.  No STX moves but
the fee, and the shielded total is untouched.
-/

namespace StxShield.SplitMergeManager

open Library Exec World PoolCalls

def errUnauthorized : Nat := 350
def errOperationDisabled : Nat := 351
def errStaleRoot : Nat := 352
def errUnknownRoot : Nat := 353
def errInvalidInput : Nat := 354
def errDuplicateInput : Nat := 355
def errDuplicateOutput : Nat := 356
def errSwitchUnchanged : Nat := 357
def errLeafIndexMismatch : Nat := 358

/-! ## Public inputs -/

def splitInputs (args : SplitArgs) (circuitVersion : Nat) : Bytes :=
  (((((((feUint proofTypeSplit ++ args.nullifier.bytes) ++ args.commitment1.bytes) ++
    args.ownerCommitment1.bytes) ++ args.commitment2.bytes) ++ args.ownerCommitment2.bytes) ++
    args.currentRoot.bytes) ++ args.newRoot.bytes) ++
    (feUint args.leafIndex ++ feUint circuitVersion)

def mergeInputs (args : MergeArgs) (circuitVersion : Nat) : Bytes :=
  ((((((feUint proofTypeMerge ++ args.nullifier1.bytes) ++ args.nullifier2.bytes) ++
    args.commitment.bytes) ++ args.ownerCommitment.bytes) ++ args.currentRoot.bytes) ++
    args.newRoot.bytes) ++ (feUint args.leafIndex ++ feUint circuitVersion)

/-! ## Operations -/

variable (P : Primitives)

def splitNote (ctx : Ctx) (args : SplitArgs) (inclusion : Inclusion) : Exec World (Nat × Nat) := do
  let w ← read
  let circuitVersion := w.registry.protocolVersions.circuit
  let caller := ctx.calledBy .splitMergeManager
  onRegistry PrivacyRegistry.checkActive
  require w.splitMergeManager.splitEnabled errOperationDisabled
  require (args.nullifier ≠ zeroHash ∧ args.commitment1 ≠ zeroHash ∧ args.commitment2 ≠ zeroHash)
    errInvalidInput
  require (args.commitment1 ≠ args.commitment2) errDuplicateOutput
  checkCurrentRoot args.currentRoot errStaleRoot errUnknownRoot
  let fee ← ProtocolFees.calculateFee feeTypeTransfer 0
  let inputsHash := P.keccak256 (splitInputs args circuitVersion)
  let _ ← ZkVerifier.verifyProof P caller proofTypeSplit circuitVersion inputsHash inclusion
  ProtocolFees.payFee caller feeTypeTransfer fee
  registerNullifier caller args.nullifier
  let leaf1 ← registerCommitment caller args.commitment1
  require (leaf1 = (args.leafIndex : Nat)) errLeafIndexMismatch
  registerNote caller args.commitment1 args.ownerCommitment1 args.metadata1
  let leaf2 ← registerCommitment caller args.commitment2
  let expected ← addUint args.leafIndex 1
  require (leaf2 = expected) errLeafIndexMismatch
  registerNote caller args.commitment2 args.ownerCommitment2 args.metadata2
  updateRoot caller args.newRoot
  record (.completed ⟨.stx, .split args⟩ circuitVersion)
  pure (leaf1, leaf2)

def mergeNotes (ctx : Ctx) (args : MergeArgs) (inclusion : Inclusion) : Exec World Nat := do
  let w ← read
  let circuitVersion := w.registry.protocolVersions.circuit
  let caller := ctx.calledBy .splitMergeManager
  onRegistry PrivacyRegistry.checkActive
  require w.splitMergeManager.mergeEnabled errOperationDisabled
  require (args.nullifier1 ≠ zeroHash ∧ args.nullifier2 ≠ zeroHash ∧ args.commitment ≠ zeroHash)
    errInvalidInput
  require (args.nullifier1 ≠ args.nullifier2) errDuplicateInput
  checkCurrentRoot args.currentRoot errStaleRoot errUnknownRoot
  let fee ← ProtocolFees.calculateFee feeTypeTransfer 0
  let inputsHash := P.keccak256 (mergeInputs args circuitVersion)
  let _ ← ZkVerifier.verifyProof P caller proofTypeMerge circuitVersion inputsHash inclusion
  ProtocolFees.payFee caller feeTypeTransfer fee
  registerNullifier caller args.nullifier1
  registerNullifier caller args.nullifier2
  let registeredIndex ← registerCommitment caller args.commitment
  require (registeredIndex = (args.leafIndex : Nat)) errLeafIndexMismatch
  registerNote caller args.commitment args.ownerCommitment args.metadata
  updateRoot caller args.newRoot
  record (.completed ⟨.stx, .merge args⟩ circuitVersion)
  pure registeredIndex

/-! ## Switches -/

def setSwitch (switch : SplitMergeManager → Bool)
    (store : Bool → SplitMergeManager → SplitMergeManager) (registry : PrivacyRegistry)
    (ctx : Ctx) (enabled : Bool) : Exec SplitMergeManager Unit := do
  let manager ← read
  require (registry.isAdmin ctx.contractCaller PrivacyRegistry.roleEmergencyAdmin) errUnauthorized
  require (switch manager ≠ enabled) errSwitchUnchanged
  modify (store enabled)

def setSplitEnabled : PrivacyRegistry → Ctx → Bool → Exec SplitMergeManager Unit :=
  setSwitch SplitMergeManager.splitEnabled fun enabled manager =>
    { manager with splitEnabled := enabled }

def setMergeEnabled : PrivacyRegistry → Ctx → Bool → Exec SplitMergeManager Unit :=
  setSwitch SplitMergeManager.mergeEnabled fun enabled manager =>
    { manager with mergeEnabled := enabled }

def execute (ctx : Ctx) (call : Call) : Exec World (List Nat) := do
  let w ← read
  match call with
  | .splitNote args inclusion => do
      let (leaf1, leaf2) ← splitNote P ctx args inclusion
      pure [leaf1, leaf2]
  | .mergeNotes args inclusion => do
      let index ← mergeNotes P ctx args inclusion
      pure [index]
  | .setSplitEnabled enabled => do
      onSplitMergeManager (setSplitEnabled w.registry ctx enabled)
      pure []
  | .setMergeEnabled enabled => do
      onSplitMergeManager (setMergeEnabled w.registry ctx enabled)
      pure []

end StxShield.SplitMergeManager
