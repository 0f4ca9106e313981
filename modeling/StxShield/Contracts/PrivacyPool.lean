import StxShield.Contracts.PoolCalls
import StxShield.Contracts.ProtocolFees
import StxShield.Contracts.ZkVerifier

/-!
# privacy-pool

Shield, transfer and withdraw for STX.  Each operation hashes its own
arguments, has the verifier accept a statement with that hash, and registers
what the statement declares.
-/

namespace StxShield.PrivacyPool

open Library Exec World PoolCalls

def errUnauthorized : Nat := 250
def errOperationDisabled : Nat := 251
def errStaleRoot : Nat := 252
def errUnknownRoot : Nat := 253
def errFeeExceedsAmount : Nat := 254
def errInvalidRecipient : Nat := 255
def errStxTransferFailed : Nat := 256
def errSwitchUnchanged : Nat := 257
def errLeafIndexMismatch : Nat := 258

/-! ## Public inputs -/

section PublicInputs

variable (P : Primitives)

def shieldInputs (args : ShieldArgs) (circuitVersion : Nat) : Bytes :=
  (feUint proofTypeShield ++ args.commitment.bytes) ++
    (((((args.ownerCommitment.bytes ++ feUint args.amount) ++ args.currentRoot.bytes) ++
      args.newRoot.bytes) ++ feUint args.leafIndex) ++ feUint circuitVersion)

def transferInputs (args : TransferArgs) (circuitVersion : Nat) : Bytes :=
  ((feUint proofTypeTransfer ++ args.nullifier.bytes) ++ args.newCommitment.bytes) ++
    ((((args.newOwnerCommitment.bytes ++ args.currentRoot.bytes) ++ args.newRoot.bytes) ++
      feUint args.leafIndex) ++ feUint circuitVersion)

def withdrawInputs (args : WithdrawArgs) (circuitVersion : Nat) : Bytes :=
  ((feUint proofTypeWithdrawal ++ args.nullifier.bytes) ++ feUint args.amount) ++
    ((fePrincipal P args.recipient ++ args.root.bytes) ++ feUint circuitVersion)

end PublicInputs

/-! ## Operations -/

variable (P : Primitives)

def shield (ctx : Ctx) (args : ShieldArgs) (inclusion : Inclusion) : Exec World Nat := do
  let w ← read
  let circuitVersion := w.registry.protocolVersions.circuit
  let caller := ctx.calledBy .privacyPool
  onRegistry PrivacyRegistry.checkActive
  require w.privacyPool.shieldEnabled errOperationDisabled
  onRegistry (PrivacyRegistry.validateShieldAmount args.amount)
  checkCurrentRoot args.currentRoot errStaleRoot errUnknownRoot
  let fee ← ProtocolFees.calculateFee feeTypeShield args.amount
  let inputsHash := P.keccak256 (shieldInputs args circuitVersion)
  let _ ← ZkVerifier.verifyProof P caller proofTypeShield circuitVersion inputsHash inclusion
  orError (stxTransfer ctx args.amount ctx.txSender .privacyPool) errStxTransferFailed
  ProtocolFees.payFee caller feeTypeShield fee
  registerNote caller args.commitment args.ownerCommitment args.metadata
  let registeredIndex ← registerCommitment caller args.commitment
  require (registeredIndex = (args.leafIndex : Nat)) errLeafIndexMismatch
  updateRoot caller args.newRoot
  onRegistry (PrivacyRegistry.recordShield caller args.amount)
  record (.completed ⟨.stx, .shield args⟩ circuitVersion)
  pure registeredIndex

def transfer (ctx : Ctx) (args : TransferArgs) (inclusion : Inclusion) : Exec World Nat := do
  let w ← read
  let circuitVersion := w.registry.protocolVersions.circuit
  let caller := ctx.calledBy .privacyPool
  onRegistry PrivacyRegistry.checkActive
  require w.privacyPool.transferEnabled errOperationDisabled
  checkCurrentRoot args.currentRoot errStaleRoot errUnknownRoot
  let fee ← ProtocolFees.calculateFee feeTypeTransfer 0
  let inputsHash := P.keccak256 (transferInputs args circuitVersion)
  let _ ← ZkVerifier.verifyProof P caller proofTypeTransfer circuitVersion inputsHash inclusion
  ProtocolFees.payFee caller feeTypeTransfer fee
  registerNullifier caller args.nullifier
  let registeredIndex ← registerCommitment caller args.newCommitment
  require (registeredIndex = (args.leafIndex : Nat)) errLeafIndexMismatch
  registerNote caller args.newCommitment args.newOwnerCommitment args.newMetadata
  updateRoot caller args.newRoot
  onRegistry (PrivacyRegistry.recordTransfer caller)
  record (.completed ⟨.stx, .transfer args⟩ circuitVersion)
  pure registeredIndex

/-- The fee and the payout leave the pool as the contract itself. -/
def withdraw (ctx : Ctx) (args : WithdrawArgs) (inclusion : Inclusion) : Exec World Nat := do
  let w ← read
  let circuitVersion := w.registry.protocolVersions.circuit
  let caller := ctx.calledBy .privacyPool
  onRegistry PrivacyRegistry.checkActive
  require w.privacyPool.withdrawEnabled errOperationDisabled
  onRegistry (PrivacyRegistry.validateWithdrawalAmount args.amount)
  require (w.registry.isKnownRoot args.root) errUnknownRoot
  require (args.recipient ≠ .burnAddress ∧ args.recipient ≠ .privacyPool ∧
    args.recipient ≠ .protocolFees) errInvalidRecipient
  let fee ← ProtocolFees.calculateFee feeTypeWithdrawal args.amount
  let inputsHash := P.keccak256 (withdrawInputs P args circuitVersion)
  require (fee < args.amount) errFeeExceedsAmount
  let _ ← ZkVerifier.verifyProof P caller proofTypeWithdrawal circuitVersion inputsHash inclusion
  registerNullifier caller args.nullifier
  onRegistry (PrivacyRegistry.recordWithdrawal caller args.amount)
  record (.completed ⟨.stx, .withdraw args⟩ circuitVersion)
  ProtocolFees.payFee (ctx.asContract .privacyPool) feeTypeWithdrawal fee
  orError (stxTransfer (ctx.asContract .privacyPool) (args.amount - fee) .privacyPool args.recipient)
    errStxTransferFailed
  pure (args.amount - fee)

/-! ## Switches -/

/-- Each operation has its own switch, refused when it would change nothing. -/
def setSwitch (switch : PrivacyPool → Bool) (store : Bool → PrivacyPool → PrivacyPool)
    (registry : PrivacyRegistry) (ctx : Ctx) (enabled : Bool) : Exec PrivacyPool Unit := do
  let pool ← read
  require (registry.isAdmin ctx.contractCaller PrivacyRegistry.roleEmergencyAdmin) errUnauthorized
  require (switch pool ≠ enabled) errSwitchUnchanged
  modify (store enabled)

def setShieldEnabled : PrivacyRegistry → Ctx → Bool → Exec PrivacyPool Unit :=
  setSwitch PrivacyPool.shieldEnabled fun enabled pool => { pool with shieldEnabled := enabled }

def setTransferEnabled : PrivacyRegistry → Ctx → Bool → Exec PrivacyPool Unit :=
  setSwitch PrivacyPool.transferEnabled fun enabled pool => { pool with transferEnabled := enabled }

def setWithdrawEnabled : PrivacyRegistry → Ctx → Bool → Exec PrivacyPool Unit :=
  setSwitch PrivacyPool.withdrawEnabled fun enabled pool => { pool with withdrawEnabled := enabled }

def execute (ctx : Ctx) (call : Call) : Exec World (Option Nat) := do
  let w ← read
  match call with
  | .shield args inclusion => do
      let index ← shield P ctx args inclusion
      pure (some index)
  | .transfer args inclusion => do
      let index ← transfer P ctx args inclusion
      pure (some index)
  | .withdraw args inclusion => do
      let paid ← withdraw P ctx args inclusion
      pure (some paid)
  | .setShieldEnabled enabled => do
      onPrivacyPool (setShieldEnabled w.registry ctx enabled)
      pure none
  | .setTransferEnabled enabled => do
      onPrivacyPool (setTransferEnabled w.registry ctx enabled)
      pure none
  | .setWithdrawEnabled enabled => do
      onPrivacyPool (setWithdrawEnabled w.registry ctx enabled)
      pure none

end StxShield.PrivacyPool
