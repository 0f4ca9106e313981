import StxShield.Chain.PublicInputs
import StxShield.Contracts.PrivacyRegistry

/-!
# protocol-fees

The STX treasury: fee configuration, collection by the protocol's contracts,
and withdrawal by the registry's owner.
-/

namespace StxShield.ProtocolFees

open Library Exec World

def errUnauthorized : Nat := 200
def errUnauthorizedCaller : Nat := 201
def errFeesFrozen : Nat := 202
def errTreasuryFrozen : Nat := 203
def errUnknownFeeType : Nat := 204
def errFeeAboveCeiling : Nat := 205
def errZeroAmount : Nat := 206
def errInsufficientTreasury : Nat := 207
def errStxTransferFailed : Nat := 208
def errInvalidRecipient : Nat := 209

def bpsDenominator : Nat := 10000
def flatFeeCeiling : Nat := 10000000

abbrev isValidFeeType (feeType : Nat) : Prop :=
  feeType = 1 ∨ feeType = 2 ∨ feeType = 3 ∨ feeType = 4

/-- Bounded at read time by the registry's ceiling. -/
def effectiveBps (registry : PrivacyRegistry) (configured : Nat) : Nat :=
  if registry.protocolLimits.maxFeeBps < configured then registry.protocolLimits.maxFeeBps
  else configured

/-- The fee a configuration asks for an amount. -/
def configuredFee {σ : Type} (registry : PrivacyRegistry) (config : FeeConfig) (amount : Nat) :
    Exec σ Nat :=
  if config.enabled then do
    let scaled ← mulUint amount (effectiveBps registry config.bps)
    addUint config.flat (scaled / bpsDenominator)
  else pure 0

def calculateFee (feeType amount : Nat) : Exec World Nat := do
  let w ← read
  let config ← unwrap (w.protocolFees.feeConfigs.lookup feeType) errUnknownFeeType
  configuredFee w.registry config amount

/-- Moves a fee from the transaction sender into the treasury. -/
def collectFee (ctx : Ctx) (feeType amount : Nat) : Exec World Nat := do
  let w ← read
  let collected := (w.protocolFees.feeTypeStats.lookup feeType).getD 0
  onRegistry PrivacyRegistry.checkActive
  require (w.protocolFees.feesFrozen = false) errFeesFrozen
  require (w.registry.isAuthorizedCaller ctx.contractCaller) errUnauthorizedCaller
  require (isValidFeeType feeType) errUnknownFeeType
  require (0 < amount) errZeroAmount
  orError (stxTransfer ctx amount ctx.txSender .protocolFees) errStxTransferFailed
  let totalCollected ← addUint w.protocolFees.treasury.totalCollected amount
  let balance ← addUint w.protocolFees.treasury.balance amount
  let collected ← addUint collected amount
  onProtocolFees (modify fun fees =>
    { fees with
      treasury := { fees.treasury with totalCollected := totalCollected, balance := balance }
      feeTypeStats := fees.feeTypeStats.insert feeType collected })
  pure amount

/-- How the pools charge a fee: a zero fee is not collected. -/
def payFee (caller : Ctx) (feeType fee : Nat) : Exec World Unit :=
  if 0 < fee then do
    let _ ← collectFee caller feeType fee
  else pure ()

/-- Pays collected fees out, as the contract itself. -/
def withdrawFees (ctx : Ctx) (amount : Nat) (recipient : Principal) : Exec World Unit := do
  let w ← read
  let treasury := w.protocolFees.treasury
  require (w.registry.isOwner ctx.contractCaller) errUnauthorized
  require (w.protocolFees.treasuryFrozen = false) errTreasuryFrozen
  require (0 < amount) errZeroAmount
  require (recipient ≠ .burnAddress) errInvalidRecipient
  require (amount ≤ treasury.balance) errInsufficientTreasury
  orError (stxTransfer (ctx.asContract .protocolFees) amount .protocolFees recipient)
    errStxTransferFailed
  let totalWithdrawn ← addUint treasury.totalWithdrawn amount
  let balance ← subUint treasury.balance amount
  onProtocolFees (modify fun fees =>
    { fees with
      treasury := { treasury with totalWithdrawn := totalWithdrawn, balance := balance } })

/-! ## Configuration -/

def setFee (registry : PrivacyRegistry) (ctx : Ctx) (feeType bps flat : Nat) (enabled : Bool) :
    Exec ProtocolFees Unit := do
  require (registry.isAdmin ctx.contractCaller PrivacyRegistry.roleFeeAdmin) errUnauthorized
  require (isValidFeeType feeType) errUnknownFeeType
  require (bps ≤ registry.protocolLimits.maxFeeBps) errFeeAboveCeiling
  require (flat ≤ flatFeeCeiling) errFeeAboveCeiling
  modify fun fees =>
    { fees with
      feeConfigs := fees.feeConfigs.insert feeType { bps := bps, flat := flat, enabled := enabled } }

/-- Both freezes are refused when they would change nothing. -/
def setFeesFrozen (registry : PrivacyRegistry) (ctx : Ctx) (frozen : Bool) :
    Exec ProtocolFees Unit := do
  let fees ← read
  require (registry.isAdmin ctx.contractCaller PrivacyRegistry.roleEmergencyAdmin) errUnauthorized
  require (fees.feesFrozen ≠ frozen) errFeesFrozen
  modify fun fees => { fees with feesFrozen := frozen }

def setTreasuryFrozen (registry : PrivacyRegistry) (ctx : Ctx) (frozen : Bool) :
    Exec ProtocolFees Unit := do
  let fees ← read
  require (registry.isAdmin ctx.contractCaller PrivacyRegistry.roleEmergencyAdmin) errUnauthorized
  require (fees.treasuryFrozen ≠ frozen) errTreasuryFrozen
  modify fun fees => { fees with treasuryFrozen := frozen }

def execute (ctx : Ctx) (call : Call) : Exec World Unit := do
  let w ← read
  match call with
  | .setFee feeType bps flat enabled =>
      onProtocolFees (setFee w.registry ctx feeType bps flat enabled)
  | .collectFee feeType amount => do
      let _ ← collectFee ctx feeType amount
      pure ()
  | .withdrawFees amount recipient => withdrawFees ctx amount recipient
  | .freezeFees => onProtocolFees (setFeesFrozen w.registry ctx true)
  | .unfreezeFees => onProtocolFees (setFeesFrozen w.registry ctx false)
  | .freezeTreasury => onProtocolFees (setTreasuryFrozen w.registry ctx true)
  | .unfreezeTreasury => onProtocolFees (setTreasuryFrozen w.registry ctx false)

end StxShield.ProtocolFees
