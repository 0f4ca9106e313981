import StxShield.Contracts.AssetRegistry
import StxShield.Contracts.ProtocolFees

/-!
# sip10-protocol-fees

The treasury of the SIP-10 family, one ledger per asset.  Fees move by calls
to the asset's token contract, which may run code of its own.
-/

namespace StxShield.Sip10ProtocolFees

open Library Exec World AssetRegistry

def errUnauthorized : Nat := 500
def errUnauthorizedCaller : Nat := 501
def errFeesFrozen : Nat := 502
def errTreasuryFrozen : Nat := 503
def errUnknownFeeType : Nat := 504
def errZeroAmount : Nat := 505
def errInsufficientTreasury : Nat := 506
def errTokenTransferFailed : Nat := 507
def errUnknownAsset : Nat := 508
def errAssetTokenMismatch : Nat := 509

def getAssetTreasury (fees : Sip10ProtocolFees) (assetId : Nat) : Treasury :=
  (fees.assetTreasury.lookup assetId).getD .zero

def calculateFee (assetId feeType amount : Nat) : Exec World Nat := do
  let w ← read
  let config ← unwrap (w.assetRegistry.assetFeeConfigs.lookup (assetId, feeType))
    errUnknownFeeType
  ProtocolFees.configuredFee w.registry config amount

/-- Moves a fee from the transaction sender into the asset's treasury.  The
ledger entries are read before the token runs and written after. -/
def collectFee (tokens : TokenCode) (ctx : Ctx) (assetId feeType amount : Nat)
    (token : Principal) : Exec World Nat := do
  let w ← read
  let asset ← unwrap (w.assetRegistry.assets.lookup assetId) errUnknownAsset
  let treasury := getAssetTreasury w.sip10ProtocolFees assetId
  let collected := (w.sip10ProtocolFees.assetFeeStats.lookup (assetId, feeType)).getD 0
  onRegistry PrivacyRegistry.checkActive
  require (w.sip10ProtocolFees.feesFrozen = false) errFeesFrozen
  require (w.registry.isAuthorizedCaller ctx.contractCaller) errUnauthorizedCaller
  require (isValidFeeType feeType) errUnknownFeeType
  require (0 < amount) errZeroAmount
  require (token = asset.token) errAssetTokenMismatch
  let _ ← orError
    (tokens token (ctx.calledBy .sip10ProtocolFees)
      (.transfer amount ctx.txSender .sip10ProtocolFees))
    errTokenTransferFailed
  let totalCollected ← addUint treasury.totalCollected amount
  let balance ← addUint treasury.balance amount
  let collected ← addUint collected amount
  onSip10ProtocolFees (modify fun fees =>
    { fees with
      assetTreasury := fees.assetTreasury.insert assetId
        { treasury with totalCollected := totalCollected, balance := balance }
      assetFeeStats := fees.assetFeeStats.insert (assetId, feeType) collected })
  pure amount

/-- Pays an asset's collected fees to its fee recipient, as the contract
itself. -/
def withdrawFees (tokens : TokenCode) (ctx : Ctx) (assetId amount : Nat) (token : Principal) :
    Exec World Unit := do
  let w ← read
  let asset ← unwrap (w.assetRegistry.assets.lookup assetId) errUnknownAsset
  let treasury := getAssetTreasury w.sip10ProtocolFees assetId
  require (w.registry.isOwner ctx.contractCaller) errUnauthorized
  require (w.sip10ProtocolFees.treasuryFrozen = false) errTreasuryFrozen
  require (0 < amount) errZeroAmount
  require (token = asset.token) errAssetTokenMismatch
  require (amount ≤ treasury.balance) errInsufficientTreasury
  let _ ← orError
    (tokens token (ctx.asContract .sip10ProtocolFees)
      (.transfer amount .sip10ProtocolFees asset.feeRecipient))
    errTokenTransferFailed
  let totalWithdrawn ← addUint treasury.totalWithdrawn amount
  let balance ← subUint treasury.balance amount
  onSip10ProtocolFees (modify fun fees =>
    { fees with
      assetTreasury := fees.assetTreasury.insert assetId
        { treasury with totalWithdrawn := totalWithdrawn, balance := balance } })

/-! ## Emergency controls -/

def setFeesFrozen (registry : PrivacyRegistry) (ctx : Ctx) (frozen : Bool) :
    Exec Sip10ProtocolFees Unit := do
  let fees ← read
  require (registry.isAdmin ctx.contractCaller PrivacyRegistry.roleEmergencyAdmin) errUnauthorized
  require (fees.feesFrozen ≠ frozen) errFeesFrozen
  modify fun fees => { fees with feesFrozen := frozen }

def setTreasuryFrozen (registry : PrivacyRegistry) (ctx : Ctx) (frozen : Bool) :
    Exec Sip10ProtocolFees Unit := do
  let fees ← read
  require (registry.isAdmin ctx.contractCaller PrivacyRegistry.roleEmergencyAdmin) errUnauthorized
  require (fees.treasuryFrozen ≠ frozen) errTreasuryFrozen
  modify fun fees => { fees with treasuryFrozen := frozen }

def execute (tokens : TokenCode) (ctx : Ctx) (call : Call) : Exec World Unit := do
  let w ← read
  match call with
  | .collectFee assetId feeType amount token => do
      let _ ← collectFee tokens ctx assetId feeType amount token
      pure ()
  | .withdrawFees assetId amount token => withdrawFees tokens ctx assetId amount token
  | .freezeFees => onSip10ProtocolFees (setFeesFrozen w.registry ctx true)
  | .unfreezeFees => onSip10ProtocolFees (setFeesFrozen w.registry ctx false)
  | .freezeTreasury => onSip10ProtocolFees (setTreasuryFrozen w.registry ctx true)
  | .unfreezeTreasury => onSip10ProtocolFees (setTreasuryFrozen w.registry ctx false)

end StxShield.Sip10ProtocolFees
