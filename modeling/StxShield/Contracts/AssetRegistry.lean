import StxShield.Chain.PublicInputs
import StxShield.Contracts.PrivacyRegistry

/-!
# asset-registry

The SIP-010 tokens the shielded pool accepts: one id per token contract, given
once and never reused.
-/

namespace StxShield.AssetRegistry

open Library Exec World

def errUnauthorized : Nat := 400
def errPrincipalExists : Nat := 401
def errUnknownAsset : Nat := 402
def errInvalidDecimals : Nat := 403
def errDecimalsMismatch : Nat := 404
def errInvalidLimits : Nat := 405
def errInvalidRecipient : Nat := 406
def errUnsupportedVersion : Nat := 407
def errInvalidToken : Nat := 408
def errFeeAboveCeiling : Nat := 409
def errUnknownFeeType : Nat := 410
def errInvalidName : Nat := 411
def errStatusUnchanged : Nat := 412
def errAssetDeprecated : Nat := 413

def supportedAssetVersion : Nat := 1
def maxDecimals : Nat := 18
def feeTypeSplit : Nat := 4
def feeTypeMerge : Nat := 5

abbrev isProtocolAdmin (registry : PrivacyRegistry) (who : Principal) : Prop :=
  registry.isAdmin who PrivacyRegistry.roleProtocolAdmin

abbrev isFeeAdmin (registry : PrivacyRegistry) (who : Principal) : Prop :=
  registry.isAdmin who PrivacyRegistry.roleFeeAdmin

abbrev isValidFeeType (feeType : Nat) : Prop :=
  feeType = feeTypeShield ∨ feeType = feeTypeTransfer ∨ feeType = feeTypeWithdrawal ∨
    feeType = feeTypeSplit ∨ feeType = feeTypeMerge

abbrev validLimits (minShield maxShield minNote maxNote : Nat) : Prop :=
  0 < minShield ∧ minShield ≤ maxShield ∧ 0 < minNote ∧ minNote ≤ maxShield ∧
    (maxNote = 0 ∨ minNote ≤ maxNote)

/-! ## Read-only -/

def getAssetIdByPrincipal (assets : AssetRegistry) (token : Principal) : Option Nat :=
  assets.principalToId.lookup token

def canShield (assets : AssetRegistry) (assetId : Nat) : Bool :=
  match assets.assets.lookup assetId with
  | some asset => asset.status = .active
  | none => false

def canSpend (assets : AssetRegistry) (assetId : Nat) : Bool :=
  (assets.assets.lookup assetId).isSome

/-! ## Registration -/

/-- The storage after `args` took `id`, with a free fee of each type. -/
def withAsset (assets : AssetRegistry) (id : Nat) (args : RegisterAssetArgs)
    (nextId count : Nat) : AssetRegistry :=
  { assets with
    assets := assets.assets.insert id
      { token := args.token, name := args.name, decimals := args.decimals, status := .active,
        minShield := args.minShield, maxShield := args.maxShield, minNote := args.minNote,
        maxNote := args.maxNote, feeRecipient := args.feeRecipient, version := args.version }
    principalToId := assets.principalToId.insert args.token id
    assetFeeConfigs :=
      ((((assets.assetFeeConfigs.insert (id, feeTypeShield) .free).insert
        (id, feeTypeTransfer) .free).insert (id, feeTypeWithdrawal) .free).insert
        (id, feeTypeSplit) .free).insert (id, feeTypeMerge) .free
    nextAssetId := nextId
    assetCount := count }

/-- The declared decimals are checked against the token itself, which may run
code of its own when asked. -/
def registerAsset (tokens : TokenCode) (ctx : Ctx) (args : RegisterAssetArgs) : Exec World Nat := do
  let w ← read
  let id := w.assetRegistry.nextAssetId
  require (isProtocolAdmin w.registry ctx.contractCaller) errUnauthorized
  require (args.version = supportedAssetVersion) errUnsupportedVersion
  require (0 < args.name.length) errInvalidName
  require (args.decimals ≤ maxDecimals) errInvalidDecimals
  require (args.token ≠ .assetRegistry) errInvalidToken
  require ((w.assetRegistry.principalToId.lookup args.token).isNone) errPrincipalExists
  require (validLimits args.minShield args.maxShield args.minNote args.maxNote) errInvalidLimits
  require (args.feeRecipient ≠ .burnAddress) errInvalidRecipient
  let decimals ← orError (tokens args.token (ctx.calledBy .assetRegistry) .getDecimals)
    errInvalidToken
  require (decimals = args.decimals) errDecimalsMismatch
  let after ← read
  let nextId ← addUint id 1
  let count ← addUint after.assetRegistry.assetCount 1
  onAssetRegistry (modify fun assets => withAsset assets id args nextId count)
  pure id

/-! ## Administration -/

section Administration

variable (registry : PrivacyRegistry) (ctx : Ctx)

def setAssetEnabled (assetId : Nat) (enabled : Bool) : Exec AssetRegistry Unit := do
  let assets ← read
  let newStatus := if enabled then AssetStatus.active else .disabled
  let asset ← unwrap (assets.assets.lookup assetId) errUnknownAsset
  require (isProtocolAdmin registry ctx.contractCaller) errUnauthorized
  require (asset.status ≠ .deprecated) errAssetDeprecated
  require (asset.status ≠ newStatus) errStatusUnchanged
  modify fun assets =>
    { assets with assets := assets.assets.insert assetId { asset with status := newStatus } }

def deprecateAsset (assetId : Nat) : Exec AssetRegistry Unit := do
  let assets ← read
  let asset ← unwrap (assets.assets.lookup assetId) errUnknownAsset
  require (isProtocolAdmin registry ctx.contractCaller) errUnauthorized
  require (asset.status ≠ .deprecated) errStatusUnchanged
  modify fun assets =>
    { assets with assets := assets.assets.insert assetId { asset with status := .deprecated } }

def setAssetLimits (assetId minShield maxShield minNote maxNote : Nat) :
    Exec AssetRegistry Unit := do
  let assets ← read
  let asset ← unwrap (assets.assets.lookup assetId) errUnknownAsset
  require (isProtocolAdmin registry ctx.contractCaller) errUnauthorized
  require (asset.status ≠ .deprecated) errAssetDeprecated
  require (validLimits minShield maxShield minNote maxNote) errInvalidLimits
  modify fun assets =>
    { assets with
      assets := assets.assets.insert assetId
        { asset with
          minShield := minShield
          maxShield := maxShield
          minNote := minNote
          maxNote := maxNote } }

def setAssetFeeConfig (assetId feeType bps flat : Nat) (enabled : Bool) :
    Exec AssetRegistry Unit := do
  let assets ← read
  let asset ← unwrap (assets.assets.lookup assetId) errUnknownAsset
  require (isFeeAdmin registry ctx.contractCaller) errUnauthorized
  require (asset.status ≠ .deprecated) errAssetDeprecated
  require (isValidFeeType feeType) errUnknownFeeType
  require (bps ≤ registry.protocolLimits.maxFeeBps) errFeeAboveCeiling
  require (flat ≤ asset.maxShield) errFeeAboveCeiling
  modify fun assets =>
    { assets with
      assetFeeConfigs := assets.assetFeeConfigs.insert (assetId, feeType)
        { bps := bps, flat := flat, enabled := enabled } }

def setAssetFeeRecipient (assetId : Nat) (feeRecipient : Principal) : Exec AssetRegistry Unit := do
  let assets ← read
  let asset ← unwrap (assets.assets.lookup assetId) errUnknownAsset
  require (isFeeAdmin registry ctx.contractCaller) errUnauthorized
  require (asset.status ≠ .deprecated) errAssetDeprecated
  require (feeRecipient ≠ .burnAddress) errInvalidRecipient
  modify fun assets =>
    { assets with
      assets := assets.assets.insert assetId { asset with feeRecipient := feeRecipient } }

/-- Every public function but `register-asset`. -/
def administer : Call → Exec AssetRegistry Unit
  | .registerAsset _ => abort
  | .setAssetEnabled assetId enabled => setAssetEnabled registry ctx assetId enabled
  | .deprecateAsset assetId => deprecateAsset registry ctx assetId
  | .setAssetLimits assetId minShield maxShield minNote maxNote =>
      setAssetLimits registry ctx assetId minShield maxShield minNote maxNote
  | .setAssetFeeConfig assetId feeType bps flat enabled =>
      setAssetFeeConfig registry ctx assetId feeType bps flat enabled
  | .setAssetFeeRecipient assetId feeRecipient =>
      setAssetFeeRecipient registry ctx assetId feeRecipient

end Administration

def execute (tokens : TokenCode) (ctx : Ctx) : Call → Exec World (Option Nat)
  | .registerAsset args => do
      let id ← registerAsset tokens ctx args
      pure (some id)
  | call => do
      let w ← read
      onAssetRegistry (administer w.registry ctx call)
      pure none

end StxShield.AssetRegistry
