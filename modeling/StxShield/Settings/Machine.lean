import StxShield.Assets.Directory
import StxShield.Effects.Calls

/-!
# The settings and their administration

What the administrators decide, taken from the storage of all contracts, as one state
machine: each public function asks a power of its caller, and the settings after it are a
function of the settings before.  Value operations and token code have no part in it.
-/

namespace StxShield

open Library PrivacyRegistry

/-! ## Settings -/

structure RegistrySettings where
  owner : Principal
  pendingOwner : Option Principal
  administrators : DataMap (Principal × Nat) Bool
  authorizedCallers : DataMap Principal Bool
  protocolState : ProtocolState
  protocolVersions : ProtocolVersions
  protocolLimits : ProtocolLimits

structure VerifierSettings where
  verificationKeys : DataMap (Nat × Nat) VerificationKey
  contextHash : Buff32
  bindings : DataMap (Nat × Nat) ZkVerifyBinding
  relayers : DataMap Principal Relayer
  verificationFrozen : Bool

/-- The emergency switches of a treasury. -/
structure Freezes where
  feesFrozen : Bool
  treasuryFrozen : Bool

structure Settings where
  registry : RegistrySettings
  zkVerifier : VerifierSettings
  sip10ZkVerifier : VerifierSettings
  circuitVersion : Nat
  authorizedPool : Option Principal
  feeConfigs : DataMap Nat FeeConfig
  protocolFees : Freezes
  sip10ProtocolFees : Freezes
  privacyPool : PrivacyPool
  splitMergeManager : SplitMergeManager
  operationSwitches : DataMap Nat Bool
  assetRegistry : AssetRegistry

def PrivacyRegistry.settings (registry : PrivacyRegistry) : RegistrySettings where
  owner := registry.owner
  pendingOwner := registry.pendingOwner
  administrators := registry.administrators
  authorizedCallers := registry.authorizedCallers
  protocolState := registry.protocolState
  protocolVersions := registry.protocolVersions
  protocolLimits := registry.protocolLimits

def Verifier.settings (verifier : Verifier) : VerifierSettings where
  verificationKeys := verifier.verificationKeys
  contextHash := verifier.contextHash
  bindings := verifier.bindings
  relayers := verifier.relayers
  verificationFrozen := verifier.verificationFrozen

def World.settings (w : World) : Settings where
  registry := w.registry.settings
  zkVerifier := w.zkVerifier.settings
  sip10ZkVerifier := w.sip10ZkVerifier.verifier.settings
  circuitVersion := w.sip10ZkVerifier.circuitVersion
  authorizedPool := w.sip10ZkVerifier.authorizedPool
  feeConfigs := w.protocolFees.feeConfigs
  protocolFees :=
    { feesFrozen := w.protocolFees.feesFrozen, treasuryFrozen := w.protocolFees.treasuryFrozen }
  sip10ProtocolFees :=
    { feesFrozen := w.sip10ProtocolFees.feesFrozen
      treasuryFrozen := w.sip10ProtocolFees.treasuryFrozen }
  privacyPool := w.privacyPool
  splitMergeManager := w.splitMergeManager
  operationSwitches := w.sip10Pool.operationSwitches
  assetRegistry := w.assetRegistry

def Settings.deployed (deployer : Principal) : Settings where
  registry := (PrivacyRegistry.deployed deployer).settings
  zkVerifier := Verifier.deployed.settings
  sip10ZkVerifier := Verifier.deployed.settings
  circuitVersion := 1
  authorizedPool := none
  feeConfigs := ProtocolFees.deployed.feeConfigs
  protocolFees := { feesFrozen := false, treasuryFrozen := false }
  sip10ProtocolFees := { feesFrozen := false, treasuryFrozen := false }
  privacyPool := .deployed
  splitMergeManager := .deployed
  operationSwitches := ∅
  assetRegistry := .deployed

/-! ## Powers -/

/-- What a function asks of the contract that calls it. -/
inductive Power where
  | anyone
  | owner
  /-- The owner, or a holder of the role. -/
  | admin (role : Nat)
  /-- The verifier admin or the emergency admin. -/
  | keyAdmin
  | pendingOwner
  | authorizedCaller
  /-- An authorized caller, or the owner. -/
  | rootUpdater
  /-- The verifier admin, or a relayer of the contract. -/
  | relayer
  | sip10Relayer
  | authorizedPool
  deriving DecidableEq

def RegistrySettings.IsAdmin (s : RegistrySettings) (who : Principal) (role : Nat) : Prop :=
  who = s.owner ∨ ((s.administrators.lookup (who, role)).getD false) = true

def RegistrySettings.Authorizes (s : RegistrySettings) (who : Principal) : Prop :=
  ((s.authorizedCallers.lookup who).getD false) = true

def VerifierSettings.Enables (s : VerifierSettings) (who : Principal) : Prop :=
  (((s.relayers.lookup who).map Relayer.enabled).getD false) = true

def Settings.Grants (s : Settings) (who : Principal) : Power → Prop
  | .anyone => True
  | .owner => who = s.registry.owner
  | .admin role => s.registry.IsAdmin who role
  | .keyAdmin => s.registry.IsAdmin who roleVerifierAdmin ∨ s.registry.IsAdmin who roleEmergencyAdmin
  | .pendingOwner => s.registry.pendingOwner = some who
  | .authorizedCaller => s.registry.Authorizes who
  | .rootUpdater => s.registry.Authorizes who ∨ who = s.registry.owner
  | .relayer => s.registry.IsAdmin who roleVerifierAdmin ∨ s.zkVerifier.Enables who
  | .sip10Relayer => s.registry.IsAdmin who roleVerifierAdmin ∨ s.sip10ZkVerifier.Enables who
  | .authorizedPool => some who = s.authorizedPool

def PrivacyRegistry.Call.power : PrivacyRegistry.Call → Power
  | .registerCommitment .. => .authorizedCaller
  | .registerNullifier _ => .authorizedCaller
  | .updateRoot .. => .rootUpdater
  | .setRootStatus .. => .admin roleEmergencyAdmin
  | .pauseProtocol => .admin roleProtocolAdmin
  | .unpauseProtocol => .admin roleProtocolAdmin
  | .emergencyPauseProtocol => .admin roleEmergencyAdmin
  | .resolveEmergency => .owner
  | .beginUpgrade => .owner
  | .completeUpgrade => .owner
  | .deprecateProtocol => .owner
  | .updateVersions _ => .admin roleProtocolAdmin
  | .setVerifierVersions .. => .admin roleVerifierAdmin
  | .updateProtocolLimits _ => .admin roleProtocolAdmin
  | .setMaxFeeBps _ => .admin roleFeeAdmin
  | .recordShield _ => .authorizedCaller
  | .recordWithdrawal _ => .authorizedCaller
  | .recordTransfer => .authorizedCaller
  | .recordNoteCreated => .authorizedCaller
  | .grantRole .. => .owner
  | .revokeRole .. => .owner
  | .addAuthorizedCaller _ => .owner
  | .removeAuthorizedCaller _ => .owner
  | .transferOwnership _ => .owner
  | .acceptOwnership => .pendingOwner
  | .cancelOwnershipTransfer => .owner

def NoteManager.Call.power : NoteManager.Call → Power
  | .registerNote .. => .authorizedCaller
  | .spendNote _ => .authorizedCaller
  | .withdrawNote _ => .authorizedCaller
  | .freezeNote _ => .admin roleEmergencyAdmin
  | .reactivateNote _ => .admin roleEmergencyAdmin
  | .deprecateNote _ => .owner

/-- The two verifiers differ in who presents proofs and who posts aggregations. -/
def Verifier.Call.power (presents posts : Power) : Verifier.Call → Power
  | .verifyProof .. => presents
  | .submitAggregation .. => posts
  | .setVerificationKeyStatus .. => .keyAdmin
  | .freezeVerification => .admin roleEmergencyAdmin
  | .unfreezeVerification => .admin roleEmergencyAdmin
  | _ => .admin roleVerifierAdmin

def ProtocolFees.Call.power : ProtocolFees.Call → Power
  | .setFee .. => .admin roleFeeAdmin
  | .collectFee .. => .authorizedCaller
  | .withdrawFees .. => .owner
  | _ => .admin roleEmergencyAdmin

def Sip10ProtocolFees.Call.power : Sip10ProtocolFees.Call → Power
  | .collectFee .. => .authorizedCaller
  | .withdrawFees .. => .owner
  | _ => .admin roleEmergencyAdmin

def AssetRegistry.Call.power : AssetRegistry.Call → Power
  | .setAssetFeeConfig .. => .admin roleFeeAdmin
  | .setAssetFeeRecipient .. => .admin roleFeeAdmin
  | _ => .admin roleProtocolAdmin

def Call.power : Call → Power
  | .privacyRegistry call => call.power
  | .noteManager call => call.power
  | .zkVerifier call => call.power .authorizedCaller .relayer
  | .sip10ZkVerifier (.common call) => call.power .authorizedPool .sip10Relayer
  | .sip10ZkVerifier (.setCircuitVersion _) => .admin roleVerifierAdmin
  | .sip10ZkVerifier (.setAuthorizedPool _) => .owner
  | .protocolFees call => call.power
  | .assetRegistry call => call.power
  | .sip10ProtocolFees call => call.power
  | .privacyPool (.setShieldEnabled _) => .admin roleEmergencyAdmin
  | .privacyPool (.setTransferEnabled _) => .admin roleEmergencyAdmin
  | .privacyPool (.setWithdrawEnabled _) => .admin roleEmergencyAdmin
  | .splitMergeManager (.setSplitEnabled _) => .admin roleEmergencyAdmin
  | .splitMergeManager (.setMergeEnabled _) => .admin roleEmergencyAdmin
  | .sip10Pool (.setOperationEnabled ..) => .admin roleEmergencyAdmin
  | _ => .anyone

/-! ## Configuration -/

def RegistrySettings.configure (s : RegistrySettings) (caller : Principal) :
    PrivacyRegistry.Call → RegistrySettings
  | .pauseProtocol => { s with protocolState := .paused }
  | .unpauseProtocol => { s with protocolState := .active }
  | .emergencyPauseProtocol => { s with protocolState := .emergency }
  | .resolveEmergency => { s with protocolState := .paused }
  | .beginUpgrade => { s with protocolState := .upgrading }
  | .completeUpgrade => { s with protocolState := .active }
  | .deprecateProtocol => { s with protocolState := .deprecated }
  | .updateVersions new => { s with protocolVersions := new }
  | .setVerifierVersions verifierVersion circuitVersion =>
      { s with
        protocolVersions :=
          { s.protocolVersions with verifier := verifierVersion, circuit := circuitVersion } }
  | .updateProtocolLimits new => { s with protocolLimits := new }
  | .setMaxFeeBps newMaxFeeBps =>
      { s with protocolLimits := { s.protocolLimits with maxFeeBps := newMaxFeeBps } }
  | .grantRole account role =>
      { s with administrators := s.administrators.insert (account, role) true }
  | .revokeRole account role => { s with administrators := s.administrators.erase (account, role) }
  | .addAuthorizedCaller added =>
      { s with authorizedCallers := s.authorizedCallers.insert added true }
  | .removeAuthorizedCaller removed =>
      { s with authorizedCallers := s.authorizedCallers.erase removed }
  | .transferOwnership newOwner => { s with pendingOwner := some newOwner }
  | .acceptOwnership => { s with owner := caller, pendingOwner := none }
  | .cancelOwnershipTransfer => { s with pendingOwner := none }
  | _ => s

def VerifierSettings.configure (s : VerifierSettings) (height : Nat) :
    Verifier.Call → VerifierSettings
  | .setZkverifyContextHash contextHash => { s with contextHash := contextHash }
  | .setZkverifyBinding proofType circuitVersion zkvVkeyHash versionHash =>
      { s with
        bindings := s.bindings.insert (proofType, circuitVersion)
          { zkvVkeyHash := zkvVkeyHash, versionHash := versionHash, setAt := height } }
  | .addRelayer who =>
      { s with relayers := s.relayers.insert who { enabled := true, addedAt := height } }
  | .removeRelayer who => { s with relayers := s.relayers.erase who }
  | .registerVerificationKey proofType circuitVersion vkeyHash proofLength =>
      { s with
        verificationKeys := s.verificationKeys.insert (proofType, circuitVersion)
          { vkeyHash := vkeyHash, proofLength := proofLength, enabled := true,
            registeredAt := height } }
  | .setVerificationKeyStatus proofType circuitVersion enabled =>
      match s.verificationKeys.lookup (proofType, circuitVersion) with
      | some vkey =>
          { s with
            verificationKeys := s.verificationKeys.insert (proofType, circuitVersion)
              { vkey with enabled := enabled } }
      | none => s
  | .freezeVerification => { s with verificationFrozen := true }
  | .unfreezeVerification => { s with verificationFrozen := false }
  | _ => s

/-- One asset's record is edited. -/
def AssetRegistry.edit (assets : AssetRegistry) (id : Nat) (f : Asset → Asset) : AssetRegistry :=
  match assets.assets.lookup id with
  | some asset => { assets with assets := assets.assets.insert id (f asset) }
  | none => assets

def AssetRegistry.configure (assets : AssetRegistry) : AssetRegistry.Call → AssetRegistry
  | .registerAsset args => assets.registered args
  | .setAssetEnabled assetId enabled =>
      assets.edit assetId fun asset =>
        { asset with status := if enabled then .active else .disabled }
  | .deprecateAsset assetId => assets.edit assetId fun asset => { asset with status := .deprecated }
  | .setAssetLimits assetId minShield maxShield minNote maxNote =>
      assets.edit assetId fun asset =>
        { asset with
          minShield := minShield
          maxShield := maxShield
          minNote := minNote
          maxNote := maxNote }
  | .setAssetFeeConfig assetId feeType bps flat enabled =>
      { assets with
        assetFeeConfigs := assets.assetFeeConfigs.insert (assetId, feeType)
          { bps := bps, flat := flat, enabled := enabled } }
  | .setAssetFeeRecipient assetId feeRecipient =>
      assets.edit assetId fun asset => { asset with feeRecipient := feeRecipient }

/-- The settings after a call has been accepted. -/
def Settings.configure (s : Settings) (ctx : Ctx) : Call → Settings
  | .privacyRegistry call => { s with registry := s.registry.configure ctx.contractCaller call }
  | .zkVerifier call => { s with zkVerifier := s.zkVerifier.configure ctx.height call }
  | .sip10ZkVerifier (.common call) =>
      { s with sip10ZkVerifier := s.sip10ZkVerifier.configure ctx.height call }
  | .sip10ZkVerifier (.setCircuitVersion newVersion) => { s with circuitVersion := newVersion }
  | .sip10ZkVerifier (.setAuthorizedPool pool) => { s with authorizedPool := some pool }
  | .protocolFees (.setFee feeType bps flat enabled) =>
      { s with
        feeConfigs := s.feeConfigs.insert feeType { bps := bps, flat := flat, enabled := enabled } }
  | .protocolFees .freezeFees => { s with protocolFees.feesFrozen := true }
  | .protocolFees .unfreezeFees => { s with protocolFees.feesFrozen := false }
  | .protocolFees .freezeTreasury => { s with protocolFees.treasuryFrozen := true }
  | .protocolFees .unfreezeTreasury => { s with protocolFees.treasuryFrozen := false }
  | .assetRegistry call => { s with assetRegistry := s.assetRegistry.configure call }
  | .sip10ProtocolFees .freezeFees => { s with sip10ProtocolFees.feesFrozen := true }
  | .sip10ProtocolFees .unfreezeFees => { s with sip10ProtocolFees.feesFrozen := false }
  | .sip10ProtocolFees .freezeTreasury => { s with sip10ProtocolFees.treasuryFrozen := true }
  | .sip10ProtocolFees .unfreezeTreasury => { s with sip10ProtocolFees.treasuryFrozen := false }
  | .privacyPool (.setShieldEnabled enabled) => { s with privacyPool.shieldEnabled := enabled }
  | .privacyPool (.setTransferEnabled enabled) => { s with privacyPool.transferEnabled := enabled }
  | .privacyPool (.setWithdrawEnabled enabled) => { s with privacyPool.withdrawEnabled := enabled }
  | .splitMergeManager (.setSplitEnabled enabled) =>
      { s with splitMergeManager.splitEnabled := enabled }
  | .splitMergeManager (.setMergeEnabled enabled) =>
      { s with splitMergeManager.mergeEnabled := enabled }
  | .sip10Pool (.setOperationEnabled op enabled) =>
      { s with operationSwitches := s.operationSwitches.insert op enabled }
  | _ => s

/-- What anyone may do configures nothing. -/
theorem Settings.configure_of_anyone (s : Settings) (ctx : Ctx) {call : Call}
    (h : call.power = .anyone) : s.configure ctx call = s := by
  cases call with
  | privacyRegistry call => cases call <;> cases h
  | noteManager call => rfl
  | zkVerifier call => cases call <;> cases h
  | sip10ZkVerifier call =>
      cases call with
      | common call => cases call <;> cases h
      | setCircuitVersion => cases h
      | setAuthorizedPool => cases h
  | protocolFees call => cases call <;> cases h
  | assetRegistry call => cases call <;> cases h
  | sip10ProtocolFees call => cases call <;> cases h
  | privacyPool call => cases call <;> first | rfl | cases h
  | splitMergeManager call => cases call <;> first | rfl | cases h
  | sip10Pool call => cases call <;> first | rfl | cases h
  | stxTransfer => rfl
  | token => rfl

/-! ## Recorded calls -/

/-- A call that was accepted, and the context it was made in. -/
abbrev Accepted : Type := Ctx × Call

def Event.accepted? : Event → Option Accepted
  | .called ctx call _ => some (ctx, call)
  | _ => none

/-- The accepted calls of a history, latest first. -/
def accepted (H : List Event) : List Accepted := H.filterMap Event.accepted?

/-- The settings follow from the calls alone, and each call was made by a holder of the power
it needs.  What a call asks is asked when it starts, and what it configures is configured
when it returns; only calls that run token code have others in between. -/
inductive Governed (start : Settings) : List Accepted → Settings → Prop where
  | start : Governed start [] start
  | accepted {earlier during : List Accepted} {s s' : Settings} {ctx : Ctx} {call : Call}
      (hbefore : Governed start earlier s) (hgrants : s.Grants ctx.contractCaller call.power)
      (hduring : Governed start (during ++ earlier) s')
      (hatomic : call.token? = none → during = []) :
      Governed start ((ctx, call) :: (during ++ earlier)) (s'.configure ctx call)

/-- The settings after a list of calls, latest first. -/
def replay (start : Settings) (calls : List Accepted) : Settings :=
  calls.foldr (fun call s => s.configure call.1 call.2) start

theorem Governed.eq_replay {start s : Settings} {calls : List Accepted}
    (h : Governed start calls s) : s = replay start calls := by
  induction h with
  | start => rfl
  | accepted _ _ _ _ _ ih => exact congrArg (fun s => Settings.configure s _ _) ih

theorem Governed.unique {start s s' : Settings} {calls : List Accepted}
    (h : Governed start calls s) (h' : Governed start calls s') : s = s' :=
  h.eq_replay.trans h'.eq_replay.symm

/-! ## Where power comes from -/

/-- The account a call hands a power to. -/
def Call.entrusts : Call → Option Principal
  | .privacyRegistry (.grantRole account _) => some account
  | .privacyRegistry (.transferOwnership newOwner) => some newOwner
  | .privacyRegistry (.addAuthorizedCaller caller) => some caller
  | .zkVerifier (.addRelayer who) => some who
  | .sip10ZkVerifier (.common (.addRelayer who)) => some who
  | .sip10ZkVerifier (.setAuthorizedPool pool) => some pool
  | _ => none

/-- The deployer, and whoever was named by an account that was entrusted then. -/
def Entrusted (deployer : Principal) : List Accepted → Principal → Prop
  | [], who => who = deployer
  | (ctx, call) :: earlier, who =>
      Entrusted deployer earlier who ∨
        (call.entrusts = some who ∧ Entrusted deployer earlier ctx.contractCaller)

end StxShield
