import StxShield.Effects.Writes
import StxShield.Settings.Machine

/-!
# What each function asks and configures

The public functions of the contracts, one contract at a time: a call that succeeds was
made by a holder of the power its function asks for, and changes the settings as the
machine says.
-/

namespace StxShield

open Library Exec World

variable {ctx : Ctx} {w w' : World} {u : Unit} {α : Type}

/-! ## privacy-registry -/

theorem PrivacyRegistry.execute_configures {call : PrivacyRegistry.Call} {data : Option Nat}
    {registry' : PrivacyRegistry} (h : execute ctx call w.registry = .ok (data, registry')) :
    w.settings.Grants ctx.contractCaller call.power ∧
      registry'.settings = w.registry.settings.configure ctx.contractCaller call := by
  cases call
  all_goals
    simp only [execute, bind_ok, pure_ok] at h
    obtain ⟨_, _, hrun, rfl, rfl⟩ := h
  case registerCommitment =>
    obtain ⟨-, hcaller, -, -, -, -, -, -, rfl⟩ := registerCommitment_ok.mp hrun
    exact ⟨hcaller, rfl⟩
  case registerNullifier =>
    obtain ⟨-, hcaller, -, -, -, -, -, rfl⟩ := registerNullifier_ok.mp hrun
    exact ⟨hcaller, rfl⟩
  case updateRoot =>
    obtain ⟨-, hcaller, -, -, -, rfl⟩ := updateRoot_ok.mp hrun
    exact ⟨hcaller, rfl⟩
  case setRootStatus =>
    obtain ⟨hadmin, -, _, -, -, rfl⟩ := setRootStatus_ok.mp hrun
    exact ⟨hadmin, rfl⟩
  case emergencyPauseProtocol =>
    obtain ⟨hadmin, -, rfl⟩ := emergencyPauseProtocol_ok.mp hrun
    exact ⟨hadmin, rfl⟩
  case pauseProtocol | unpauseProtocol | resolveEmergency | beginUpgrade | completeUpgrade |
      deprecateProtocol =>
    obtain ⟨hauthorized, -, -, rfl⟩ := pinnedTransition_ok.mp hrun
    exact ⟨hauthorized, rfl⟩
  case updateVersions =>
    obtain ⟨hadmin, -, -, -, rfl⟩ := updateVersions_ok.mp hrun
    exact ⟨hadmin, rfl⟩
  case setVerifierVersions =>
    obtain ⟨hadmin, -, -, -, rfl⟩ := setVerifierVersions_ok.mp hrun
    exact ⟨hadmin, rfl⟩
  case updateProtocolLimits =>
    obtain ⟨hadmin, -, -, -, -, rfl⟩ := updateProtocolLimits_ok.mp hrun
    exact ⟨hadmin, rfl⟩
  case setMaxFeeBps =>
    obtain ⟨hadmin, -, -, rfl⟩ := setMaxFeeBps_ok.mp hrun
    exact ⟨hadmin, rfl⟩
  case recordShield =>
    obtain ⟨-, hcaller, -, -, -, -, rfl⟩ := recordShield_ok.mp hrun
    exact ⟨hcaller, rfl⟩
  case recordWithdrawal =>
    obtain ⟨-, hcaller, -, -, -, -, -, rfl⟩ := recordWithdrawal_ok.mp hrun
    exact ⟨hcaller, rfl⟩
  case recordTransfer =>
    obtain ⟨-, hcaller, -, rfl⟩ := recordTransfer_ok.mp hrun
    exact ⟨hcaller, rfl⟩
  case recordNoteCreated =>
    obtain ⟨-, hcaller, -, -, rfl⟩ := recordNoteCreated_ok.mp hrun
    exact ⟨hcaller, rfl⟩
  case grantRole =>
    obtain ⟨howner, -, -, -, -, rfl⟩ := grantRole_ok.mp hrun
    exact ⟨howner, rfl⟩
  case revokeRole =>
    obtain ⟨howner, -, -, rfl⟩ := revokeRole_ok.mp hrun
    exact ⟨howner, rfl⟩
  case addAuthorizedCaller =>
    obtain ⟨howner, -, -, rfl⟩ := addAuthorizedCaller_ok.mp hrun
    exact ⟨howner, rfl⟩
  case removeAuthorizedCaller =>
    obtain ⟨howner, -, rfl⟩ := removeAuthorizedCaller_ok.mp hrun
    exact ⟨howner, rfl⟩
  case transferOwnership =>
    obtain ⟨howner, -, -, rfl⟩ := transferOwnership_ok.mp hrun
    exact ⟨howner, rfl⟩
  case acceptOwnership =>
    obtain ⟨hpending, rfl⟩ := acceptOwnership_ok.mp hrun
    exact ⟨hpending, rfl⟩
  case cancelOwnershipTransfer =>
    obtain ⟨howner, -, rfl⟩ := cancelOwnershipTransfer_ok.mp hrun
    exact ⟨howner, rfl⟩

/-! ## The verifiers -/

namespace Verifier

variable {errorBase : Nat} {registry : PrivacyRegistry} {verifier verifier' : Verifier}

/-- What a function of either verifier asks of its caller. -/
def Asks (registry : PrivacyRegistry) (verifier : Verifier) (who : Principal) : Call → Prop
  | .verifyProof .. => False
  | .submitAggregation .. => verifier.isRelayer registry who
  | .setVerificationKeyStatus .. => isVerifierAdmin registry who ∨ isEmergencyAdmin registry who
  | .freezeVerification => isEmergencyAdmin registry who
  | .unfreezeVerification => isEmergencyAdmin registry who
  | _ => isVerifierAdmin registry who

theorem administer_configures {call : Call}
    (h : administer errorBase registry ctx call verifier = .ok (u, verifier')) :
    Asks registry verifier ctx.contractCaller call ∧
      verifier'.settings = verifier.settings.configure ctx.height call := by
  cases call with
  | verifyProof => simp only [administer, abort_ok] at h
  | setVerificationKeyStatus proofType circuitVersion enabled =>
      simp only [administer, setVerificationKeyStatus, ↓bind_ok, ↓exists_read, ↓exists_require,
        ↓exists_unwrap, ↓modify_ok] at h
      obtain ⟨vkey, hknown, hadmin, -, rfl⟩ := h
      refine ⟨hadmin, ?_⟩
      have hkey : verifier.settings.verificationKeys.lookup (proofType, circuitVersion) =
        some vkey := hknown
      simp only [VerifierSettings.configure, hkey]
      rfl
  | submitAggregation =>
      cases administer_performed h with
      | submitAggregation hrelayer => exact ⟨hrelayer, rfl⟩
  | setZkverifyContextHash =>
      cases administer_performed h with
      | setZkverifyContextHash hadmin => exact ⟨hadmin, rfl⟩
  | setZkverifyBinding =>
      cases administer_performed h with
      | setZkverifyBinding hadmin => exact ⟨hadmin, rfl⟩
  | addRelayer =>
      cases administer_performed h with
      | addRelayer hadmin => exact ⟨hadmin, rfl⟩
  | removeRelayer =>
      cases administer_performed h with
      | removeRelayer hadmin => exact ⟨hadmin, rfl⟩
  | registerVerificationKey =>
      cases administer_performed h with
      | registerVerificationKey hadmin => exact ⟨hadmin, rfl⟩
  | freezeVerification =>
      cases administer_performed h with
      | freezeVerification hadmin => exact ⟨hadmin, rfl⟩
  | unfreezeVerification =>
      cases administer_performed h with
      | unfreezeVerification hadmin => exact ⟨hadmin, rfl⟩

/-- Verification leaves the settings alone. -/
theorem verifyProof_keeps_settings {P : Primitives} {authorized : Prop} [Decidable authorized]
    {currentVersion proofType circuitVersion : Nat} {publicInputsHash leaf : Buff32}
    {inclusion : Inclusion}
    (h : verifyProof P errorBase authorized currentVersion ctx proofType circuitVersion
      publicInputsHash inclusion verifier = .ok (leaf, verifier')) :
    authorized ∧ verifier'.settings = verifier.settings := by
  have hauthorized : authorized := by
    unfold verifyProof at h
    simp only [↓bind_ok, ↓exists_read, ↓exists_require] at h
    exact h.2.1
  cases verifyProof_performed (.deployed .burnAddress) h with
  | verifyProof => exact ⟨hauthorized, rfl⟩

end Verifier

/-! ## asset-registry -/

theorem AssetRegistry.edit_of_lookup {assets : AssetRegistry} {id : Nat} {asset : Asset}
    (h : assets.assets.lookup id = some asset) (f : Asset → Asset) :
    assets.edit id f = { assets with assets := assets.assets.insert id (f asset) } := by
  unfold edit
  rw [h]

theorem AssetRegistry.administer_configures {call : AssetRegistry.Call}
    {assets' : AssetRegistry}
    (h : administer w.registry ctx call w.assetRegistry = .ok (u, assets')) :
    w.settings.Grants ctx.contractCaller call.power ∧
      assets' = w.assetRegistry.configure call := by
  cases call with
  | registerAsset args => simp only [administer, abort_ok] at h
  | setAssetEnabled assetId enabled =>
      simp only [administer, setAssetEnabled, ↓bind_ok, ↓exists_read, ↓exists_unwrap,
        ↓exists_require, modify_ok] at h
      obtain ⟨asset, hasset, hadmin, -, -, rfl⟩ := h
      exact ⟨hadmin, by rw [configure, edit_of_lookup hasset]⟩
  | deprecateAsset assetId =>
      simp only [administer, deprecateAsset, ↓bind_ok, ↓exists_read, ↓exists_unwrap,
        ↓exists_require, modify_ok] at h
      obtain ⟨asset, hasset, hadmin, -, rfl⟩ := h
      exact ⟨hadmin, by rw [configure, edit_of_lookup hasset]⟩
  | setAssetLimits assetId minShield maxShield minNote maxNote =>
      simp only [administer, setAssetLimits, ↓bind_ok, ↓exists_read, ↓exists_unwrap,
        ↓exists_require, modify_ok] at h
      obtain ⟨asset, hasset, hadmin, -, -, rfl⟩ := h
      exact ⟨hadmin, by rw [configure, edit_of_lookup hasset]⟩
  | setAssetFeeConfig assetId feeType bps flat enabled =>
      simp only [administer, setAssetFeeConfig, ↓bind_ok, ↓exists_read, ↓exists_unwrap,
        ↓exists_require, modify_ok] at h
      obtain ⟨_, -, hadmin, -, -, -, -, rfl⟩ := h
      exact ⟨hadmin, rfl⟩
  | setAssetFeeRecipient assetId feeRecipient =>
      simp only [administer, setAssetFeeRecipient, ↓bind_ok, ↓exists_read, ↓exists_unwrap,
        ↓exists_require, modify_ok] at h
      obtain ⟨asset, hasset, hadmin, -, -, rfl⟩ := h
      exact ⟨hadmin, by rw [configure, edit_of_lookup hasset]⟩

/-! ## What operations leave alone -/

/-- The settings, and the calls that were accepted. -/
def World.governed (w : World) : Settings × List Accepted := (w.settings, accepted w.history)

section Governed

@[simp]
theorem keeps_governed_onRegistry {m : Exec PrivacyRegistry α}
    (h : Keeps PrivacyRegistry.settings m) : Keeps governed (onRegistry m) :=
  keeps_zoom_of_keeps h fun storage w heq => by simp only [governed, World.settings, heq]

@[simp]
theorem keeps_governed_onNoteManager (m : Exec NoteManager α) :
    Keeps governed (onNoteManager m) :=
  keeps_zoom fun _ _ => rfl

@[simp]
theorem keeps_governed_onProtocolFees {m : Exec ProtocolFees α}
    (h : Keeps (fun fees => (fees.feeConfigs, fees.feesFrozen, fees.treasuryFrozen)) m) :
    Keeps governed (onProtocolFees m) :=
  keeps_zoom_of_keeps h fun fees w heq => by simp_all only [governed, World.settings, Prod.mk.injEq]

@[simp]
theorem keeps_governed_onSip10ProtocolFees {m : Exec Sip10ProtocolFees α}
    (h : Keeps (fun fees => (fees.feesFrozen, fees.treasuryFrozen)) m) :
    Keeps governed (onSip10ProtocolFees m) :=
  keeps_zoom_of_keeps h fun fees w heq => by simp_all only [governed, World.settings, Prod.mk.injEq]

@[simp]
theorem keeps_governed_onSip10Pool {m : Exec Sip10Pool α}
    (h : Keeps Sip10Pool.operationSwitches m) : Keeps governed (onSip10Pool m) :=
  keeps_zoom_of_keeps h fun pool w heq => by simp only [governed, World.settings, heq]

@[simp]
theorem keeps_governed_verified (verifier : Principal) (proofType : Nat) (inputsHash : Buff32) :
    Keeps governed (record (.proofVerified verifier proofType inputsHash)) :=
  keeps_modify fun _ => rfl

@[simp]
theorem keeps_governed_completed (op : Operation) (circuitVersion : Nat) :
    Keeps governed (record (.completed op circuitVersion)) :=
  keeps_modify fun _ => rfl

@[simp]
theorem keeps_governed_stxTransfer (amount : Nat) (sender recipient : Principal) :
    Keeps governed (stxTransfer ctx amount sender recipient) := by
  intro w u w' h
  obtain ⟨-, -, -, -, rfl⟩ := stxTransfer_ok.mp h
  rfl

/-! ### Notes, commitments and roots -/

theorem registerNullifier_keeps_settings (nullifier : Buff32) :
    Keeps PrivacyRegistry.settings (PrivacyRegistry.registerNullifier ctx nullifier) := by
  intro registry u registry' h
  obtain ⟨-, -, -, -, -, -, -, rfl⟩ := PrivacyRegistry.registerNullifier_ok.mp h
  rfl

theorem registerCommitment_keeps_settings (commitment : Buff32) (version : Nat) :
    Keeps PrivacyRegistry.settings
      (PrivacyRegistry.registerCommitment ctx commitment version) := by
  intro registry index registry' h
  obtain ⟨-, -, -, -, -, -, -, -, rfl⟩ := PrivacyRegistry.registerCommitment_ok.mp h
  rfl

theorem updateRoot_keeps_settings (newRoot : Buff32) (version : Nat) :
    Keeps PrivacyRegistry.settings (PrivacyRegistry.updateRoot ctx newRoot version) := by
  intro registry u registry' h
  obtain ⟨-, -, -, -, -, rfl⟩ := PrivacyRegistry.updateRoot_ok.mp h
  rfl

theorem recordShield_keeps_settings (amount : Nat) :
    Keeps PrivacyRegistry.settings (PrivacyRegistry.recordShield ctx amount) := by
  intro registry u registry' h
  obtain ⟨-, -, -, -, -, -, rfl⟩ := PrivacyRegistry.recordShield_ok.mp h
  rfl

theorem recordWithdrawal_keeps_settings (amount : Nat) :
    Keeps PrivacyRegistry.settings (PrivacyRegistry.recordWithdrawal ctx amount) := by
  intro registry u registry' h
  obtain ⟨-, -, -, -, -, -, -, rfl⟩ := PrivacyRegistry.recordWithdrawal_ok.mp h
  rfl

theorem recordTransfer_keeps_settings :
    Keeps PrivacyRegistry.settings (PrivacyRegistry.recordTransfer ctx) := by
  intro registry u registry' h
  obtain ⟨-, -, -, rfl⟩ := PrivacyRegistry.recordTransfer_ok.mp h
  rfl

theorem recordNoteCreated_keeps_settings :
    Keeps PrivacyRegistry.settings (PrivacyRegistry.recordNoteCreated ctx) := by
  intro registry u registry' h
  obtain ⟨-, -, -, -, rfl⟩ := PrivacyRegistry.recordNoteCreated_ok.mp h
  rfl

attribute [simp] registerNullifier_keeps_settings registerCommitment_keeps_settings
  updateRoot_keeps_settings recordShield_keeps_settings recordWithdrawal_keeps_settings
  recordTransfer_keeps_settings recordNoteCreated_keeps_settings

@[simp]
theorem registerNullifier_keeps_governed (nullifier : Buff32) :
    Keeps governed (PoolCalls.registerNullifier ctx nullifier) := by
  simp [PoolCalls.registerNullifier]

@[simp]
theorem registerCommitment_keeps_governed (commitment : Buff32) :
    Keeps governed (PoolCalls.registerCommitment ctx commitment) := by
  simp [PoolCalls.registerCommitment]

@[simp]
theorem updateRoot_keeps_governed (newRoot : Buff32) :
    Keeps governed (PoolCalls.updateRoot ctx newRoot) := by
  simp [PoolCalls.updateRoot]

@[simp]
theorem checkCurrentRoot_keeps_governed (declared : Buff32) (stale unknown : Nat) :
    Keeps governed (PoolCalls.checkCurrentRoot declared stale unknown) := by
  simp [PoolCalls.checkCurrentRoot]

@[simp]
theorem manager_registerNote_keeps_governed (noteId ownerCommitment metadata : Buff32)
    (version : Nat) :
    Keeps governed (NoteManager.registerNote ctx noteId ownerCommitment metadata version) := by
  unfold NoteManager.registerNote
  repeat first
    | refine keeps_bind ?_ fun _ => ?_
    | simp

@[simp]
theorem registerNote_keeps_governed (noteId ownerCommitment metadata : Buff32) :
    Keeps governed (PoolCalls.registerNote ctx noteId ownerCommitment metadata) := by
  simp [PoolCalls.registerNote]

/-! ### Proofs and fees -/

variable {P : Primitives} {inclusion : Inclusion}

@[simp]
theorem verifyProof_keeps_governed (proofType version : Nat) (inputsHash : Buff32) :
    Keeps governed (ZkVerifier.verifyProof P ctx proofType version inputsHash inclusion) := by
  refine keeps_bind (by simp) fun _ => keeps_bind keeps_read fun w => keeps_bind ?_ fun leaf =>
    keeps_bind (by simp) fun _ => keeps_pure _
  refine keeps_zoom_of_keeps (g := Verifier.settings) ?_ fun storage w heq => ?_
  · exact fun verifier _ _ h => (Verifier.verifyProof_keeps_settings h).2
  · simp only [governed, World.settings, heq]

@[simp]
theorem sip10_verifyProof_keeps_governed (proofType version : Nat) (inputsHash : Buff32) :
    Keeps governed (Sip10ZkVerifier.verifyProof P ctx proofType version inputsHash inclusion) := by
  refine keeps_bind (by simp) fun _ => keeps_bind keeps_read fun w => keeps_bind ?_ fun leaf =>
    keeps_bind (by simp) fun _ => keeps_pure _
  intro w leaf w' h
  obtain ⟨storage, hrun, rfl⟩ := onSip10ZkVerifier_ok.mp h
  obtain ⟨verifier, hverifier, rfl⟩ := zoom_ok.mp hrun
  simp only [governed, World.settings, (Verifier.verifyProof_keeps_settings hverifier).2]

@[simp]
theorem collectFee_keeps_governed (feeType amount : Nat) :
    Keeps governed (ProtocolFees.collectFee ctx feeType amount) := by
  unfold ProtocolFees.collectFee
  repeat first
    | with_reducible refine keeps_bind ?_ fun _ => ?_
    | simp

@[simp]
theorem payFee_keeps_governed (feeType fee : Nat) :
    Keeps governed (ProtocolFees.payFee ctx feeType fee) := by
  simp [ProtocolFees.payFee]

/-- A payout of the treasury, by the owner. -/
theorem ProtocolFees.withdrawFees_configures {amount : Nat} {recipient : Principal}
    (h : withdrawFees ctx amount recipient w = .ok (u, w')) :
    ctx.contractCaller = w.registry.owner ∧ w'.governed = w.governed := by
  simp only [withdrawFees, ↓bind_ok, ↓exists_read, ↓exists_require, ↓orError_ok, ↓exists_addUint,
    ↓exists_subUint, onProtocolFees_ok, modify_ok] at h
  obtain ⟨howner, -, -, -, -, _, mid, htransfer, -, -, _, rfl, rfl⟩ := h
  obtain ⟨-, -, -, -, rfl⟩ := stxTransfer_ok.mp htransfer
  exact ⟨howner, rfl⟩

/-! ### STX operations -/

theorem shield_keeps_governed (args : ShieldArgs) :
    Keeps governed (PrivacyPool.shield P ctx args inclusion) := by
  unfold PrivacyPool.shield
  repeat first
    | with_reducible refine keeps_bind ?_ fun _ => ?_
    | simp

theorem transfer_keeps_governed (args : TransferArgs) :
    Keeps governed (PrivacyPool.transfer P ctx args inclusion) := by
  unfold PrivacyPool.transfer
  repeat first
    | with_reducible refine keeps_bind ?_ fun _ => ?_
    | simp

theorem withdraw_keeps_governed (args : WithdrawArgs) :
    Keeps governed (PrivacyPool.withdraw P ctx args inclusion) := by
  unfold PrivacyPool.withdraw
  repeat first
    | with_reducible refine keeps_bind ?_ fun _ => ?_
    | simp

theorem splitNote_keeps_governed (args : SplitArgs) :
    Keeps governed (SplitMergeManager.splitNote P ctx args inclusion) := by
  unfold SplitMergeManager.splitNote
  repeat first
    | with_reducible refine keeps_bind ?_ fun _ => ?_
    | simp

theorem mergeNotes_keeps_governed (args : MergeArgs) :
    Keeps governed (SplitMergeManager.mergeNotes P ctx args inclusion) := by
  unfold SplitMergeManager.mergeNotes
  repeat first
    | with_reducible refine keeps_bind ?_ fun _ => ?_
    | simp

end Governed

/-! ## Calls that run no token code -/

variable {P : Primitives}

/-- The call was allowed, and configured what the machine says, at once. -/
structure Serves (ctx : Ctx) (call : Call) (w w' : World) : Prop where
  grants : w.settings.Grants ctx.contractCaller call.power
  settings : w'.settings = w.settings.configure ctx call
  accepted : accepted w'.history = accepted w.history

theorem Serves.of_governed {call : Call} (hgrants : w.settings.Grants ctx.contractCaller call.power)
    (hidle : w.settings.configure ctx call = w.settings) (h : w'.governed = w.governed) :
    Serves ctx call w w' := by
  obtain ⟨hsettings, haccepted⟩ := Prod.mk.inj h
  exact ⟨hgrants, hsettings.trans hidle.symm, haccepted⟩

theorem PrivacyRegistry.execute_serves {call : PrivacyRegistry.Call} {data : Option Nat}
    (h : onRegistry (execute ctx call) w = .ok (data, w')) :
    Serves ctx (.privacyRegistry call) w w' := by
  obtain ⟨registry, hrun, rfl⟩ := onRegistry_ok.mp h
  obtain ⟨hgrants, hsettings⟩ := execute_configures hrun
  refine ⟨hgrants, ?_, rfl⟩
  simp only [World.settings, Settings.configure, hsettings]

theorem NoteManager.execute_serves {call : NoteManager.Call}
    (h : execute ctx call w = .ok (u, w')) : Serves ctx (.noteManager call) w w' := by
  simp only [execute, ↓bind_ok, ↓exists_read] at h
  cases call with
  | registerNote noteId ownerCommitment metadata version =>
      refine .of_governed ?_ rfl (manager_registerNote_keeps_governed _ _ _ _ _ _ _ h)
      simp only [registerNote, ↓bind_ok, ↓exists_read, ↓exists_onRegistry,
        ↓PrivacyRegistry.exists_checkActive, ↓exists_require] at h
      exact h.2.1
  | spendNote noteId =>
      simp only [spendNote, ↓bind_ok, ↓exists_read, ↓exists_onRegistry,
        ↓PrivacyRegistry.exists_checkActive, onNoteManager_ok] at h
      obtain ⟨-, manager, hrun, rfl⟩ := h
      simp only [consumeNote, ↓bind_ok, ↓exists_read, ↓exists_require] at hrun
      exact .of_governed hrun.1 rfl rfl
  | withdrawNote noteId =>
      simp only [withdrawNote, ↓bind_ok, ↓exists_read, ↓exists_onRegistry,
        ↓PrivacyRegistry.exists_checkActive, onNoteManager_ok] at h
      obtain ⟨-, manager, hrun, rfl⟩ := h
      simp only [consumeNote, ↓bind_ok, ↓exists_read, ↓exists_require] at hrun
      exact .of_governed hrun.1 rfl rfl
  | freezeNote noteId =>
      obtain ⟨manager, hrun, rfl⟩ := onNoteManager_ok.mp h
      simp only [freezeNote, administerNote, ↓bind_ok, ↓exists_read, ↓exists_require] at hrun
      exact .of_governed hrun.1 rfl rfl
  | reactivateNote noteId =>
      obtain ⟨manager, hrun, rfl⟩ := onNoteManager_ok.mp h
      simp only [reactivateNote, administerNote, ↓bind_ok, ↓exists_read, ↓exists_require] at hrun
      exact .of_governed hrun.1 rfl rfl
  | deprecateNote noteId =>
      obtain ⟨manager, hrun, rfl⟩ := onNoteManager_ok.mp h
      simp only [deprecateNote, administerNote, ↓bind_ok, ↓exists_read, ↓exists_require] at hrun
      exact .of_governed hrun.1 rfl rfl

/-- An administrative function of `zk-verifier` needs what the machine says. -/
theorem Verifier.Asks.grants {call : Verifier.Call} {who : Principal} {presents : Power}
    (h : Verifier.Asks w.registry w.zkVerifier who call) :
    w.settings.Grants who (call.power presents .relayer) := by
  cases call with
  | verifyProof => exact h.elim
  | _ => exact h

theorem Verifier.Asks.sip10_grants {call : Verifier.Call} {who : Principal} {presents : Power}
    (h : Verifier.Asks w.registry w.sip10ZkVerifier.verifier who call) :
    w.settings.Grants who (call.power presents .sip10Relayer) := by
  cases call with
  | verifyProof => exact h.elim
  | _ => exact h

theorem ZkVerifier.execute_serves {call : Verifier.Call}
    (h : execute P ctx call w = .ok (u, w')) : Serves ctx (.zkVerifier call) w w' := by
  have hadminister {u : Unit}
      (h : onZkVerifier (Verifier.administer errorBase w.registry ctx call) w = .ok (u, w')) :
      Serves ctx (.zkVerifier call) w w' := by
    obtain ⟨storage, hrun, rfl⟩ := onZkVerifier_ok.mp h
    obtain ⟨hasks, hsettings⟩ := Verifier.administer_configures hrun
    refine ⟨hasks.grants, ?_, rfl⟩
    simp only [World.settings, Settings.configure, hsettings]
  cases call with
  | verifyProof proofType circuitVersion publicInputsHash inclusion =>
      simp only [execute, bind_ok, pure_ok] at h
      obtain ⟨leaf, _, hrun, -, rfl⟩ := h
      refine .of_governed ?_ rfl (verifyProof_keeps_governed _ _ _ _ _ _ hrun)
      simp only [verifyProof, ↓bind_ok, ↓exists_onRegistry, ↓PrivacyRegistry.exists_checkActive,
        ↓exists_read, onZkVerifier_ok] at hrun
      obtain ⟨-, _, _, ⟨_, hverified, -⟩, -⟩ := hrun
      exact (Verifier.verifyProof_keeps_settings hverified).1
  | _ =>
      simp only [execute, ↓bind_ok, ↓exists_read] at h
      exact hadminister h

theorem Sip10ZkVerifier.execute_serves {call : Sip10Verifier.Call}
    (h : execute P ctx call w = .ok (u, w')) : Serves ctx (.sip10ZkVerifier call) w w' := by
  cases call with
  | setCircuitVersion newVersion =>
      simp only [execute, setCircuitVersion, ↓bind_ok, ↓exists_read, ↓exists_require,
        onSip10ZkVerifier_ok, modify_ok] at h
      obtain ⟨_, ⟨hadmin, -, rfl⟩, rfl⟩ := h
      exact ⟨hadmin, rfl, rfl⟩
  | setAuthorizedPool pool =>
      simp only [execute, setAuthorizedPool, ↓bind_ok, ↓exists_read, ↓exists_require,
        onSip10ZkVerifier_ok, modify_ok] at h
      obtain ⟨_, ⟨howner, -, rfl⟩, rfl⟩ := h
      exact ⟨howner, rfl, rfl⟩
  | common call =>
      have hadminister {u : Unit}
          (h : onSip10ZkVerifier (zoom Sip10Verifier.verifier
            (fun verifier storage => { storage with verifier := verifier })
            (Verifier.administer errorBase w.registry ctx call)) w = .ok (u, w')) :
          Serves ctx (.sip10ZkVerifier (.common call)) w w' := by
        obtain ⟨_, hrun, rfl⟩ := onSip10ZkVerifier_ok.mp h
        obtain ⟨storage, hstored, rfl⟩ := zoom_ok.mp hrun
        obtain ⟨hasks, hsettings⟩ := Verifier.administer_configures hstored
        refine ⟨hasks.sip10_grants, ?_, rfl⟩
        simp only [World.settings, Settings.configure, hsettings]
      cases call with
      | verifyProof proofType circuitVersion publicInputsHash inclusion =>
          simp only [execute, bind_ok, pure_ok] at h
          obtain ⟨leaf, _, hrun, -, rfl⟩ := h
          refine .of_governed ?_ rfl (sip10_verifyProof_keeps_governed _ _ _ _ _ _ hrun)
          simp only [verifyProof, ↓bind_ok, ↓exists_onRegistry,
            ↓PrivacyRegistry.exists_checkActive, ↓exists_read, onSip10ZkVerifier_ok] at hrun
          obtain ⟨-, _, _, ⟨_, hzoomed, -⟩, -⟩ := hrun
          obtain ⟨_, hverified, -⟩ := zoom_ok.mp hzoomed
          exact (Verifier.verifyProof_keeps_settings hverified).1
      | _ =>
          simp only [execute, ↓bind_ok, ↓exists_read] at h
          exact hadminister h

theorem ProtocolFees.execute_serves {call : ProtocolFees.Call}
    (h : execute ctx call w = .ok (u, w')) : Serves ctx (.protocolFees call) w w' := by
  simp only [execute, ↓bind_ok, ↓exists_read] at h
  cases call with
  | setFee feeType bps flat enabled =>
      simp only [onProtocolFees_ok, setFee, ↓bind_ok, ↓exists_require, modify_ok] at h
      obtain ⟨_, ⟨hadmin, -, -, -, rfl⟩, rfl⟩ := h
      exact ⟨hadmin, rfl, rfl⟩
  | collectFee feeType amount =>
      simp only [bind_ok, pure_ok] at h
      obtain ⟨_, _, hrun, -, rfl⟩ := h
      refine .of_governed ?_ rfl (collectFee_keeps_governed _ _ _ _ _ hrun)
      simp only [collectFee, ↓bind_ok, ↓exists_read, ↓exists_onRegistry,
        ↓PrivacyRegistry.exists_checkActive, ↓exists_require] at hrun
      exact hrun.2.2.1
  | withdrawFees amount recipient =>
      obtain ⟨howner, hgoverned⟩ := withdrawFees_configures h
      exact .of_governed howner rfl hgoverned
  | freezeFees | unfreezeFees =>
      simp only [onProtocolFees_ok, setFeesFrozen, ↓bind_ok, ↓exists_read, ↓exists_require,
        modify_ok] at h
      obtain ⟨_, ⟨hadmin, -, rfl⟩, rfl⟩ := h
      exact ⟨hadmin, rfl, rfl⟩
  | freezeTreasury | unfreezeTreasury =>
      simp only [onProtocolFees_ok, setTreasuryFrozen, ↓bind_ok, ↓exists_read, ↓exists_require,
        modify_ok] at h
      obtain ⟨_, ⟨hadmin, -, rfl⟩, rfl⟩ := h
      exact ⟨hadmin, rfl, rfl⟩

theorem PrivacyPool.execute_serves {call : PrivacyPool.Call} {data : Option Nat}
    (h : execute P ctx call w = .ok (data, w')) : Serves ctx (.privacyPool call) w w' := by
  simp only [execute, ↓bind_ok, ↓exists_read] at h
  cases call with
  | shield args inclusion =>
      simp only [bind_ok, pure_ok] at h
      obtain ⟨_, _, hrun, -, rfl⟩ := h
      exact .of_governed trivial rfl (shield_keeps_governed _ _ _ _ hrun)
  | transfer args inclusion =>
      simp only [bind_ok, pure_ok] at h
      obtain ⟨_, _, hrun, -, rfl⟩ := h
      exact .of_governed trivial rfl (transfer_keeps_governed _ _ _ _ hrun)
  | withdraw args inclusion =>
      simp only [bind_ok, pure_ok] at h
      obtain ⟨_, _, hrun, -, rfl⟩ := h
      exact .of_governed trivial rfl (withdraw_keeps_governed _ _ _ _ hrun)
  | setShieldEnabled enabled | setTransferEnabled enabled | setWithdrawEnabled enabled =>
      simp only [setShieldEnabled, setTransferEnabled, setWithdrawEnabled, setSwitch, ↓bind_ok,
        ↓exists_read, ↓exists_require, onPrivacyPool_ok, modify_ok, pure_ok] at h
      obtain ⟨_, _, ⟨_, ⟨hadmin, -, rfl⟩, rfl⟩, -, rfl⟩ := h
      exact ⟨hadmin, rfl, rfl⟩

theorem SplitMergeManager.execute_serves {call : SplitMergeManager.Call} {data : List Nat}
    (h : execute P ctx call w = .ok (data, w')) : Serves ctx (.splitMergeManager call) w w' := by
  simp only [execute, ↓bind_ok, ↓exists_read] at h
  cases call with
  | splitNote args inclusion =>
      simp only [bind_ok, pure_ok] at h
      obtain ⟨_, _, hrun, -, rfl⟩ := h
      exact .of_governed trivial rfl (splitNote_keeps_governed _ _ _ _ hrun)
  | mergeNotes args inclusion =>
      simp only [bind_ok, pure_ok] at h
      obtain ⟨_, _, hrun, -, rfl⟩ := h
      exact .of_governed trivial rfl (mergeNotes_keeps_governed _ _ _ _ hrun)
  | setSplitEnabled enabled | setMergeEnabled enabled =>
      simp only [setSplitEnabled, setMergeEnabled, setSwitch, ↓bind_ok, ↓exists_read,
        ↓exists_require, onSplitMergeManager_ok, modify_ok, pure_ok] at h
      obtain ⟨_, _, ⟨_, ⟨hadmin, -, rfl⟩, rfl⟩, -, rfl⟩ := h
      exact ⟨hadmin, rfl, rfl⟩

theorem AssetRegistry.administer_serves {call : AssetRegistry.Call}
    (h : onAssetRegistry (administer w.registry ctx call) w = .ok (u, w')) :
    Serves ctx (.assetRegistry call) w w' := by
  obtain ⟨assets, hrun, rfl⟩ := onAssetRegistry_ok.mp h
  obtain ⟨hgrants, rfl⟩ := administer_configures hrun
  exact ⟨hgrants, rfl, rfl⟩

theorem Sip10Pool.setOperationEnabled_serves {op : Nat} {enabled : Bool}
    (h : onSip10Pool (setOperationEnabled w.registry ctx op enabled) w = .ok (u, w')) :
    Serves ctx (.sip10Pool (.setOperationEnabled op enabled)) w w' := by
  simp only [setOperationEnabled, ↓bind_ok, ↓exists_read, ↓exists_require, onSip10Pool_ok,
    modify_ok] at h
  obtain ⟨_, ⟨hadmin, -, -, rfl⟩, rfl⟩ := h
  exact ⟨hadmin, rfl, rfl⟩

end StxShield
