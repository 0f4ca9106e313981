import StxShield.Effects.HonestTokens
import StxShield.Protocol.Bookkeeping

/-!
# What a paused protocol still does

Everything a pause is to stop is gathered in one record, contract by contract.
Administration leaves it alone, and whatever else a contract does begins with
the activity check.
-/

namespace StxShield

open Library Exec World

/-! ## What stands still -/

/-- The registrations and statistics of the registry.  A root may still be
activated or deactivated. -/
structure RegistryStanding where
  commitments : DataMap Buff32 CommitmentRecord
  nullifiers : DataMap Buff32 NullifierRecord
  statistics : ProtocolStatistics
  roots : Set Buff32
  currentRoot : CurrentRoot

def PrivacyRegistry.standing (registry : PrivacyRegistry) : RegistryStanding where
  commitments := registry.commitments
  nullifiers := registry.nullifiers
  statistics := registry.protocolStatistics
  roots := { root | root ∈ registry.merkleRoots }
  currentRoot := registry.currentRoot

/-- Which notes are registered, spent and withdrawn. -/
structure NoteStanding where
  registered : Set Buff32
  spent : Set Buff32
  withdrawn : Set Buff32

/-- The notes in a given state. -/
def NoteManager.inState (manager : NoteManager) (state : NoteState) : Set Buff32 :=
  { id | ∃ record, manager.notes.lookup id = some record ∧ record.state = state }

def NoteManager.standing (manager : NoteManager) : NoteStanding where
  registered := { id | id ∈ manager.notes }
  spent := manager.inState .spent
  withdrawn := manager.inState .withdrawn

structure VerifierStanding where
  verifiedProofs : DataMap Buff32 VerifiedProof
  verificationStats : VerificationStats

def Verifier.standing (verifier : Verifier) : VerifierStanding where
  verifiedProofs := verifier.verifiedProofs
  verificationStats := verifier.verificationStats

/-- What has been collected of one asset, and of it by fee type. -/
def Sip10ProtocolFees.collected (fees : Sip10ProtocolFees) : (Nat → Nat) × DataMap (Nat × Nat) Nat :=
  (fun assetId => (fees.getAssetTreasury assetId).totalCollected, fees.assetFeeStats)

def ProtocolFees.collected (fees : ProtocolFees) : Nat × DataMap Nat Nat :=
  (fees.treasury.totalCollected, fees.feeTypeStats)

/-- Everything a pause is to stop. -/
structure Standing where
  registry : RegistryStanding
  notes : NoteStanding
  zkVerifier : VerifierStanding
  sip10ZkVerifier : VerifierStanding
  fees : Nat × DataMap Nat Nat
  sip10Fees : (Nat → Nat) × DataMap (Nat × Nat) Nat
  shieldedTotal : DataMap Nat Nat

def World.standing (w : World) : Standing where
  registry := w.registry.standing
  notes := w.noteManager.standing
  zkVerifier := w.zkVerifier.standing
  sip10ZkVerifier := w.sip10ZkVerifier.verifier.standing
  fees := w.protocolFees.collected
  sip10Fees := w.sip10ProtocolFees.collected
  shieldedTotal := w.sip10Pool.shieldedTotal

/-- The two contracts that hold users' funds. -/
def Principal.isPool : Principal → Bool
  | .privacyPool => true
  | .sip10Pool => true
  | _ => false

theorem Principal.isProtocol_of_isPool {who : Principal} (h : who.isPool) :
    who.isProtocol = true := by
  cases who <;> first
    | rfl
    | cases h

/-- What stands still did, and no pool has less of anything. -/
structure Held (w w' : World) : Prop where
  standing : w'.standing = w.standing
  stx : ∀ pool, pool.isPool → w.stx pool ≤ w'.stx pool
  tokens : ∀ token pool, pool.isPool →
    (w.tokens token).balances pool ≤ (w'.tokens token).balances pool

theorem Held.refl (w : World) : Held w w :=
  ⟨rfl, fun _ _ => Nat.le_refl _, fun _ _ _ => Nat.le_refl _⟩

theorem Held.trans {u v w : World} (huv : Held u v) (hvw : Held v w) : Held u w where
  standing := hvw.standing.trans huv.standing
  stx pool hpool := (huv.stx pool hpool).trans (hvw.stx pool hpool)
  tokens token pool hpool := (huv.tokens token pool hpool).trans (hvw.tokens token pool hpool)

variable {w w' : World} {ctx : Ctx} {α : Type} {a : α} {u : Unit}

/-- No ledger was touched. -/
theorem held_of_standing (hstanding : w'.standing = w.standing) (hstx : w'.stx = w.stx)
    (htokens : w'.tokens = w.tokens) : Held w w' :=
  ⟨hstanding, fun _ _ => by rw [hstx], fun _ _ _ => by rw [htokens]⟩

/-! ## The activity check -/

/-- It succeeds only while the protocol is active. -/
def RequiresActive (m : Exec World α) : Prop :=
  ∀ w a w', m w = .ok (a, w') → w.registry.protocolState = .active

namespace RequiresActive

variable {β : Type} {m : Exec World α}

theorem checkActive : RequiresActive (onRegistry PrivacyRegistry.checkActive) := by
  intro w a w' h
  obtain ⟨_, hrun, -⟩ := onRegistry_ok.mp h
  exact (PrivacyRegistry.checkActive_ok.mp hrun).1

theorem bind (h : RequiresActive m) (next : α → Exec World β) : RequiresActive (m >>= next) := by
  intro w b w' hrun
  obtain ⟨_, _, hfirst, -⟩ := bind_ok.mp hrun
  exact h w _ _ hfirst

theorem read {next : World → Exec World β} (h : ∀ w, RequiresActive (next w)) :
    RequiresActive (Exec.read >>= next) := by
  intro w b w' hrun
  simp only [↓bind_ok, ↓exists_read] at hrun
  exact h w w _ _ hrun

theorem unwrap {value : Option α} {code : Nat} {next : α → Exec World β}
    (h : ∀ v, RequiresActive (next v)) : RequiresActive (Exec.unwrap value code >>= next) := by
  intro w b w' hrun
  simp only [↓bind_ok, ↓exists_unwrap] at hrun
  obtain ⟨v, -, hrest⟩ := hrun
  exact h v w _ _ hrest

/-- While the protocol is not active it does not succeed. -/
theorem held (h : RequiresActive m) (hpaused : w.registry.protocolState ≠ .active)
    (hrun : m w = .ok (a, w')) : Held w w' :=
  absurd (h w a w' hrun) hpaused

end RequiresActive

section Protected

variable (P : Primitives) (tokens : TokenCode) (ctx : Ctx) (inclusion : Inclusion)
  (token : Principal)

theorem PrivacyPool.shield_active (args : ShieldArgs) :
    RequiresActive (PrivacyPool.shield P ctx args inclusion) :=
  .read fun _ => RequiresActive.checkActive.bind _

theorem PrivacyPool.transfer_active (args : TransferArgs) :
    RequiresActive (PrivacyPool.transfer P ctx args inclusion) :=
  .read fun _ => RequiresActive.checkActive.bind _

theorem PrivacyPool.withdraw_active (args : WithdrawArgs) :
    RequiresActive (PrivacyPool.withdraw P ctx args inclusion) :=
  .read fun _ => RequiresActive.checkActive.bind _

theorem SplitMergeManager.splitNote_active (args : SplitArgs) :
    RequiresActive (SplitMergeManager.splitNote P ctx args inclusion) :=
  .read fun _ => RequiresActive.checkActive.bind _

theorem SplitMergeManager.mergeNotes_active (args : MergeArgs) :
    RequiresActive (SplitMergeManager.mergeNotes P ctx args inclusion) :=
  .read fun _ => RequiresActive.checkActive.bind _

theorem Sip10Pool.checkSpendable_active (op : Nat) :
    RequiresActive (Sip10Pool.checkSpendable token op) :=
  .read fun _ => .unwrap fun _ => RequiresActive.checkActive.bind _

theorem Sip10Pool.shield_active (args : ShieldArgs) :
    RequiresActive (Sip10Pool.shield P tokens ctx token args inclusion) :=
  .read fun _ => .unwrap fun _ => RequiresActive.checkActive.bind _

theorem Sip10Pool.transfer_active (args : TransferArgs) :
    RequiresActive (Sip10Pool.transfer P tokens ctx token args inclusion) :=
  (checkSpendable_active token _).bind _

theorem Sip10Pool.split_active (args : SplitArgs) :
    RequiresActive (Sip10Pool.split P tokens ctx token args inclusion) :=
  (checkSpendable_active token _).bind _

theorem Sip10Pool.mergeNotes_active (args : MergeArgs) :
    RequiresActive (Sip10Pool.mergeNotes P tokens ctx token args inclusion) :=
  (checkSpendable_active token _).bind _

theorem Sip10Pool.withdraw_active (args : WithdrawArgs) :
    RequiresActive (Sip10Pool.withdraw P tokens ctx token args inclusion) :=
  .read fun _ => (checkSpendable_active token _).bind _

theorem ZkVerifier.verifyProof_active (proofType version : Nat) (inputsHash : Buff32) :
    RequiresActive (ZkVerifier.verifyProof P ctx proofType version inputsHash inclusion) :=
  RequiresActive.checkActive.bind _

theorem Sip10ZkVerifier.verifyProof_active (proofType version : Nat) (inputsHash : Buff32) :
    RequiresActive (Sip10ZkVerifier.verifyProof P ctx proofType version inputsHash inclusion) :=
  RequiresActive.checkActive.bind _

theorem ProtocolFees.collectFee_active (feeType amount : Nat) :
    RequiresActive (ProtocolFees.collectFee ctx feeType amount) :=
  .read fun _ => RequiresActive.checkActive.bind _

theorem Sip10ProtocolFees.collectFee_active (assetId feeType amount : Nat) :
    RequiresActive (Sip10ProtocolFees.collectFee tokens ctx assetId feeType amount token) :=
  .read fun _ => .unwrap fun _ => RequiresActive.checkActive.bind _

theorem NoteManager.registerNote_active (noteId ownerCommitment metadata : Buff32)
    (version : Nat) :
    RequiresActive (NoteManager.registerNote ctx noteId ownerCommitment metadata version) :=
  .read fun _ => RequiresActive.checkActive.bind _

theorem NoteManager.spendNote_active (noteId : Buff32) :
    RequiresActive (NoteManager.spendNote ctx noteId) :=
  RequiresActive.checkActive.bind _

theorem NoteManager.withdrawNote_active (noteId : Buff32) :
    RequiresActive (NoteManager.withdrawNote ctx noteId) :=
  RequiresActive.checkActive.bind _

end Protected

/-! ## Contract by contract -/

theorem PrivacyRegistry.Performed.standing {call : PrivacyRegistry.Call} {data : Option Nat}
    {registry : PrivacyRegistry} (hpaused : w.registry.protocolState ≠ .active)
    (h : Performed ctx w.registry call data registry) :
    registry.standing = w.registry.standing := by
  cases h with
  | registerCommitment hactive => exact absurd hactive hpaused
  | registerNullifier hactive => exact absurd hactive hpaused
  | updateRoot hactive => exact absurd hactive hpaused
  | recordShield hactive => exact absurd hactive hpaused
  | recordWithdrawal hactive => exact absurd hactive hpaused
  | recordTransfer hactive => exact absurd hactive hpaused
  | recordNoteCreated hactive => exact absurd hactive hpaused
  | @setRootStatus root active info _ _ hinfo _ =>
      have hmem : root ∈ w.registry.merkleRoots := DataMap.mem_iff_lookup.mpr ⟨info, hinfo⟩
      have hroots : { other | other ∈ w.registry.merkleRoots.insert root
          { info with active := active } } = { other | other ∈ w.registry.merkleRoots } := by
        ext other
        simp only [Set.mem_ofPred_eq, AList.mem_insert]
        exact or_iff_right_of_imp fun heq => heq ▸ hmem
      simp only [PrivacyRegistry.standing, hroots]
  | transition | versions | limits | grantRole | revokeRole | addAuthorizedCaller
  | removeAuthorizedCaller | transferOwnership | acceptOwnership | cancelOwnershipTransfer => rfl

namespace NoteManager

/-- A record that was not in a state, and is replaced by one that is not. -/
theorem inState_insert (edited : NoteRecord) {manager : NoteManager} {noteId : Buff32}
    {note : NoteRecord} {state : NoteState} {stats : NoteStatistics} (hlookup : manager.notes.lookup noteId = some note)
    (hold : note.state ≠ state) (hnew : edited.state ≠ state) :
    inState { notes := manager.notes.insert noteId edited, noteStatistics := stats } state =
      manager.inState state := by
  ext other
  by_cases heq : other = noteId
  · subst heq
    simp [inState, hlookup, hold, hnew]
  · simp [inState, AList.lookup_insert_ne heq]

/-- Notes move between active, frozen and deprecated. -/
theorem administerNote_standing {authorized : Prop} [Decidable authorized] {noteId : Buff32}
    {counted newState : NoteState}
    (hstate : newState = .frozen ∨ newState = .active ∨ newState = .deprecated)
    (h : onNoteManager (administerNote authorized ctx noteId counted newState) w = .ok (u, w')) :
    Held w w' := by
  obtain ⟨manager, hrun, rfl⟩ := onNoteManager_ok.mp h
  unfold administerNote at hrun
  simp only [↓bind_ok, ↓exists_read, ↓exists_require, ↓exists_unwrap] at hrun
  obtain ⟨-, -, note, hlookup, hmove⟩ := hrun
  obtain ⟨hvalid, stats, -, rfl⟩ := moveNote_ok hmove
  have hold : note.state ≠ .spent ∧ note.state ≠ .withdrawn := by
    refine ⟨fun heq => ?_, fun heq => ?_⟩
    all_goals
      rw [heq] at hvalid
      cases hvalid
  have hnew : newState ≠ .spent ∧ newState ≠ .withdrawn := by
    rcases hstate with rfl | rfl | rfl <;> decide
  have hmem : noteId ∈ w.noteManager.notes := DataMap.mem_iff_lookup.mpr ⟨note, hlookup⟩
  have hregistered : { other | other ∈ w.noteManager.notes.insert noteId
      { note with state := newState, updatedAt := ctx.height } } =
      { other | other ∈ w.noteManager.notes } := by
    ext other
    simp only [Set.mem_ofPred_eq, AList.mem_insert]
    exact or_iff_right_of_imp fun heq => heq ▸ hmem
  refine held_of_standing ?_ rfl rfl
  simp only [World.standing, standing, hregistered,
    inState_insert { note with state := newState, updatedAt := ctx.height }
      hlookup hold.1 hnew.1,
    inState_insert { note with state := newState, updatedAt := ctx.height }
      hlookup hold.2 hnew.2]

theorem execute_held (hpaused : w.registry.protocolState ≠ .active) {call : Call}
    (h : NoteManager.execute ctx call w = .ok (u, w')) : Held w w' := by
  simp only [execute, ↓bind_ok, ↓exists_read] at h
  cases call with
  | registerNote noteId ownerCommitment metadata version =>
      exact (registerNote_active ctx _ _ _ _).held hpaused h
  | spendNote noteId => exact (spendNote_active ctx _).held hpaused h
  | withdrawNote noteId => exact (withdrawNote_active ctx _).held hpaused h
  | freezeNote noteId => exact administerNote_standing (.inl rfl) h
  | reactivateNote noteId => exact administerNote_standing (.inr (.inl rfl)) h
  | deprecateNote noteId => exact administerNote_standing (.inr (.inr rfl)) h

end NoteManager

/-- Administration of a verifier accepts no proof. -/
theorem Verifier.administer_standing (errorBase : Nat) (registry : PrivacyRegistry)
    (call : Verifier.Call) : Keeps standing (administer errorBase registry ctx call) := by
  cases call <;>
    simp only [administer, submitAggregation, setZkverifyContextHash, setZkverifyBinding,
      addRelayer, removeRelayer, registerVerificationKey, setVerificationKeyStatus,
      setVerificationFrozen]
  all_goals
    repeat first
      | exact keeps_modify fun _ => rfl
      | refine keeps_bind ?_ fun _ => ?_
      | simp

theorem ZkVerifier.execute_held {P : Primitives} (hpaused : w.registry.protocolState ≠ .active)
    {call : Verifier.Call} (h : ZkVerifier.execute P ctx call w = .ok (u, w')) : Held w w' := by
  cases call with
  | verifyProof proofType version inputsHash inclusion =>
      simp only [ZkVerifier.execute, bind_ok, pure_ok] at h
      obtain ⟨_, _, hverify, -, rfl⟩ := h
      exact (verifyProof_active P ctx inclusion _ _ _).held hpaused hverify
  | _ =>
      simp only [ZkVerifier.execute, ↓bind_ok, ↓exists_read] at h
      obtain ⟨verifier, hrun, rfl⟩ := onZkVerifier_ok.mp h
      have hsame := Verifier.administer_standing _ _ _ _ _ _ hrun
      refine held_of_standing ?_ rfl rfl
      simp only [World.standing, hsame]

theorem Sip10ZkVerifier.execute_held {P : Primitives}
    (hpaused : w.registry.protocolState ≠ .active) {call : Sip10Verifier.Call}
    (h : Sip10ZkVerifier.execute P ctx call w = .ok (u, w')) : Held w w' := by
  have hquiet {m : Exec Sip10Verifier Unit} (hm : Keeps (fun s => s.verifier.standing) m)
      (h : onSip10ZkVerifier m w = .ok (u, w')) : Held w w' := by
    obtain ⟨storage, hrun, rfl⟩ := onSip10ZkVerifier_ok.mp h
    refine held_of_standing ?_ rfl rfl
    have hsame : storage.verifier.standing = w.sip10ZkVerifier.verifier.standing :=
      hm _ _ _ hrun
    simp only [World.standing, hsame]
  cases call with
  | common call =>
      cases call with
      | verifyProof proofType version inputsHash inclusion =>
          simp only [Sip10ZkVerifier.execute, bind_ok, pure_ok] at h
          obtain ⟨_, _, hverify, -, rfl⟩ := h
          exact (verifyProof_active P ctx inclusion _ _ _).held hpaused hverify
      | _ =>
          simp only [Sip10ZkVerifier.execute, ↓bind_ok, ↓exists_read] at h
          exact hquiet (keeps_zoom_of_keeps (Verifier.administer_standing _ _ _)
            fun _ _ heq => heq) h
  | setCircuitVersion version =>
      simp only [Sip10ZkVerifier.execute, ↓bind_ok, ↓exists_read] at h
      refine hquiet ?_ h
      unfold setCircuitVersion
      repeat first
        | exact keeps_modify fun _ => rfl
        | refine keeps_bind ?_ fun _ => ?_
        | simp
  | setAuthorizedPool pool =>
      simp only [Sip10ZkVerifier.execute, ↓bind_ok, ↓exists_read] at h
      refine hquiet ?_ h
      unfold setAuthorizedPool
      repeat first
        | exact keeps_modify fun _ => rfl
        | refine keeps_bind ?_ fun _ => ?_
        | simp

/-- STX moves away from the transaction sender, who is no pool. -/
theorem stxTransfer_held (hsender : ¬ ctx.txSender.isPool) {amount : Nat}
    {sender recipient : Principal} (h : stxTransfer ctx amount sender recipient w = .ok (u, w')) :
    Held w w' := by
  obtain ⟨-, -, rfl, -, rfl⟩ := stxTransfer_ok.mp h
  refine ⟨rfl, fun pool hpool => ?_, fun _ _ _ => Nat.le_refl _⟩
  have hne : pool ≠ ctx.txSender := fun heq => hsender (heq ▸ hpool)
  simp only [moved, if_neg hne]
  split <;> omega

theorem ProtocolFees.execute_held (hpaused : w.registry.protocolState ≠ .active)
    {call : ProtocolFees.Call} (h : ProtocolFees.execute ctx call w = .ok (u, w')) :
    Held w w' := by
  have hquiet {m : Exec ProtocolFees Unit} (hm : Keeps collected m)
      (h : onProtocolFees m w = .ok (u, w')) : Held w w' := by
    obtain ⟨storage, hrun, rfl⟩ := onProtocolFees_ok.mp h
    refine held_of_standing ?_ rfl rfl
    simp only [World.standing, hm _ _ _ hrun]
  simp only [ProtocolFees.execute, ↓bind_ok, ↓exists_read] at h
  cases call with
  | collectFee feeType amount =>
      simp only [bind_ok, pure_ok] at h
      obtain ⟨_, _, hcollect, -, rfl⟩ := h
      exact (collectFee_active ctx _ _).held hpaused hcollect
  | withdrawFees amount recipient =>
      unfold withdrawFees at h
      simp only [↓bind_ok, ↓exists_read, ↓exists_require, ↓orError_ok, ↓exists_addUint,
        ↓exists_subUint, onProtocolFees_ok, modify_ok] at h
      obtain ⟨-, -, -, -, -, _, mid, htransfer, -, -, _, rfl, rfl⟩ := h
      have hfees : mid.protocolFees = w.protocolFees := by
        obtain ⟨-, -, -, -, rfl⟩ := stxTransfer_ok.mp htransfer
        rfl
      refine (stxTransfer_held (by simp [Ctx.asContract, Principal.isPool]) htransfer).trans (held_of_standing ?_ rfl rfl)
      simp only [World.standing, collected, hfees]
  | _ =>
      refine hquiet ?_ h
      simp only [setFee, setFeesFrozen, setTreasuryFrozen]
      repeat first
        | exact keeps_modify fun _ => rfl
        | refine keeps_bind ?_ fun _ => ?_
        | simp

/-! ## Contracts that call tokens -/

/-- Calling a token changes at most the token's ledger. -/
def KeepLedgers (tokens : TokenCode) : Prop :=
  ∀ token ctx function w value w', tokens token ctx function w = .ok (value, w') →
    LedgerCall token ctx.txSender w w'

variable {tokens : TokenCode} {token : Principal}

theorem LedgerCall.held {txSender : Principal} (h : LedgerCall token txSender w w')
    (hsender : ¬ txSender.isPool) : Held w w' := by
  refine ⟨?_, fun _ _ => ?_, fun other pool hpool => h.balances_le other ?_⟩
  · rw [h.eq_of_tokens]
    rfl
  · rw [h.eq_of_tokens]
  · exact fun heq => hsender (heq ▸ hpool)

theorem AssetRegistry.execute_held (htokens : KeepLedgers tokens) (hsender : ¬ ctx.txSender.isPool)
    {call : AssetRegistry.Call} {id : Option Nat}
    (h : AssetRegistry.execute tokens ctx call w = .ok (id, w')) : Held w w' := by
  have hquiet {w : World} {α : Type} {a : α} {m : Exec AssetRegistry α}
      (h : onAssetRegistry m w = .ok (a, w')) : Held w w' := by
    obtain ⟨storage, hrun, rfl⟩ := onAssetRegistry_ok.mp h
    exact held_of_standing rfl rfl rfl
  cases call with
  | registerAsset args =>
      simp only [execute, bind_ok, pure_ok] at h
      obtain ⟨_, _, hregister, -, rfl⟩ := h
      unfold registerAsset at hregister
      simp only [↓bind_ok, ↓exists_read, ↓exists_require, ↓orError_ok, ↓exists_addUint,
        pure_ok] at hregister
      obtain ⟨-, -, -, -, -, -, -, -, _, mid, hdecimals, -, -, -, _, _, hstored, -, rfl⟩ := hregister
      exact ((htokens _ _ _ _ _ _ hdecimals).held hsender).trans (hquiet hstored)
  | _ =>
      simp only [execute, ↓bind_ok, ↓exists_read, pure_ok] at h
      obtain ⟨_, _, hrun, -, rfl⟩ := h
      exact hquiet hrun

/-- Paying fees out leaves what has been collected alone. -/
theorem Sip10ProtocolFees.withdrawFees_held (htokens : KeepLedgers tokens) {assetId amount : Nat}
    (h : withdrawFees tokens ctx assetId amount token w = .ok (u, w')) : Held w w' := by
  unfold withdrawFees at h
  simp only [↓bind_ok, ↓exists_read, ↓exists_require, ↓exists_unwrap, ↓orError_ok,
    ↓exists_addUint, ↓exists_subUint, onSip10ProtocolFees_ok, modify_ok] at h
  obtain ⟨asset, -, -, -, -, -, -, _, mid, htransfer, -, -, _, rfl, rfl⟩ := h
  have hcall := htokens _ _ _ _ _ _ htransfer
  refine (hcall.held (by simp [Ctx.asContract, Principal.isPool])).trans
    (held_of_standing ?_ rfl rfl)
  have hfees : mid.sip10ProtocolFees = w.sip10ProtocolFees := by
    rw [hcall.eq_of_tokens]
  have hsame (id : Nat) : (getAssetTreasury
      { mid.sip10ProtocolFees with
        assetTreasury := mid.sip10ProtocolFees.assetTreasury.insert assetId
          { getAssetTreasury w.sip10ProtocolFees assetId with
            totalWithdrawn := (getAssetTreasury w.sip10ProtocolFees assetId).totalWithdrawn + amount
            balance := (getAssetTreasury w.sip10ProtocolFees assetId).balance - amount } }
      id).totalCollected = (getAssetTreasury mid.sip10ProtocolFees id).totalCollected := by
    by_cases heq : id = assetId
    · subst heq
      simp [getAssetTreasury, hfees]
    · simp [getAssetTreasury, AList.lookup_insert_ne heq]
  simp only [World.standing, collected, hsame]

theorem Sip10ProtocolFees.execute_held (hpaused : w.registry.protocolState ≠ .active)
    (htokens : KeepLedgers tokens) {call : Sip10ProtocolFees.Call}
    (h : Sip10ProtocolFees.execute tokens ctx call w = .ok (u, w')) : Held w w' := by
  have hquiet {m : Exec Sip10ProtocolFees Unit} (hm : Keeps collected m)
      (h : onSip10ProtocolFees m w = .ok (u, w')) : Held w w' := by
    obtain ⟨storage, hrun, rfl⟩ := onSip10ProtocolFees_ok.mp h
    refine held_of_standing ?_ rfl rfl
    simp only [World.standing, hm _ _ _ hrun]
  simp only [Sip10ProtocolFees.execute, ↓bind_ok, ↓exists_read] at h
  cases call with
  | collectFee assetId feeType amount token =>
      simp only [bind_ok, pure_ok] at h
      obtain ⟨_, _, hcollect, -, rfl⟩ := h
      exact (collectFee_active tokens ctx _ _ _ _).held hpaused hcollect
  | withdrawFees assetId amount token => exact withdrawFees_held htokens h
  | _ =>
      refine hquiet ?_ h
      simp only [setFeesFrozen, setTreasuryFrozen]
      repeat first
        | exact keeps_modify fun _ => rfl
        | refine keeps_bind ?_ fun _ => ?_
        | simp

theorem PrivacyPool.execute_held {P : Primitives} (hpaused : w.registry.protocolState ≠ .active)
    {call : PrivacyPool.Call} {value : Option Nat}
    (h : PrivacyPool.execute P ctx call w = .ok (value, w')) : Held w w' := by
  simp only [execute, ↓bind_ok, ↓exists_read] at h
  cases call with
  | shield args inclusion =>
      simp only [bind_ok, pure_ok] at h
      obtain ⟨_, _, hrun, -, rfl⟩ := h
      exact (shield_active P ctx inclusion args).held hpaused hrun
  | transfer args inclusion =>
      simp only [bind_ok, pure_ok] at h
      obtain ⟨_, _, hrun, -, rfl⟩ := h
      exact (transfer_active P ctx inclusion args).held hpaused hrun
  | withdraw args inclusion =>
      simp only [bind_ok, pure_ok] at h
      obtain ⟨_, _, hrun, -, rfl⟩ := h
      exact (withdraw_active P ctx inclusion args).held hpaused hrun
  | _ =>
      simp only [bind_ok, onPrivacyPool_ok, pure_ok] at h
      obtain ⟨_, _, ⟨_, -, rfl⟩, -, rfl⟩ := h
      exact held_of_standing rfl rfl rfl

theorem SplitMergeManager.execute_held {P : Primitives}
    (hpaused : w.registry.protocolState ≠ .active) {call : SplitMergeManager.Call}
    {data : List Nat} (h : SplitMergeManager.execute P ctx call w = .ok (data, w')) :
    Held w w' := by
  simp only [execute, ↓bind_ok, ↓exists_read] at h
  cases call with
  | splitNote args inclusion =>
      simp only [bind_ok, pure_ok] at h
      obtain ⟨_, _, hrun, -, rfl⟩ := h
      exact (splitNote_active P ctx inclusion args).held hpaused hrun
  | mergeNotes args inclusion =>
      simp only [bind_ok, pure_ok] at h
      obtain ⟨_, _, hrun, -, rfl⟩ := h
      exact (mergeNotes_active P ctx inclusion args).held hpaused hrun
  | _ =>
      simp only [bind_ok, onSplitMergeManager_ok, pure_ok] at h
      obtain ⟨_, _, ⟨_, -, rfl⟩, -, rfl⟩ := h
      exact held_of_standing rfl rfl rfl

theorem Sip10Pool.execute_held {P : Primitives} (hpaused : w.registry.protocolState ≠ .active)
    {call : Sip10Pool.Call} {data : List Nat}
    (h : Sip10Pool.execute P tokens ctx call w = .ok (data, w')) : Held w w' := by
  cases call with
  | shield token args inclusion =>
      simp only [execute, bind_ok, pure_ok] at h
      obtain ⟨_, _, hrun, -, rfl⟩ := h
      exact (shield_active P tokens ctx inclusion token args).held hpaused hrun
  | transfer token args inclusion =>
      simp only [execute, bind_ok, pure_ok] at h
      obtain ⟨_, _, hrun, -, rfl⟩ := h
      exact (transfer_active P tokens ctx inclusion token args).held hpaused hrun
  | split token args inclusion =>
      simp only [execute, bind_ok, pure_ok] at h
      obtain ⟨_, _, hrun, -, rfl⟩ := h
      exact (split_active P tokens ctx inclusion token args).held hpaused hrun
  | mergeNotes token args inclusion =>
      simp only [execute, bind_ok, pure_ok] at h
      obtain ⟨_, _, hrun, -, rfl⟩ := h
      exact (mergeNotes_active P tokens ctx inclusion token args).held hpaused hrun
  | withdraw token args inclusion =>
      simp only [execute, bind_ok, pure_ok] at h
      obtain ⟨_, _, hrun, -, rfl⟩ := h
      exact (withdraw_active P tokens ctx inclusion token args).held hpaused hrun
  | setOperationEnabled op enabled =>
      simp only [execute, ↓bind_ok, ↓exists_read, onSip10Pool_ok, pure_ok] at h
      obtain ⟨_, _, ⟨storage, hrun, rfl⟩, -, rfl⟩ := h
      have hkeeps : Keeps Sip10Pool.shieldedTotal
          (setOperationEnabled w.registry ctx op enabled) := by
        unfold setOperationEnabled
        repeat first
          | exact keeps_modify fun _ => rfl
          | refine keeps_bind ?_ fun _ => ?_
          | simp
      refine held_of_standing ?_ rfl rfl
      simp only [World.standing, hkeeps _ _ _ hrun]

/-- While the protocol is not active every public function holds still. -/
theorem dispatch_held {env : Env} (hpaused : w.registry.protocolState ≠ .active)
    (htokens : KeepLedgers tokens) (hsender : ¬ ctx.txSender.isPool) {call : Call}
    {data : List Nat} (h : dispatch env tokens ctx call w = .ok (data, w')) : Held w w' := by
  cases call with
  | privacyRegistry call =>
      simp only [dispatch, bind_ok, onRegistry_ok, pure_ok] at h
      obtain ⟨_, _, ⟨registry, hrun, rfl⟩, -, rfl⟩ := h
      have hstanding := (PrivacyRegistry.execute_performed hrun).standing hpaused
      refine held_of_standing ?_ rfl rfl
      simp only [World.standing, hstanding]
  | noteManager call =>
      simp only [dispatch, bind_ok, pure_ok] at h
      obtain ⟨_, _, hrun, -, rfl⟩ := h
      exact NoteManager.execute_held hpaused hrun
  | zkVerifier call =>
      simp only [dispatch, bind_ok, pure_ok] at h
      obtain ⟨_, _, hrun, -, rfl⟩ := h
      exact ZkVerifier.execute_held hpaused hrun
  | sip10ZkVerifier call =>
      simp only [dispatch, bind_ok, pure_ok] at h
      obtain ⟨_, _, hrun, -, rfl⟩ := h
      exact Sip10ZkVerifier.execute_held hpaused hrun
  | protocolFees call =>
      simp only [dispatch, bind_ok, pure_ok] at h
      obtain ⟨_, _, hrun, -, rfl⟩ := h
      exact ProtocolFees.execute_held hpaused hrun
  | assetRegistry call =>
      simp only [dispatch, bind_ok, pure_ok] at h
      obtain ⟨_, _, hrun, -, rfl⟩ := h
      exact AssetRegistry.execute_held htokens hsender hrun
  | sip10ProtocolFees call =>
      simp only [dispatch, bind_ok, pure_ok] at h
      obtain ⟨_, _, hrun, -, rfl⟩ := h
      exact Sip10ProtocolFees.execute_held hpaused htokens hrun
  | privacyPool call =>
      simp only [dispatch, bind_ok, pure_ok] at h
      obtain ⟨_, _, hrun, -, rfl⟩ := h
      exact PrivacyPool.execute_held hpaused hrun
  | splitMergeManager call => exact SplitMergeManager.execute_held hpaused h
  | sip10Pool call => exact Sip10Pool.execute_held hpaused h
  | stxTransfer amount sender recipient =>
      simp only [dispatch, bind_ok, pure_ok] at h
      obtain ⟨_, _, hrun, -, rfl⟩ := h
      exact stxTransfer_held hsender hrun
  | token token function =>
      simp only [dispatch, bind_ok, pure_ok] at h
      obtain ⟨_, _, hrun, -, rfl⟩ := h
      exact (htokens _ _ _ _ _ _ hrun).held hsender

end StxShield
