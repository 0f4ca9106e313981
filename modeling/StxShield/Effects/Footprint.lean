import StxShield.Protocol.Machine

/-!
# What the contracts' functions touch

Each function's effect on the footprint: most leave it alone, verification
adds an event, and the registrations extend the registry's ledger.
-/

namespace StxShield

open Library Exec World PrivacyRegistry

variable {α : Type} {w w' : World} {u : Unit}

/-! ## Computations on one contract -/

@[simp]
theorem keeps_onRegistry {m : Exec PrivacyRegistry α} (h : Keeps ledger m) :
    Keeps footprint (onRegistry m) :=
  keeps_zoom_of_keeps h fun storage w heq => by simp only [footprint, heq]

theorem exists_onRegistry {m : Exec PrivacyRegistry α} {Q : α → World → Prop} :
    (∃ a mid, onRegistry m w = .ok (a, mid) ∧ Q a mid) ↔
      ∃ a storage, m w.registry = .ok (a, storage) ∧ Q a { w with registry := storage } := by
  constructor
  · rintro ⟨a, _, h, hq⟩
    obtain ⟨storage, hrun, rfl⟩ := onRegistry_ok.mp h
    exact ⟨a, storage, hrun, hq⟩
  · rintro ⟨a, storage, hrun, hq⟩
    exact ⟨a, _, onRegistry_ok.mpr ⟨storage, hrun, rfl⟩, hq⟩

@[simp]
theorem keeps_onNoteManager (m : Exec NoteManager α) : Keeps footprint (onNoteManager m) :=
  keeps_zoom fun _ _ => rfl

@[simp]
theorem keeps_onZkVerifier (m : Exec Verifier α) : Keeps footprint (onZkVerifier m) :=
  keeps_zoom fun _ _ => rfl

@[simp]
theorem keeps_onProtocolFees (m : Exec ProtocolFees α) : Keeps footprint (onProtocolFees m) :=
  keeps_zoom fun _ _ => rfl

@[simp]
theorem keeps_onPrivacyPool (m : Exec PrivacyPool α) : Keeps footprint (onPrivacyPool m) :=
  keeps_zoom fun _ _ => rfl

@[simp]
theorem keeps_onSplitMergeManager (m : Exec SplitMergeManager α) :
    Keeps footprint (onSplitMergeManager m) :=
  keeps_zoom fun _ _ => rfl

@[simp]
theorem keeps_onSip10ProtocolFees (m : Exec Sip10ProtocolFees α) :
    Keeps footprint (onSip10ProtocolFees m) :=
  keeps_zoom fun _ _ => rfl

@[simp]
theorem keeps_onSip10ZkVerifier (m : Exec Sip10Verifier α) :
    Keeps footprint (onSip10ZkVerifier m) :=
  keeps_zoom fun _ _ => rfl

theorem record_effect {event : Event} (h : record event w = .ok (u, w')) :
    w'.footprint = { w.footprint with history := event :: w.footprint.history } := by
  rw [← record_ok.mp h]
  rfl

/-- STX moved between others is not part of the footprint. -/
theorem stxTransfer_keeps_footprint {ctx : Ctx} {amount : Nat} {sender recipient : Principal}
    (hsender : sender ≠ .privacyPool) (hrecipient : recipient ≠ .privacyPool) :
    Keeps footprint (stxTransfer ctx amount sender recipient) := by
  intro w v w' h
  obtain ⟨_, _, _, _, rfl⟩ := stxTransfer_ok.mp h
  simp only [footprint, moved, if_neg hsender.symm, if_neg hrecipient.symm]

/-- STX paid into the pool. -/
theorem stxTransfer_into_pool {ctx : Ctx} {amount : Nat} {sender : Principal}
    (hsender : sender ≠ .privacyPool)
    (h : stxTransfer ctx amount sender .privacyPool w = .ok (u, w')) :
    w'.footprint = { w.footprint with poolStx := w.footprint.poolStx + amount } := by
  obtain ⟨_, _, _, _, rfl⟩ := stxTransfer_ok.mp h
  simp only [footprint, moved, if_neg hsender.symm, ↓reduceIte]

/-- STX paid out of the pool. -/
theorem stxTransfer_out_of_pool {ctx : Ctx} {amount : Nat} {recipient : Principal}
    (h : stxTransfer ctx amount .privacyPool recipient w = .ok (u, w')) :
    amount ≤ w.footprint.poolStx ∧
      w'.footprint = { w.footprint with poolStx := w.footprint.poolStx - amount } := by
  obtain ⟨_, _, _, hle, rfl⟩ := stxTransfer_ok.mp h
  exact ⟨hle, by simp only [footprint, moved, ↓reduceIte]⟩

/-! ## note-manager -/

@[simp]
theorem registerNote_keeps_footprint (caller : Ctx) (noteId owner metadata : Buff32)
    (version : Nat) : Keeps footprint (NoteManager.registerNote caller noteId owner metadata version) := by
  unfold NoteManager.registerNote
  repeat first
    | refine keeps_bind ?_ fun _ => ?_
    | simp

@[simp]
theorem noteManager_keeps_footprint (ctx : Ctx) (call : NoteManager.Call) :
    Keeps footprint (NoteManager.execute ctx call) := by
  refine keeps_bind keeps_read fun w => ?_
  cases call with
  | registerNote noteId owner metadata version =>
      exact registerNote_keeps_footprint ctx noteId owner metadata version
  | spendNote => exact keeps_bind (by simp) fun _ => keeps_bind keeps_read fun _ => by simp
  | withdrawNote => exact keeps_bind (by simp) fun _ => keeps_bind keeps_read fun _ => by simp
  | freezeNote => exact keeps_onNoteManager _
  | reactivateNote => exact keeps_onNoteManager _
  | deprecateNote => exact keeps_onNoteManager _

/-! ## Verifiers -/

/-- Accepting a statement is recorded, and changes only the verifier. -/
theorem zkVerifier_verifyProof_effect {P : Primitives} {ctx : Ctx} {proofType version : Nat}
    {inputsHash leaf : Buff32} {inclusion : Inclusion}
    (h : ZkVerifier.verifyProof P ctx proofType version inputsHash inclusion w = .ok (leaf, w')) :
    w'.footprint =
      { w.footprint with
        history := .proofVerified .zkVerifier proofType inputsHash :: w.footprint.history } := by
  unfold ZkVerifier.verifyProof at h
  simp only [↓bind_ok, ↓exists_onRegistry, ↓exists_checkActive, ↓exists_read, onZkVerifier_ok,
    record_ok, pure_ok] at h
  obtain ⟨-, _, _, ⟨_, -, rfl⟩, _, _, rfl, -, rfl⟩ := h
  rfl

theorem sip10ZkVerifier_verifyProof_effect {P : Primitives} {ctx : Ctx} {proofType version : Nat}
    {inputsHash leaf : Buff32} {inclusion : Inclusion}
    (h : Sip10ZkVerifier.verifyProof P ctx proofType version inputsHash inclusion w =
      .ok (leaf, w')) :
    w'.footprint =
      { w.footprint with
        history := .proofVerified .sip10ZkVerifier proofType inputsHash ::
          w.footprint.history } := by
  unfold Sip10ZkVerifier.verifyProof at h
  simp only [↓bind_ok, ↓exists_onRegistry, ↓exists_checkActive, ↓exists_read,
    onSip10ZkVerifier_ok, record_ok, pure_ok] at h
  obtain ⟨-, _, _, ⟨_, -, rfl⟩, _, _, rfl, -, rfl⟩ := h
  rfl

/-! ## Fees -/

@[simp]
theorem keeps_configuredFee {σ β : Type} (f : σ → β) (registry : PrivacyRegistry)
    (config : FeeConfig) (amount : Nat) :
    Keeps f (ProtocolFees.configuredFee registry config amount) := by
  simp [ProtocolFees.configuredFee]

@[simp]
theorem keeps_calculateFee {β : Type} (f : World → β) (feeType amount : Nat) :
    Keeps f (ProtocolFees.calculateFee feeType amount) := by
  simp [ProtocolFees.calculateFee]

@[simp]
theorem keeps_sip10CalculateFee {β : Type} (f : World → β) (assetId feeType amount : Nat) :
    Keeps f (Sip10ProtocolFees.calculateFee assetId feeType amount) := by
  simp [Sip10ProtocolFees.calculateFee]

theorem collectFee_keeps_footprint {ctx : Ctx} (hsender : ctx.txSender ≠ .privacyPool)
    (feeType amount : Nat) : Keeps footprint (ProtocolFees.collectFee ctx feeType amount) := by
  have hmove : Keeps footprint (stxTransfer ctx amount ctx.txSender .protocolFees) :=
    stxTransfer_keeps_footprint hsender (by decide)
  unfold ProtocolFees.collectFee
  repeat first
    | refine keeps_bind ?_ fun _ => ?_
    | simp [hmove]

theorem payFee_keeps_footprint {ctx : Ctx} (hsender : ctx.txSender ≠ .privacyPool)
    (feeType fee : Nat) : Keeps footprint (ProtocolFees.payFee ctx feeType fee) := by
  have hcollect := collectFee_keeps_footprint hsender feeType fee
  unfold ProtocolFees.payFee
  exact keeps_ite (keeps_bind hcollect fun _ => keeps_pure _) (keeps_pure _)

/-- A fee the pool pays itself. -/
theorem payFee_out_of_pool {ctx : Ctx} {feeType fee : Nat} (hsender : ctx.txSender = .privacyPool)
    (h : ProtocolFees.payFee ctx feeType fee w = .ok (u, w')) :
    fee ≤ w.footprint.poolStx ∧
      w'.footprint = { w.footprint with poolStx := w.footprint.poolStx - fee } := by
  unfold ProtocolFees.payFee at h
  simp only [ite_ok, bind_ok, pure_ok] at h
  rcases h with ⟨-, _, mid, hcollect, -, rfl⟩ | ⟨hzero, -, rfl⟩
  · unfold ProtocolFees.collectFee at hcollect
    simp only [↓bind_ok, ↓exists_read, ↓exists_onRegistry, ↓exists_checkActive, ↓exists_require,
      ↓orError_ok, ↓exists_addUint, onProtocolFees_ok, modify_ok, pure_ok, hsender] at hcollect
    obtain ⟨-, -, -, -, -, _, _, htransfer, -, -, -, _, _, ⟨_, rfl, rfl⟩, -, rfl⟩ := hcollect
    obtain ⟨hle, hpaid⟩ := stxTransfer_out_of_pool htransfer
    exact ⟨hle, hpaid⟩
  · have : fee = 0 := by omega
    subst this
    exact ⟨Nat.zero_le _, rfl⟩

/-! ## Registrations -/

theorem recordShield_effect {ctx : Ctx} {amount : Nat}
    (h : onRegistry (recordShield ctx amount) w = .ok (u, w')) :
    w'.footprint =
      { w.footprint with
        registry :=
          { w.footprint.registry with
            totalShieldedStx := w.footprint.registry.totalShieldedStx + amount } } := by
  obtain ⟨registry, hrun, rfl⟩ := onRegistry_ok.mp h
  obtain ⟨-, hledger⟩ := PrivacyRegistry.recordShield_effect hrun
  simp only [footprint, hledger]

theorem recordWithdrawal_effect {ctx : Ctx} {amount : Nat}
    (h : onRegistry (recordWithdrawal ctx amount) w = .ok (u, w')) :
    amount ≤ w.footprint.registry.totalShieldedStx ∧
      w'.footprint =
        { w.footprint with
          registry :=
            { w.footprint.registry with
              totalShieldedStx := w.footprint.registry.totalShieldedStx - amount } } := by
  obtain ⟨registry, hrun, rfl⟩ := onRegistry_ok.mp h
  obtain ⟨-, hle, hledger⟩ := PrivacyRegistry.recordWithdrawal_effect hrun
  exact ⟨hle, by simp only [footprint, hledger]⟩

namespace PoolCalls

theorem checkCurrentRoot_ok {declared : Buff32} {stale unknown : Nat} :
    checkCurrentRoot declared stale unknown w = .ok (u, w') ↔
      (declared = w.registry.currentRoot.root ∧ w.registry.isKnownRoot declared) ∧ w = w' := by
  unfold checkCurrentRoot
  simp only [↓bind_ok, ↓exists_read, ↓exists_require, require_ok, and_assoc]

theorem exists_checkCurrentRoot {declared : Buff32} {stale unknown : Nat}
    {Q : Unit → World → Prop} :
    (∃ u mid, checkCurrentRoot declared stale unknown w = .ok (u, mid) ∧ Q u mid) ↔
      (declared = w.registry.currentRoot.root ∧ w.registry.isKnownRoot declared) ∧ Q () w := by
  constructor
  · rintro ⟨_, _, h, hq⟩
    obtain ⟨hroot, rfl⟩ := checkCurrentRoot_ok.mp h
    exact ⟨hroot, hq⟩
  · rintro ⟨hroot, hq⟩
    exact ⟨(), w, checkCurrentRoot_ok.mpr ⟨hroot, rfl⟩, hq⟩

@[simp]
theorem registerNote_keeps_footprint (caller : Ctx) (noteId owner metadata : Buff32) :
    Keeps footprint (registerNote caller noteId owner metadata) := by
  simp [registerNote]

theorem registerNullifier_effect {caller : Ctx} {nullifier : Buff32}
    (h : registerNullifier caller nullifier w = .ok (u, w')) :
    nullifier ∉ w.footprint.registry.nullifiers ∧
      w'.footprint =
        { w.footprint with
          registry :=
            { w.footprint.registry with
              nullifiers := w.footprint.registry.nullifiers ++ [nullifier] } } := by
  obtain ⟨registry, hrun, rfl⟩ := onRegistry_ok.mp h
  obtain ⟨-, hfresh, hledger⟩ := PrivacyRegistry.registerNullifier_effect hrun
  exact ⟨hfresh, by simp only [footprint, hledger]⟩

theorem registerCommitment_effect {caller : Ctx} {commitment : Buff32} {index : Nat}
    (h : registerCommitment caller commitment w = .ok (index, w')) :
    commitment ∉ w.footprint.registry.leaves ∧ index = w.footprint.registry.registered ∧
      w'.footprint =
        { w.footprint with
          registry :=
            { w.footprint.registry with
              leaves := w.footprint.registry.leaves ++ [commitment]
              registered := w.footprint.registry.registered + 1 } } := by
  unfold registerCommitment at h
  simp only [↓bind_ok, ↓exists_read, onRegistry_ok] at h
  obtain ⟨registry, hrun, rfl⟩ := h
  obtain ⟨-, hfresh, rfl, hledger⟩ := PrivacyRegistry.registerCommitment_effect hrun
  exact ⟨hfresh, rfl, by simp only [footprint, hledger]; rfl⟩

theorem updateRoot_effect {caller : Ctx} {newRoot : Buff32}
    (h : updateRoot caller newRoot w = .ok (u, w')) :
    newRoot ∉ w.footprint.registry.roots ∧
      w'.footprint =
        { w.footprint with
          registry :=
            { w.footprint.registry with
              roots := insert newRoot w.footprint.registry.roots
              currentRoot := newRoot } } := by
  unfold updateRoot at h
  simp only [↓bind_ok, ↓exists_read, onRegistry_ok] at h
  obtain ⟨registry, hrun, rfl⟩ := h
  obtain ⟨hfresh, hledger⟩ := PrivacyRegistry.updateRoot_effect hrun
  exact ⟨hfresh, by simp only [footprint, hledger]⟩

end PoolCalls

end StxShield
