import StxShield.Effects.Calls
import StxShield.Protocol.Books
import StxShield.Registry.Calls

/-!
# What a call enters in the books

Verification, fees and payouts leave the books alone.  Each of the ten
operations enters its nullifiers, commitments and notes, in whatever order, and
what it has entered at the end is the operation posted as a whole.
-/

namespace StxShield

open Library Exec World PrivacyRegistry

/-! ## Changes of the books -/

/-- The books changed by `f`, and nothing was recorded. -/
structure Enters (f : Books → Books) (w w' : World) : Prop where
  books : w'.books = f w.books
  history : w'.history = w.history

/-- Neither the books nor the history changed. -/
abbrev Untouched (w w' : World) : Prop := Enters id w w'

theorem Enters.trans {f g : Books → Books} {u v w : World} (huv : Enters f u v)
    (hvw : Enters g v w) : Enters (fun b => g (f b)) u w where
  books := by rw [hvw.books, huv.books]
  history := hvw.history.trans huv.history

variable {α : Type} {w w' : World} {u : Unit} {a : α} {ctx : Ctx}

/-- The books and the history are storage of two contracts and none. -/
theorem untouched_of_eq (hregistry : w'.registry = w.registry)
    (hmanager : w'.noteManager = w.noteManager) (hhistory : w'.history = w.history) :
    Untouched w w' := by
  refine ⟨?_, hhistory⟩
  simp only [World.books, hregistry, hmanager, id_eq]

/-- Nothing else is part of the books. -/
theorem untouched_onZkVerifier {m : Exec Verifier α} (h : onZkVerifier m w = .ok (a, w')) :
    Untouched w w' := by
  obtain ⟨_, -, rfl⟩ := onZkVerifier_ok.mp h
  exact untouched_of_eq rfl rfl rfl

theorem untouched_onProtocolFees {m : Exec ProtocolFees α} (h : onProtocolFees m w = .ok (a, w')) :
    Untouched w w' := by
  obtain ⟨_, -, rfl⟩ := onProtocolFees_ok.mp h
  exact untouched_of_eq rfl rfl rfl

theorem untouched_onSip10ZkVerifier {m : Exec Sip10Verifier α}
    (h : onSip10ZkVerifier m w = .ok (a, w')) : Untouched w w' := by
  obtain ⟨_, -, rfl⟩ := onSip10ZkVerifier_ok.mp h
  exact untouched_of_eq rfl rfl rfl

theorem untouched_onSip10ProtocolFees {m : Exec Sip10ProtocolFees α}
    (h : onSip10ProtocolFees m w = .ok (a, w')) : Untouched w w' := by
  obtain ⟨_, -, rfl⟩ := onSip10ProtocolFees_ok.mp h
  exact untouched_of_eq rfl rfl rfl

theorem untouched_onPrivacyPool {m : Exec PrivacyPool α} (h : onPrivacyPool m w = .ok (a, w')) :
    Untouched w w' := by
  obtain ⟨_, -, rfl⟩ := onPrivacyPool_ok.mp h
  exact untouched_of_eq rfl rfl rfl

theorem untouched_onSplitMergeManager {m : Exec SplitMergeManager α}
    (h : onSplitMergeManager m w = .ok (a, w')) : Untouched w w' := by
  obtain ⟨_, -, rfl⟩ := onSplitMergeManager_ok.mp h
  exact untouched_of_eq rfl rfl rfl

theorem untouched_onSip10Pool {m : Exec Sip10Pool α} (h : onSip10Pool m w = .ok (a, w')) :
    Untouched w w' := by
  obtain ⟨_, -, rfl⟩ := onSip10Pool_ok.mp h
  exact untouched_of_eq rfl rfl rfl

theorem untouched_onAssetRegistry {m : Exec AssetRegistry α}
    (h : onAssetRegistry m w = .ok (a, w')) : Untouched w w' := by
  obtain ⟨_, -, rfl⟩ := onAssetRegistry_ok.mp h
  exact untouched_of_eq rfl rfl rfl

/-- A check of the registry's that keeps all of it. -/
theorem untouched_onRegistry {m : Exec PrivacyRegistry α} (hm : Keeps id m)
    (h : onRegistry m w = .ok (a, w')) : Untouched w w' := by
  obtain ⟨registry, hrun, rfl⟩ := onRegistry_ok.mp h
  exact untouched_of_eq (hm _ _ _ hrun) rfl rfl

theorem untouched_stxTransfer {amount : Nat} {sender recipient : Principal}
    (h : stxTransfer ctx amount sender recipient w = .ok (u, w')) : Untouched w w' := by
  obtain ⟨_, _, _, _, rfl⟩ := stxTransfer_ok.mp h
  exact untouched_of_eq rfl rfl rfl

theorem untouched_of_keeps {m : Exec World α} (hm : Keeps id m) (h : m w = .ok (a, w')) :
    Untouched w w' := by
  obtain rfl := hm _ _ _ h
  exact untouched_of_eq rfl rfl rfl

/-! ## Fees and statements -/

theorem untouched_collectFee {feeType amount value : Nat}
    (h : ProtocolFees.collectFee ctx feeType amount w = .ok (value, w')) : Untouched w w' := by
  unfold ProtocolFees.collectFee at h
  simp only [↓bind_ok, ↓exists_read, ↓exists_onRegistry, ↓exists_checkActive, ↓exists_require,
    ↓orError_ok, ↓exists_addUint, pure_ok] at h
  obtain ⟨-, -, -, -, -, _, mid, htransfer, -, -, -, _, _, hstored, -, rfl⟩ := h
  exact (untouched_stxTransfer htransfer).trans (untouched_onProtocolFees hstored)

theorem untouched_payFee {feeType fee : Nat}
    (h : ProtocolFees.payFee ctx feeType fee w = .ok (u, w')) : Untouched w w' := by
  unfold ProtocolFees.payFee at h
  simp only [ite_ok, bind_ok, pure_ok] at h
  rcases h with ⟨-, _, _, hcollect, -, rfl⟩ | ⟨-, -, rfl⟩
  · exact untouched_collectFee hcollect
  · exact untouched_of_eq rfl rfl rfl

theorem untouched_withdrawFees {amount : Nat} {recipient : Principal}
    (h : ProtocolFees.withdrawFees ctx amount recipient w = .ok (u, w')) : Untouched w w' := by
  unfold ProtocolFees.withdrawFees at h
  simp only [↓bind_ok, ↓exists_read, ↓exists_require, ↓orError_ok, ↓exists_addUint,
    ↓exists_subUint] at h
  obtain ⟨-, -, -, -, -, _, mid, htransfer, -, -, hstored⟩ := h
  exact (untouched_stxTransfer htransfer).trans (untouched_onProtocolFees hstored)

/-- Accepting a statement is all that is recorded. -/
structure Accepts (w w' : World) : Prop where
  books : w'.books = w.books
  history : ∃ verifier proofType inputsHash,
    w'.history = .proofVerified verifier proofType inputsHash :: w.history

theorem zkVerifier_verifyProof_accepts {P : Primitives} {proofType version : Nat}
    {inputsHash leaf : Buff32} {inclusion : Inclusion}
    (h : ZkVerifier.verifyProof P ctx proofType version inputsHash inclusion w = .ok (leaf, w')) :
    Accepts w w' := by
  unfold ZkVerifier.verifyProof at h
  simp only [↓bind_ok, ↓exists_onRegistry, ↓exists_checkActive, ↓exists_read, onZkVerifier_ok,
    record_ok, pure_ok] at h
  obtain ⟨-, _, _, ⟨_, -, rfl⟩, _, _, rfl, -, rfl⟩ := h
  exact ⟨rfl, _, _, _, rfl⟩

theorem sip10ZkVerifier_verifyProof_accepts {P : Primitives} {proofType version : Nat}
    {inputsHash leaf : Buff32} {inclusion : Inclusion}
    (h : Sip10ZkVerifier.verifyProof P ctx proofType version inputsHash inclusion w =
      .ok (leaf, w')) : Accepts w w' := by
  unfold Sip10ZkVerifier.verifyProof at h
  simp only [↓bind_ok, ↓exists_onRegistry, ↓exists_checkActive, ↓exists_read,
    onSip10ZkVerifier_ok, record_ok, pure_ok] at h
  obtain ⟨-, _, _, ⟨_, -, rfl⟩, _, _, rfl, -, rfl⟩ := h
  exact ⟨rfl, _, _, _, rfl⟩

/-! ## Registrations -/

theorem registerNullifier_enters {nullifier : Buff32}
    (h : PoolCalls.registerNullifier ctx nullifier w = .ok (u, w')) :
    Enters (fun b => b.registerNullifier nullifier) w w' := by
  obtain ⟨registry, hrun, rfl⟩ := onRegistry_ok.mp h
  obtain ⟨-, -, -, -, -, hnew, -, rfl⟩ := registerNullifier_ok.mp hrun
  refine ⟨Books.ext rfl rfl ?_ rfl rfl rfl rfl rfl, rfl⟩
  change (w.registry.nullifiers.insert nullifier _).keys.reverse = _
  rw [DataMap.keys_insert_new _ hnew, List.reverse_cons]
  rfl

/-- A registered commitment, and the version notes get is unaffected. -/
theorem registerCommitment_enters {commitment : Buff32} {index : Nat}
    (h : PoolCalls.registerCommitment ctx commitment w = .ok (index, w')) :
    Enters (fun b => b.registerCommitment commitment) w w' ∧
      w'.registry.protocolVersions = w.registry.protocolVersions := by
  unfold PoolCalls.registerCommitment at h
  simp only [↓bind_ok, ↓exists_read, onRegistry_ok] at h
  obtain ⟨registry, hrun, rfl⟩ := h
  obtain ⟨-, -, -, -, -, hnew, -, -, rfl⟩ := registerCommitment_ok.mp hrun
  refine ⟨⟨Books.ext ?_ rfl rfl rfl rfl rfl rfl rfl, rfl⟩, rfl⟩
  change (w.registry.commitments.insert commitment _).keys.reverse = _
  rw [DataMap.keys_insert_new _ hnew, List.reverse_cons]
  rfl

/-- A registered note is new. -/
theorem registerNote_enters {noteId ownerCommitment metadata : Buff32}
    (h : PoolCalls.registerNote ctx noteId ownerCommitment metadata w = .ok (u, w')) :
    w.books.notes.lookup noteId = none ∧
      Enters (fun b => b.registerNote w.registry.protocolVersions.note ctx.height
        ⟨noteId, ownerCommitment, metadata⟩) w w' ∧
      w'.registry.protocolVersions = w.registry.protocolVersions := by
  unfold PoolCalls.registerNote NoteManager.registerNote at h
  simp only [↓bind_ok, ↓exists_read, ↓exists_onRegistry, ↓exists_checkActive, ↓exists_require,
    ↓exists_unwrap, ↓exists_addUint, onNoteManager_ok, modify_ok,
    DataMap.insertNew?_eq_some] at h
  obtain ⟨-, -, -, -, -, -, _, registry, hcount, _, ⟨hnew, rfl⟩, -, -, _, rfl, rfl⟩ := h
  obtain ⟨-, -, -, -, rfl⟩ := recordNoteCreated_ok.mp hcount
  exact ⟨hnew, ⟨rfl, rfl⟩, rfl⟩

theorem updateRoot_untouched {newRoot : Buff32}
    (h : PoolCalls.updateRoot ctx newRoot w = .ok (u, w')) : Untouched w w' := by
  unfold PoolCalls.updateRoot at h
  simp only [↓bind_ok, ↓exists_read, onRegistry_ok] at h
  obtain ⟨registry, hrun, rfl⟩ := h
  obtain ⟨-, -, -, -, -, rfl⟩ := updateRoot_ok.mp hrun
  exact ⟨rfl, rfl⟩

theorem recordShield_untouched {amount : Nat}
    (h : onRegistry (recordShield ctx amount) w = .ok (u, w')) : Untouched w w' := by
  obtain ⟨registry, hrun, rfl⟩ := onRegistry_ok.mp h
  obtain ⟨-, -, -, -, -, -, rfl⟩ := recordShield_ok.mp hrun
  exact ⟨rfl, rfl⟩

theorem recordWithdrawal_untouched {amount : Nat}
    (h : onRegistry (recordWithdrawal ctx amount) w = .ok (u, w')) : Untouched w w' := by
  obtain ⟨registry, hrun, rfl⟩ := onRegistry_ok.mp h
  obtain ⟨-, -, -, -, -, -, -, rfl⟩ := recordWithdrawal_ok.mp hrun
  exact ⟨rfl, rfl⟩

theorem recordTransfer_untouched (h : onRegistry (recordTransfer ctx) w = .ok (u, w')) :
    Untouched w w' := by
  obtain ⟨registry, hrun, rfl⟩ := onRegistry_ok.mp h
  obtain ⟨-, -, -, rfl⟩ := recordTransfer_ok.mp hrun
  exact ⟨rfl, rfl⟩

end StxShield
