import StxShield.Chain.Execution
import StxShield.Effects.Footprint
import StxShield.Library.Failure

/-!
# Where the consistency checks can fail

Some errors stand for broken books rather than for a bad request.  Everything
the operations do but one check each fails with other errors, those of token
code included: the pools replace them by their own.
-/

namespace StxShield

open Library Exec World

/-- The errors of the nullifier count and of the two shielded totals. -/
def consistencyErrors : List Nat :=
  [PrivacyRegistry.errNullifierInvariantViolation, PrivacyRegistry.errInsufficientShieldedBalance,
    Sip10Pool.errInsufficientShielded]

/-- The errors of a payout of STX that does not go through, from the pool and from
the fee contract. -/
def payoutErrors : List Nat :=
  [PrivacyPool.errStxTransferFailed, ProtocolFees.errStxTransferFailed]

def custodyErrors : List Nat := consistencyErrors ++ payoutErrors

theorem consistencyErrors_subset : consistencyErrors ⊆ custodyErrors :=
  List.subset_append_left _ _

theorem payoutErrors_subset : payoutErrors ⊆ custodyErrors :=
  List.subset_append_right _ _

variable {α : Type} {codes : List Nat} {P : Primitives} {tokens : TokenCode} {ctx : Ctx}
  {inclusion : Inclusion} {token : Principal}

/-! ## Calls between contracts -/

@[simp]
theorem spares_onRegistry {m : Exec PrivacyRegistry α} (h : Spares codes m) :
    Spares codes (onRegistry m) := spares_zoom h

@[simp]
theorem spares_onNoteManager {m : Exec NoteManager α} (h : Spares codes m) :
    Spares codes (onNoteManager m) := spares_zoom h

@[simp]
theorem spares_onZkVerifier {m : Exec Verifier α} (h : Spares codes m) :
    Spares codes (onZkVerifier m) := spares_zoom h

@[simp]
theorem spares_onSip10ZkVerifier {m : Exec Sip10Verifier α} (h : Spares codes m) :
    Spares codes (onSip10ZkVerifier m) := spares_zoom h

@[simp]
theorem spares_onProtocolFees {m : Exec ProtocolFees α} (h : Spares codes m) :
    Spares codes (onProtocolFees m) := spares_zoom h

@[simp]
theorem spares_onSip10ProtocolFees {m : Exec Sip10ProtocolFees α} (h : Spares codes m) :
    Spares codes (onSip10ProtocolFees m) := spares_zoom h

@[simp]
theorem spares_onSip10Pool {m : Exec Sip10Pool α} (h : Spares codes m) :
    Spares codes (onSip10Pool m) := spares_zoom h

@[simp]
theorem spares_record (event : Event) : Spares codes (record event) := spares_modify

/-- An error comes from the body: refusing to enter it aborts. -/
theorem within_error {function : FunctionId} {body : Ctx → Exec World α} {w : World} {code : Nat}
    (h : within ctx function body w = .error (.err code)) :
    body (ctx.entering function) w = .error (.err code) := by
  unfold within at h
  by_cases hrunning : function ∈ ctx.stack
  · rw [if_pos hrunning] at h
    cases h
  · rwa [if_neg hrunning] at h

@[simp]
theorem spares_within {function : FunctionId} {body : Ctx → Exec World α}
    (h : Spares codes (body (ctx.entering function))) :
    Spares codes (within ctx function body) := fun s code hcode hfail =>
  h s code hcode (within_error hfail)

/-- The error of a call is that of the function it enters. -/
theorem execCall_error {env : Env} {call : Call} {fault : Nat} {w : World}
    (h : execCall env tokens ctx call w = .error (.err fault)) :
    dispatch env tokens (call.function?.elim ctx ctx.entering) call w = .error (.err fault) := by
  rcases bind_error.mp h with hread | ⟨_, _, hread, hrest⟩
  · cases hread
  · obtain ⟨rfl, rfl⟩ := read_ok.mp hread
    rcases bind_error.mp hrest with hrun | ⟨_, _, -, hrecord⟩
    · unfold withinCall at hrun
      cases hfunction : call.function? with
      | none =>
          rw [hfunction] at hrun
          exact hrun
      | some function =>
          rw [hfunction] at hrun
          exact within_error hrun
    · rcases bind_error.mp hrecord with hfail | ⟨_, _, -, hfail⟩ <;> cases hfail

/-! ## The registry and the note manager -/

namespace PrivacyRegistry

theorem checkActive_spares_custody : Spares custodyErrors checkActive := by
  refine spares_bind spares_read fun registry => ?_
  cases registry.protocolState <;> simp +decide

@[simp]
theorem checkActive_spares : Spares consistencyErrors checkActive :=
  checkActive_spares_custody.mono consistencyErrors_subset

@[simp]
theorem checkActive_spares_payout : Spares payoutErrors checkActive :=
  checkActive_spares_custody.mono payoutErrors_subset

theorem validateWithdrawalAmount_spares_custody (amount : Nat) :
    Spares custodyErrors (validateWithdrawalAmount amount) := by
  intro s code hcode h
  simp +decide [validateWithdrawalAmount, bind_error_of_spares hcode, error_of_spares hcode] at h

@[simp]
theorem validateWithdrawalAmount_spares (amount : Nat) :
    Spares consistencyErrors (validateWithdrawalAmount amount) :=
  (validateWithdrawalAmount_spares_custody amount).mono consistencyErrors_subset

@[simp]
theorem validateWithdrawalAmount_spares_payout (amount : Nat) :
    Spares payoutErrors (validateWithdrawalAmount amount) :=
  (validateWithdrawalAmount_spares_custody amount).mono payoutErrors_subset

@[simp]
theorem registerCommitment_spares (commitment : Buff32) (version : Nat) :
    Spares consistencyErrors (registerCommitment ctx commitment version) := by
  intro s code hcode h
  simp +decide [registerCommitment, bind_error_of_spares hcode, error_of_spares hcode] at h

@[simp]
theorem updateRoot_spares (newRoot : Buff32) (version : Nat) :
    Spares consistencyErrors (updateRoot ctx newRoot version) := by
  intro s code hcode h
  simp +decide [updateRoot, bind_error_of_spares hcode, error_of_spares hcode] at h

@[simp]
theorem recordTransfer_spares : Spares consistencyErrors (recordTransfer ctx) := by
  intro s code hcode h
  simp +decide [recordTransfer, bind_error_of_spares hcode, error_of_spares hcode] at h

@[simp]
theorem recordNoteCreated_spares : Spares consistencyErrors (recordNoteCreated ctx) := by
  intro s code hcode h
  simp +decide [recordNoteCreated, bind_error_of_spares hcode, error_of_spares hcode] at h

end PrivacyRegistry

@[simp]
theorem NoteManager.registerNote_spares (noteId ownerCommitment metadata : Buff32)
    (version : Nat) :
    Spares consistencyErrors (registerNote ctx noteId ownerCommitment metadata version) := by
  intro s code hcode h
  simp +decide [registerNote, bind_error_of_spares hcode, error_of_spares hcode] at h

namespace PoolCalls

@[simp]
theorem checkCurrentRoot_spares {declared : Buff32} {stale unknown : Nat}
    (hstale : stale ∉ consistencyErrors) (hunknown : unknown ∉ consistencyErrors) :
    Spares consistencyErrors (checkCurrentRoot declared stale unknown) :=
  spares_bind spares_read fun _ =>
    spares_bind (spares_require hstale) fun _ => spares_require hunknown

@[simp]
theorem registerNote_spares (noteId ownerCommitment metadata : Buff32) :
    Spares consistencyErrors (registerNote ctx noteId ownerCommitment metadata) :=
  spares_bind spares_read fun _ => NoteManager.registerNote_spares _ _ _ _

@[simp]
theorem registerCommitment_spares (commitment : Buff32) :
    Spares consistencyErrors (registerCommitment ctx commitment) :=
  spares_bind spares_read fun _ =>
    spares_onRegistry (PrivacyRegistry.registerCommitment_spares _ _)

@[simp]
theorem updateRoot_spares (newRoot : Buff32) :
    Spares consistencyErrors (updateRoot ctx newRoot) :=
  spares_bind spares_read fun _ => spares_onRegistry (PrivacyRegistry.updateRoot_spares _ _)

end PoolCalls

/-! ## Verifiers and fees -/

theorem Verifier.countVerified_spares (stats : VerificationStats) (proofType : Nat) :
    Spares codes (countVerified stats proofType) := by
  intro s code hcode h
  simp [countVerified, bind_error_of_spares hcode, error_of_spares hcode] at h

theorem ZkVerifier.verifyProof_spares_custody (proofType version : Nat) (inputsHash : Buff32) :
    Spares custodyErrors (verifyProof P ctx proofType version inputsHash inclusion) := by
  refine spares_bind (spares_onRegistry PrivacyRegistry.checkActive_spares_custody) fun _ =>
    spares_bind spares_read fun w => spares_bind (spares_onZkVerifier ?_) fun _ =>
      spares_bind (spares_record _) fun _ => spares_pure _
  intro s code hcode h
  simp +decide [Verifier.verifyProof, bind_error_of_spares hcode, error_of_spares hcode,
    Verifier.countVerified_spares] at h

@[simp]
theorem ZkVerifier.verifyProof_spares (proofType version : Nat) (inputsHash : Buff32) :
    Spares consistencyErrors (verifyProof P ctx proofType version inputsHash inclusion) :=
  (verifyProof_spares_custody proofType version inputsHash).mono consistencyErrors_subset

@[simp]
theorem ZkVerifier.verifyProof_spares_payout (proofType version : Nat) (inputsHash : Buff32) :
    Spares payoutErrors (verifyProof P ctx proofType version inputsHash inclusion) :=
  (verifyProof_spares_custody proofType version inputsHash).mono payoutErrors_subset

@[simp]
theorem Sip10ZkVerifier.verifyProof_spares (proofType version : Nat) (inputsHash : Buff32) :
    Spares consistencyErrors (verifyProof P ctx proofType version inputsHash inclusion) := by
  refine spares_bind (spares_onRegistry PrivacyRegistry.checkActive_spares)
    fun _ => spares_bind spares_read fun w =>
      spares_bind (spares_onSip10ZkVerifier (spares_zoom ?_)) fun _ =>
        spares_bind (spares_record _) fun _ => spares_pure _
  intro s code hcode h
  simp +decide [Verifier.verifyProof, bind_error_of_spares hcode, error_of_spares hcode,
    Verifier.countVerified_spares] at h

@[simp]
theorem ProtocolFees.configuredFee_spares {σ : Type} (registry : PrivacyRegistry)
    (config : FeeConfig) (amount : Nat) :
    Spares codes (configuredFee registry config amount : Exec σ Nat) :=
  spares_ite (spares_bind spares_mulUint fun _ => spares_addUint) (spares_pure _)

theorem ProtocolFees.calculateFee_spares_custody (feeType amount : Nat) :
    Spares custodyErrors (calculateFee feeType amount) :=
  spares_bind spares_read fun _ => spares_bind (spares_unwrap (by decide)) fun _ =>
    configuredFee_spares _ _ _

@[simp]
theorem ProtocolFees.calculateFee_spares (feeType amount : Nat) :
    Spares consistencyErrors (calculateFee feeType amount) :=
  (calculateFee_spares_custody feeType amount).mono consistencyErrors_subset

@[simp]
theorem ProtocolFees.calculateFee_spares_payout (feeType amount : Nat) :
    Spares payoutErrors (calculateFee feeType amount) :=
  (calculateFee_spares_custody feeType amount).mono payoutErrors_subset

@[simp]
theorem Sip10ProtocolFees.calculateFee_spares (assetId feeType amount : Nat) :
    Spares consistencyErrors (calculateFee assetId feeType amount) :=
  spares_bind spares_read fun _ => spares_bind (spares_unwrap (by decide)) fun _ =>
    ProtocolFees.configuredFee_spares _ _ _

@[simp]
theorem ProtocolFees.payFee_spares (feeType fee : Nat) :
    Spares consistencyErrors (payFee ctx feeType fee) := by
  refine spares_ite (spares_bind (fun s code hcode h => ?_) fun _ => spares_pure _) (spares_pure _)
  simp +decide [collectFee, bind_error_of_spares hcode, error_of_spares hcode] at h

@[simp]
theorem Sip10Pool.payFee_spares (assetUid feeType fee : Nat) :
    Spares consistencyErrors (payFee tokens ctx assetUid feeType fee token) := by
  refine spares_ite (spares_bind (spares_within fun s code hcode h => ?_) fun _ => spares_pure _)
    (spares_pure _)
  simp +decide [Sip10ProtocolFees.collectFee, bind_error_of_spares hcode,
    error_of_spares hcode] at h

@[simp]
theorem Sip10Pool.poolBalance_spares :
    Spares consistencyErrors (poolBalance tokens ctx token) :=
  spares_within (spares_orError (by decide))

@[simp]
theorem Sip10Pool.checkSpendable_spares (op : Nat) :
    Spares consistencyErrors (checkSpendable token op) := by
  intro s code hcode h
  simp +decide [checkSpendable, bind_error_of_spares hcode, error_of_spares hcode] at h

/-! ## The three checks -/

variable {w : World} {code : Nat}

/-- An unused nullifier is refused only by the count. -/
theorem PoolCalls.registerNullifier_error (hcode : code ∈ consistencyErrors) {nullifier : Buff32}
    (h : registerNullifier ctx nullifier w = .error (.err code)) :
    w.registry.nullifiers.lookup nullifier = none ∧
      ¬ w.registry.protocolStatistics.totalNullifiers <
        w.registry.protocolStatistics.totalCommitments := by
  unfold registerNullifier onRegistry at h
  rw [zoom_error, PrivacyRegistry.registerNullifier] at h
  simp +decide only [bind_error_of_spares hcode, spares_read, PrivacyRegistry.checkActive_spares,
    spares_require, ↓exists_read, ↓PrivacyRegistry.exists_checkActive, ↓exists_require,
    Option.isNone_iff_eq_none] at h
  obtain ⟨-, -, -, hunused, hcount⟩ := h
  refine ⟨hunused, ?_⟩
  rcases bind_error.mp hcount with hfail | ⟨_, _, -, hrest⟩
  · exact (require_error.mp hfail).1
  · simp +decide [bind_error_of_spares hcode, error_of_spares hcode] at hrest

/-- A withdrawal is refused as uncovered only if it is. -/
theorem recordWithdrawal_error (hcode : code ∈ consistencyErrors) {amount : Nat}
    (h : onRegistry (PrivacyRegistry.recordWithdrawal ctx amount) w = .error (.err code)) :
    ¬ amount ≤ w.registry.protocolStatistics.totalShieldedStx := by
  unfold onRegistry at h
  rw [zoom_error, PrivacyRegistry.recordWithdrawal] at h
  simp +decide only [bind_error_of_spares hcode, spares_read, PrivacyRegistry.checkActive_spares,
    spares_require, ↓exists_read, ↓PrivacyRegistry.exists_checkActive, ↓exists_require] at h
  obtain ⟨-, -, -, -, hcovered⟩ := h
  rcases bind_error.mp hcovered with hfail | ⟨_, _, -, hrest⟩
  · exact (require_error.mp hfail).1
  · simp +decide [bind_error_of_spares hcode, error_of_spares hcode] at hrest

end StxShield
