import StxShield.Effects.Footprint

/-!
# What the STX operations do

Every operation runs the same way: it checks its root, a stretch of other
work ends with its statement verified, it commits, and it may go on with
payouts.  The stretches are kept abstract, as a relation that tolerates
whatever leaves the footprint alone; no STX operation has work of that kind
other than verifying.
-/

namespace StxShield

open Library Exec World PrivacyRegistry

/-! ## The shape of an operation's run -/

/-- A relation between chain states that bookkeeping and verification respect. -/
structure Tolerates (rel : World → World → Prop) : Prop where
  trans : ∀ {u v w}, rel u v → rel v w → rel u w
  footprint : ∀ {w w'}, w'.footprint = w.footprint → rel w w'
  verified : ∀ {w w'} {verifier : Principal} {proofType : Nat} {inputsHash : Buff32},
    w'.footprint =
      { w.footprint with
        history := .proofVerified verifier proofType inputsHash :: w.footprint.history } →
    rel w w'
  grows : ∀ {w w'}, rel w w' → w.footprint.history ⊆ w'.footprint.history

/-- The footprint after an operation. -/
def Footprint.commit (f : Footprint) (p : Pending) (version : Nat) : Footprint :=
  { f with
    registry := f.registry.commit p.operation
    shieldedTotal := p.shieldedTotal f.shieldedTotal
    poolStx := p.operation.poolStx f.poolStx
    history := .completed p.operation version :: f.history }

/-- The machine's commit is what happens to the footprint. -/
theorem Footprint.commit_state (f : Footprint) (p : Pending) (version : Nat)
    (rest : List Pending) :
    (f.commit p version).state rest = (f.state (p :: rest)).commit p rest := by
  simp [Footprint.commit, Footprint.state, State.commit, stxReceived, Event.stxReceived,
    Event.operation?]

/-- An operation's statement was verified and its effects are registered. -/
structure Committed (P : Primitives) (p : Pending) (version : Nat) (w w' : World) : Prop where
  verified : Event.proofVerified p.operation.verifier p.operation.proofType
    (P.keccak256 (p.operation.inputs P version)) ∈ w.footprint.history
  registers : ∀ pending, (w.state pending).Registers p
  footprint : w'.footprint = w.footprint.commit p version

/-- A whole run of an operation. -/
structure OperationRun (P : Primitives) (rel : World → World → Prop) (p : Pending)
    (w w' : World) : Prop where
  checks : ∀ pending, (w.state pending).Checks p
  commits : ∃ u v version, rel w u ∧ Committed P p version u v ∧ rel v w'

/-! ## The STX operations -/

variable {P : Primitives} {rel : World → World → Prop} {ctx : Ctx} {w w' : World}
  {inclusion : Inclusion}

/-- What an operation that extends the tree has checked once the root check
passed, nothing but bookkeeping in front of it. -/
theorem checks_of_current {v : World} {p : Pending} (hbefore : v.footprint = w.footprint)
    (hroot : p.operation.declaredRoot = v.registry.currentRoot.root ∧
      v.registry.isKnownRoot p.operation.declaredRoot)
    (hcount : p.registered = w.footprint.registry.registered)
    (hasset : ∀ token, p.operation.currency = .sip10 token →
      w.footprint.assets.idOf token = some p.assetUid) (pending : List Pending) :
    (w.state pending).Checks p where
  registered := hcount
  known := by
    rw [Footprint.state_registry, ← hbefore]
    exact mem_roots_of_isKnownRoot hroot.2
  current _ := by
    rw [Footprint.state_registry, ← hbefore]
    exact hroot.1
  asset := hasset

/-- Bookkeeping in front of a verification is tolerated with it. -/
theorem Tolerates.verifies (hrel : Tolerates rel) {u v : World} {verifier : Principal}
    {proofType : Nat} {inputsHash : Buff32} (hbefore : u.footprint = w.footprint)
    (hverify : v.footprint =
      { u.footprint with
        history := .proofVerified verifier proofType inputsHash :: u.footprint.history }) :
    rel w v :=
  hrel.trans (hrel.footprint hbefore) (hrel.verified hverify)

namespace PrivacyPool

theorem shield_run (hrel : Tolerates rel) (hsender : ctx.txSender ≠ .privacyPool)
    {args : ShieldArgs} {index : Nat}
    (h : shield P ctx args inclusion w = .ok (index, w')) :
    OperationRun P rel ⟨⟨.stx, .shield args⟩, 0, w.footprint.registry.registered⟩ w w' := by
  unfold shield at h
  simp only [↓bind_ok, ↓exists_read, ↓exists_require, ↓orError_ok,
    ↓PoolCalls.exists_checkCurrentRoot, pure_ok] at h
  obtain ⟨_, w1, hactive, -, _, w2, hlimits, hroot, fee, w3, hfee, _, w4, hverify, _, w5, hpay,
    _, w6, hcharge, _, w7, hnote, _, w8, hcommitment, rfl, _, w9, hupdate, _, w10, hrecord,
    _, _, hcompleted, -, rfl⟩ := h
  have hcaller : (ctx.calledBy .privacyPool).txSender ≠ .privacyPool := hsender
  have hbefore : w2.footprint = w.footprint :=
    (keeps_onRegistry (keeps_validateShieldAmount _ _) _ _ _ hlimits).trans
      (keeps_onRegistry (keeps_checkActive _) _ _ _ hactive)
  have hcalculated := keeps_calculateFee footprint _ _ _ _ _ hfee
  have hverified := zkVerifier_verifyProof_effect hverify
  have hpaid : w7.footprint = { w4.footprint with poolStx := w4.footprint.poolStx + args.amount } := by
    rw [PoolCalls.registerNote_keeps_footprint _ _ _ _ _ _ _ hnote,
      payFee_keeps_footprint hcaller _ _ _ _ _ hcharge, stxTransfer_into_pool hsender hpay]
  obtain ⟨hleaf, hindex, hleaves⟩ := PoolCalls.registerCommitment_effect hcommitment
  obtain ⟨hnewRoot, hroots⟩ := PoolCalls.updateRoot_effect hupdate
  have htotal := recordShield_effect hrecord
  rw [hpaid] at hleaf hindex hleaves
  rw [hleaves] at hnewRoot hroots
  refine ⟨checks_of_current hbefore hroot rfl (by simp), w4, _,
    w.registry.protocolVersions.circuit, hrel.verifies (hcalculated.trans hbefore) hverified,
    ⟨?_, fun pending => ?_, ?_⟩, hrel.footprint rfl⟩
  · rw [hverified]
    exact List.mem_cons_self
  · exact
      { nullifiers_fresh := by simp [Operation.nullifiers]
        nullifiers_nodup := by simp [Operation.nullifiers]
        commitments_fresh := by simpa [Operation.commitments] using hleaf
        commitments_nodup := by simp [Operation.commitments]
        extension := by
          rintro root index ⟨⟩
          exact ⟨hindex, hnewRoot⟩
        covered := Nat.zero_le _
        paid := fun _ => Nat.zero_le _ }
  · rw [record_effect hcompleted, htotal, hroots]
    simp [Footprint.commit, RegistryLedger.commit, Operation.commitments, Operation.nullifiers,
      Operation.extension, Operation.deposit, Operation.payout, Operation.poolStx,
      Pending.shieldedTotal]

theorem transfer_run (hrel : Tolerates rel) (hsender : ctx.txSender ≠ .privacyPool)
    {args : TransferArgs} {index : Nat}
    (h : transfer P ctx args inclusion w = .ok (index, w')) :
    OperationRun P rel ⟨⟨.stx, .transfer args⟩, 0, w.footprint.registry.registered⟩ w w' := by
  unfold transfer at h
  simp only [↓bind_ok, ↓exists_read, ↓exists_require, ↓PoolCalls.exists_checkCurrentRoot,
    pure_ok] at h
  obtain ⟨_, w1, hactive, -, hroot, fee, w3, hfee, _, w4, hverify, _, w5, hcharge, _, w6,
    hnullifier, _, w7, hcommitment, rfl, _, w8, hnote, _, w9, hupdate, _, w10, hrecord, _, _,
    hcompleted, -, rfl⟩ := h
  have hcaller : (ctx.calledBy .privacyPool).txSender ≠ .privacyPool := hsender
  have hbefore : w1.footprint = w.footprint :=
    keeps_onRegistry (keeps_checkActive _) _ _ _ hactive
  have hcalculated := keeps_calculateFee footprint _ _ _ _ _ hfee
  have hverified := zkVerifier_verifyProof_effect hverify
  have hcharged := payFee_keeps_footprint hcaller _ _ _ _ _ hcharge
  have hnoted := PoolCalls.registerNote_keeps_footprint _ _ _ _ _ _ _ hnote
  have hcounted := keeps_onRegistry recordTransfer_keeps_ledger _ _ _ hrecord
  obtain ⟨hspent, hnullifiers⟩ := PoolCalls.registerNullifier_effect hnullifier
  obtain ⟨hleaf, hindex, hleaves⟩ := PoolCalls.registerCommitment_effect hcommitment
  obtain ⟨hnewRoot, hroots⟩ := PoolCalls.updateRoot_effect hupdate
  rw [hcharged] at hspent hnullifiers
  rw [hnullifiers] at hleaf hindex hleaves
  rw [hnoted, hleaves] at hnewRoot hroots
  refine ⟨checks_of_current hbefore hroot rfl (by simp), w4, _,
    w.registry.protocolVersions.circuit, hrel.verifies (hcalculated.trans hbefore) hverified,
    ⟨?_, fun pending => ?_, ?_⟩, hrel.footprint rfl⟩
  · rw [hverified]
    exact List.mem_cons_self
  · exact
      { nullifiers_fresh := by simpa [Operation.nullifiers] using hspent
        nullifiers_nodup := by simp [Operation.nullifiers]
        commitments_fresh := by simpa [Operation.commitments] using hleaf
        commitments_nodup := by simp [Operation.commitments]
        extension := by
          rintro root index ⟨⟩
          exact ⟨hindex, hnewRoot⟩
        covered := Nat.zero_le _
        paid := fun _ => Nat.zero_le _ }
  · rw [record_effect hcompleted, hcounted, hroots]
    simp [Footprint.commit, RegistryLedger.commit, Operation.commitments, Operation.nullifiers,
      Operation.extension, Operation.deposit, Operation.payout, Operation.poolStx,
      Pending.shieldedTotal]

theorem withdraw_run (hrel : Tolerates rel) {args : WithdrawArgs} {paid : Nat}
    (h : withdraw P ctx args inclusion w = .ok (paid, w')) :
    OperationRun P rel ⟨⟨.stx, .withdraw args⟩, 0, w.footprint.registry.registered⟩ w w' := by
  unfold withdraw at h
  simp only [↓bind_ok, ↓exists_read, ↓exists_require, ↓orError_ok, pure_ok] at h
  obtain ⟨_, w1, hactive, -, _, w2, hlimits, hknown, -, fee, w3, hfee, hless, _, w4, hverify,
    _, w5, hnullifier, _, w6, hrecord, _, w7, hcompleted, _, w8, hcharge, _, w9, hpay, -,
    rfl⟩ := h
  have hbefore : w2.footprint = w.footprint :=
    (keeps_onRegistry (keeps_validateWithdrawalAmount _ _) _ _ _ hlimits).trans
      (keeps_onRegistry (keeps_checkActive _) _ _ _ hactive)
  have hcalculated := keeps_calculateFee footprint _ _ _ _ _ hfee
  have hverified := zkVerifier_verifyProof_effect hverify
  obtain ⟨hspent, hnullifiers⟩ := PoolCalls.registerNullifier_effect hnullifier
  obtain ⟨hcovered, htotal⟩ := recordWithdrawal_effect hrecord
  obtain ⟨hfeePaid, hcharged⟩ := payFee_out_of_pool rfl hcharge
  obtain ⟨hnetPaid, hpaid⟩ := stxTransfer_out_of_pool hpay
  rw [hnullifiers] at hcovered htotal
  rw [record_effect hcompleted, htotal] at hfeePaid hcharged
  rw [hcharged] at hnetPaid hpaid
  refine ⟨fun pending => ⟨rfl, mem_roots_of_isKnownRoot hknown, by simp [Operation.extension],
    by simp⟩, w4, _, w.registry.protocolVersions.circuit,
    hrel.verifies (hcalculated.trans hbefore) hverified, ⟨?_, fun pending => ?_, ?_⟩,
    hrel.footprint rfl⟩
  · rw [hverified]
    exact List.mem_cons_self
  · exact
      { nullifiers_fresh := by simpa [Operation.nullifiers] using hspent
        nullifiers_nodup := by simp [Operation.nullifiers]
        commitments_fresh := by simp [Operation.commitments]
        commitments_nodup := by simp [Operation.commitments]
        extension := by simp [Operation.extension]
        covered := hcovered
        paid := fun _ => by
          simp only [Operation.payout, Footprint.state_poolStx] at hnetPaid hfeePaid ⊢
          omega }
  · rw [hpaid]
    simp only [Footprint.commit, RegistryLedger.commit, Operation.commitments,
      Operation.nullifiers, Operation.extension, Operation.deposit, Operation.payout,
      Operation.poolStx, Pending.shieldedTotal, List.append_nil, List.length_nil, Nat.add_zero]
    have hsum : w4.footprint.poolStx - fee - (args.amount - fee) = w4.footprint.poolStx - args.amount := by
      omega
    rw [hsum]

end PrivacyPool

namespace SplitMergeManager

theorem splitNote_run (hrel : Tolerates rel) (hsender : ctx.txSender ≠ .privacyPool)
    {args : SplitArgs} {indices : Nat × Nat}
    (h : splitNote P ctx args inclusion w = .ok (indices, w')) :
    OperationRun P rel ⟨⟨.stx, .split args⟩, 0, w.footprint.registry.registered⟩ w w' := by
  unfold splitNote at h
  simp only [↓bind_ok, ↓exists_read, ↓exists_require, ↓exists_addUint,
    ↓PoolCalls.exists_checkCurrentRoot, pure_ok] at h
  obtain ⟨_, w1, hactive, -, -, hdistinct, hroot, fee, w3, hfee, _, w4, hverify, _, w5, hcharge,
    _, w6, hnullifier, _, w7, hcommitment1, rfl, _, w8, hnote1, _, w9, hcommitment2, -, rfl,
    _, w10, hnote2, _, w11, hupdate, _, _, hcompleted, -, rfl⟩ := h
  have hcaller : (ctx.calledBy .splitMergeManager).txSender ≠ .privacyPool := hsender
  have hbefore : w1.footprint = w.footprint :=
    keeps_onRegistry (keeps_checkActive _) _ _ _ hactive
  have hcalculated := keeps_calculateFee footprint _ _ _ _ _ hfee
  have hverified := zkVerifier_verifyProof_effect hverify
  have hcharged := payFee_keeps_footprint hcaller _ _ _ _ _ hcharge
  have hnoted1 := PoolCalls.registerNote_keeps_footprint _ _ _ _ _ _ _ hnote1
  have hnoted2 := PoolCalls.registerNote_keeps_footprint _ _ _ _ _ _ _ hnote2
  obtain ⟨hspent, hnullifiers⟩ := PoolCalls.registerNullifier_effect hnullifier
  obtain ⟨hleaf1, hindex1, hleaves1⟩ := PoolCalls.registerCommitment_effect hcommitment1
  obtain ⟨hleaf2, hindex2, hleaves2⟩ := PoolCalls.registerCommitment_effect hcommitment2
  obtain ⟨hnewRoot, hroots⟩ := PoolCalls.updateRoot_effect hupdate
  rw [hcharged] at hspent hnullifiers
  rw [hnullifiers] at hleaf1 hindex1 hleaves1
  rw [hnoted1, hleaves1] at hleaf2 hindex2 hleaves2
  rw [hnoted2, hleaves2] at hnewRoot hroots
  refine ⟨checks_of_current hbefore hroot rfl (by simp), w4, _,
    w.registry.protocolVersions.circuit, hrel.verifies (hcalculated.trans hbefore) hverified,
    ⟨?_, fun pending => ?_, ?_⟩, hrel.footprint rfl⟩
  · rw [hverified]
    exact List.mem_cons_self
  · have hfresh2 : args.commitment2 ∉ w4.footprint.registry.leaves := fun hmem =>
      hleaf2 (List.mem_append_left _ hmem)
    exact
      { nullifiers_fresh := by simpa [Operation.nullifiers] using hspent
        nullifiers_nodup := by simp [Operation.nullifiers]
        commitments_fresh := by
          simpa [Operation.commitments] using And.intro hleaf1 hfresh2
        commitments_nodup := by simpa [Operation.commitments] using hdistinct
        extension := by
          rintro root index ⟨⟩
          exact ⟨hindex1, hnewRoot⟩
        covered := Nat.zero_le _
        paid := fun _ => Nat.zero_le _ }
  · rw [record_effect hcompleted, hroots]
    simp [Footprint.commit, RegistryLedger.commit, Operation.commitments, Operation.nullifiers,
      Operation.extension, Operation.deposit, Operation.payout, Operation.poolStx,
      Pending.shieldedTotal]

theorem mergeNotes_run (hrel : Tolerates rel) (hsender : ctx.txSender ≠ .privacyPool)
    {args : MergeArgs} {index : Nat}
    (h : mergeNotes P ctx args inclusion w = .ok (index, w')) :
    OperationRun P rel ⟨⟨.stx, .merge args⟩, 0, w.footprint.registry.registered⟩ w w' := by
  unfold mergeNotes at h
  simp only [↓bind_ok, ↓exists_read, ↓exists_require, ↓PoolCalls.exists_checkCurrentRoot,
    pure_ok] at h
  obtain ⟨_, w1, hactive, -, -, hdistinct, hroot, fee, w3, hfee, _, w4, hverify, _, w5, hcharge,
    _, w6, hnullifier1, _, w7, hnullifier2, _, w8, hcommitment, rfl, _, w9, hnote, _, w10,
    hupdate, _, _, hcompleted, -, rfl⟩ := h
  have hcaller : (ctx.calledBy .splitMergeManager).txSender ≠ .privacyPool := hsender
  have hbefore : w1.footprint = w.footprint :=
    keeps_onRegistry (keeps_checkActive _) _ _ _ hactive
  have hcalculated := keeps_calculateFee footprint _ _ _ _ _ hfee
  have hverified := zkVerifier_verifyProof_effect hverify
  have hcharged := payFee_keeps_footprint hcaller _ _ _ _ _ hcharge
  have hnoted := PoolCalls.registerNote_keeps_footprint _ _ _ _ _ _ _ hnote
  obtain ⟨hspent1, hnullifiers1⟩ := PoolCalls.registerNullifier_effect hnullifier1
  obtain ⟨hspent2, hnullifiers2⟩ := PoolCalls.registerNullifier_effect hnullifier2
  obtain ⟨hleaf, hindex, hleaves⟩ := PoolCalls.registerCommitment_effect hcommitment
  obtain ⟨hnewRoot, hroots⟩ := PoolCalls.updateRoot_effect hupdate
  rw [hcharged] at hspent1 hnullifiers1
  rw [hnullifiers1] at hspent2 hnullifiers2
  rw [hnullifiers2] at hleaf hindex hleaves
  rw [hnoted, hleaves] at hnewRoot hroots
  refine ⟨checks_of_current hbefore hroot rfl (by simp), w4, _,
    w.registry.protocolVersions.circuit, hrel.verifies (hcalculated.trans hbefore) hverified,
    ⟨?_, fun pending => ?_, ?_⟩, hrel.footprint rfl⟩
  · rw [hverified]
    exact List.mem_cons_self
  · have hfresh2 : args.nullifier2 ∉ w4.footprint.registry.nullifiers := fun hmem =>
      hspent2 (List.mem_append_left _ hmem)
    exact
      { nullifiers_fresh := by
          simpa [Operation.nullifiers] using And.intro hspent1 hfresh2
        nullifiers_nodup := by simpa [Operation.nullifiers] using hdistinct
        commitments_fresh := by simpa [Operation.commitments] using hleaf
        commitments_nodup := by simp [Operation.commitments]
        extension := by
          rintro root index ⟨⟩
          exact ⟨hindex, hnewRoot⟩
        covered := Nat.zero_le _
        paid := fun _ => Nat.zero_le _ }
  · rw [record_effect hcompleted, hroots]
    simp [Footprint.commit, RegistryLedger.commit, Operation.commitments, Operation.nullifiers,
      Operation.extension, Operation.deposit, Operation.payout, Operation.poolStx,
      Pending.shieldedTotal]

end SplitMergeManager

end StxShield
