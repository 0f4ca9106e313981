import StxShield.Effects.StxOperations

/-!
# What the SIP-10 operations do

The runs have the same shape as the STX operations', but the stretches around
the commit contain token code.  It is assumed of the token interface that it
respects the relation in every context the pool calls it from.
-/

namespace StxShield

open Library Exec World PrivacyRegistry

/-- A property of contexts that survives the calls the contracts make; the
pool's STX is not at the disposal of such a context. -/
structure Admissible (admits : Ctx → Prop) : Prop where
  sender : ∀ {ctx}, admits ctx → ctx.txSender ≠ .privacyPool
  calledBy : ∀ {ctx} (contract : Principal), admits ctx → admits (ctx.calledBy contract)
  entering : ∀ {ctx} (function : FunctionId), admits ctx → admits (ctx.entering function)

/-- It also survives `as-contract`.  The contracts that call tokens inside
`as-contract` hold no STX. -/
structure Delegable (admits : Ctx → Prop) : Prop extends Admissible admits where
  asContract : ∀ {ctx} {contract : Principal}, contract ≠ .privacyPool →
    contract ≠ .protocolFees → admits ctx → admits (ctx.asContract contract)

/-- A token respects a relation in the admitted contexts. -/
def TokenRespects (admits : Ctx → Prop) (rel : World → World → Prop)
    (code : Ctx → TokenFunction → Exec World Nat) : Prop :=
  ∀ ctx function, admits ctx → Respects rel (code ctx function)

/-- Every token does. -/
def TokensRespect (admits : Ctx → Prop) (rel : World → World → Prop) (tokens : TokenCode) : Prop :=
  ∀ token, TokenRespects admits rel (tokens token)

variable {P : Primitives} {rel : World → World → Prop} {admits : Ctx → Prop}
  {tokens : TokenCode} {ctx : Ctx} {w w' : World} {inclusion : Inclusion} {token : Principal}
  {u : Unit}

namespace Sip10ProtocolFees

/-- Collecting a fee is bookkeeping around a call of the token. -/
theorem collectFee_respects (hrel : Tolerates rel) (hadmits : Admissible admits)
    (htoken : TokenRespects admits rel (tokens token)) (hctx : admits ctx)
    (assetId feeType amount : Nat) :
    Respects rel (collectFee tokens ctx assetId feeType amount token) := by
  intro w value w' h
  unfold collectFee at h
  simp only [↓bind_ok, ↓exists_read, ↓exists_onRegistry, ↓exists_checkActive, ↓exists_require,
    ↓exists_unwrap, ↓orError_ok, ↓exists_addUint, onSip10ProtocolFees_ok, modify_ok, pure_ok] at h
  obtain ⟨_, -, -, -, -, -, -, -, _, mid, htransfer, -, -, -, _, _, ⟨_, rfl, rfl⟩, -, rfl⟩ := h
  have hcalled := htoken _ _ (hadmits.calledBy _ hctx) _ _ _ htransfer
  exact hrel.trans hcalled (hrel.footprint rfl)

/-- Paying fees out is bookkeeping around a call of the token. -/
theorem withdrawFees_respects (hrel : Tolerates rel) (hadmits : Delegable admits)
    (htoken : TokenRespects admits rel (tokens token)) (hctx : admits ctx)
    (assetId amount : Nat) : Respects rel (withdrawFees tokens ctx assetId amount token) := by
  intro w value w' h
  unfold withdrawFees at h
  simp only [↓bind_ok, ↓exists_read, ↓exists_require, ↓exists_unwrap, ↓orError_ok,
    ↓exists_addUint, ↓exists_subUint, onSip10ProtocolFees_ok, modify_ok] at h
  obtain ⟨_, -, -, -, -, -, -, _, mid, htransfer, -, -, _, rfl, rfl⟩ := h
  have hcalled := htoken _ _ (hadmits.asContract (by decide) (by decide) hctx) _ _ _ htransfer
  exact hrel.trans hcalled (hrel.footprint rfl)

end Sip10ProtocolFees

namespace Sip10Pool

theorem poolBalance_respects (hadmits : Admissible admits)
    (htoken : TokenRespects admits rel (tokens token)) (hctx : admits ctx) :
    Respects rel (poolBalance tokens ctx token) := by
  intro w balance w' h
  obtain ⟨-, hrun⟩ := within_ok.mp h
  exact htoken _ _ (hadmits.calledBy _ (hadmits.entering _ hctx)) _ _ _ (orError_ok.mp hrun)

theorem payFee_respects (hrel : Tolerates rel) (hadmits : Admissible admits)
    (htoken : TokenRespects admits rel (tokens token)) (hctx : admits ctx)
    (assetUid feeType fee : Nat) : Respects rel (payFee tokens ctx assetUid feeType fee token) := by
  intro w value w' h
  unfold payFee at h
  simp only [ite_ok, bind_ok, pure_ok, within_ok] at h
  rcases h with ⟨-, _, _, ⟨-, hcollect⟩, -, rfl⟩ | ⟨-, -, rfl⟩
  · exact Sip10ProtocolFees.collectFee_respects hrel hadmits htoken (hadmits.entering _ hctx)
      _ _ _ _ _ _ hcollect
  · exact hrel.footprint rfl

/-- The checks of a spend change nothing and find the asset's id. -/
theorem checkSpendable_ok {op assetUid : Nat}
    (h : checkSpendable token op w = .ok (assetUid, w')) :
    w' = w ∧ w.footprint.assets.idOf token = some assetUid := by
  unfold checkSpendable at h
  simp only [↓bind_ok, ↓exists_read, ↓exists_unwrap, ↓exists_onRegistry, ↓exists_checkActive,
    ↓exists_require, pure_ok] at h
  obtain ⟨_, hasset, -, -, -, rfl, rfl⟩ := h
  exact ⟨rfl, hasset⟩

/-- Writing an asset's shielded total. -/
theorem insert_shieldedTotal_effect {assetUid total : Nat}
    (h : onSip10Pool (modify fun pool =>
      { pool with shieldedTotal := pool.shieldedTotal.insert assetUid total }) w = .ok (u, w')) :
    w'.footprint =
      { w.footprint with
        shieldedTotal := Function.update w.footprint.shieldedTotal assetUid total } := by
  simp only [onSip10Pool_ok, modify_ok] at h
  obtain ⟨_, rfl, rfl⟩ := h
  have hupdate : (fun uid => getShieldedTotal
      { w.sip10Pool with shieldedTotal := w.sip10Pool.shieldedTotal.insert assetUid total } uid) =
      Function.update w.footprint.shieldedTotal assetUid total := by
    funext uid
    by_cases heq : uid = assetUid
    · subst heq
      simp [getShieldedTotal]
    · simp [getShieldedTotal, footprint, Function.update_of_ne heq, AList.lookup_insert_ne heq]
  exact Footprint.ext rfl rfl hupdate rfl rfl rfl

theorem shield_run (hrel : Tolerates rel) (hadmits : Admissible admits)
    (htoken : TokenRespects admits rel (tokens token)) (hctx : admits ctx)
    {args : ShieldArgs} {index : Nat}
    (h : shield P tokens ctx token args inclusion w = .ok (index, w')) :
    ∃ assetUid,
      OperationRun P rel ⟨⟨.sip10 token, .shield args⟩, assetUid, w.footprint.registry.registered⟩
        w w' := by
  unfold shield at h
  simp only [↓bind_ok, ↓exists_read, ↓exists_require, ↓exists_unwrap, ↓orError_ok,
    ↓exists_addUint, ↓PoolCalls.exists_checkCurrentRoot, pure_ok] at h
  obtain ⟨assetUid, hasset, _, w1, hactive, -, -, asset, -, -, hroot, fee, w2, hfee, _, w3,
    hbalance, _, w4, hverify, _, w5, htransfer, _, w6, hdelta, -, -, _, w7, hcharge, _, w8, hnote,
    _, w9, hcommitment, rfl, _, w10, hupdate, -, _, w11, htotal, _, _, hcompleted, -, rfl⟩ := h
  have hcaller := hadmits.calledBy .sip10Pool hctx
  have hbefore : w1.footprint = w.footprint :=
    keeps_onRegistry (keeps_checkActive _) _ _ _ hactive
  have hcalculated := keeps_sip10CalculateFee footprint _ _ _ _ _ _ hfee
  have hverified := sip10ZkVerifier_verifyProof_effect hverify
  have hnoted := PoolCalls.registerNote_keeps_footprint _ _ _ _ _ _ _ hnote
  obtain ⟨hleaf, hindex, hleaves⟩ := PoolCalls.registerCommitment_effect hcommitment
  obtain ⟨hnewRoot, hroots⟩ := PoolCalls.updateRoot_effect hupdate
  have hcounted : w11.footprint =
      { w10.footprint with
        shieldedTotal := Function.update w10.footprint.shieldedTotal assetUid
          (w10.footprint.shieldedTotal assetUid + args.amount) } :=
    insert_shieldedTotal_effect htotal
  have hwork : rel w4 w7 :=
    hrel.trans (htoken _ _ hcaller _ _ _ htransfer)
      (hrel.trans (poolBalance_respects hadmits htoken hctx _ _ _ hdelta)
        (payFee_respects hrel hadmits htoken hcaller _ _ _ _ _ _ hcharge))
  have hstretch : rel w w7 :=
    hrel.trans (hrel.footprint (hcalculated.trans hbefore))
      (hrel.trans (poolBalance_respects hadmits htoken hctx _ _ _ hbalance)
        (hrel.trans (hrel.verified hverified) hwork))
  rw [hnoted] at hleaf hindex hleaves
  rw [hleaves] at hnewRoot hroots
  refine ⟨assetUid, checks_of_current hbefore hroot rfl ?_, w7, _, sip10CircuitVersion, hstretch,
    ⟨?_, fun pending => ?_, ?_⟩, hrel.footprint rfl⟩
  · rintro _ ⟨⟩
    exact hasset
  · apply hrel.grows hwork
    rw [hverified]
    exact List.mem_cons_self
  · exact
      { nullifiers_fresh := by simp [Operation.nullifiers]
        nullifiers_nodup := by simp [Operation.nullifiers]
        commitments_fresh := by simpa [Operation.commitments] using hleaf
        commitments_nodup := by simp [Operation.commitments]
        extension := by
          rintro root index ⟨⟩
          exact ⟨hindex, hnewRoot⟩
        covered := Nat.zero_le _
        paid := fun hstx => Currency.noConfusion hstx }
  · rw [record_effect hcompleted, hcounted, hroots]
    simp [Footprint.commit, RegistryLedger.commit, Operation.commitments, Operation.nullifiers,
      Operation.extension, Operation.deposit, Operation.payout, Operation.poolStx,
      Pending.shieldedTotal]

theorem transfer_run (hrel : Tolerates rel) (hadmits : Admissible admits)
    (htoken : TokenRespects admits rel (tokens token)) (hctx : admits ctx)
    {args : TransferArgs} {index : Nat}
    (h : transfer P tokens ctx token args inclusion w = .ok (index, w')) :
    ∃ assetUid,
      OperationRun P rel
        ⟨⟨.sip10 token, .transfer args⟩, assetUid, w.footprint.registry.registered⟩ w w' := by
  unfold transfer at h
  simp only [↓bind_ok, ↓exists_require, ↓PoolCalls.exists_checkCurrentRoot, pure_ok] at h
  obtain ⟨assetUid, w0, hspendable, hroot, fee, w1, hfee, _, w2, hverify, _, w3, hcharge, _, w4,
    hnullifier, _, w5, hcommitment, rfl, _, w6, hnote, _, w7, hupdate, _, _, hcompleted, -,
    rfl⟩ := h
  obtain ⟨rfl, hasset⟩ := checkSpendable_ok hspendable
  have hcaller := hadmits.calledBy .sip10Pool hctx
  have hcalculated := keeps_sip10CalculateFee footprint _ _ _ _ _ _ hfee
  have hverified := sip10ZkVerifier_verifyProof_effect hverify
  have hwork : rel w2 w3 := payFee_respects hrel hadmits htoken hcaller _ _ _ _ _ _ hcharge
  have hnoted := PoolCalls.registerNote_keeps_footprint _ _ _ _ _ _ _ hnote
  obtain ⟨hspent, hnullifiers⟩ := PoolCalls.registerNullifier_effect hnullifier
  obtain ⟨hleaf, hindex, hleaves⟩ := PoolCalls.registerCommitment_effect hcommitment
  obtain ⟨hnewRoot, hroots⟩ := PoolCalls.updateRoot_effect hupdate
  rw [hnullifiers] at hleaf hindex hleaves
  rw [hnoted, hleaves] at hnewRoot hroots
  refine ⟨assetUid, checks_of_current rfl hroot rfl ?_, w3, _, sip10CircuitVersion,
    hrel.trans (hrel.verifies hcalculated hverified) hwork, ⟨?_, fun pending => ?_, ?_⟩,
    hrel.footprint rfl⟩
  · rintro _ ⟨⟩
    exact hasset
  · apply hrel.grows hwork
    rw [hverified]
    exact List.mem_cons_self
  · exact
      { nullifiers_fresh := by simpa [Operation.nullifiers] using hspent
        nullifiers_nodup := by simp [Operation.nullifiers]
        commitments_fresh := by simpa [Operation.commitments] using hleaf
        commitments_nodup := by simp [Operation.commitments]
        extension := by
          rintro root index ⟨⟩
          exact ⟨hindex, hnewRoot⟩
        covered := Nat.zero_le _
        paid := fun hstx => Currency.noConfusion hstx }
  · rw [record_effect hcompleted, hroots]
    simp [Footprint.commit, RegistryLedger.commit, Operation.commitments, Operation.nullifiers,
      Operation.extension, Operation.deposit, Operation.payout, Operation.poolStx,
      Pending.shieldedTotal]

theorem split_run (hrel : Tolerates rel) (hadmits : Admissible admits)
    (htoken : TokenRespects admits rel (tokens token)) (hctx : admits ctx)
    {args : SplitArgs} {indices : Nat × Nat}
    (h : split P tokens ctx token args inclusion w = .ok (indices, w')) :
    ∃ assetUid,
      OperationRun P rel
        ⟨⟨.sip10 token, .split args⟩, assetUid, w.footprint.registry.registered⟩ w w' := by
  unfold split at h
  simp only [↓bind_ok, ↓exists_require, ↓exists_addUint, ↓PoolCalls.exists_checkCurrentRoot,
    pure_ok] at h
  obtain ⟨assetUid, w0, hspendable, hroot, fee, w1, hfee, _, w2, hverify, _, w3, hcharge, _, w4,
    hnullifier, _, w5, hcommitment1, _, w6, hcommitment2, rfl, -, rfl, _, w7, hnote1, _, w8,
    hnote2, _, w9, hupdate, _, _, hcompleted, -, rfl⟩ := h
  obtain ⟨rfl, hasset⟩ := checkSpendable_ok hspendable
  have hcaller := hadmits.calledBy .sip10Pool hctx
  have hcalculated := keeps_sip10CalculateFee footprint _ _ _ _ _ _ hfee
  have hverified := sip10ZkVerifier_verifyProof_effect hverify
  have hwork : rel w2 w3 := payFee_respects hrel hadmits htoken hcaller _ _ _ _ _ _ hcharge
  have hnoted1 := PoolCalls.registerNote_keeps_footprint _ _ _ _ _ _ _ hnote1
  have hnoted2 := PoolCalls.registerNote_keeps_footprint _ _ _ _ _ _ _ hnote2
  obtain ⟨hspent, hnullifiers⟩ := PoolCalls.registerNullifier_effect hnullifier
  obtain ⟨hleaf1, hindex1, hleaves1⟩ := PoolCalls.registerCommitment_effect hcommitment1
  obtain ⟨hleaf2, hindex2, hleaves2⟩ := PoolCalls.registerCommitment_effect hcommitment2
  obtain ⟨hnewRoot, hroots⟩ := PoolCalls.updateRoot_effect hupdate
  rw [hnullifiers] at hleaf1 hindex1 hleaves1
  rw [hleaves1] at hleaf2 hindex2 hleaves2
  rw [hnoted2, hnoted1, hleaves2] at hnewRoot hroots
  refine ⟨assetUid, checks_of_current rfl hroot rfl ?_, w3, _, sip10CircuitVersion,
    hrel.trans (hrel.verifies hcalculated hverified) hwork, ⟨?_, fun pending => ?_, ?_⟩,
    hrel.footprint rfl⟩
  · rintro _ ⟨⟩
    exact hasset
  · apply hrel.grows hwork
    rw [hverified]
    exact List.mem_cons_self
  · have hfresh2 : args.commitment2 ∉ w3.footprint.registry.leaves := fun hmem =>
      hleaf2 (List.mem_append_left _ hmem)
    have hdistinct : args.commitment1 ≠ args.commitment2 := fun heq =>
      hleaf2 (List.mem_append_right _ (by simp [heq]))
    exact
      { nullifiers_fresh := by simpa [Operation.nullifiers] using hspent
        nullifiers_nodup := by simp [Operation.nullifiers]
        commitments_fresh := by
          simpa [Operation.commitments] using And.intro hleaf1 hfresh2
        commitments_nodup := by simpa [Operation.commitments] using hdistinct
        extension := by
          rintro root index ⟨⟩
          exact ⟨hindex1, hnewRoot⟩
        covered := Nat.zero_le _
        paid := fun hstx => Currency.noConfusion hstx }
  · rw [record_effect hcompleted, hroots]
    simp [Footprint.commit, RegistryLedger.commit, Operation.commitments, Operation.nullifiers,
      Operation.extension, Operation.deposit, Operation.payout, Operation.poolStx,
      Pending.shieldedTotal]

theorem mergeNotes_run (hrel : Tolerates rel) (hadmits : Admissible admits)
    (htoken : TokenRespects admits rel (tokens token)) (hctx : admits ctx)
    {args : MergeArgs} {index : Nat}
    (h : mergeNotes P tokens ctx token args inclusion w = .ok (index, w')) :
    ∃ assetUid,
      OperationRun P rel
        ⟨⟨.sip10 token, .merge args⟩, assetUid, w.footprint.registry.registered⟩ w w' := by
  unfold mergeNotes at h
  simp only [↓bind_ok, ↓exists_require, ↓PoolCalls.exists_checkCurrentRoot, pure_ok] at h
  obtain ⟨assetUid, w0, hspendable, hroot, fee, w1, hfee, _, w2, hverify, _, w3, hcharge, _, w4,
    hnullifier1, _, w5, hnullifier2, _, w6, hcommitment, rfl, _, w7, hnote, _, w8, hupdate,
    _, _, hcompleted, -, rfl⟩ := h
  obtain ⟨rfl, hasset⟩ := checkSpendable_ok hspendable
  have hcaller := hadmits.calledBy .sip10Pool hctx
  have hcalculated := keeps_sip10CalculateFee footprint _ _ _ _ _ _ hfee
  have hverified := sip10ZkVerifier_verifyProof_effect hverify
  have hwork : rel w2 w3 := payFee_respects hrel hadmits htoken hcaller _ _ _ _ _ _ hcharge
  have hnoted := PoolCalls.registerNote_keeps_footprint _ _ _ _ _ _ _ hnote
  obtain ⟨hspent1, hnullifiers1⟩ := PoolCalls.registerNullifier_effect hnullifier1
  obtain ⟨hspent2, hnullifiers2⟩ := PoolCalls.registerNullifier_effect hnullifier2
  obtain ⟨hleaf, hindex, hleaves⟩ := PoolCalls.registerCommitment_effect hcommitment
  obtain ⟨hnewRoot, hroots⟩ := PoolCalls.updateRoot_effect hupdate
  rw [hnullifiers1] at hspent2 hnullifiers2
  rw [hnullifiers2] at hleaf hindex hleaves
  rw [hnoted, hleaves] at hnewRoot hroots
  refine ⟨assetUid, checks_of_current rfl hroot rfl ?_, w3, _, sip10CircuitVersion,
    hrel.trans (hrel.verifies hcalculated hverified) hwork, ⟨?_, fun pending => ?_, ?_⟩,
    hrel.footprint rfl⟩
  · rintro _ ⟨⟩
    exact hasset
  · apply hrel.grows hwork
    rw [hverified]
    exact List.mem_cons_self
  · have hfresh2 : args.nullifier2 ∉ w3.footprint.registry.nullifiers := fun hmem =>
      hspent2 (List.mem_append_left _ hmem)
    have hdistinct : args.nullifier1 ≠ args.nullifier2 := fun heq =>
      hspent2 (List.mem_append_right _ (by simp [heq]))
    exact
      { nullifiers_fresh := by
          simpa [Operation.nullifiers] using And.intro hspent1 hfresh2
        nullifiers_nodup := by simpa [Operation.nullifiers] using hdistinct
        commitments_fresh := by simpa [Operation.commitments] using hleaf
        commitments_nodup := by simp [Operation.commitments]
        extension := by
          rintro root index ⟨⟩
          exact ⟨hindex, hnewRoot⟩
        covered := Nat.zero_le _
        paid := fun hstx => Currency.noConfusion hstx }
  · rw [record_effect hcompleted, hroots]
    simp [Footprint.commit, RegistryLedger.commit, Operation.commitments, Operation.nullifiers,
      Operation.extension, Operation.deposit, Operation.payout, Operation.poolStx,
      Pending.shieldedTotal]

/-- A withdrawal commits first and runs token code again while it pays out. -/
theorem withdraw_run (hrel : Tolerates rel) (hadmits : Delegable admits)
    (htoken : TokenRespects admits rel (tokens token)) (hctx : admits ctx)
    {args : WithdrawArgs} {paid : Nat}
    (h : withdraw P tokens ctx token args inclusion w = .ok (paid, w')) :
    ∃ assetUid,
      OperationRun P rel
        ⟨⟨.sip10 token, .withdraw args⟩, assetUid, w.footprint.registry.registered⟩ w w' := by
  unfold withdraw at h
  simp only [↓bind_ok, ↓exists_read, ↓exists_require, ↓exists_subUint, ↓orError_ok,
    pure_ok] at h
  obtain ⟨assetUid, w0, hspendable, hknown, -, fee, w1, hfee, _, w2, hbalance, -, -, _, w3,
    hverify, _, w4, hnullifier, hcovered, _, w5, htotal, _, w6, hcompleted, _, w7, hcharge, _, w8,
    hpay, _, w9, hdelta, -, -, -, rfl⟩ := h
  obtain ⟨rfl, hasset⟩ := checkSpendable_ok hspendable
  have hself : admits (ctx.asContract .sip10Pool) :=
    hadmits.asContract (by decide) (by decide) hctx
  have hcalculated := keeps_sip10CalculateFee footprint _ _ _ _ _ _ hfee
  have hverified := sip10ZkVerifier_verifyProof_effect hverify
  obtain ⟨hspent, hnullifiers⟩ := PoolCalls.registerNullifier_effect hnullifier
  have hcounted : w5.footprint =
      { w4.footprint with
        shieldedTotal := Function.update w4.footprint.shieldedTotal assetUid
          (w4.footprint.shieldedTotal assetUid - args.amount) } :=
    insert_shieldedTotal_effect htotal
  have hcoveredBefore : args.amount ≤ w3.footprint.shieldedTotal assetUid := by
    have hsame := congrArg Footprint.shieldedTotal hnullifiers
    exact (congrFun hsame assetUid) ▸ hcovered
  have hstretch : rel w0 w3 :=
    hrel.trans (hrel.footprint hcalculated)
      (hrel.trans (poolBalance_respects hadmits.toAdmissible htoken hctx _ _ _ hbalance)
        (hrel.verified hverified))
  have hpayout : rel w6 w9 :=
    hrel.trans (payFee_respects hrel hadmits.toAdmissible htoken hself _ _ _ _ _ _ hcharge)
      (hrel.trans (htoken _ _ hself _ _ _ hpay)
        (poolBalance_respects hadmits.toAdmissible htoken hctx _ _ _ hdelta))
  refine ⟨assetUid, fun pending => ⟨rfl, mem_roots_of_isKnownRoot hknown,
    by simp [Operation.extension], ?_⟩, w3, w6, sip10CircuitVersion, hstretch,
    ⟨?_, fun pending => ?_, ?_⟩, hpayout⟩
  · rintro _ ⟨⟩
    exact hasset
  · rw [hverified]
    exact List.mem_cons_self
  · exact
      { nullifiers_fresh := by simpa [Operation.nullifiers] using hspent
        nullifiers_nodup := by simp [Operation.nullifiers]
        commitments_fresh := by simp [Operation.commitments]
        commitments_nodup := by simp [Operation.commitments]
        extension := by simp [Operation.extension]
        covered := hcoveredBefore
        paid := fun hstx => Currency.noConfusion hstx }
  · rw [record_effect hcompleted, hcounted, hnullifiers]
    simp [Footprint.commit, RegistryLedger.commit, Operation.commitments, Operation.nullifiers,
      Operation.extension, Operation.deposit, Operation.payout, Operation.poolStx,
      Pending.shieldedTotal]

end Sip10Pool

end StxShield
