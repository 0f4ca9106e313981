import StxShield.Effects.Books

/-!
# The ten operations in the books

Every operation runs the same way: a stretch of other work, in which token code
may do what it likes, then the operation is posted, and perhaps payouts follow.
-/

namespace StxShield

open Library Exec World PrivacyRegistry

/-- A relation between chain states that does not look at what leaves the books
alone. -/
structure Disregards (rel : World → World → Prop) : Prop where
  trans : ∀ {u v w}, rel u v → rel v w → rel u w
  untouched : ∀ {w w'}, Untouched w w' → rel w w'
  accepts : ∀ {w w'}, Accepts w w' → rel w w'

/-- An operation was posted and recorded as completed; its notes are new. -/
structure Posted (op : Operation) (w w' : World) : Prop where
  nodup : (op.notes.map NewNote.noteId).Nodup
  fresh : ∀ note ∈ op.notes, w.books.notes.lookup note.noteId = none
  entered : ∃ version height circuitVersion, w'.books = w.books.post op version height ∧
    w'.history = .completed op circuitVersion :: w.history

/-- Where in the run of an operation it is posted. -/
def PostingRun (rel : World → World → Prop) (op : Operation) (w w' : World) : Prop :=
  ∃ u v, rel w u ∧ Posted op u v ∧ rel v w'

variable {P : Primitives} {rel : World → World → Prop} {ctx : Ctx} {w w' : World}
  {inclusion : Inclusion}

/-- What was entered one by one, and then recorded as completed, was posted. -/
theorem posted_of_enters (version height : Nat) {f : Books → Books} {mid : World}
    {op : Operation} {circuitVersion : Nat} {u : Unit} (henters : Enters f w mid)
    (hrecord : record (.completed op circuitVersion) mid = .ok (u, w'))
    (hpost : ∀ b, f b = b.post op version height) (hnodup : (op.notes.map NewNote.noteId).Nodup)
    (hfresh : ∀ note ∈ op.notes, w.books.notes.lookup note.noteId = none) : Posted op w w' where
  nodup := hnodup
  fresh := hfresh
  entered := by
    obtain rfl := record_ok.mp hrecord
    refine ⟨version, height, circuitVersion, ?_, congrArg _ henters.history⟩
    exact henters.books.trans (hpost w.books)

/-- A note that can be registered after another one is a different note. -/
theorem lookup_registerNote_eq_none {b : Books} {version height : Nat} {note : NewNote}
    {id : Buff32} (h : (b.registerNote version height note).notes.lookup id = none) :
    id ≠ note.noteId ∧ b.notes.lookup id = none := by
  by_cases heq : id = note.noteId
  · subst heq
    rw [Books.registerNote, AList.lookup_insert] at h
    cases h
  · exact ⟨heq, (AList.lookup_insert_ne heq).symm.trans h⟩

/-! ## The STX operations -/

namespace PrivacyPool

theorem shield_posts (hrel : Disregards rel) {args : ShieldArgs} {index : Nat}
    (h : shield P ctx args inclusion w = .ok (index, w')) :
    PostingRun rel ⟨.stx, .shield args⟩ w w' := by
  unfold shield at h
  simp only [↓bind_ok, ↓exists_read, ↓exists_require, ↓orError_ok,
    ↓PoolCalls.exists_checkCurrentRoot, pure_ok] at h
  obtain ⟨_, w1, hactive, -, _, w2, hlimits, -, fee, w3, hfee, _, w4, hverify, _, w5, hpay,
    _, w6, hcharge, _, w7, hnote, _, w8, hcommitment, rfl, _, w9, hupdate, _, w10, hrecord,
    _, _, hcompleted, -, rfl⟩ := h
  have hchecks : Untouched w w3 :=
    ((untouched_onRegistry (keeps_checkActive _) hactive).trans
      (untouched_onRegistry (keeps_validateShieldAmount _ _) hlimits)).trans
      (untouched_of_keeps (keeps_calculateFee _ _ _) hfee)
  have hpaid : Untouched w4 w6 := (untouched_stxTransfer hpay).trans (untouched_payFee hcharge)
  obtain ⟨hfresh, hnoted, -⟩ := registerNote_enters hnote
  obtain ⟨hcommitted, -⟩ := registerCommitment_enters hcommitment
  have hentered := ((hnoted.trans hcommitted).trans (updateRoot_untouched hupdate)).trans
    (recordShield_untouched hrecord)
  refine ⟨w6, _, hrel.trans (hrel.untouched hchecks)
    (hrel.trans (hrel.accepts (zkVerifier_verifyProof_accepts hverify)) (hrel.untouched hpaid)),
    posted_of_enters w6.registry.protocolVersions.note ctx.height hentered hcompleted
      (fun b => ?_) ?_ ?_, hrel.untouched (untouched_of_eq rfl rfl rfl)⟩
  · exact Books.ext rfl rfl (List.append_nil _).symm rfl rfl rfl rfl rfl
  · simp [Operation.notes]
  · simpa [Operation.notes] using hfresh

theorem transfer_posts (hrel : Disregards rel) {args : TransferArgs} {index : Nat}
    (h : transfer P ctx args inclusion w = .ok (index, w')) :
    PostingRun rel ⟨.stx, .transfer args⟩ w w' := by
  unfold transfer at h
  simp only [↓bind_ok, ↓exists_read, ↓exists_require, ↓PoolCalls.exists_checkCurrentRoot,
    pure_ok] at h
  obtain ⟨_, w1, hactive, -, -, fee, w2, hfee, _, w3, hverify, _, w4, hcharge, _, w5,
    hnullifier, _, w6, hcommitment, rfl, _, w7, hnote, _, w8, hupdate, _, w9, hrecord, _, _,
    hcompleted, -, rfl⟩ := h
  have hchecks : Untouched w w2 :=
    (untouched_onRegistry (keeps_checkActive _) hactive).trans
      (untouched_of_keeps (keeps_calculateFee _ _ _) hfee)
  have hnullified := registerNullifier_enters hnullifier
  obtain ⟨hcommitted, hversions⟩ := registerCommitment_enters hcommitment
  obtain ⟨hfresh, hnoted, -⟩ := registerNote_enters hnote
  have hbefore := hnullified.trans hcommitted
  have hentered := ((hbefore.trans hnoted).trans (updateRoot_untouched hupdate)).trans
    (recordTransfer_untouched hrecord)
  rw [hbefore.books] at hfresh
  refine ⟨w4, _, hrel.trans (hrel.untouched hchecks)
    (hrel.trans (hrel.accepts (zkVerifier_verifyProof_accepts hverify))
      (hrel.untouched (untouched_payFee hcharge))),
    posted_of_enters w6.registry.protocolVersions.note ctx.height hentered hcompleted
      (fun b => rfl) ?_ ?_, hrel.untouched (untouched_of_eq rfl rfl rfl)⟩
  · simp [Operation.notes]
  · simpa [Operation.notes] using hfresh

theorem withdraw_posts (hrel : Disregards rel) {args : WithdrawArgs} {paid : Nat}
    (h : withdraw P ctx args inclusion w = .ok (paid, w')) :
    PostingRun rel ⟨.stx, .withdraw args⟩ w w' := by
  unfold withdraw at h
  simp only [↓bind_ok, ↓exists_read, ↓exists_require, ↓orError_ok, pure_ok] at h
  obtain ⟨_, w1, hactive, -, _, w2, hlimits, -, -, fee, w3, hfee, -, _, w4, hverify,
    _, w5, hnullifier, _, w6, hrecord, _, w7, hcompleted, _, w8, hcharge, _, w9, hpay, -,
    rfl⟩ := h
  have hchecks : Untouched w w3 :=
    ((untouched_onRegistry (keeps_checkActive _) hactive).trans
      (untouched_onRegistry (keeps_validateWithdrawalAmount _ _) hlimits)).trans
      (untouched_of_keeps (keeps_calculateFee _ _ _) hfee)
  have hentered := (registerNullifier_enters hnullifier).trans (recordWithdrawal_untouched hrecord)
  refine ⟨w4, w7, hrel.trans (hrel.untouched hchecks)
    (hrel.accepts (zkVerifier_verifyProof_accepts hverify)),
    posted_of_enters 0 0 hentered hcompleted (fun b => ?_) ?_ ?_,
    hrel.untouched ((untouched_payFee hcharge).trans (untouched_stxTransfer hpay))⟩
  · exact Books.ext (List.append_nil _).symm rfl rfl rfl rfl rfl rfl rfl
  · simp [Operation.notes]
  · simp [Operation.notes]

end PrivacyPool

namespace SplitMergeManager

theorem splitNote_posts (hrel : Disregards rel) {args : SplitArgs} {indices : Nat × Nat}
    (h : splitNote P ctx args inclusion w = .ok (indices, w')) :
    PostingRun rel ⟨.stx, .split args⟩ w w' := by
  unfold splitNote at h
  simp only [↓bind_ok, ↓exists_read, ↓exists_require, ↓exists_addUint,
    ↓PoolCalls.exists_checkCurrentRoot, pure_ok] at h
  obtain ⟨_, w1, hactive, -, -, -, -, fee, w2, hfee, _, w3, hverify, _, w4, hcharge,
    _, w5, hnullifier, _, w6, hcommitment1, rfl, _, w7, hnote1, _, w8, hcommitment2, -, rfl,
    _, w9, hnote2, _, w10, hupdate, _, _, hcompleted, -, rfl⟩ := h
  have hchecks : Untouched w w2 :=
    (untouched_onRegistry (keeps_checkActive _) hactive).trans
      (untouched_of_keeps (keeps_calculateFee _ _ _) hfee)
  obtain ⟨hcommitted1, -⟩ := registerCommitment_enters hcommitment1
  obtain ⟨hfresh1, hnoted1, hversions1⟩ := registerNote_enters hnote1
  obtain ⟨hcommitted2, hversions2⟩ := registerCommitment_enters hcommitment2
  obtain ⟨hfresh2, hnoted2, -⟩ := registerNote_enters hnote2
  have hversions : w8.registry.protocolVersions = w6.registry.protocolVersions :=
    hversions2.trans hversions1
  rw [hversions] at hnoted2
  have hfirst := (registerNullifier_enters hnullifier).trans hcommitted1
  have hsecond := (hfirst.trans hnoted1).trans hcommitted2
  have hentered := (hsecond.trans hnoted2).trans (updateRoot_untouched hupdate)
  rw [hfirst.books] at hfresh1
  rw [hsecond.books] at hfresh2
  obtain ⟨hne, hfresh2⟩ := lookup_registerNote_eq_none hfresh2
  refine ⟨w4, _, hrel.trans (hrel.untouched hchecks)
    (hrel.trans (hrel.accepts (zkVerifier_verifyProof_accepts hverify))
      (hrel.untouched (untouched_payFee hcharge))),
    posted_of_enters w6.registry.protocolVersions.note ctx.height hentered hcompleted
      (fun b => ?_) ?_ ?_, hrel.untouched (untouched_of_eq rfl rfl rfl)⟩
  · exact Books.ext (List.append_assoc _ _ _) rfl rfl rfl rfl rfl rfl rfl
  · simpa [Operation.notes] using hne.symm
  · simpa [Operation.notes] using And.intro hfresh1 hfresh2

theorem mergeNotes_posts (hrel : Disregards rel) {args : MergeArgs} {index : Nat}
    (h : mergeNotes P ctx args inclusion w = .ok (index, w')) :
    PostingRun rel ⟨.stx, .merge args⟩ w w' := by
  unfold mergeNotes at h
  simp only [↓bind_ok, ↓exists_read, ↓exists_require, ↓PoolCalls.exists_checkCurrentRoot,
    pure_ok] at h
  obtain ⟨_, w1, hactive, -, -, -, -, fee, w2, hfee, _, w3, hverify, _, w4, hcharge,
    _, w5, hnullifier1, _, w6, hnullifier2, _, w7, hcommitment, rfl, _, w8, hnote, _, w9,
    hupdate, _, _, hcompleted, -, rfl⟩ := h
  have hchecks : Untouched w w2 :=
    (untouched_onRegistry (keeps_checkActive _) hactive).trans
      (untouched_of_keeps (keeps_calculateFee _ _ _) hfee)
  obtain ⟨hcommitted, -⟩ := registerCommitment_enters hcommitment
  obtain ⟨hfresh, hnoted, -⟩ := registerNote_enters hnote
  have hbefore := ((registerNullifier_enters hnullifier1).trans
    (registerNullifier_enters hnullifier2)).trans hcommitted
  have hentered := (hbefore.trans hnoted).trans (updateRoot_untouched hupdate)
  rw [hbefore.books] at hfresh
  refine ⟨w4, _, hrel.trans (hrel.untouched hchecks)
    (hrel.trans (hrel.accepts (zkVerifier_verifyProof_accepts hverify))
      (hrel.untouched (untouched_payFee hcharge))),
    posted_of_enters w7.registry.protocolVersions.note ctx.height hentered hcompleted
      (fun b => ?_) ?_ ?_, hrel.untouched (untouched_of_eq rfl rfl rfl)⟩
  · exact Books.ext rfl rfl (List.append_assoc _ _ _) rfl rfl rfl rfl rfl
  · simp [Operation.notes]
  · simpa [Operation.notes] using hfresh

end SplitMergeManager

/-! ## The SIP-10 operations -/

variable {admits : Ctx → Prop} {tokens : TokenCode} {token : Principal}

namespace Sip10ProtocolFees

theorem collectFee_disregarded (hrel : Disregards rel) (hadmits : Admissible admits)
    (htokens : TokensRespect admits rel tokens) (hctx : admits ctx)
    (assetId feeType amount : Nat) :
    Respects rel (collectFee tokens ctx assetId feeType amount token) := by
  intro w value w' h
  unfold collectFee at h
  simp only [↓bind_ok, ↓exists_read, ↓exists_onRegistry, ↓exists_checkActive, ↓exists_require,
    ↓exists_unwrap, ↓orError_ok, ↓exists_addUint, pure_ok] at h
  obtain ⟨_, -, -, -, -, -, -, -, _, mid, htransfer, -, -, -, _, _, hstored, -, rfl⟩ := h
  exact hrel.trans (htokens _ _ _ (hadmits.calledBy _ hctx) _ _ _ htransfer)
    (hrel.untouched (untouched_onSip10ProtocolFees hstored))

theorem withdrawFees_disregarded (hrel : Disregards rel) (hadmits : Delegable admits)
    (htokens : TokensRespect admits rel tokens) (hctx : admits ctx) (assetId amount : Nat) :
    Respects rel (withdrawFees tokens ctx assetId amount token) := by
  intro w value w' h
  unfold withdrawFees at h
  simp only [↓bind_ok, ↓exists_read, ↓exists_require, ↓exists_unwrap, ↓orError_ok,
    ↓exists_addUint, ↓exists_subUint] at h
  obtain ⟨_, -, -, -, -, -, -, _, mid, htransfer, -, -, hstored⟩ := h
  exact hrel.trans (htokens _ _ _ (hadmits.asContract (by decide) (by decide) hctx) _ _ _ htransfer)
    (hrel.untouched (untouched_onSip10ProtocolFees hstored))

end Sip10ProtocolFees

namespace Sip10Pool

theorem payFee_disregarded (hrel : Disregards rel) (hadmits : Admissible admits)
    (htokens : TokensRespect admits rel tokens) (hctx : admits ctx) (assetUid feeType fee : Nat) :
    Respects rel (payFee tokens ctx assetUid feeType fee token) := by
  intro w value w' h
  unfold payFee at h
  simp only [ite_ok, bind_ok, pure_ok, within_ok] at h
  rcases h with ⟨-, _, _, ⟨-, hcollect⟩, -, rfl⟩ | ⟨-, -, rfl⟩
  · exact Sip10ProtocolFees.collectFee_disregarded hrel hadmits htokens (hadmits.entering _ hctx)
      _ _ _ _ _ _ hcollect
  · exact hrel.untouched (untouched_of_eq rfl rfl rfl)

/-- Checks, the fee's calculation, the verification and the fee itself: what
four of the operations do before they register anything. -/
theorem spend_disregarded (hrel : Disregards rel) (hadmits : Admissible admits)
    (htokens : TokensRespect admits rel tokens) (hctx : admits ctx) {w1 w2 : World}
    {assetUid feeType amount fee proofType version : Nat} {inputsHash leaf : Buff32} {u : Unit}
    (hfee : Sip10ProtocolFees.calculateFee assetUid feeType amount w = .ok (fee, w1))
    (hverify : Sip10ZkVerifier.verifyProof P (ctx.calledBy .sip10Pool) proofType version inputsHash
      inclusion w1 = .ok (leaf, w2))
    (hcharge : payFee tokens (ctx.calledBy .sip10Pool) assetUid feeType fee token w2 =
      .ok (u, w')) : rel w w' :=
  hrel.trans (hrel.untouched (untouched_of_keeps (keeps_sip10CalculateFee _ _ _ _) hfee))
    (hrel.trans (hrel.accepts (sip10ZkVerifier_verifyProof_accepts hverify))
      (payFee_disregarded hrel hadmits htokens (hadmits.calledBy _ hctx) _ _ _ _ _ _ hcharge))

theorem shield_posts (hrel : Disregards rel) (hadmits : Admissible admits)
    (htokens : TokensRespect admits rel tokens) (hctx : admits ctx) {args : ShieldArgs}
    {index : Nat} (h : shield P tokens ctx token args inclusion w = .ok (index, w')) :
    PostingRun rel ⟨.sip10 token, .shield args⟩ w w' := by
  unfold shield at h
  simp only [↓bind_ok, ↓exists_read, ↓exists_require, ↓exists_unwrap, ↓orError_ok,
    ↓exists_addUint, ↓PoolCalls.exists_checkCurrentRoot, pure_ok] at h
  obtain ⟨assetUid, -, _, w1, hactive, -, -, asset, -, -, -, fee, w2, hfee, _, w3,
    hbalance, _, w4, hverify, _, w5, htransfer, _, w6, hdelta, -, -, _, w7, hcharge, _, w8, hnote,
    _, w9, hcommitment, rfl, _, w10, hupdate, -, _, w11, htotal, _, _, hcompleted, -, rfl⟩ := h
  have hcaller := hadmits.calledBy .sip10Pool hctx
  have hchecks : Untouched w w2 :=
    (untouched_onRegistry (keeps_checkActive _) hactive).trans
      (untouched_of_keeps (keeps_sip10CalculateFee _ _ _ _) hfee)
  have hwork : rel w4 w7 :=
    hrel.trans (htokens _ _ _ hcaller _ _ _ htransfer)
      (hrel.trans (poolBalance_respects hadmits (htokens token) hctx _ _ _ hdelta)
        (payFee_disregarded hrel hadmits htokens hcaller _ _ _ _ _ _ hcharge))
  obtain ⟨hfresh, hnoted, -⟩ := registerNote_enters hnote
  obtain ⟨hcommitted, -⟩ := registerCommitment_enters hcommitment
  have hentered := ((hnoted.trans hcommitted).trans (updateRoot_untouched hupdate)).trans
    (untouched_onSip10Pool htotal)
  refine ⟨w7, _, hrel.trans (hrel.untouched hchecks)
    (hrel.trans (poolBalance_respects hadmits (htokens token) hctx _ _ _ hbalance)
      (hrel.trans (hrel.accepts (sip10ZkVerifier_verifyProof_accepts hverify)) hwork)),
    posted_of_enters w7.registry.protocolVersions.note ctx.height hentered hcompleted
      (fun b => ?_) ?_ ?_, hrel.untouched (untouched_of_eq rfl rfl rfl)⟩
  · exact Books.ext rfl rfl (List.append_nil _).symm rfl rfl rfl rfl rfl
  · simp [Operation.notes]
  · simpa [Operation.notes] using hfresh

theorem transfer_posts (hrel : Disregards rel) (hadmits : Admissible admits)
    (htokens : TokensRespect admits rel tokens) (hctx : admits ctx) {args : TransferArgs}
    {index : Nat} (h : transfer P tokens ctx token args inclusion w = .ok (index, w')) :
    PostingRun rel ⟨.sip10 token, .transfer args⟩ w w' := by
  unfold transfer at h
  simp only [↓bind_ok, ↓exists_require, ↓PoolCalls.exists_checkCurrentRoot, pure_ok] at h
  obtain ⟨assetUid, w0, hspendable, -, fee, w1, hfee, _, w2, hverify, _, w3, hcharge, _, w4,
    hnullifier, _, w5, hcommitment, rfl, _, w6, hnote, _, w7, hupdate, _, _, hcompleted, -,
    rfl⟩ := h
  obtain ⟨rfl, -⟩ := checkSpendable_ok hspendable
  obtain ⟨hcommitted, -⟩ := registerCommitment_enters hcommitment
  obtain ⟨hfresh, hnoted, -⟩ := registerNote_enters hnote
  have hbefore := (registerNullifier_enters hnullifier).trans hcommitted
  have hentered := (hbefore.trans hnoted).trans (updateRoot_untouched hupdate)
  rw [hbefore.books] at hfresh
  refine ⟨w3, _, spend_disregarded hrel hadmits htokens hctx hfee hverify hcharge,
    posted_of_enters w5.registry.protocolVersions.note ctx.height hentered hcompleted
      (fun b => rfl) ?_ ?_, hrel.untouched (untouched_of_eq rfl rfl rfl)⟩
  · simp [Operation.notes]
  · simpa [Operation.notes] using hfresh

/-- Both commitments are registered before the notes. -/
theorem split_posts (hrel : Disregards rel) (hadmits : Admissible admits)
    (htokens : TokensRespect admits rel tokens) (hctx : admits ctx) {args : SplitArgs}
    {indices : Nat × Nat} (h : split P tokens ctx token args inclusion w = .ok (indices, w')) :
    PostingRun rel ⟨.sip10 token, .split args⟩ w w' := by
  unfold split at h
  simp only [↓bind_ok, ↓exists_require, ↓exists_addUint, ↓PoolCalls.exists_checkCurrentRoot,
    pure_ok] at h
  obtain ⟨assetUid, w0, hspendable, -, fee, w1, hfee, _, w2, hverify, _, w3, hcharge, _, w4,
    hnullifier, _, w5, hcommitment1, _, w6, hcommitment2, rfl, -, rfl, _, w7, hnote1, _, w8,
    hnote2, _, w9, hupdate, _, _, hcompleted, -, rfl⟩ := h
  obtain ⟨rfl, -⟩ := checkSpendable_ok hspendable
  obtain ⟨hcommitted1, -⟩ := registerCommitment_enters hcommitment1
  obtain ⟨hcommitted2, -⟩ := registerCommitment_enters hcommitment2
  obtain ⟨hfresh1, hnoted1, hversions⟩ := registerNote_enters hnote1
  obtain ⟨hfresh2, hnoted2, -⟩ := registerNote_enters hnote2
  rw [hversions] at hnoted2
  have hfirst := ((registerNullifier_enters hnullifier).trans hcommitted1).trans hcommitted2
  have hsecond := hfirst.trans hnoted1
  have hentered := (hsecond.trans hnoted2).trans (updateRoot_untouched hupdate)
  rw [hfirst.books] at hfresh1
  rw [hsecond.books] at hfresh2
  obtain ⟨hne, hfresh2⟩ := lookup_registerNote_eq_none hfresh2
  refine ⟨w3, _, spend_disregarded hrel hadmits htokens hctx hfee hverify hcharge,
    posted_of_enters w6.registry.protocolVersions.note ctx.height hentered hcompleted
      (fun b => ?_) ?_ ?_, hrel.untouched (untouched_of_eq rfl rfl rfl)⟩
  · exact Books.ext (List.append_assoc _ _ _) rfl rfl rfl rfl rfl rfl rfl
  · simpa [Operation.notes] using hne.symm
  · simpa [Operation.notes] using And.intro hfresh1 hfresh2

theorem mergeNotes_posts (hrel : Disregards rel) (hadmits : Admissible admits)
    (htokens : TokensRespect admits rel tokens) (hctx : admits ctx) {args : MergeArgs}
    {index : Nat} (h : mergeNotes P tokens ctx token args inclusion w = .ok (index, w')) :
    PostingRun rel ⟨.sip10 token, .merge args⟩ w w' := by
  unfold mergeNotes at h
  simp only [↓bind_ok, ↓exists_require, ↓PoolCalls.exists_checkCurrentRoot, pure_ok] at h
  obtain ⟨assetUid, w0, hspendable, -, fee, w1, hfee, _, w2, hverify, _, w3, hcharge, _, w4,
    hnullifier1, _, w5, hnullifier2, _, w6, hcommitment, rfl, _, w7, hnote, _, w8, hupdate,
    _, _, hcompleted, -, rfl⟩ := h
  obtain ⟨rfl, -⟩ := checkSpendable_ok hspendable
  obtain ⟨hcommitted, -⟩ := registerCommitment_enters hcommitment
  obtain ⟨hfresh, hnoted, -⟩ := registerNote_enters hnote
  have hbefore := ((registerNullifier_enters hnullifier1).trans
    (registerNullifier_enters hnullifier2)).trans hcommitted
  have hentered := (hbefore.trans hnoted).trans (updateRoot_untouched hupdate)
  rw [hbefore.books] at hfresh
  refine ⟨w3, _, spend_disregarded hrel hadmits htokens hctx hfee hverify hcharge,
    posted_of_enters w6.registry.protocolVersions.note ctx.height hentered hcompleted
      (fun b => ?_) ?_ ?_, hrel.untouched (untouched_of_eq rfl rfl rfl)⟩
  · exact Books.ext rfl rfl (List.append_assoc _ _ _) rfl rfl rfl rfl rfl
  · simp [Operation.notes]
  · simpa [Operation.notes] using hfresh

theorem withdraw_posts (hrel : Disregards rel) (hadmits : Delegable admits)
    (htokens : TokensRespect admits rel tokens) (hctx : admits ctx) {args : WithdrawArgs}
    {paid : Nat} (h : withdraw P tokens ctx token args inclusion w = .ok (paid, w')) :
    PostingRun rel ⟨.sip10 token, .withdraw args⟩ w w' := by
  unfold withdraw at h
  simp only [↓bind_ok, ↓exists_read, ↓exists_require, ↓exists_subUint, ↓orError_ok,
    pure_ok] at h
  obtain ⟨assetUid, w0, hspendable, -, -, fee, w1, hfee, _, w2, hbalance, -, -, _, w3,
    hverify, _, w4, hnullifier, -, _, w5, htotal, _, w6, hcompleted, _, w7, hcharge, _, w8,
    hpay, _, w9, hdelta, -, -, -, rfl⟩ := h
  obtain ⟨rfl, -⟩ := checkSpendable_ok hspendable
  have hself : admits (ctx.asContract .sip10Pool) :=
    hadmits.asContract (by decide) (by decide) hctx
  have hentered := (registerNullifier_enters hnullifier).trans (untouched_onSip10Pool htotal)
  have hpayout : rel w6 w9 :=
    hrel.trans (payFee_disregarded hrel hadmits.toAdmissible htokens hself _ _ _ _ _ _ hcharge)
      (hrel.trans (htokens _ _ _ hself _ _ _ hpay)
        (poolBalance_respects hadmits.toAdmissible (htokens token) hctx _ _ _ hdelta))
  refine ⟨w3, w6, hrel.trans (hrel.untouched (untouched_of_keeps
      (keeps_sip10CalculateFee _ _ _ _) hfee))
    (hrel.trans (poolBalance_respects hadmits.toAdmissible (htokens token) hctx _ _ _ hbalance)
      (hrel.accepts (sip10ZkVerifier_verifyProof_accepts hverify))),
    posted_of_enters 0 0 hentered hcompleted (fun b => ?_) ?_ ?_, hpayout⟩
  · exact Books.ext (List.append_nil _).symm rfl rfl rfl rfl rfl rfl rfl
  · simp [Operation.notes]
  · simp [Operation.notes]

end Sip10Pool

end StxShield
