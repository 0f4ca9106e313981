import StxShield.Effects.Failures
import StxShield.Protocol.Bookkeeping
import StxShield.Protocol.Solvency

/-!
# Spending under way

What can happen between the start of an operation and the registration of its
nullifiers, and where the checks of the books stand in it.
-/

namespace StxShield

open Library Exec World PrivacyRegistry

variable {env : Env} {w w' : World}

/-! ## Shielded totals during a withdrawal -/

def withdrawFunction : FunctionId := .function .sip10Pool 4

/-- `withdraw` of `sip10-pool` is running, so it cannot be entered again. -/
def Withdrawing (ctx : Ctx) : Prop :=
  withdrawFunction ∈ ctx.stack ∧ ctx.txSender ≠ .privacyPool

/-- No asset's total went down in between. -/
structure KeepsTotals (w w' : World) : Prop where
  totals : ∀ assetUid, w.footprint.shieldedTotal assetUid ≤ w'.footprint.shieldedTotal assetUid
  grows : w.footprint.history ⊆ w'.footprint.history

theorem keepsTotals_trans {u v w : World} (huv : KeepsTotals u v) (hvw : KeepsTotals v w) :
    KeepsTotals u w where
  totals assetUid := (huv.totals assetUid).trans (hvw.totals assetUid)
  grows := List.Subset.trans huv.grows hvw.grows

theorem keepsTotals_of_eq (htotals : w'.footprint.shieldedTotal = w.footprint.shieldedTotal)
    (hgrows : w.footprint.history ⊆ w'.footprint.history) : KeepsTotals w w' where
  totals assetUid := (congrFun htotals assetUid).ge
  grows := hgrows

theorem keepsTotals_tolerates : Tolerates KeepsTotals where
  trans := keepsTotals_trans
  footprint h := keepsTotals_of_eq (by rw [h]) (by rw [h]; exact List.Subset.refl _)
  verified h := keepsTotals_of_eq (by rw [h]) (by rw [h]; exact List.subset_cons_self _ _)
  grows h := h.grows

theorem keepsTotals_closed : Closed KeepsTotals where
  refl _ := keepsTotals_of_eq rfl (List.Subset.refl _)
  trans := keepsTotals_trans
  store _ _ _ _ := keepsTotals_of_eq rfl (List.Subset.refl _)

/-- Only a withdrawal of tokens takes from a total. -/
theorem Committed.keepsTotals {P : Primitives} {p : Pending} {version : Nat}
    (h : Committed P p version w w')
    (hpayout : ∀ token, p.operation.currency = .sip10 token → p.operation.payout = 0) :
    KeepsTotals w w' := by
  refine ⟨fun assetUid => ?_, ?_⟩ <;> rw [h.footprint]
  · change w.footprint.shieldedTotal assetUid ≤ p.shieldedTotal w.footprint.shieldedTotal assetUid
    unfold Pending.shieldedTotal
    cases hcurrency : p.operation.currency with
    | stx => exact Nat.le_refl _
    | sip10 token =>
        by_cases heq : assetUid = p.assetUid
        · subst heq
          simp [hpayout token hcurrency]
        · simp [Function.update_of_ne heq]
  · exact List.subset_cons_self _ _

theorem Call.payout_eq_zero {call : Call} {op : Operation} (hcall : call.operation? = some op)
    (hfunction : call.function? ≠ some withdrawFunction) {token : Principal}
    (hcurrency : op.currency = .sip10 token) : op.payout = 0 := by
  unfold Call.operation? at hcall
  split at hcall
  all_goals cases hcall
  all_goals first
    | rfl
    | exact absurd rfl hfunction
    | cases hcurrency

theorem exec_keepsTotals (env : Env) (depth : Nat) :
    CallsRespect Withdrawing KeepsTotals (exec env depth) := by
  have hdelegable : Delegable Withdrawing := delegable_of_stack withdrawFunction
  refine exec_respects keepsTotals_closed hdelegable ?_ depth
  intro depth htokens ctx call hctx _ w data w' h
  obtain ⟨mid, hrun, rfl⟩ := execCall_ok.mp h
  obtain ⟨inner, hdispatch, hinner⟩ := withinCall_ok hrun
  have hadmitted : Withdrawing inner := hinner.admitted hdelegable.entering hctx
  have hmid : KeepsTotals w mid := by
    cases dispatch_run keepsTotals_tolerates hdelegable (fun token _ => htokens token) hadmitted
      hdispatch with
    | respects _ _ hrel => exact hrel
    | registry _ _ hfootprint =>
        refine keepsTotals_of_eq ?_ ?_ <;> rw [hfootprint]
        exact List.Subset.refl _
    | registerAsset _ _ hdecimals hfootprint =>
        refine keepsTotals_trans
          (htokens _ _ _ (hdelegable.calledBy _ hadmitted) _ _ _ hdecimals)
          (keepsTotals_of_eq ?_ ?_) <;> rw [hfootprint]
        exact List.Subset.refl _
    | receives _ hfootprint =>
        refine keepsTotals_of_eq ?_ ?_ <;> rw [hfootprint]
        exact List.Subset.refl _
    | operation hcall hoperation =>
        obtain ⟨-, u, v, version, hbefore, hcommitted, hafter⟩ := hoperation
        have hother : call.function? ≠ some withdrawFunction := fun hwithdraw =>
          (hinner.entered hwithdraw).1 hctx.1
        have hcommit := hcommitted.keepsTotals fun _ => Call.payout_eq_zero hcall hother
        exact keepsTotals_trans hbefore (keepsTotals_trans hcommit hafter)
  exact keepsTotals_trans hmid (keepsTotals_of_eq rfl (List.subset_cons_self _ _))

/-! ## Calls and statements -/

namespace Operation

/-- The public call that performs the operation. -/
def call (inclusion : Inclusion) : Operation → Call
  | ⟨.stx, .shield args⟩ => .privacyPool (.shield args inclusion)
  | ⟨.stx, .transfer args⟩ => .privacyPool (.transfer args inclusion)
  | ⟨.stx, .withdraw args⟩ => .privacyPool (.withdraw args inclusion)
  | ⟨.stx, .split args⟩ => .splitMergeManager (.splitNote args inclusion)
  | ⟨.stx, .merge args⟩ => .splitMergeManager (.mergeNotes args inclusion)
  | ⟨.sip10 token, .shield args⟩ => .sip10Pool (.shield token args inclusion)
  | ⟨.sip10 token, .transfer args⟩ => .sip10Pool (.transfer token args inclusion)
  | ⟨.sip10 token, .withdraw args⟩ => .sip10Pool (.withdraw token args inclusion)
  | ⟨.sip10 token, .split args⟩ => .sip10Pool (.split token args inclusion)
  | ⟨.sip10 token, .merge args⟩ => .sip10Pool (.mergeNotes token args inclusion)

theorem call_operation? (op : Operation) (inclusion : Inclusion) :
    (op.call inclusion).operation? = some op := by
  obtain ⟨currency, action⟩ := op
  cases currency <;> cases action <;> rfl

/-- The context the operation's function runs in. -/
def context (inclusion : Inclusion) (ctx : Ctx) (op : Operation) : Ctx :=
  (op.call inclusion).function?.elim ctx ctx.entering

/-- The contract that performs the operation. -/
def contract : Operation → Principal
  | ⟨.stx, .split _⟩ => .splitMergeManager
  | ⟨.stx, .merge _⟩ => .splitMergeManager
  | ⟨.stx, _⟩ => .privacyPool
  | ⟨.sip10 _, _⟩ => .sip10Pool

/-- The contract presents the operation's statement to the verifier. -/
def verify (P : Primitives) (inclusion : Inclusion) (ctx : Ctx) (circuitVersion : Nat)
    (op : Operation) : Exec World Buff32 :=
  match op.currency with
  | .stx =>
      ZkVerifier.verifyProof P (ctx.calledBy op.contract) op.proofType circuitVersion
        (P.keccak256 (op.inputs P circuitVersion)) inclusion
  | .sip10 _ =>
      Sip10ZkVerifier.verifyProof P (ctx.calledBy op.contract) op.proofType circuitVersion
        (P.keccak256 (op.inputs P circuitVersion)) inclusion

/-- The version its statement is bound to in a state. -/
def circuitVersion (w : World) (op : Operation) : Nat :=
  op.currency.boundVersion w.registry.protocolVersions.circuit

end Operation

/-- The states an operation that starts in `w` can have passed through before
it registers its nullifiers: it has its statement verified, asks for the pool's
balance, and pays its fee. -/
inductive Arrives (P : Primitives) (tokens : TokenCode) (inclusion : Inclusion) (ctx : Ctx)
    (op : Operation) (w : World) : World → Prop where
  | start : Arrives P tokens inclusion ctx op w w
  | verified {m m' : World} {leaf : Buff32} (h : Arrives P tokens inclusion ctx op w m)
      (hverify : op.verify P inclusion ctx (op.circuitVersion w) m = .ok (leaf, m')) :
      Arrives P tokens inclusion ctx op w m'
  | asked {m m' : World} {token : Principal} {balance : Nat}
      (hcurrency : op.currency = .sip10 token) (h : Arrives P tokens inclusion ctx op w m)
      (hasks : Sip10Pool.poolBalance tokens ctx token m = .ok (balance, m')) :
      Arrives P tokens inclusion ctx op w m'
  | paid {m m' : World} {feeType fee : Nat} {u : Unit} (hcurrency : op.currency = .stx)
      (h : Arrives P tokens inclusion ctx op w m)
      (hfee : ProtocolFees.calculateFee feeType 0 w = .ok (fee, w))
      (hpays : ProtocolFees.payFee (ctx.calledBy op.contract) feeType fee m = .ok (u, m')) :
      Arrives P tokens inclusion ctx op w m'
  | paidInTokens {m m' : World} {token : Principal} {assetUid feeType fee : Nat} {u : Unit}
      (hcurrency : op.currency = .sip10 token) (h : Arrives P tokens inclusion ctx op w m)
      (hasset : w.footprint.assets.idOf token = some assetUid)
      (hfee : Sip10ProtocolFees.calculateFee assetUid feeType 0 w = .ok (fee, w))
      (hpays : Sip10Pool.payFee tokens (ctx.calledBy op.contract) assetUid feeType fee token m =
        .ok (u, m')) :
      Arrives P tokens inclusion ctx op w m'

section Arrives

variable {P : Primitives} {tokens : TokenCode} {inclusion : Inclusion} {ctx : Ctx}
  {op : Operation} {m : World} {rel : World → World → Prop}

/-- A verified statement is an event, and all there is to it. -/
theorem Operation.verify_effect {version : Nat} {leaf : Buff32}
    (h : op.verify P inclusion ctx version w = .ok (leaf, w')) :
    w'.footprint = { w.footprint with
      history := .proofVerified op.verifier op.proofType (P.keccak256 (op.inputs P version)) ::
        w.footprint.history } ∧ Accepts w w' := by
  unfold verify at h
  unfold verifier
  cases hcurrency : op.currency with
  | stx =>
      rw [hcurrency] at h
      exact ⟨zkVerifier_verifyProof_effect h, zkVerifier_verifyProof_accepts h⟩
  | sip10 token =>
      rw [hcurrency] at h
      exact ⟨sip10ZkVerifier_verifyProof_effect h, sip10ZkVerifier_verifyProof_accepts h⟩

/-- The machine takes the steps that lead there. -/
theorem Arrives.simulated (htokens : TokensRespect PoolSafe (Simulated P) tokens)
    (hctx : PoolSafe ctx) (h : Arrives P tokens inclusion ctx op w m) : Simulated P w m := by
  have hadmits := poolSafe_delegable.toAdmissible
  induction h with
  | start => exact simulated_closed.refl w
  | verified _ hverify ih =>
      exact simulated_trans ih (simulated_tolerates.verified (Operation.verify_effect hverify).1)
  | asked _ _ hasks ih =>
      exact simulated_trans ih
        (Sip10Pool.poolBalance_respects hadmits (htokens _) hctx _ _ _ hasks)
  | paid _ _ _ hpays ih =>
      exact simulated_trans ih
        (simulated_tolerates.footprint (payFee_keeps_footprint (hadmits.sender (hadmits.calledBy op.contract hctx)) _ _ _ _ _ hpays))
  | paidInTokens _ _ _ _ hpays ih =>
      exact simulated_trans ih
        (Sip10Pool.payFee_respects simulated_tolerates hadmits (htokens _)
          (hadmits.calledBy op.contract hctx) _ _ _ _ _ _ hpays)

/-- The books are kept on the way. -/
theorem Arrives.booked (htokens : TokensRespect PoolSafe Booked tokens)
    (hctx : PoolSafe ctx) (h : Arrives P tokens inclusion ctx op w m) : Booked w m := by
  have hadmits := poolSafe_delegable.toAdmissible
  induction h with
  | start => exact booked_closed.refl w
  | verified _ hverify ih =>
      exact booked_trans ih (booked_disregards.accepts (Operation.verify_effect hverify).2)
  | asked _ _ hasks ih =>
      exact booked_trans ih (Sip10Pool.poolBalance_respects hadmits (htokens _) hctx _ _ _ hasks)
  | paid _ _ _ hpays ih =>
      exact booked_trans ih (booked_disregards.untouched (untouched_payFee hpays))
  | paidInTokens _ _ _ _ hpays ih =>
      exact booked_trans ih
        (Sip10Pool.payFee_disregarded booked_disregards hadmits htokens
          (hadmits.calledBy op.contract hctx) _ _ _ _ _ _ hpays)

end Arrives

/-! ## Where a spend can be blocked -/

/-- The asset of an operation, if it has one, is registered under an id. -/
def Operation.HasAsset (op : Operation) (w : World) (assetUid : Nat) : Prop :=
  ∀ token, op.currency = .sip10 token → w.footprint.assets.idOf token = some assetUid

/-- The check of the books that a spend failed. -/
inductive Blocked (P : Primitives) (tokens : TokenCode) (inclusion : Inclusion) (ctx : Ctx)
    (op : Operation) (w : World) (code : Nat) : Prop where
  | count {m : World} {assetUid : Nat} {nullifier : Buff32} (hasset : op.HasAsset w assetUid)
      (h : Arrives P tokens inclusion ctx op w m) (hmem : nullifier ∈ op.nullifiers)
      (hfail : PoolCalls.registerNullifier (ctx.calledBy op.contract) nullifier m =
        .error (.err code))
  /-- The count after the first of two nullifiers. -/
  | secondCount {m m' : World} {assetUid : Nat} {first second : Buff32} {u : Unit}
      (hasset : op.HasAsset w assetUid) (h : Arrives P tokens inclusion ctx op w m)
      (hop : op.nullifiers = [first, second])
      (hfirst : PoolCalls.registerNullifier (ctx.calledBy op.contract) first m = .ok (u, m'))
      (hfail : PoolCalls.registerNullifier (ctx.calledBy op.contract) second m' =
        .error (.err code))
  | stxTotal {m m' : World} {nullifier : Buff32} {u : Unit} (hcurrency : op.currency = .stx)
      (h : Arrives P tokens inclusion ctx op w m) (hop : op.nullifiers = [nullifier])
      (hregister : PoolCalls.registerNullifier (ctx.calledBy op.contract) nullifier m =
        .ok (u, m'))
      (hfail : onRegistry (recordWithdrawal (ctx.calledBy op.contract) op.payout) m' =
        .error (.err code))
  | assetTotal {m : World} {token : Principal} {assetUid balance : Nat} {args : WithdrawArgs}
      (hop : op = ⟨.sip10 token, .withdraw args⟩) (hasset : op.HasAsset w assetUid)
      (hasks : Sip10Pool.poolBalance tokens ctx token w = .ok (balance, m))
      (hfail : ¬ op.payout ≤ m.sip10Pool.getShieldedTotal assetUid)

section Blocked

variable {P : Primitives} {tokens : TokenCode} {inclusion : Inclusion} {ctx : Ctx} {code : Nat}

theorem hasAsset_stx {action : Action} (assetUid : Nat) :
    (⟨.stx, action⟩ : Operation).HasAsset w assetUid := nofun

theorem PrivacyPool.transfer_blocked (hcode : code ∈ consistencyErrors) {args : TransferArgs}
    (h : transfer P ctx args inclusion w = .error (.err code)) :
    Blocked P tokens inclusion ctx ⟨.stx, .transfer args⟩ w code := by
  unfold transfer at h
  simp +decide only [↓bind_error_of_spares hcode, spares_read, spares_onRegistry,
    checkActive_spares, spares_require, PoolCalls.checkCurrentRoot_spares,
    ProtocolFees.calculateFee_spares, ZkVerifier.verifyProof_spares, ProtocolFees.payFee_spares,
    ↓exists_read, ↓exists_onRegistry, ↓exists_checkActive, ↓exists_require,
    ↓PoolCalls.exists_checkCurrentRoot] at h
  obtain ⟨-, -, -, fee, w1, hfee, leaf, w2, hverify, _, w3, hpays, h⟩ := h
  obtain rfl : w1 = w := keeps_calculateFee id _ _ _ _ _ hfee
  have harrives : Arrives P tokens inclusion ctx ⟨.stx, .transfer args⟩ w1 w3 :=
    .paid rfl (.verified .start hverify) hfee hpays
  rcases bind_error.mp h with hfail | ⟨_, w4, -, hrest⟩
  · exact .count (hasAsset_stx 0) harrives List.mem_cons_self hfail
  · simp +decide [bind_error_of_spares hcode, error_of_spares hcode] at hrest

theorem PrivacyPool.withdraw_blocked (hcode : code ∈ consistencyErrors) {args : WithdrawArgs}
    (h : withdraw P ctx args inclusion w = .error (.err code)) :
    Blocked P tokens inclusion ctx ⟨.stx, .withdraw args⟩ w code := by
  unfold withdraw at h
  simp +decide only [↓bind_error_of_spares hcode, spares_read, spares_onRegistry,
    checkActive_spares, validateWithdrawalAmount_spares, spares_require,
    ProtocolFees.calculateFee_spares, ZkVerifier.verifyProof_spares,
    ↓exists_read, ↓exists_onRegistry, ↓exists_checkActive, ↓exists_require] at h
  obtain ⟨-, -, _, registry, hlimits, -, -, fee, w1, hfee, -, leaf, w2, hverify, h⟩ := h
  obtain rfl : registry = w.registry := keeps_validateWithdrawalAmount id _ _ _ _ hlimits
  obtain rfl : w1 = w := keeps_calculateFee id _ _ _ _ _ hfee
  have harrives : Arrives P tokens inclusion ctx ⟨.stx, .withdraw args⟩ w1 w2 :=
    .verified .start hverify
  rcases bind_error.mp h with hfail | ⟨_, w3, hregister, hrecord⟩
  · exact .count (hasAsset_stx 0) harrives List.mem_cons_self hfail
  · rcases bind_error.mp hrecord with hfail | ⟨_, w4, -, hrest⟩
    · exact .stxTotal rfl harrives rfl hregister hfail
    · simp +decide [bind_error_of_spares hcode, error_of_spares hcode] at hrest

theorem SplitMergeManager.splitNote_blocked (hcode : code ∈ consistencyErrors) {args : SplitArgs}
    (h : splitNote P ctx args inclusion w = .error (.err code)) :
    Blocked P tokens inclusion ctx ⟨.stx, .split args⟩ w code := by
  unfold splitNote at h
  simp +decide only [↓bind_error_of_spares hcode, spares_read, spares_onRegistry,
    checkActive_spares, spares_require, PoolCalls.checkCurrentRoot_spares,
    ProtocolFees.calculateFee_spares, ZkVerifier.verifyProof_spares, ProtocolFees.payFee_spares,
    ↓exists_read, ↓exists_onRegistry, ↓exists_checkActive, ↓exists_require,
    ↓PoolCalls.exists_checkCurrentRoot] at h
  obtain ⟨-, -, -, -, -, fee, w1, hfee, leaf, w2, hverify, _, w3, hpays, h⟩ := h
  obtain rfl : w1 = w := keeps_calculateFee id _ _ _ _ _ hfee
  have harrives : Arrives P tokens inclusion ctx ⟨.stx, .split args⟩ w1 w3 :=
    .paid rfl (.verified .start hverify) hfee hpays
  rcases bind_error.mp h with hfail | ⟨_, w4, -, hrest⟩
  · exact .count (hasAsset_stx 0) harrives List.mem_cons_self hfail
  · simp +decide [bind_error_of_spares hcode, error_of_spares hcode] at hrest

theorem SplitMergeManager.mergeNotes_blocked (hcode : code ∈ consistencyErrors) {args : MergeArgs}
    (h : mergeNotes P ctx args inclusion w = .error (.err code)) :
    Blocked P tokens inclusion ctx ⟨.stx, .merge args⟩ w code := by
  unfold mergeNotes at h
  simp +decide only [↓bind_error_of_spares hcode, spares_read, spares_onRegistry,
    checkActive_spares, spares_require, PoolCalls.checkCurrentRoot_spares,
    ProtocolFees.calculateFee_spares, ZkVerifier.verifyProof_spares, ProtocolFees.payFee_spares,
    ↓exists_read, ↓exists_onRegistry, ↓exists_checkActive, ↓exists_require,
    ↓PoolCalls.exists_checkCurrentRoot] at h
  obtain ⟨-, -, -, -, -, fee, w1, hfee, leaf, w2, hverify, _, w3, hpays, h⟩ := h
  obtain rfl : w1 = w := keeps_calculateFee id _ _ _ _ _ hfee
  have harrives : Arrives P tokens inclusion ctx ⟨.stx, .merge args⟩ w1 w3 :=
    .paid rfl (.verified .start hverify) hfee hpays
  rcases bind_error.mp h with hfail | ⟨_, w4, hfirst, hsecond⟩
  · exact .count (hasAsset_stx 0) harrives List.mem_cons_self hfail
  · rcases bind_error.mp hsecond with hfail | ⟨_, w5, -, hrest⟩
    · exact .secondCount (hasAsset_stx 0) harrives rfl hfirst hfail
    · simp +decide [bind_error_of_spares hcode, error_of_spares hcode] at hrest

namespace Sip10Pool

variable {token : Principal}

theorem hasAsset {action : Action} {assetUid : Nat}
    (hasset : w.footprint.assets.idOf token = some assetUid) :
    (⟨.sip10 token, action⟩ : Operation).HasAsset w assetUid := by
  rintro _ ⟨⟩
  exact hasset

/-- What four of the operations do before they register a nullifier. -/
theorem arrives_paid {op : Operation} (hcurrency : op.currency = .sip10 token)
    {assetUid feeType fee : Nat} {leaf : Buff32} {u : Unit} {w1 w2 w3 : World}
    (hasset : w.footprint.assets.idOf token = some assetUid)
    (hfee : Sip10ProtocolFees.calculateFee assetUid feeType 0 w = .ok (fee, w1))
    (hverify : op.verify P inclusion ctx (op.circuitVersion w) w1 = .ok (leaf, w2))
    (hpays : payFee tokens (ctx.calledBy op.contract) assetUid feeType fee token w2 =
      .ok (u, w3)) : Arrives P tokens inclusion ctx op w w3 := by
  obtain rfl : w1 = w := keeps_sip10CalculateFee id _ _ _ _ _ _ hfee
  exact .paidInTokens hcurrency (.verified .start hverify) hasset hfee hpays

theorem transfer_blocked (hcode : code ∈ consistencyErrors) {args : TransferArgs}
    (h : transfer P tokens ctx token args inclusion w = .error (.err code)) :
    Blocked P tokens inclusion ctx ⟨.sip10 token, .transfer args⟩ w code := by
  unfold transfer at h
  simp +decide only [↓bind_error_of_spares hcode, checkSpendable_spares,
    PoolCalls.checkCurrentRoot_spares, Sip10ProtocolFees.calculateFee_spares,
    Sip10ZkVerifier.verifyProof_spares, payFee_spares, ↓PoolCalls.exists_checkCurrentRoot] at h
  obtain ⟨assetUid, w0, hspendable, -, fee, w1, hfee, leaf, w2, hverify, _, w3, hpays, h⟩ := h
  obtain ⟨rfl, hasset⟩ := checkSpendable_ok hspendable
  have harrives : Arrives P tokens inclusion ctx ⟨.sip10 token, .transfer args⟩ w0 w3 :=
    arrives_paid rfl hasset hfee hverify hpays
  rcases bind_error.mp h with hfail | ⟨_, w4, -, hrest⟩
  · exact .count (hasAsset hasset) harrives List.mem_cons_self hfail
  · simp +decide [bind_error_of_spares hcode, error_of_spares hcode] at hrest

theorem split_blocked (hcode : code ∈ consistencyErrors) {args : SplitArgs}
    (h : split P tokens ctx token args inclusion w = .error (.err code)) :
    Blocked P tokens inclusion ctx ⟨.sip10 token, .split args⟩ w code := by
  unfold split at h
  simp +decide only [↓bind_error_of_spares hcode, checkSpendable_spares,
    PoolCalls.checkCurrentRoot_spares, Sip10ProtocolFees.calculateFee_spares,
    Sip10ZkVerifier.verifyProof_spares, payFee_spares, ↓PoolCalls.exists_checkCurrentRoot] at h
  obtain ⟨assetUid, w0, hspendable, -, fee, w1, hfee, leaf, w2, hverify, _, w3, hpays, h⟩ := h
  obtain ⟨rfl, hasset⟩ := checkSpendable_ok hspendable
  have harrives : Arrives P tokens inclusion ctx ⟨.sip10 token, .split args⟩ w0 w3 :=
    arrives_paid rfl hasset hfee hverify hpays
  rcases bind_error.mp h with hfail | ⟨_, w4, -, hrest⟩
  · exact .count (hasAsset hasset) harrives List.mem_cons_self hfail
  · simp +decide [bind_error_of_spares hcode, error_of_spares hcode] at hrest

theorem mergeNotes_blocked (hcode : code ∈ consistencyErrors) {args : MergeArgs}
    (h : mergeNotes P tokens ctx token args inclusion w = .error (.err code)) :
    Blocked P tokens inclusion ctx ⟨.sip10 token, .merge args⟩ w code := by
  unfold mergeNotes at h
  simp +decide only [↓bind_error_of_spares hcode, checkSpendable_spares,
    PoolCalls.checkCurrentRoot_spares, Sip10ProtocolFees.calculateFee_spares,
    Sip10ZkVerifier.verifyProof_spares, payFee_spares, ↓PoolCalls.exists_checkCurrentRoot] at h
  obtain ⟨assetUid, w0, hspendable, -, fee, w1, hfee, leaf, w2, hverify, _, w3, hpays, h⟩ := h
  obtain ⟨rfl, hasset⟩ := checkSpendable_ok hspendable
  have harrives : Arrives P tokens inclusion ctx ⟨.sip10 token, .merge args⟩ w0 w3 :=
    arrives_paid rfl hasset hfee hverify hpays
  rcases bind_error.mp h with hfail | ⟨_, w4, hfirst, hsecond⟩
  · exact .count (hasAsset hasset) harrives List.mem_cons_self hfail
  · rcases bind_error.mp hsecond with hfail | ⟨_, w5, -, hrest⟩
    · exact .secondCount (hasAsset hasset) harrives rfl hfirst hfail
    · simp +decide [bind_error_of_spares hcode, error_of_spares hcode] at hrest

theorem withdraw_blocked (hcode : code ∈ consistencyErrors) {args : WithdrawArgs}
    (h : withdraw P tokens ctx token args inclusion w = .error (.err code)) :
    Blocked P tokens inclusion ctx ⟨.sip10 token, .withdraw args⟩ w code := by
  unfold withdraw at h
  simp +decide only [↓bind_error_of_spares hcode, spares_read, checkSpendable_spares,
    spares_require, Sip10ProtocolFees.calculateFee_spares, poolBalance_spares, ↓exists_read,
    ↓exists_require] at h
  obtain ⟨assetUid, w0, hspendable, -, -, fee, w1, hfee, balance, w2, hasks, -, h⟩ := h
  obtain ⟨rfl, hasset⟩ := checkSpendable_ok hspendable
  obtain rfl : w1 = w0 := keeps_sip10CalculateFee id _ _ _ _ _ _ hfee
  rcases bind_error.mp h with hfail | ⟨_, w3, hcovered, hspends⟩
  · exact .assetTotal rfl (hasAsset hasset) hasks (require_error.mp hfail).1
  · obtain ⟨-, rfl⟩ := require_ok.mp hcovered
    obtain ⟨leaf, w4, hverify, hregisters⟩ :=
      (bind_error_of_spares hcode (Sip10ZkVerifier.verifyProof_spares _ _ _)).mp hspends
    have harrives : Arrives P tokens inclusion ctx ⟨.sip10 token, .withdraw args⟩ w1 w4 :=
      .verified (.asked rfl .start hasks) hverify
    rcases bind_error.mp hregisters with hfail | ⟨_, w5, -, hrest⟩
    · exact .count (hasAsset hasset) harrives List.mem_cons_self hfail
    · simp +decide [bind_error_of_spares hcode, error_of_spares hcode] at hrest

end Sip10Pool

/-- A spending call that fails with one of the errors was blocked. -/
theorem exec_blocked (hcode : code ∈ consistencyErrors) {op : Operation}
    (hspends : op.nullifiers ≠ [])
    (h : execCall env tokens ctx (op.call inclusion) w = .error (.err code)) :
    Blocked env.primitives tokens inclusion (op.context inclusion ctx) op w code := by
  have hrun := execCall_error h
  obtain ⟨currency, action⟩ := op
  cases currency with
  | stx =>
      cases action with
      | shield args => exact absurd rfl hspends
      | transfer args =>
          refine PrivacyPool.transfer_blocked hcode ?_
          simpa [Operation.call, Operation.context, dispatch, PrivacyPool.execute, bind_error] using hrun
      | withdraw args =>
          refine PrivacyPool.withdraw_blocked hcode ?_
          simpa [Operation.call, Operation.context, dispatch, PrivacyPool.execute, bind_error] using hrun
      | split args =>
          refine SplitMergeManager.splitNote_blocked hcode ?_
          simpa [Operation.call, Operation.context, dispatch, SplitMergeManager.execute, bind_error] using hrun
      | merge args =>
          refine SplitMergeManager.mergeNotes_blocked hcode ?_
          simpa [Operation.call, Operation.context, dispatch, SplitMergeManager.execute, bind_error] using hrun
  | sip10 token =>
      cases action with
      | shield args => exact absurd rfl hspends
      | transfer args =>
          refine Sip10Pool.transfer_blocked hcode ?_
          simpa [Operation.call, Operation.context, dispatch, Sip10Pool.execute, bind_error] using hrun
      | withdraw args =>
          refine Sip10Pool.withdraw_blocked hcode ?_
          simpa [Operation.call, Operation.context, dispatch, Sip10Pool.execute, bind_error] using hrun
      | split args =>
          refine Sip10Pool.split_blocked hcode ?_
          simpa [Operation.call, Operation.context, dispatch, Sip10Pool.execute, bind_error] using hrun
      | merge args =>
          refine Sip10Pool.mergeNotes_blocked hcode ?_
          simpa [Operation.call, Operation.context, dispatch, Sip10Pool.execute, bind_error] using hrun

end Blocked

end StxShield
