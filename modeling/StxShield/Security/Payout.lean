import StxShield.Effects.Failures
import StxShield.Security.StxCustody

/-!
# Payouts of STX

A withdrawal that the registry has recorded is paid.  The pool holds what the
shielded total says, the total covered the amount, and the amount covers the
fee: neither of the two transfers can lack STX, move nothing, or have the same
principal at both ends.
-/

namespace StxShield

open Library Exec World PrivacyRegistry

variable {env : Env} {P : Primitives} {w m : World} {ctx : Ctx} {inclusion : Inclusion}
  {code : Nat}

/-! ## The errors of a transfer -/

/-- A transfer of the sender's own STX fails only for one of three reasons. -/
theorem stxTransfer_error {amount : Nat} {recipient : Principal} {fault : Fault}
    (h : stxTransfer ctx amount ctx.txSender recipient w = .error fault) :
    ¬ (0 < amount ∧ ctx.txSender ≠ recipient ∧ amount ≤ w.stx ctx.txSender) := by
  rintro ⟨hpositive, hne, hcovered⟩
  rw [(stxTransfer_ok (u := ())).mpr ⟨hpositive, hne, rfl, hcovered, rfl⟩] at h
  cases h

/-- The fee contract reports a failed payout only when its transfer failed. -/
theorem collectFee_payout_error (hcode : code ∈ payoutErrors) {feeType fee : Nat}
    (h : ProtocolFees.collectFee ctx feeType fee w = .error (.err code)) :
    ∃ inner, stxTransfer ctx fee ctx.txSender .protocolFees w = .error (.err inner) := by
  unfold ProtocolFees.collectFee at h
  simp +decide only [↓bind_error_of_spares hcode, spares_read, spares_onRegistry,
    checkActive_spares_payout, spares_require, ↓exists_read, ↓exists_onRegistry,
    ↓exists_checkActive, ↓exists_require] at h
  obtain ⟨-, -, -, -, -, hpays⟩ := h
  rcases bind_error.mp hpays with hfail | ⟨_, _, -, hrest⟩
  · exact (orError_error.mp hfail).2
  · simp [bind_error_of_spares hcode, error_of_spares hcode] at hrest

/-- A fee is refused in this way only if the payer does not have it. -/
theorem payFee_payout_error (hcode : code ∈ payoutErrors) {feeType fee : Nat}
    (hpayer : ctx.txSender ≠ .protocolFees)
    (h : ProtocolFees.payFee ctx feeType fee w = .error (.err code)) :
    ¬ fee ≤ w.stx ctx.txSender := by
  unfold ProtocolFees.payFee at h
  split at h
  case isTrue hpositive =>
    rcases bind_error.mp h with hcollect | ⟨_, _, -, hrest⟩
    · obtain ⟨inner, htransfer⟩ := collectFee_payout_error hcode hcollect
      exact fun hcovered => stxTransfer_error htransfer ⟨hpositive, hpayer, hcovered⟩
    · cases hrest
  case isFalse => cases h

/-! ## Registrations spare the errors of a payout -/

@[simp]
theorem registerNullifier_spares_payout (nullifier : Buff32) :
    Spares payoutErrors (PoolCalls.registerNullifier ctx nullifier) := by
  refine spares_onRegistry fun s code hcode h => ?_
  simp +decide [PrivacyRegistry.registerNullifier, bind_error_of_spares hcode,
    error_of_spares hcode] at h

@[simp]
theorem recordWithdrawal_spares_payout (amount : Nat) :
    Spares payoutErrors (recordWithdrawal ctx amount) := by
  intro s code hcode h
  simp +decide [recordWithdrawal, bind_error_of_spares hcode, error_of_spares hcode] at h

/-! ## Withdrawals -/

/-- In a state whose pool covers the shielded total, neither transfer of a
withdrawal fails. -/
theorem withdraw_spares_payout {args : WithdrawArgs} (hcode : code ∈ payoutErrors)
    (hcovers : w.registry.protocolStatistics.totalShieldedStx ≤ w.stx .privacyPool) :
    PrivacyPool.withdraw P ctx args inclusion w ≠ .error (.err code) := by
  intro h
  unfold PrivacyPool.withdraw at h
  simp +decide only [↓bind_error_of_spares hcode, spares_read, spares_onRegistry,
    checkActive_spares_payout, validateWithdrawalAmount_spares_payout, spares_require,
    ProtocolFees.calculateFee_spares_payout, ZkVerifier.verifyProof_spares_payout,
    registerNullifier_spares_payout, recordWithdrawal_spares_payout, spares_record,
    ↓exists_read, ↓exists_onRegistry, ↓exists_checkActive, ↓exists_require] at h
  obtain ⟨-, -, _, registry, hlimits, -, hrecipient, fee, w1, hfee, hless, leaf, w2, hverify, _,
    w3, hnullifier, _, registry', hrecord, _, w5, hcompleted, hpayouts⟩ := h
  obtain rfl : registry = w.registry := keeps_validateWithdrawalAmount id _ _ _ _ hlimits
  obtain rfl : w1 = w := keeps_calculateFee id _ _ _ _ _ hfee
  have hverified := zkVerifier_verifyProof_effect hverify
  obtain ⟨-, hnullifiers⟩ := PoolCalls.registerNullifier_effect hnullifier
  obtain ⟨hcovered, htotal⟩ := recordWithdrawal_effect (onRegistry_ok.mpr ⟨_, hrecord, rfl⟩)
  have hpool : w5.stx .privacyPool = w1.stx .privacyPool := by
    change w5.footprint.poolStx = w1.footprint.poolStx
    rw [record_effect hcompleted, htotal, hnullifiers, hverified]
  have hamount : args.amount ≤ w5.stx .privacyPool := by
    rw [hnullifiers, hverified] at hcovered
    exact hpool ▸ hcovered.trans hcovers
  rcases bind_error.mp hpayouts with hfail | ⟨_, w6, hcharge, hpayout⟩
  · have hpayer : Principal.privacyPool ≠ .protocolFees := by decide
    exact payFee_payout_error hcode hpayer hfail (hless.le.trans hamount)
  · obtain ⟨-, hcharged⟩ := payFee_out_of_pool rfl hcharge
    have hleft : w6.stx .privacyPool = w5.stx .privacyPool - fee :=
      congrArg Footprint.poolStx hcharged
    rcases bind_error.mp hpayout with hfail | ⟨_, _, -, hrest⟩
    · obtain ⟨-, inner, htransfer⟩ := orError_error.mp hfail
      refine stxTransfer_error htransfer ⟨Nat.sub_pos_of_lt hless, hrecipient.2.1.symm, ?_⟩
      change args.amount - fee ≤ w6.stx .privacyPool
      omega
    · cases hrest

theorem exec_withdraw_spares_payout {depth : Nat} {args : WithdrawArgs}
    (hcode : code ∈ payoutErrors)
    (hcovers : w.registry.protocolStatistics.totalShieldedStx ≤ w.stx .privacyPool) :
    exec env depth ctx (.privacyPool (.withdraw args inclusion)) w ≠ .error (.err code) := by
  intro h
  cases depth with
  | zero => cases h
  | succ depth =>
      have hrun := execCall_error h
      simp only [dispatch, PrivacyPool.execute, bind_error, read_error, read_ok, pure_error,
        and_false, exists_false, or_false, false_or] at hrun
      obtain ⟨_, _, ⟨rfl, rfl⟩, hfails⟩ := hrun
      exact withdraw_spares_payout hcode hcovers hfails

/-- In every state the wired system can be in, between transactions or in the
middle of one (`m`), a call of `withdraw` never fails with the error of a payout,
neither with the pool's own nor with the fee contract's. -/
theorem withdrawal_payout_never_fails (hreach : Reachable env w)
    (hmid : Simulated env.primitives w m) (hguarded : Guarded m.history) (ctx : Ctx)
    (depth : Nat) (args : WithdrawArgs) (inclusion : Inclusion) :
    exec env depth ctx (.privacyPool (.withdraw args inclusion)) m ≠
        .error (.err PrivacyPool.errStxTransferFailed) ∧
      exec env depth ctx (.privacyPool (.withdraw args inclusion)) m ≠
        .error (.err ProtocolFees.errStxTransferFailed) := by
  have hcovers := pool_covers_total hreach hmid hguarded
  exact ⟨exec_withdraw_spares_payout (by decide) hcovers,
    exec_withdraw_spares_payout (by decide) hcovers⟩

/-- The withdrawal of all shielded STX is recorded and paid. -/
theorem withdrawal_payout_never_fails_emptied :
    Sample.withdrawn.stx .privacyPool <
        Sample.interleaved.stx .privacyPool ∧
      exec Sample.env 1 (Sample.sentBy Sample.alice) Sample.callWithdrawStx Sample.interleaved ≠
          .error (.err PrivacyPool.errStxTransferFailed) ∧
      exec Sample.env 1 (Sample.sentBy Sample.alice) Sample.callWithdrawStx Sample.interleaved ≠
          .error (.err ProtocolFees.errStxTransferFailed) :=
  ⟨by decide +kernel, withdrawal_payout_never_fails Sample.interleaved_reachable
    (simulated_closed.refl _) (Sample.wired Sample.interleaved_expected).toGuarded _ 1 _ _⟩

end StxShield
