import StxShield.Assets.Fees

/-!
# STX fees

What `calculate-fee` can return.  The fee admin configures a flat part and a
percentage, the protocol admin moves the ceiling of the percentage, and the two
meet only when a fee is charged.
-/

namespace StxShield

open Library Exec World PrivacyRegistry

variable {env : Env} {P : Primitives} {w w' : World} {ctx : Ctx} {inclusion : Inclusion}

namespace ProtocolFees

/-! ## Configurations -/

/-- Exactly the four fee types are configured, none with a flat fee above the
hard ceiling. -/
structure Configured (fees : ProtocolFees) : Prop where
  known : ∀ feeType, (fees.feeConfigs.lookup feeType).isSome ↔ isValidFeeType feeType
  flat : ∀ feeType config, fees.feeConfigs.lookup feeType = some config →
    config.flat ≤ flatFeeCeiling

theorem Configured.performed {fees fees' : ProtocolFees} {stx stx' : Principal → Nat}
    (h : Configured fees) (hperformed : Performed fees stx fees' stx') : Configured fees' := by
  cases hperformed with
  | @configured feeType config hvalid hflat =>
      constructor
      · intro other
        rw [DataMap.lookup_insert_eq]
        split
        case isTrue heq => simp only [Option.isSome_some, heq, hvalid]
        case isFalse => exact h.known other
      · intro other found hfound
        rw [DataMap.lookup_insert_eq] at hfound
        split at hfound
        case isTrue => exact Option.some.inj hfound ▸ hflat
        case isFalse => exact h.flat other found hfound
  | collected => exact ⟨h.known, h.flat⟩
  | withdrawn => exact ⟨h.known, h.flat⟩
  | frozen => exact ⟨h.known, h.flat⟩

theorem configured_deployed : Configured .deployed := by
  have hlookup (feeType : Nat) : ProtocolFees.deployed.feeConfigs.lookup feeType =
      if isValidFeeType feeType then some .free else none := by
    by_cases hvalid : isValidFeeType feeType
    · rw [if_pos hvalid]
      rcases hvalid with rfl | rfl | rfl | rfl <;> rfl
    · rw [if_neg hvalid]
      simp only [isValidFeeType, not_or] at hvalid
      simp only [ProtocolFees.deployed, DataMap.lookup_insert_eq, hvalid, if_false,
        AList.lookup_empty]
  constructor
  · intro feeType
    simp only [hlookup, Option.isSome_ite]
  · intro feeType config hconfig
    rw [hlookup, Option.ite_none_right_eq_some] at hconfig
    obtain rfl := Option.some.inj hconfig.2
    exact Nat.zero_le _

end ProtocolFees

/-- A world whose fees are configured leads to such worlds only. -/
theorem configured_kept : KeptByRuns fun w w' =>
    ProtocolFees.Configured w.protocolFees → ProtocolFees.Configured w'.protocolFees where
  refl _ := id
  trans huv hvw := hvw ∘ huv
  store _ _ _ _ := id
  registers h := by
    rw [h.written]
    exact id
  called _ _ := id
  writes h := by
    cases h with
    | protocolFees hperformed => exact fun hconfigured => hconfigured.performed hperformed
    | noteManager hrun =>
        obtain ⟨registry, manager, rfl, -⟩ := NoteManager.execute_frame hrun
        exact id
    | _ => exact id

theorem Reachable.feesConfigured (h : Reachable env w) :
    ProtocolFees.Configured w.protocolFees := by
  obtain ⟨deployer, stx, tokens, hrun⟩ := h.exists_deployed
  exact configured_kept.continues hrun ProtocolFees.configured_deployed

/-! ## Fees of admitted amounts -/

namespace ProtocolFees

/-- No amount under the limits is worth more than all STX there will be. -/
theorem amount_le_supply (hreach : Reachable env w) {amount : Nat}
    (hamount : amount ≤ max w.registry.protocolLimits.maxShield
      w.registry.protocolLimits.maxWithdrawal) : amount ≤ stxSupplyCeiling :=
  hamount.trans (max_le hreach.limits.maxShield_le hreach.limits.maxWithdrawal_le)

theorem effectiveBps_le_live (registry : PrivacyRegistry) (configured : Nat) :
    effectiveBps registry configured ≤ registry.protocolLimits.maxFeeBps := by
  unfold effectiveBps
  split
  · exact le_rfl
  · omega

/-- The product is below 2^62, far from where it would overflow. -/
theorem feeFits_of_supply {flat bps amount : Nat} (hflat : flat ≤ flatFeeCeiling)
    (hbps : bps ≤ maxFeeBpsCeiling) (hamount : amount ≤ stxSupplyCeiling) :
    FeeFits flat bps amount := by
  have hscaled : amount * bps ≤ stxSupplyCeiling * maxFeeBpsCeiling := Nat.mul_le_mul hamount hbps
  have hshare : amount * bps / bpsDenominator ≤ amount * bps := Nat.div_le_self _ _
  unfold flatFeeCeiling at hflat
  unfold stxSupplyCeiling maxFeeBpsCeiling at hscaled
  unfold FeeFits uintBound
  constructor <;> omega

/-- The fee of a configured type is at most the hard ceiling of the flat part
and the live ceiling's share of the amount. -/
theorem feeOf_le {registry : PrivacyRegistry} {config : FeeConfig} {amount : Nat}
    (hflat : config.flat ≤ flatFeeCeiling) :
    feeOf config.flat (effectiveBps registry config.bps) amount ≤
      flatFeeCeiling + amount * registry.protocolLimits.maxFeeBps / bpsDenominator := by
  have hshare : amount * effectiveBps registry config.bps / bpsDenominator ≤
      amount * registry.protocolLimits.maxFeeBps / bpsDenominator :=
    Nat.div_le_div_right (Nat.mul_le_mul_left amount (effectiveBps_le_live registry config.bps))
  exact Nat.add_le_add hflat hshare

theorem calculateFee_ok {feeType amount fee : Nat} {config : FeeConfig}
    (hconfig : w.protocolFees.feeConfigs.lookup feeType = some config) :
    calculateFee feeType amount w = .ok (fee, w') ↔
      (config.enabled = true →
        FeeFits config.flat (effectiveBps w.registry config.bps) amount) ∧
      (if config.enabled then feeOf config.flat (effectiveBps w.registry config.bps) amount
        else 0) = fee ∧ w = w' := by
  simp only [calculateFee, ↓bind_ok, ↓exists_read, ↓exists_unwrap, hconfig, Option.some.injEq,
    exists_eq_left', configuredFee_ok]

/-- What a fee may be at most, for an amount and all smaller ones. -/
theorem calculateFee_bounded (hreach : Reachable env w) {feeType amount : Nat}
    (hvalid : isValidFeeType feeType)
    (hamount : amount ≤ max w.registry.protocolLimits.maxShield
      w.registry.protocolLimits.maxWithdrawal) :
    ∃ fee, calculateFee feeType amount w = .ok (fee, w) ∧
      fee ≤ flatFeeCeiling + amount * w.registry.protocolLimits.maxFeeBps / bpsDenominator ∧
      ∀ less, less ≤ amount → ∃ smaller, calculateFee feeType less w = .ok (smaller, w) ∧
        smaller ≤ fee := by
  obtain ⟨config, hconfig⟩ :=
    Option.isSome_iff_exists.mp ((hreach.feesConfigured.known feeType).mpr hvalid)
  have hflat := hreach.feesConfigured.flat feeType config hconfig
  have hfits : FeeFits config.flat (effectiveBps w.registry config.bps) amount :=
    feeFits_of_supply hflat (effectiveBps_le hreach config.bps) (amount_le_supply hreach hamount)
  refine ⟨_, (calculateFee_ok hconfig).mpr ⟨fun _ => hfits, rfl, rfl⟩, ?_, fun less hless =>
    ⟨_, (calculateFee_ok hconfig).mpr ⟨fun _ => hfits.mono hless, rfl, rfl⟩, ?_⟩⟩
  · split
    · exact feeOf_le hflat
    · exact Nat.zero_le _
  · split
    · exact feeOf_mono hless
    · exact le_rfl

theorem calculateFee_unknown (hreach : Reachable env w) {feeType : Nat} (amount : Nat)
    (hunknown : ¬ isValidFeeType feeType) :
    calculateFee feeType amount w = .error (.err errUnknownFeeType) := by
  have hnone : w.protocolFees.feeConfigs.lookup feeType = none := by
    rwa [← Option.not_isSome_iff_eq_none, hreach.feesConfigured.known feeType]
  have hunwrap : calculateFee feeType amount w =
      (unwrap (w.protocolFees.feeConfigs.lookup feeType) errUnknownFeeType >>= fun config =>
        configuredFee w.registry config amount) w := rfl
  rw [hunwrap, hnone]
  rfl

end ProtocolFees

/-! ## Withdrawals -/

theorem verifyProof_keeps_stx (proofType version : Nat) (inputsHash : Buff32) :
    Keeps World.stx (ZkVerifier.verifyProof P ctx proofType version inputsHash inclusion) :=
  keeps_bind (keeps_zoom fun _ _ => rfl) fun _ => keeps_bind keeps_read fun _ =>
    keeps_bind (keeps_zoom fun _ _ => rfl) fun _ =>
      keeps_bind (keeps_modify fun _ => rfl) fun _ => keeps_pure _

/-- The fee of an accepted withdrawal and what it pays are the amount, and both
leave the pool. -/
theorem PrivacyPool.withdraw_pays {args : WithdrawArgs} {paid : Nat}
    (h : PrivacyPool.withdraw P ctx args inclusion w = .ok (paid, w')) :
    ∃ fee, ProtocolFees.calculateFee feeTypeWithdrawal args.amount w = .ok (fee, w) ∧
      fee + paid = args.amount ∧ 0 < paid ∧
      w'.stx = moved (if 0 < fee then moved w.stx fee .privacyPool .protocolFees else w.stx) paid
        .privacyPool args.recipient := by
  simp only [PrivacyPool.withdraw, ↓bind_ok, ↓exists_read, ↓exists_onRegistry, ↓exists_checkActive,
    ↓exists_require, ↓orError_ok, pure_ok] at h
  obtain ⟨-, -, _, registry, hlimits, -, -, fee, w1, hfee, hless, _, w2, hverify, _, w3,
    hnullifier, _, registry', -, _, w5, hcompleted, _, w6, hcharge, _, w7, hpay, rfl, rfl⟩ := h
  obtain rfl : registry = w.registry := keeps_validateWithdrawalAmount id _ _ _ _ hlimits
  obtain rfl : w1 = w := keeps_calculateFee id _ _ _ _ _ hfee
  have hverified : w2.stx = w1.stx := verifyProof_keeps_stx _ _ _ _ _ _ hverify
  have hregistered : w3.stx = w2.stx := by
    obtain ⟨_, -, rfl⟩ := onRegistry_ok.mp hnullifier
    rfl
  have hrecorded : w5.stx = w3.stx := by
    obtain rfl := record_ok.mp hcompleted
    rfl
  have hcharged := ProtocolFees.payFee_stx hcharge
  obtain ⟨-, -, -, -, rfl⟩ := stxTransfer_ok.mp hpay
  refine ⟨fee, hfee, by omega, by omega, ?_⟩
  rw [hrecorded, hregistered, hverified] at hcharged
  change moved w6.stx (args.amount - fee) .privacyPool args.recipient = _
  rw [hcharged]
  rfl

theorem exec_withdraw_pays {depth : Nat} {args : WithdrawArgs} {data : List Nat}
    (h : exec env depth ctx (.privacyPool (.withdraw args inclusion)) w = .ok (data, w')) :
    ∃ fee paid, ProtocolFees.calculateFee feeTypeWithdrawal args.amount w = .ok (fee, w) ∧
      data = [paid] ∧ fee + paid = args.amount ∧ 0 < paid ∧
      w'.stx = moved (if 0 < fee then moved w.stx fee .privacyPool .protocolFees else w.stx) paid
        .privacyPool args.recipient := by
  cases depth with
  | zero => cases h
  | succ depth =>
      obtain ⟨mid, hrun, rfl⟩ := execCall_ok.mp h
      obtain ⟨inner, hdispatch, -⟩ := withinCall_ok hrun
      simp only [dispatch, PrivacyPool.execute, ↓bind_ok, ↓exists_read, pure_ok] at hdispatch
      obtain ⟨_, _, ⟨paid, _, hwithdraw, rfl, rfl⟩, rfl, rfl⟩ := hdispatch
      obtain ⟨fee, hfee, hsum, hpositive, hstx⟩ := PrivacyPool.withdraw_pays hwithdraw
      exact ⟨fee, paid, hfee, rfl, hsum, hpositive, hstx⟩

/-- In every reachable state, whatever was configured under whatever ceiling: the
live ceiling is at most ten percent; the fee of an amount that the limits admit
is calculated without overflow, is at most ten STX and the live ceiling's share
of the amount, and grows with the amount; and a withdrawal that the pool accepts
divides its amount into the fee and a positive payout. -/
theorem stx_fees_bounded (hreach : Reachable env w) :
    w.registry.protocolLimits.maxFeeBps ≤ 1000 ∧
      (∀ feeType amount, amount ≤ max w.registry.protocolLimits.maxShield
          w.registry.protocolLimits.maxWithdrawal →
        ProtocolFees.calculateFee feeType amount w ≠ .error .abort ∧
          (ProtocolFees.isValidFeeType feeType →
            ∃ fee, ProtocolFees.calculateFee feeType amount w = .ok (fee, w) ∧
              fee ≤ 10 * oneStx + amount * w.registry.protocolLimits.maxFeeBps / 10000 ∧
              ∀ less, less ≤ amount →
                ∃ smaller, ProtocolFees.calculateFee feeType less w = .ok (smaller, w) ∧
                  smaller ≤ fee)) ∧
      ∀ depth ctx args inclusion data w',
        exec env depth ctx (.privacyPool (.withdraw args inclusion)) w = .ok (data, w') →
        ∃ fee paid, ProtocolFees.calculateFee feeTypeWithdrawal args.amount w = .ok (fee, w) ∧
          data = [paid] ∧ fee + paid = args.amount ∧ 0 < paid ∧
          w'.stx =
            moved (if 0 < fee then moved w.stx fee .privacyPool .protocolFees else w.stx) paid
              .privacyPool args.recipient := by
  refine ⟨hreach.limits.maxFeeBps_le, fun feeType amount hamount => ⟨?_, fun hvalid => ?_⟩, ?_⟩
  · by_cases hvalid : ProtocolFees.isValidFeeType feeType
    · obtain ⟨fee, hfee, -⟩ := ProtocolFees.calculateFee_bounded hreach hvalid hamount
      intro habort
      cases hfee.symm.trans habort
    · rw [ProtocolFees.calculateFee_unknown hreach amount hvalid]
      intro habort
      cases habort
  · exact ProtocolFees.calculateFee_bounded hreach hvalid hamount
  · intro depth ctx args inclusion data w' h
    exact exec_withdraw_pays h

namespace Sample

/-- Withdrawals cost one percent and a fifth of an STX; then the ceiling is
lowered to half a percent. -/
def charges : List Call :=
  [.protocolFees (.setFee feeTypeWithdrawal 100 200000 true),
    .privacyRegistry (.setMaxFeeBps 50)]

def charged : World := transactAll Sample.env 1 (sentBy owner) charges interleaved

theorem charged_reachable : Reachable Sample.env charged :=
  interleaved_reachable.transactAll owner_topLevel 1 charges

end Sample

/-- Of a million micro-STX the lowered ceiling leaves a fee of 205000. -/
theorem stx_fees_bounded_charged :
    ∃ fee paid, ProtocolFees.calculateFee feeTypeWithdrawal Sample.withdrawArgs.amount
        Sample.charged = .ok (fee, Sample.charged) ∧
      fee = 205000 ∧ fee + paid = Sample.withdrawArgs.amount ∧ 0 < paid ∧
      (transact Sample.env 1 (Sample.sentBy Sample.alice) Sample.callWithdrawStx
        Sample.charged).stx .protocolFees = Sample.charged.stx .protocolFees + 205000 := by
  have hok : (exec Sample.env 1 (Sample.sentBy Sample.alice) Sample.callWithdrawStx
      Sample.charged).isOk := by decide +kernel
  have hcalculated : ((ProtocolFees.calculateFee feeTypeWithdrawal Sample.withdrawArgs.amount
      Sample.charged).toOption.map Prod.fst) = some 205000 := by decide +kernel
  obtain ⟨data, hrun⟩ := exec_eq_transact hok
  obtain ⟨fee, paid, hfee, -, hsum, hpositive, hstx⟩ :=
    (stx_fees_bounded Sample.charged_reachable).2.2 _ _ _ _ _ _ hrun
  rw [hfee] at hcalculated
  obtain rfl : fee = 205000 := Option.some.inj hcalculated
  refine ⟨205000, paid, hfee, rfl, hsum, hpositive, ?_⟩
  rw [hstx]
  rfl

end StxShield
