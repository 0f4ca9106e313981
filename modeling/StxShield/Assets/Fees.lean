import StxShield.Assets.Directory
import StxShield.Registry.Store

/-!
# Withdrawal fees

A withdrawal pays its fee out of the note, so a note is spendable only if the
fee is below its amount.  The percentage is under a ceiling, but the flat fee is
only held against the largest deposit, not the smallest.
-/

namespace StxShield

open Library Exec World

variable {env : Env} {w w' : World}

/-! ## The ceiling -/

namespace PrivacyRegistry

theorem Performed.keeps_limits {ctx : Ctx} {before after : PrivacyRegistry} {call : Call}
    {data : Option Nat} (h : Performed ctx before call data after)
    (hwell : LimitsWellFormed before.protocolLimits) : LimitsWellFormed after.protocolLimits := by
  cases h with
  | limits _ _ hnew => exact hnew hwell
  | _ => exact hwell

end PrivacyRegistry

/-- The registry's limits stay consistent. -/
def KeepsLimits (w w' : World) : Prop :=
  PrivacyRegistry.LimitsWellFormed w.registry.protocolLimits →
    PrivacyRegistry.LimitsWellFormed w'.registry.protocolLimits

theorem keepsLimits_kept : KeptByRuns KeepsLimits where
  refl _ := id
  trans huv hvw := hvw ∘ huv
  store _ _ _ _ := id
  registers h := by
    rw [KeepsLimits, h.written]
    exact id
  called _ _ := id
  writes h := by
    cases h with
    | registry hperformed => exact hperformed.keeps_limits
    | noteManager hrun =>
        obtain ⟨registry, manager, rfl, hsame | hperformed⟩ := NoteManager.execute_frame hrun
        · rw [KeepsLimits, hsame]
          exact id
        · exact hperformed.keeps_limits
    | _ => exact id

theorem Reachable.limits (h : Reachable env w) :
    PrivacyRegistry.LimitsWellFormed w.registry.protocolLimits := by
  obtain ⟨deployer, stx, tokens, hrun⟩ := h.exists_deployed
  exact keepsLimits_kept.continues hrun (PrivacyRegistry.deployed_limits deployer)

namespace ProtocolFees

/-- Whatever is configured, the percentage is at most ten. -/
theorem effectiveBps_le (hreach : Reachable env w) (configured : Nat) :
    effectiveBps w.registry configured ≤ PrivacyRegistry.maxFeeBpsCeiling := by
  have hceiling := hreach.limits.maxFeeBps_le
  unfold effectiveBps
  split
  · exact hceiling
  · omega

/-! ## The fee as a function of the amount -/

/-- A fee with a flat part and a percentage, in exact arithmetic. -/
def feeOf (flat bps amount : Nat) : Nat := flat + amount * bps / bpsDenominator

theorem feeOf_mono {flat bps small large : Nat} (hle : small ≤ large) :
    feeOf flat bps small ≤ feeOf flat bps large :=
  Nat.add_le_add_left (Nat.div_le_div_right (Nat.mul_le_mul_right bps hle)) flat

/-- A percentage grows at most as fast as the amount. -/
theorem feeOf_add_le {flat bps amount : Nat} (hbps : bps ≤ bpsDenominator) (more : Nat) :
    feeOf flat bps (amount + more) ≤ feeOf flat bps amount + more := by
  have hmore : more * bps ≤ bpsDenominator * more := by
    rw [Nat.mul_comm bpsDenominator more]
    exact Nat.mul_le_mul_left more hbps
  have hscaled : (amount + more) * bps / bpsDenominator ≤
      (amount * bps + bpsDenominator * more) / bpsDenominator := by
    apply Nat.div_le_div_right
    rw [Nat.add_mul]
    exact Nat.add_le_add_left hmore _
  rw [Nat.add_mul_div_left _ _ (by decide)] at hscaled
  unfold feeOf
  omega

/-- A fee below one amount is below every larger one. -/
theorem feeOf_lt_of_le {flat bps small large : Nat} (hbps : bps ≤ bpsDenominator)
    (hle : small ≤ large) (hlt : feeOf flat bps small < small) : feeOf flat bps large < large := by
  obtain ⟨more, rfl⟩ := Nat.exists_eq_add_of_le hle
  exact (feeOf_add_le hbps more).trans_lt (Nat.add_lt_add_right hlt more)

/-- Below the amount is what the percentage leaves of it. -/
theorem feeOf_lt_iff {flat bps amount : Nat} (hbps : bps ≤ bpsDenominator) :
    feeOf flat bps amount < amount ↔
      flat * bpsDenominator < amount * (bpsDenominator - bps) := by
  have hshare : amount * (bpsDenominator - bps) + amount * bps = amount * bpsDenominator := by
    rw [← Nat.mul_add, Nat.sub_add_cancel hbps]
  have hdiv : feeOf flat bps amount = (flat * bpsDenominator + amount * bps) / bpsDenominator := by
    rw [Nat.add_comm, Nat.add_mul_div_right _ _ (by decide), Nat.add_comm]
    rfl
  rw [hdiv, Nat.div_lt_iff_lt_mul (by decide)]
  omega

/-- The arithmetic of `feeOf` fits in an unsigned integer. -/
def FeeFits (flat bps amount : Nat) : Prop :=
  amount * bps < uintBound ∧ flat + amount * bps / bpsDenominator < uintBound

theorem FeeFits.mono {flat bps small large : Nat} (h : FeeFits flat bps large)
    (hle : small ≤ large) : FeeFits flat bps small :=
  ⟨(Nat.mul_le_mul_right bps hle).trans_lt h.1, (feeOf_mono hle).trans_lt h.2⟩

theorem configuredFee_ok {σ : Type} {registry : PrivacyRegistry} {config : FeeConfig}
    {amount fee : Nat} {s s' : σ} :
    configuredFee registry config amount s = .ok (fee, s') ↔
      (config.enabled = true →
        FeeFits config.flat (effectiveBps registry config.bps) amount) ∧
      (if config.enabled then feeOf config.flat (effectiveBps registry config.bps) amount
        else 0) = fee ∧ s = s' := by
  unfold configuredFee FeeFits feeOf
  cases config.enabled with
  | false => simp
  | true =>
      simp only [if_true, ↓bind_ok, mulUint_ok, addUint_ok, forall_const]
      constructor
      · rintro ⟨_, _, ⟨hscaled, rfl, rfl⟩, hfee, rfl, rfl⟩
        exact ⟨⟨hscaled, hfee⟩, rfl, rfl⟩
      · rintro ⟨⟨hscaled, hfee⟩, rfl, rfl⟩
        exact ⟨_, _, ⟨hscaled, rfl, rfl⟩, hfee, rfl, rfl⟩

end ProtocolFees

/-! ## Withdrawable assets -/

namespace Sip10ProtocolFees

open AssetRegistry ProtocolFees

/-- Every amount that a note of the asset can have is above the fee of its
withdrawal. -/
def Withdrawable (w : World) (id : Nat) (asset : Asset) : Prop :=
  ∀ amount, asset.minShield ≤ amount → amount ≤ w.sip10Pool.getShieldedTotal id →
    ∃ fee, calculateFee id feeTypeWithdrawal amount w = .ok (fee, w) ∧ fee < amount

/-- The flat fee is below what the percentage leaves of the least deposit, and
the fee of the whole total does not overflow. -/
def LeavesNotes (w : World) (id : Nat) (asset : Asset) (config : FeeConfig) : Prop :=
  config.flat * bpsDenominator <
      asset.minShield * (bpsDenominator - effectiveBps w.registry config.bps) ∧
    FeeFits config.flat (effectiveBps w.registry config.bps) (w.sip10Pool.getShieldedTotal id)

theorem calculateFee_ok {id feeType amount fee : Nat} {config : FeeConfig}
    (hconfig : w.assetRegistry.assetFeeConfigs.lookup (id, feeType) = some config) :
    calculateFee id feeType amount w = .ok (fee, w') ↔
      (config.enabled = true →
        FeeFits config.flat (effectiveBps w.registry config.bps) amount) ∧
      (if config.enabled then feeOf config.flat (effectiveBps w.registry config.bps) amount
        else 0) = fee ∧ w = w' := by
  unfold calculateFee
  simp only [↓bind_ok, ↓exists_read, ↓exists_unwrap, hconfig, Option.some.injEq, exists_eq_left',
    configuredFee_ok]

variable {id : Nat} {asset : Asset} {config : FeeConfig}

theorem withdrawable_of_disabled (hreach : Reachable env w)
    (hasset : w.assetRegistry.assets.lookup id = some asset)
    (hconfig : w.assetRegistry.assetFeeConfigs.lookup (id, feeTypeWithdrawal) = some config)
    (hdisabled : config.enabled = false) : Withdrawable w id asset := by
  intro amount hleast _
  have hpositive := (hreach.directory.limits id asset hasset).1
  refine ⟨0, (calculateFee_ok hconfig).mpr ?_, by omega⟩
  simp [hdisabled]

theorem withdrawable_of_leavesNotes (hreach : Reachable env w)
    (hconfig : w.assetRegistry.assetFeeConfigs.lookup (id, feeTypeWithdrawal) = some config)
    (henabled : config.enabled = true) (hleaves : LeavesNotes w id asset config) :
    Withdrawable w id asset := by
  intro amount hleast htotal
  obtain ⟨hflat, hfits⟩ := hleaves
  have hbps : effectiveBps w.registry config.bps ≤ bpsDenominator :=
    (effectiveBps_le hreach config.bps).trans (by decide)
  refine ⟨_, (calculateFee_ok hconfig).mpr ⟨fun _ => hfits.mono htotal, rfl, rfl⟩, ?_⟩
  rw [if_pos henabled]
  exact feeOf_lt_of_le hbps hleast ((feeOf_lt_iff hbps).mpr hflat)

theorem leavesNotes_of_withdrawable (hreach : Reachable env w)
    (hconfig : w.assetRegistry.assetFeeConfigs.lookup (id, feeTypeWithdrawal) = some config)
    (henabled : config.enabled = true)
    (hnotes : asset.minShield ≤ w.sip10Pool.getShieldedTotal id)
    (h : Withdrawable w id asset) : LeavesNotes w id asset config := by
  have hbps : effectiveBps w.registry config.bps ≤ bpsDenominator :=
    (effectiveBps_le hreach config.bps).trans (by decide)
  constructor
  · obtain ⟨fee, hfee, hless⟩ := h asset.minShield le_rfl hnotes
    obtain ⟨-, rfl, -⟩ := (calculateFee_ok hconfig).mp hfee
    rw [if_pos henabled] at hless
    exact (feeOf_lt_iff hbps).mp hless
  · obtain ⟨fee, hfee, -⟩ := h (w.sip10Pool.getShieldedTotal id) hnotes le_rfl
    exact ((calculateFee_ok hconfig).mp hfee).1 henabled

/-- In every reachable state every note of a registered asset can pay for its
withdrawal if and only if there are none, the fee is switched off, or the
configuration leaves something of the least deposit. -/
theorem withdrawable_iff (hreach : Reachable env w)
    (hasset : w.assetRegistry.assets.lookup id = some asset) :
    ∃ config, w.assetRegistry.assetFeeConfigs.lookup (id, feeTypeWithdrawal) = some config ∧
      (Withdrawable w id asset ↔
        w.sip10Pool.getShieldedTotal id < asset.minShield ∨ config.enabled = false ∨
          LeavesNotes w id asset config) := by
  obtain ⟨config, hconfig⟩ := hreach.directory.fees id feeTypeWithdrawal
    (DataMap.mem_iff_lookup.mpr ⟨asset, hasset⟩) (by decide)
  refine ⟨config, hconfig, fun h => ?_, fun h => ?_⟩
  · by_cases hnotes : asset.minShield ≤ w.sip10Pool.getShieldedTotal id
    · cases henabled : config.enabled with
      | false => exact .inr (.inl rfl)
      | true => exact .inr (.inr (leavesNotes_of_withdrawable hreach hconfig henabled hnotes h))
    · exact .inl (Nat.lt_of_not_le hnotes)
  · rcases h with hnone | hdisabled | hleaves
    · intro amount hleast htotal
      omega
    · exact withdrawable_of_disabled hreach hasset hconfig hdisabled
    · cases henabled : config.enabled with
      | false => exact withdrawable_of_disabled hreach hasset hconfig henabled
      | true => exact withdrawable_of_leavesNotes hreach hconfig henabled hleaves

end Sip10ProtocolFees

namespace Sample

/-- A flat fee as high as the largest deposit, which is what the check allows. -/
def tax : Call := .assetRegistry (.setAssetFeeConfig 1 feeTypeWithdrawal 0 1000 true)

/-- 500 units of the token are shielded, and a withdrawal costs 1000. -/
def taxed : World := transact Sample.env 1 (sentBy owner) tax interleaved

theorem taxed_reachable : Reachable Sample.env taxed :=
  interleaved_reachable.transact owner_topLevel 1 tax

end Sample

/-- No note of the token can pay for its withdrawal, whatever its amount. -/
theorem Sip10ProtocolFees.withdrawal_trapped :
    Reachable Sample.env Sample.taxed ∧
    ∃ asset, Sample.taxed.assetRegistry.assets.lookup 1 = some asset ∧
      asset.minShield ≤ 500 ∧ Sample.taxed.sip10Pool.getShieldedTotal 1 = 500 ∧
      calculateFee 1 feeTypeWithdrawal 500 Sample.taxed = .ok (1000, Sample.taxed) ∧
      ¬ Withdrawable Sample.taxed 1 asset := by
  have hasset : (Sample.taxed.assetRegistry.assets.lookup 1).map Asset.minShield = some 1 := by
    decide +kernel
  have hconfig : Sample.taxed.assetRegistry.assetFeeConfigs.lookup (1, feeTypeWithdrawal) =
      some { bps := 0, flat := 1000, enabled := true } := by decide +kernel
  have htotal : Sample.taxed.sip10Pool.getShieldedTotal 1 = 500 := by decide +kernel
  have hbps : ProtocolFees.effectiveBps Sample.taxed.registry 0 = 0 := by decide +kernel
  obtain ⟨asset, hlookup, hleast⟩ := Option.map_eq_some_iff.mp hasset
  have hfee : calculateFee 1 feeTypeWithdrawal 500 Sample.taxed = .ok (1000, Sample.taxed) := by
    rw [calculateFee_ok hconfig, hbps]
    exact ⟨fun _ => ⟨by decide, by decide⟩, rfl, rfl⟩
  refine ⟨Sample.taxed_reachable, asset, hlookup, by omega, htotal, hfee, fun h => ?_⟩
  obtain ⟨fee, hagain, hless⟩ := h 500 (by omega) (by omega)
  obtain ⟨rfl, -⟩ := Prod.mk.inj (Except.ok.inj (hfee.symm.trans hagain))
  omega

/-- The fee an asset starts with leaves every note its amount. -/
theorem Sip10ProtocolFees.withdrawable_iff_free :
    ∃ asset, Sample.interleaved.assetRegistry.assets.lookup 1 = some asset ∧
      Withdrawable Sample.interleaved 1 asset := by
  have hasset : (Sample.interleaved.assetRegistry.assets.lookup 1).map Asset.minShield = some 1 := by
    decide +kernel
  have hfree : Sample.interleaved.assetRegistry.assetFeeConfigs.lookup (1, feeTypeWithdrawal) =
      some .free := by decide +kernel
  have hbps : ProtocolFees.effectiveBps Sample.interleaved.registry FeeConfig.free.bps = 0 := by
    decide +kernel
  obtain ⟨asset, hlookup, hleast⟩ := Option.map_eq_some_iff.mp hasset
  obtain ⟨config, hconfig, hiff⟩ := withdrawable_iff Sample.interleaved_reachable hlookup
  obtain rfl := Option.some.inj (hfree.symm.trans hconfig)
  refine ⟨asset, hlookup, hiff.mpr (.inr (.inr ?_))⟩
  unfold LeavesNotes
  rw [hleast, hbps]
  exact ⟨by decide, by simp [ProtocolFees.FeeFits, FeeConfig.free, uintBound]⟩

end StxShield
