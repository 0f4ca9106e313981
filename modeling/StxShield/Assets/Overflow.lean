import StxShield.Assets.Fees
import StxShield.Effects.Failures

/-!
# Amounts whose arithmetic fits

Clarity aborts a transaction whose arithmetic leaves the unsigned integers.  The
STX limits stay below the supply, which rules that out; an asset's limits have no
bound, so whether every admitted amount fits is decided by the largest one.
-/

namespace StxShield

open Library Exec World

variable {env : Env} {w : World} {P : Primitives} {tokens : TokenCode} {ctx : Ctx}
  {token : Principal} {inclusion : Inclusion} {id amount : Nat} {asset : Asset}

/-! ## Fees -/

/-- The fee of an amount aborts only because it does not fit. -/
theorem Sip10ProtocolFees.calculateFee_abort {feeType : Nat} :
    calculateFee id feeType amount w = .error .abort ↔
      ∃ config, w.assetRegistry.assetFeeConfigs.lookup (id, feeType) = some config ∧
        config.enabled = true ∧
        ¬ ProtocolFees.FeeFits config.flat (ProtocolFees.effectiveBps w.registry config.bps)
          amount := by
  unfold calculateFee ProtocolFees.configuredFee ProtocolFees.FeeFits
  simp only [↓bind_abort settles_read, ↓bind_abort settles_unwrap, ↓exists_read, ↓exists_unwrap]
  refine exists_congr fun config => and_congr_right fun _ => ?_
  cases config.enabled with
  | false => simp
  | true =>
      simp only [if_true, bind_error, mulUint_error, mulUint_ok, addUint_error, and_true, true_and,
        Nat.not_lt, not_and_or]
      constructor
      · rintro (hproduct | ⟨_, _, ⟨-, rfl, rfl⟩, hsum⟩)
        · exact .inl hproduct
        · exact .inr hsum
      · rintro (hproduct | hsum)
        · exact .inl hproduct
        · rcases Nat.lt_or_ge (amount * ProtocolFees.effectiveBps w.registry config.bps) uintBound
            with hfits | hproduct
          · exact .inr ⟨_, _, ⟨hfits, rfl, rfl⟩, hsum⟩
          · exact .inl hproduct

namespace Sip10Pool

/-! ## One amount -/

/-- The product and the sum of the fees, the comparison of the pool's balances and
the addition to the shielded total stay within an unsigned integer. -/
structure Computes (tokens : TokenCode) (w : World) (id : Nat) (token : Principal)
    (amount : Nat) : Prop where
  fee : ∀ feeType, Sip10ProtocolFees.calculateFee id feeType amount w ≠ .error .abort
  comparison : ∀ ctx balance mid, poolBalance tokens ctx token w = .ok (balance, mid) →
    (addUint balance amount : Exec World Nat) mid ≠ .error .abort
  total : (addUint (getShieldedTotal w.sip10Pool id) amount : Exec World Nat) w ≠ .error .abort

/-- What the largest deposit leaves of an unsigned integer. -/
structure HasRoom (tokens : TokenCode) (w : World) (id : Nat) (token : Principal)
    (largest : Nat) : Prop where
  product : ∀ feeType config,
    w.assetRegistry.assetFeeConfigs.lookup (id, feeType) = some config → config.enabled = true →
      largest * ProtocolFees.effectiveBps w.registry config.bps < uintBound
  sum : ∀ feeType config,
    w.assetRegistry.assetFeeConfigs.lookup (id, feeType) = some config → config.enabled = true →
      config.flat + largest * ProtocolFees.effectiveBps w.registry config.bps /
        ProtocolFees.bpsDenominator < uintBound
  /-- What the token says the pool holds. -/
  balance : ∀ ctx balance mid, poolBalance tokens ctx token w = .ok (balance, mid) →
    balance + largest < uintBound
  total : getShieldedTotal w.sip10Pool id + largest < uintBound

theorem computes_of_hasRoom {largest : Nat} (h : HasRoom tokens w id token largest)
    (hle : amount ≤ largest) : Computes tokens w id token amount where
  fee feeType habort := by
    obtain ⟨config, hconfig, henabled, hoverflow⟩ :=
      Sip10ProtocolFees.calculateFee_abort.mp habort
    have hfits : ProtocolFees.FeeFits config.flat
        (ProtocolFees.effectiveBps w.registry config.bps) largest :=
      ⟨h.product feeType config hconfig henabled, h.sum feeType config hconfig henabled⟩
    exact hoverflow (hfits.mono hle)
  comparison ctx balance mid hbalance habort := by
    have hroom := h.balance ctx balance mid hbalance
    have hover := (addUint_error.mp habort).1
    omega
  total habort := by
    have hroom := h.total
    have hover := (addUint_error.mp habort).1
    omega

theorem Computes.hasRoom (h : Computes tokens w id token amount) :
    HasRoom tokens w id token amount := by
  have hfits : ∀ feeType config,
      w.assetRegistry.assetFeeConfigs.lookup (id, feeType) = some config →
      config.enabled = true → ProtocolFees.FeeFits config.flat
        (ProtocolFees.effectiveBps w.registry config.bps) amount := by
    intro feeType config hconfig henabled
    by_contra hoverflow
    exact h.fee feeType
      (Sip10ProtocolFees.calculateFee_abort.mpr ⟨config, hconfig, henabled, hoverflow⟩)
  refine ⟨fun feeType config hconfig henabled => (hfits feeType config hconfig henabled).1,
    fun feeType config hconfig henabled => (hfits feeType config hconfig henabled).2,
    fun ctx balance mid hbalance => ?_, ?_⟩
  · by_contra hover
    exact h.comparison ctx balance mid hbalance
      (addUint_error.mpr ⟨Nat.le_of_not_lt hover, rfl⟩)
  · by_contra hover
    exact h.total (addUint_error.mpr ⟨Nat.le_of_not_lt hover, rfl⟩)

/-! ## A shield that aborts -/

theorem settles_checkActive : Settles (onRegistry PrivacyRegistry.checkActive) := by
  refine settles_zoom (settles_bind settles_read fun registry => ?_)
  cases registry.protocolState <;> first | exact settles_pure _ | exact settles_fail _

theorem settles_checkCurrentRoot {declared : Buff32} {stale unknown : Nat} :
    Settles (PoolCalls.checkCurrentRoot declared stale unknown) :=
  settles_bind settles_read fun _ => settles_bind settles_require fun _ => settles_require

/-- Something that a shield calls aborts. -/
inductive CalleeAborts (P : Primitives) (tokens : TokenCode) (ctx : Ctx) (token : Principal)
    (args : ShieldArgs) (inclusion : Inclusion) : Prop where
  | balance {s : World} (h : poolBalance tokens ctx token s = .error .abort)
  | verifier {s : World}
      (h : Sip10ZkVerifier.verifyProof P (ctx.calledBy .sip10Pool) proofTypeShield
        sip10CircuitVersion (P.keccak256 (shieldInputs P token args)) inclusion s = .error .abort)
  | transfer {s : World}
      (h : tokens token (ctx.calledBy .sip10Pool) (.transfer args.amount ctx.txSender .sip10Pool)
        s = .error .abort)
  | fee {s : World} {id fee : Nat}
      (h : payFee tokens (ctx.calledBy .sip10Pool) id feeTypeShield fee token s = .error .abort)
  | note {s : World}
      (h : PoolCalls.registerNote (ctx.calledBy .sip10Pool) args.commitment args.ownerCommitment
        args.metadata s = .error .abort)
  | commitment {s : World}
      (h : PoolCalls.registerCommitment (ctx.calledBy .sip10Pool) args.commitment s =
        .error .abort)
  | root {s : World}
      (h : PoolCalls.updateRoot (ctx.calledBy .sip10Pool) args.newRoot s = .error .abort)

/-- An asset's shielded total. -/
def totalOf (id : Nat) (w : World) : Nat := getShieldedTotal w.sip10Pool id

theorem totalOf_eq {w' : World} (h : w'.footprint.shieldedTotal = w.footprint.shieldedTotal) :
    totalOf id w' = totalOf id w := congrFun h id

section Still

variable (hstill : ∀ ctx function, Keeps (totalOf id) (tokens token ctx function))
include hstill

theorem keeps_poolBalance : Keeps (totalOf id) (poolBalance tokens ctx token) := by
  intro s value s' h
  obtain ⟨-, hrun⟩ := within_ok.mp h
  exact hstill _ _ _ _ _ (orError_ok.mp hrun)

theorem keeps_collectFee {feeType fee : Nat} :
    Keeps (totalOf id) (Sip10ProtocolFees.collectFee tokens ctx id feeType fee token) := by
  intro s value s' h
  unfold Sip10ProtocolFees.collectFee at h
  simp only [↓bind_ok, ↓exists_read, ↓exists_onRegistry, ↓PrivacyRegistry.exists_checkActive,
    ↓exists_require, ↓exists_unwrap, ↓orError_ok, ↓exists_addUint, onSip10ProtocolFees_ok,
    modify_ok, pure_ok] at h
  obtain ⟨_, -, -, -, -, -, -, -, _, mid, htransfer, -, -, -, _, _, ⟨_, rfl, rfl⟩, -, rfl⟩ := h
  have hcalled := hstill _ _ _ _ _ htransfer
  exact hcalled

theorem keeps_payFee {feeType fee : Nat} :
    Keeps (totalOf id) (payFee tokens ctx id feeType fee token) := by
  intro s value s' h
  unfold payFee at h
  simp only [ite_ok, bind_ok, pure_ok, within_ok] at h
  rcases h with ⟨-, _, _, ⟨-, hcollect⟩, -, rfl⟩ | ⟨-, -, rfl⟩
  · exact keeps_collectFee hstill _ _ _ hcollect
  · rfl

end Still

/-- A shield whose token does not shield in turn aborts only where its own
arithmetic overflows, or something it calls aborts. -/
theorem shield_abort {args : ShieldArgs}
    (hstill : ∀ ctx function,
      Keeps (totalOf id) (tokens token ctx function))
    (hid : AssetRegistry.getAssetIdByPrincipal w.assetRegistry token = some id)
    (hasset : w.assetRegistry.assets.lookup id = some asset)
    (h : shield P tokens ctx token args inclusion w = .error .abort) :
    CalleeAborts P tokens ctx token args inclusion ∨
      (asset.minShield ≤ args.amount ∧ (args.amount : Nat) ≤ asset.maxShield ∧
        ¬ Computes tokens w id token args.amount) := by
  unfold shield at h
  simp only [↓bind_abort settles_read, ↓bind_abort settles_unwrap, ↓bind_abort settles_require,
    ↓bind_abort settles_checkActive, ↓bind_abort settles_checkCurrentRoot, ↓exists_read,
    ↓exists_unwrap, ↓exists_require, ↓exists_onRegistry, ↓PrivacyRegistry.exists_checkActive,
    ↓PoolCalls.exists_checkCurrentRoot, hid, hasset, Option.some.injEq, exists_eq_left'] at h
  obtain ⟨-, -, -, ⟨hmin, hmax⟩, -, h⟩ := h
  rcases bind_error.mp h with hfee | ⟨fee, w', hfee, hrest⟩
  · exact .inr ⟨hmin, hmax, fun hcomputes => hcomputes.fee feeTypeShield hfee⟩
  obtain rfl : w' = w := keeps_sip10CalculateFee (fun world => world) _ _ _ _ _ _ hfee
  rcases bind_error.mp hrest with hfail | ⟨balance, s1, hbefore, h⟩
  · exact .inl (.balance hfail)
  have htotal1 := keeps_poolBalance hstill _ _ _ hbefore
  rcases bind_error.mp h with hfail | ⟨_, s2, hverify, h⟩
  · exact .inl (.verifier hfail)
  have htotal2 := (totalOf_eq (by rw [sip10ZkVerifier_verifyProof_effect hverify])).trans htotal1
  rcases bind_error.mp h with hfail | ⟨_, s3, htransfer, h⟩
  · exact .inl (.transfer (orError_abort.mp hfail))
  have htotal3 := (hstill _ _ _ _ _ (orError_ok.mp htransfer)).trans htotal2
  rcases bind_error.mp h with hfail | ⟨_, s4, hafter, h⟩
  · exact .inl (.balance hfail)
  have htotal4 := (keeps_poolBalance hstill _ _ _ hafter).trans htotal3
  rcases bind_error.mp h with hfail | ⟨_, _, hcompare, h⟩
  · refine .inr ⟨hmin, hmax, fun hcomputes => hcomputes.comparison ctx balance s1 hbefore ?_⟩
    exact addUint_error.mpr (addUint_error.mp hfail)
  obtain ⟨-, -, rfl⟩ := addUint_ok.mp hcompare
  simp only [↓bind_abort settles_require, ↓exists_require] at h
  obtain ⟨-, h⟩ := h
  rcases bind_error.mp h with hfail | ⟨_, s5, hpay, h⟩
  · exact .inl (.fee hfail)
  have htotal5 := (keeps_payFee hstill _ _ _ hpay).trans htotal4
  rcases bind_error.mp h with hfail | ⟨_, s6, hnote, h⟩
  · exact .inl (.note hfail)
  have htotal6 := (totalOf_eq (congrArg Footprint.shieldedTotal
    (PoolCalls.registerNote_keeps_footprint _ _ _ _ _ _ _ hnote))).trans htotal5
  rcases bind_error.mp h with hfail | ⟨_, s7, hcommitment, h⟩
  · exact .inl (.commitment hfail)
  have htotal7 := (totalOf_eq
    (by rw [(PoolCalls.registerCommitment_effect hcommitment).2.2])).trans htotal6
  simp only [↓bind_abort settles_require, ↓exists_require] at h
  obtain ⟨-, h⟩ := h
  rcases bind_error.mp h with hfail | ⟨_, s8, hroot, h⟩
  · exact .inl (.root hfail)
  have htotal8 : getShieldedTotal s8.sip10Pool id = getShieldedTotal w'.sip10Pool id :=
    (totalOf_eq (by rw [(PoolCalls.updateRoot_effect hroot).2])).trans htotal7
  simp only [↓bind_abort settles_read, ↓exists_read, htotal8] at h
  rcases bind_error.mp h with hfail | ⟨_, _, -, h⟩
  · refine .inr ⟨hmin, hmax, fun hcomputes => hcomputes.total ?_⟩
    exact addUint_error.mpr (addUint_error.mp hfail)
  · exact absurd h (settles_bind (settles_zoom settles_modify)
      (fun _ => settles_bind settles_modify fun _ => settles_pure _) _)

end Sip10Pool

/-! ## The largest deposit -/

/-- The arithmetic of every admitted amount fits exactly when the largest deposit
leaves room: times the fee's percentage, with the fee's flat part, on top of the
balance that the token reports, and on top of the shielded total.  If it does, a
shield of an admitted amount aborts only where something it calls does, unless the
token shields in turn. -/
theorem sip10_amounts_fit (hreach : Reachable env w)
    (hasset : w.assetRegistry.assets.lookup id = some asset) (depth : Nat) :
    ((∀ amount, asset.minShield ≤ amount → amount ≤ asset.maxShield →
        Sip10Pool.Computes (callToken env (exec env depth)) w id asset.token amount) ↔
      Sip10Pool.HasRoom (callToken env (exec env depth)) w id asset.token asset.maxShield) ∧
      (Sip10Pool.HasRoom (callToken env (exec env depth)) w id asset.token asset.maxShield →
        (∀ ctx function, Keeps (Sip10Pool.totalOf id)
          (callToken env (exec env depth) asset.token ctx function)) →
        ∀ ctx args inclusion,
          Sip10Pool.shield env.primitives (callToken env (exec env depth)) ctx asset.token args
              inclusion w = .error .abort →
            Sip10Pool.CalleeAborts env.primitives (callToken env (exec env depth)) ctx asset.token
              args inclusion) := by
  have hlimits := hreach.directory.limits id asset hasset
  have hid := (hreach.directory.inverse id asset.token).mp ⟨asset, hasset, rfl⟩
  refine ⟨⟨fun hall => ?_, fun hroom amount _ hmax => ?_⟩,
    fun hroom hstill ctx args inclusion habort => ?_⟩
  · exact (hall asset.maxShield hlimits.2.1 le_rfl).hasRoom
  · exact Sip10Pool.computes_of_hasRoom hroom hmax
  · rcases Sip10Pool.shield_abort hstill hid hasset habort with hcallee | ⟨-, hmax, hoverflow⟩
    · exact hcallee
    · exact absurd (Sip10Pool.computes_of_hasRoom hroom hmax) hoverflow

namespace Sample

/-- The largest deposit that a limit can name, and a fee of one percent. -/
def unbounded : World :=
  transactAll Sample.env 1 (sentBy owner)
    [.assetRegistry (.setAssetLimits 1 1 (2 ^ 128 - 1) 1 0),
      .assetRegistry (.setAssetFeeConfig 1 feeTypeShield 100 0 true)] ready

theorem unbounded_reachable : Reachable Sample.env unbounded :=
  ready_reachable.transactAll owner_topLevel 1 _

/-- The token tells the pool what its ledger says. -/
theorem poolBalance_token {execute : Executor} {s mid : World} {ctx : Ctx} {balance : Nat}
    (h : Sip10Pool.poolBalance (callToken Sample.env execute) ctx Sample.token s =
      .ok (balance, mid)) :
    balance = (s.tokens Sample.token).balances .sip10Pool := by
  obtain ⟨-, hrun⟩ := within_ok.mp h
  have hcalled := orError_ok.mp hrun
  have houtside : ¬ Sample.token.isProtocol := by decide
  unfold callToken at hcalled
  rw [if_neg houtside] at hcalled
  obtain ⟨-, hreply⟩ := within_ok.mp hcalled
  change (do
    let seen ← Exec.read
    runProgram execute Sample.token _
      (.reply (.ok ((seen.visible.tokens Sample.token).balances .sip10Pool)))) s = _ at hreply
  simp only [↓bind_ok, ↓exists_read] at hreply
  exact (pure_ok.mp hreply).1.symm

end Sample

/-- The largest deposit, of 1000, fits. -/
theorem sip10_amounts_fit_ready :
    Sip10Pool.Computes (callToken Sample.env (exec Sample.env 1)) Sample.ready 1 Sample.token
      1000 := by
  have hasset : (Sample.ready.assetRegistry.assets.lookup 1).map (fun asset =>
      (asset.token, asset.minShield, asset.maxShield)) = some (Sample.token, 1, 1000) := by
    decide +kernel
  have hfree : Sample.ready.assetRegistry.assetFeeConfigs.entries.all fun entry =>
      entry.2.flat = 0 := by decide +kernel
  have hheld : (Sample.ready.tokens Sample.token).balances .sip10Pool = 1000 := by decide +kernel
  have htotal : Sample.ready.sip10Pool.getShieldedTotal 1 = 0 := by decide +kernel
  have hreach := Sample.ready_reachable
  generalize Sample.ready = w at *
  obtain ⟨asset, hfound, hdata⟩ := Option.map_eq_some_iff.mp hasset
  simp only [Prod.mk.injEq] at hdata
  obtain ⟨htoken, hmin, hmax⟩ := hdata
  have hfit := (sip10_amounts_fit hreach hfound 1).1.mpr
  rw [htoken, hmin, hmax] at hfit
  have hbps : ∀ configured, ProtocolFees.effectiveBps w.registry configured ≤ 1000 :=
    ProtocolFees.effectiveBps_le hreach
  have hwide : 1000 * 1000 < uintBound := by decide
  refine hfit ⟨fun feeType config _ _ => ?_, fun feeType config hconfig _ => ?_,
    fun ctx balance mid hbalance => ?_, ?_⟩ 1000 (by decide) le_rfl
  · exact (Nat.mul_le_mul_left 1000 (hbps config.bps)).trans_lt hwide
  · have hflat : config.flat = 0 :=
      of_decide_eq_true (List.all_eq_true.mp hfree _ (AList.mem_lookup_iff.mp hconfig))
    have hle := Nat.mul_le_mul_left 1000 (hbps config.bps)
    have hdiv := Nat.div_le_self (1000 * ProtocolFees.effectiveBps w.registry config.bps)
      ProtocolFees.bpsDenominator
    omega
  · rw [Sample.poolBalance_token hbalance, hheld]
    decide
  · rw [htotal]
    decide

/-- A deposit of 2^128 - 1 units is admitted, and its fee overflows. -/
theorem sip10_amount_overflows :
    ¬ ∀ (env : Env) (w : World), Reachable env w → ∀ id asset,
      w.assetRegistry.assets.lookup id = some asset →
      ∀ depth amount, asset.minShield ≤ amount → amount ≤ asset.maxShield →
        Sip10Pool.Computes (callToken env (exec env depth)) w id asset.token amount := by
  intro halways
  have hasset : (Sample.unbounded.assetRegistry.assets.lookup 1).map (fun asset =>
      (asset.minShield, asset.maxShield)) = some (1, 2 ^ 128 - 1) := by decide +kernel
  have hconfig : Sample.unbounded.assetRegistry.assetFeeConfigs.lookup (1, feeTypeShield) =
      some { bps := 100, flat := 0, enabled := true } := by decide +kernel
  have hbps : ProtocolFees.effectiveBps Sample.unbounded.registry 100 = 100 := by decide +kernel
  have hfits := halways Sample.env Sample.unbounded Sample.unbounded_reachable 1
  generalize Sample.unbounded = w at *
  obtain ⟨asset, hfound, hdata⟩ := Option.map_eq_some_iff.mp hasset
  simp only [Prod.mk.injEq] at hdata
  obtain ⟨hmin, hmax⟩ := hdata
  have hlargest := hfits asset hfound 1 (2 ^ 128 - 1)
  rw [hmin, hmax] at hlargest
  have hproduct := (hlargest (by decide) le_rfl).hasRoom.product _ _ hconfig rfl
  rw [hbps] at hproduct
  exact absurd hproduct (by decide)

end StxShield
