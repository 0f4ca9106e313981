import StxShield.Assets.Directory

/-!
# Flat fees and maximal deposits

A flat fee is held against the largest deposit when it is configured, and never
again.  Lowering the largest deposit below it is refused nowhere, so the two stay
in order exactly as long as no accepted call does that.
-/

namespace StxShield

open Library Exec World

variable {env : Env} {w w' : World} {ctx : Ctx}

/-! ## What the calls of a run say -/

/-- The flat fee a call configures, of an asset and a fee type. -/
def AssetRegistry.Call.flat? : AssetRegistry.Call → Option ((Nat × Nat) × Nat)
  | .setAssetFeeConfig assetId feeType _ flat _ => some ((assetId, feeType), flat)
  | _ => none

/-- The largest deposit a call sets, of an asset. -/
def AssetRegistry.Call.limit? : AssetRegistry.Call → Option (Nat × Nat)
  | .setAssetLimits assetId _ maxShield _ _ => some (assetId, maxShield)
  | _ => none

def Event.assetCall? : Event → Option AssetRegistry.Call
  | .called _ (.assetRegistry call) _ => some call
  | _ => none

/-- The accepted calls of the asset registry, latest first. -/
def assetCalls (H : List Event) : List AssetRegistry.Call := H.filterMap Event.assetCall?

/-- The flat fee that was last configured, zero before. -/
def lastFlat : List AssetRegistry.Call → Nat × Nat → Nat
  | call :: earlier, key =>
      match call.flat? with
      | some (configured, flat) => if key = configured then flat else lastFlat earlier key
      | none => lastFlat earlier key
  | [], _ => 0

/-- Limits that were set left room for the flat fees configured before. -/
def LimitsLeaveFees : List AssetRegistry.Call → Prop
  | call :: earlier =>
      (∀ assetId maxShield, call.limit? = some (assetId, maxShield) →
        ∀ feeType, lastFlat earlier (assetId, feeType) ≤ maxShield) ∧ LimitsLeaveFees earlier
  | [] => True

theorem lastFlat_cons_of_none {call : AssetRegistry.Call} (h : call.flat? = none)
    (earlier : List AssetRegistry.Call) : lastFlat (call :: earlier) = lastFlat earlier := by
  funext key
  rw [lastFlat, h]

namespace AssetRegistry

/-! ## One call -/

/-- The stored flat fee, none being zero. -/
def flatOf (assets : AssetRegistry) (key : Nat × Nat) : Nat :=
  ((assets.assetFeeConfigs.lookup key).map FeeConfig.flat).getD 0

def maxShieldOf (assets : AssetRegistry) (id : Nat) : Option Nat :=
  (assets.assets.lookup id).map Asset.maxShield

/-- What a call other than `register-asset` does to either. -/
inductive Adjusts (assets assets' : AssetRegistry) : Call → Prop where
  | kept {call : Call} (hflat : assets'.flatOf = assets.flatOf)
      (hmax : assets'.maxShieldOf = assets.maxShieldOf) (hnone : call.flat? = none) :
      Adjusts assets assets' call
  | limits {id minShield maxShield minNote maxNote : Nat} (hflat : assets'.flatOf = assets.flatOf)
      (hmax : assets'.maxShieldOf = Function.update assets.maxShieldOf id (some maxShield)) :
      Adjusts assets assets' (.setAssetLimits id minShield maxShield minNote maxNote)
  | fee {id feeType bps flat maxShield : Nat} {enabled : Bool}
      (hknown : assets.maxShieldOf id = some maxShield) (hle : flat ≤ maxShield)
      (hflat : assets'.flatOf = Function.update assets.flatOf (id, feeType) flat)
      (hmax : assets'.maxShieldOf = assets.maxShieldOf) :
      Adjusts assets assets' (.setAssetFeeConfig id feeType bps flat enabled)

variable {registry : PrivacyRegistry} {assets assets' : AssetRegistry} {u : Unit}
  {args : RegisterAssetArgs}

theorem maxShieldOf_insert (assets : AssetRegistry) (id : Nat) (edited : Asset) :
    { assets with assets := assets.assets.insert id edited }.maxShieldOf =
      Function.update assets.maxShieldOf id (some edited.maxShield) := by
  funext other
  rw [Function.update_apply]
  unfold maxShieldOf
  rw [DataMap.lookup_insert_eq]
  split <;> rfl

/-- An edit that leaves the limit alone. -/
theorem maxShieldOf_edit {id : Nat} {asset edited : Asset}
    (hasset : assets.assets.lookup id = some asset) (hmax : edited.maxShield = asset.maxShield) :
    { assets with assets := assets.assets.insert id edited }.maxShieldOf = assets.maxShieldOf := by
  have hknown : assets.maxShieldOf id = some edited.maxShield := by
    rw [maxShieldOf, hasset, hmax]
    rfl
  rw [maxShieldOf_insert, ← hknown, Function.update_eq_self]

theorem administer_adjusts {call : Call}
    (h : administer registry ctx call assets = .ok (u, assets')) : Adjusts assets assets' call := by
  cases call with
  | registerAsset args => cases h
  | setAssetEnabled assetId enabled =>
      simp only [administer, setAssetEnabled, ↓bind_ok, ↓exists_read, ↓exists_unwrap,
        ↓exists_require, modify_ok] at h
      obtain ⟨asset, hasset, -, -, -, rfl⟩ := h
      exact .kept rfl (maxShieldOf_edit hasset rfl) rfl
  | deprecateAsset assetId =>
      simp only [administer, deprecateAsset, ↓bind_ok, ↓exists_read, ↓exists_unwrap,
        ↓exists_require, modify_ok] at h
      obtain ⟨asset, hasset, -, -, rfl⟩ := h
      exact .kept rfl (maxShieldOf_edit hasset rfl) rfl
  | setAssetLimits assetId minShield maxShield minNote maxNote =>
      simp only [administer, setAssetLimits, ↓bind_ok, ↓exists_read, ↓exists_unwrap,
        ↓exists_require, modify_ok] at h
      obtain ⟨asset, -, -, -, -, rfl⟩ := h
      exact .limits rfl (maxShieldOf_insert _ _ _)
  | setAssetFeeConfig assetId feeType bps flat enabled =>
      simp only [administer, setAssetFeeConfig, ↓bind_ok, ↓exists_read, ↓exists_unwrap,
        ↓exists_require, modify_ok] at h
      obtain ⟨asset, hasset, -, -, -, -, hle, rfl⟩ := h
      refine .fee (congrArg (Option.map Asset.maxShield) hasset) hle ?_ rfl
      funext key
      rw [Function.update_apply]
      unfold flatOf
      rw [DataMap.lookup_insert_eq]
      split <;> rfl
  | setAssetFeeRecipient assetId feeRecipient =>
      simp only [administer, setAssetFeeRecipient, ↓bind_ok, ↓exists_read, ↓exists_unwrap,
        ↓exists_require, modify_ok] at h
      obtain ⟨asset, hasset, -, -, -, rfl⟩ := h
      exact .kept rfl (maxShieldOf_edit hasset rfl) rfl

end AssetRegistry

/-! ## Runs -/

/-- The directory is one, its flat fees are those last configured, and none is
above its asset's largest deposit. -/
structure FeesWithinDeposits (assets : AssetRegistry) (calls : List AssetRegistry.Call) : Prop where
  directory : AssetRegistry.Directory assets
  last : assets.flatOf = lastFlat calls
  known : ∀ id, assets.maxShieldOf id = none → ∀ feeType, assets.flatOf (id, feeType) = 0
  within : ∀ id maxShield, assets.maxShieldOf id = some maxShield → ∀ feeType,
    assets.flatOf (id, feeType) ≤ maxShield

namespace FeesWithinDeposits

variable {assets assets' : AssetRegistry} {calls : List AssetRegistry.Call}
  (h : FeesWithinDeposits assets calls)
include h

theorem adjust {call : AssetRegistry.Call} (hdir : AssetRegistry.Directory assets')
    (hadjusts : AssetRegistry.Adjusts assets assets' call)
    (hleaves : LimitsLeaveFees (call :: calls)) : FeesWithinDeposits assets' (call :: calls) := by
  cases hadjusts with
  | kept hflat hmax hnone =>
      refine ⟨hdir, ?_, ?_, ?_⟩
      · rw [hflat, h.last, lastFlat_cons_of_none hnone]
      · rw [hflat, hmax]
        exact h.known
      · rw [hflat, hmax]
        exact h.within
  | @limits id minShield maxShield minNote maxNote hflat hmax =>
      refine ⟨hdir, hflat.trans h.last, fun other hnone feeType => ?_,
        fun other found hfound feeType => ?_⟩
      · rw [hmax, Function.update_apply] at hnone
        split at hnone
        case isTrue => cases hnone
        case isFalse => rw [hflat, h.known other hnone feeType]
      · rw [hmax, Function.update_apply] at hfound
        split at hfound
        case isTrue heq =>
          obtain rfl := Option.some.inj hfound
          rw [hflat, h.last, heq]
          exact hleaves.1 id maxShield rfl feeType
        case isFalse =>
          rw [hflat]
          exact h.within other found hfound feeType
  | @fee id feeType bps flat maxShield enabled hknown hle hflat hmax =>
      refine ⟨hdir, ?_, fun other hnone otherType => ?_, fun other found hfound otherType => ?_⟩
      · funext key
        rw [hflat, Function.update_apply, h.last]
        rfl
      · rw [hmax] at hnone
        have hne : (other, otherType) ≠ (id, feeType) := by
          rintro ⟨⟩
          cases hknown.symm.trans hnone
        rw [hflat, Function.update_of_ne hne, h.known other hnone otherType]
      · rw [hmax] at hfound
        rw [hflat, Function.update_apply]
        split
        case isTrue heq =>
          obtain ⟨rfl, -⟩ := Prod.mk.inj heq
          obtain rfl := Option.some.inj (hknown.symm.trans hfound)
          exact hle
        case isFalse => exact h.within other found hfound otherType

/-- A new asset is free of charge. -/
theorem register {args : RegisterAssetArgs}
    (hfresh : assets.principalToId.lookup args.token = none)
    (hlimits : AssetRegistry.validLimits args.minShield args.maxShield args.minNote args.maxNote) :
    FeesWithinDeposits (AssetRegistry.registered assets args) (.registerAsset args :: calls) := by
  have hnew : assets.maxShieldOf assets.nextAssetId = none :=
    congrArg (Option.map Asset.maxShield) h.directory.lookup_next
  have hflat : (AssetRegistry.registered assets args).flatOf = assets.flatOf := by
    funext key
    unfold AssetRegistry.flatOf
    rw [AssetRegistry.fee_registered]
    split
    case isTrue heq =>
      have hzero := h.known _ hnew key.2
      rw [← heq.1] at hzero
      exact hzero.symm
    case isFalse => rfl
  have hmax : (AssetRegistry.registered assets args).maxShieldOf =
      Function.update assets.maxShieldOf assets.nextAssetId (some args.maxShield) :=
    AssetRegistry.maxShieldOf_insert assets _ _
  refine ⟨h.directory.registered hfresh hlimits, hflat.trans h.last, fun id hnone feeType => ?_,
    fun id found hfound feeType => ?_⟩
  · rw [hmax, Function.update_apply] at hnone
    split at hnone
    case isTrue => cases hnone
    case isFalse => rw [hflat, h.known id hnone feeType]
  · rw [hmax, Function.update_apply] at hfound
    rw [hflat]
    split at hfound
    case isTrue heq =>
      rw [heq, h.known _ hnew feeType]
      exact Nat.zero_le _
    case isFalse => exact h.within id found hfound feeType

end FeesWithinDeposits

/-- What a run keeps while limits leave room for fees. -/
def KeepsFeesWithin (w w' : World) : Prop :=
  LimitsLeaveFees (assetCalls w'.history) → LimitsLeaveFees (assetCalls w.history) ∧
    (FeesWithinDeposits w.assetRegistry (assetCalls w.history) →
      FeesWithinDeposits w'.assetRegistry (assetCalls w'.history))

theorem keepsFeesWithin_of_eq (hassets : w'.assetRegistry = w.assetRegistry)
    (hcalls : assetCalls w'.history = assetCalls w.history) : KeepsFeesWithin w w' := by
  intro hlimits
  rw [hassets, hcalls]
  exact ⟨hcalls ▸ hlimits, id⟩

theorem keepsFeesWithin_closed : Closed KeepsFeesWithin where
  refl _ := keepsFeesWithin_of_eq rfl rfl
  trans huv hvw := by
    intro hlimits
    obtain ⟨hmid, hlast⟩ := hvw hlimits
    obtain ⟨hfirst, hnext⟩ := huv hmid
    exact ⟨hfirst, hlast ∘ hnext⟩
  store _ _ _ _ := keepsFeesWithin_of_eq rfl rfl

/-- Only administration writes what is already in the directory. -/
theorem keepsFeesWithin_covers {call : Call}
    (hcall : ∀ assetCall, call = .assetRegistry assetCall →
      ∃ args, assetCall = .registerAsset args) : Covers call KeepsFeesWithin where
  refl := keepsFeesWithin_closed.refl
  trans := keepsFeesWithin_closed.trans
  writes h := by
    cases h with
    | assetRegistry heq hrun =>
        obtain ⟨args, rfl⟩ := hcall _ heq
        cases hrun
    | noteManager hrun =>
        obtain ⟨registry, manager, rfl, -⟩ := NoteManager.execute_frame hrun
        exact keepsFeesWithin_of_eq rfl rfl
    | _ => exact keepsFeesWithin_of_eq rfl rfl

theorem administer_keepsFeesWithin {tokens : TokenCode} {assetCall : AssetRegistry.Call}
    {data : List Nat} (hcall : ∀ args, assetCall ≠ .registerAsset args)
    (h : execCall env tokens ctx (.assetRegistry assetCall) w = .ok (data, w')) :
    KeepsFeesWithin w w' := by
  obtain ⟨mid, hrun, rfl⟩ := execCall_ok.mp h
  obtain ⟨inner, hdispatch, -⟩ := withinCall_ok hrun
  have hadministers : ∃ registry storage,
      AssetRegistry.administer registry inner assetCall w.assetRegistry = .ok ((), storage) ∧
        { w with assetRegistry := storage } = mid := by
    simp only [dispatch, ↓bind_ok, pure_ok] at hdispatch
    obtain ⟨_, _, hexecute, -, rfl⟩ := hdispatch
    cases assetCall with
    | registerAsset args => exact absurd rfl (hcall args)
    | _ =>
        simp only [AssetRegistry.execute, ↓bind_ok, ↓exists_read, onAssetRegistry_ok,
          pure_ok] at hexecute
        obtain ⟨_, _, ⟨storage, hstored, rfl⟩, -, rfl⟩ := hexecute
        exact ⟨_, storage, hstored, rfl⟩
  obtain ⟨registry, storage, hstored, rfl⟩ := hadministers
  intro hlimits
  refine ⟨hlimits.2, fun hfees => ?_⟩
  have hdir := hfees.directory.administered (AssetRegistry.administer_administered hstored)
  exact hfees.adjust hdir (AssetRegistry.administer_adjusts hstored) hlimits

/-- An asset is registered, and the call recorded. -/
theorem RegistersAsset.keepsFeesWithin {args : RegisterAssetArgs}
    (h : RegistersAsset args w w') (registered : Nat) :
    KeepsFeesWithin w
      { w' with
        history := .called ctx (.assetRegistry (.registerAsset args)) registered :: w'.history } := by
  rw [h.written]
  intro hlimits
  exact ⟨hlimits.2, fun hfees => hfees.register h.fresh h.limits⟩

theorem assetCalls_called {call : Call} (hcall : ∀ assetCall, call ≠ .assetRegistry assetCall)
    (registered : Nat) (H : List Event) :
    assetCalls (.called ctx call registered :: H) = assetCalls H := by
  cases call with
  | assetRegistry assetCall => exact absurd rfl (hcall assetCall)
  | _ => rfl

theorem exec_keepsFeesWithin (env : Env) (depth : Nat) :
    CallsRespect StxSafe KeepsFeesWithin (exec env depth) := by
  refine exec_respects keepsFeesWithin_closed stxSafe_delegable ?_ depth
  intro depth htokens ctx call hctx _ w data w' h
  by_cases hassets : ∃ assetCall, call = .assetRegistry assetCall
  · obtain ⟨assetCall, rfl⟩ := hassets
    by_cases hregister : ∃ args, assetCall = .registerAsset args
    · obtain ⟨args, rfl⟩ := hregister
      have hcovers := keepsFeesWithin_covers fun _ heq => ⟨args, (Call.assetRegistry.inj heq).symm⟩
      cases execCall_writes hcovers htokens hctx h with
      | covered hmid =>
          refine keepsFeesWithin_closed.trans hmid fun hlimits => ⟨hlimits.2, fun hfees => ?_⟩
          exact hfees.adjust hfees.directory (.kept rfl rfl rfl) hlimits
      | registerAsset heq hmid hregisters =>
          cases heq
          exact keepsFeesWithin_closed.trans hmid (hregisters.keepsFeesWithin _)
    · exact administer_keepsFeesWithin (fun args heq => hregister ⟨args, heq⟩) h
  · have hcall (assetCall : AssetRegistry.Call) : call ≠ .assetRegistry assetCall :=
      fun heq => hassets ⟨assetCall, heq⟩
    have hcovers := keepsFeesWithin_covers fun assetCall heq => absurd heq (hcall assetCall)
    cases execCall_writes hcovers htokens hctx h with
    | covered hmid =>
        exact keepsFeesWithin_closed.trans hmid
          (keepsFeesWithin_of_eq rfl (assetCalls_called hcall _ _))
    | registerAsset heq => exact absurd heq (hcall _)

theorem Continues.keepsFeesWithin (h : Continues env w w') : KeepsFeesWithin w w' := by
  induction h with
  | refl => exact keepsFeesWithin_closed.refl w
  | tail _ hstep ih =>
      obtain ⟨ctx, hctx, depth, call, rfl⟩ := hstep
      exact keepsFeesWithin_closed.trans ih
        (transact_respects Ctx.TopLevel.stxSafe keepsFeesWithin_closed.refl
          (exec_keepsFeesWithin env depth) hctx call _)

theorem feesWithinDeposits_deployed : FeesWithinDeposits .deployed [] where
  directory := AssetRegistry.directory_deployed
  last := rfl
  known _ _ _ := rfl
  within _ _ h := by cases h

/-- In every run whose accepted limits leave room for the flat fees configured
before, no stored flat fee is above its asset's largest deposit. -/
theorem flat_fees_within_deposits (hreach : Reachable env w)
    (hlimits : LimitsLeaveFees (assetCalls w.history)) {id feeType : Nat} {asset : Asset}
    {config : FeeConfig} (hasset : w.assetRegistry.assets.lookup id = some asset)
    (hconfig : w.assetRegistry.assetFeeConfigs.lookup (id, feeType) = some config) :
    config.flat ≤ asset.maxShield := by
  obtain ⟨deployer, stx, tokens, hrun⟩ := hreach.exists_deployed
  have hfees : FeesWithinDeposits w.assetRegistry (assetCalls w.history) :=
    (hrun.keepsFeesWithin hlimits).2 feesWithinDeposits_deployed
  have hmax : w.assetRegistry.maxShieldOf id = some asset.maxShield :=
    congrArg (Option.map Asset.maxShield) hasset
  have hwithin := hfees.within id asset.maxShield hmax feeType
  unfold AssetRegistry.flatOf at hwithin
  rw [hconfig] at hwithin
  exact hwithin

namespace Sample

def listing : RegisterAssetArgs where
  token := token
  name := [84]
  decimals := 6
  minShield := 1
  maxShield := 1000
  minNote := 1
  maxNote := 0
  feeRecipient := owner
  version := 1

/-- A flat fee of 800 under a largest deposit of 1000. -/
def chargeFlat : AssetRegistry.Call := .setAssetFeeConfig 1 feeTypeWithdrawal 0 800 true

def limitDeposits (maxShield : Nat) : AssetRegistry.Call := .setAssetLimits 1 1 maxShield 1 0

/-- The fee is configured, and then the limit is lowered. -/
def narrowed (maxShield : Nat) : World :=
  transactAll Sample.env 1 (sentBy owner)
    [.assetRegistry chargeFlat, .assetRegistry (limitDeposits maxShield)] ready

theorem narrowed_reachable (maxShield : Nat) : Reachable Sample.env (narrowed maxShield) :=
  ready_reachable.transactAll owner_topLevel 1 _

end Sample

/-- Lowering the limit to 900 leaves room for a fee of 800. -/
theorem flat_fees_within_deposits_narrowed :
    LimitsLeaveFees (assetCalls (Sample.narrowed 900).history) ∧
      ∃ asset, (Sample.narrowed 900).assetRegistry.assets.lookup 1 = some asset ∧
        asset.maxShield = 900 ∧ 800 ≤ asset.maxShield := by
  have hcalls : assetCalls (Sample.narrowed 900).history =
      [Sample.limitDeposits 900, Sample.chargeFlat, .registerAsset Sample.listing] := by
    decide +kernel
  have hmax : ((Sample.narrowed 900).assetRegistry.assets.lookup 1).map Asset.maxShield =
      some 900 := by decide +kernel
  have hflat : (Sample.narrowed 900).assetRegistry.assetFeeConfigs.lookup (1, feeTypeWithdrawal) =
      some { bps := 0, flat := 800, enabled := true } := by decide +kernel
  have hreach := Sample.narrowed_reachable 900
  generalize Sample.narrowed 900 = w at hcalls hmax hflat hreach ⊢
  have hlimits : LimitsLeaveFees (assetCalls w.history) := by
    rw [hcalls]
    refine ⟨fun assetId maxShield hlimit feeType => ?_, fun _ _ hlimit => ?_, fun _ _ hlimit => ?_,
      trivial⟩
    · obtain ⟨rfl, rfl⟩ : 1 = assetId ∧ 900 = maxShield := Prod.mk.inj (Option.some.inj hlimit)
      change (if (1, feeType) = (1, feeTypeWithdrawal) then 800 else 0) ≤ 900
      split <;> omega
    · cases hlimit
    · cases hlimit
  obtain ⟨asset, hasset, hlimit⟩ := Option.map_eq_some_iff.mp hmax
  exact ⟨hlimits, asset, hasset, hlimit,
    flat_fees_within_deposits hreach hlimits hasset hflat⟩

/-- Lowering it to 500 does not, and is accepted. -/
theorem flat_fee_above_deposits :
    ¬ ∀ (env : Env) (w : World), Reachable env w → ∀ id feeType asset config,
      w.assetRegistry.assets.lookup id = some asset →
      w.assetRegistry.assetFeeConfigs.lookup (id, feeType) = some config →
      config.flat ≤ asset.maxShield := by
  intro halways
  have hmax : ((Sample.narrowed 500).assetRegistry.assets.lookup 1).map Asset.maxShield =
      some 500 := by decide +kernel
  have hflat : (Sample.narrowed 500).assetRegistry.assetFeeConfigs.lookup (1, feeTypeWithdrawal) =
      some { bps := 0, flat := 800, enabled := true } := by decide +kernel
  obtain ⟨asset, hasset, hlimit⟩ := Option.map_eq_some_iff.mp hmax
  have hle := halways Sample.env _ (Sample.narrowed_reachable 500) 1 _ asset _ hasset hflat
  simp only at hle
  omega

end StxShield
