import StxShield.Assets.Accounts

/-!
# Conservation, asset by asset

Each operation of the pool names a token, and works on the asset of that token.  What
it does to the pool's tokens it does to the asset's shielded total, fees included;
only a payout of fees to the pool itself adds to the surplus.
-/

namespace StxShield

open Library Exec World PrivacyRegistry

variable {env : Env} {execute : Executor} {ctx : Ctx} {w w' : World} {token : Principal}

/-! ## The pool's operations -/

namespace Sip10Pool

variable {P : Primitives} {inclusion : Inclusion}
  (hhonest : ∀ id, w.assetRegistry.getAssetIdByPrincipal token = some id → HonestToken env token)
  (hctx : ctx.txSender ≠ .sip10Pool)
include hhonest

theorem withdraw_moves {args : WithdrawArgs} {paid : Nat}
    (h : withdraw P (callToken env execute) ctx token args inclusion w = .ok (paid, w')) :
    ∃ id, w.assetRegistry.getAssetIdByPrincipal token = some id ∧
      Moves id token .sip10Pool 0 w w' := by
  unfold withdraw at h
  simp only [↓bind_ok, ↓exists_read, ↓exists_require, ↓exists_subUint, ↓orError_ok,
    pure_ok] at h
  obtain ⟨id, w0, hspendable, -, hrecipient, fee, w1, hfee, _, w2, hbalance, hless, -, _, w3,
    hverify, _, w4, hnullifier, hcovered, _, w5, htotal, _, w6, hcompleted, _, w7, hcharge, _, w8,
    hpay, _, w9, hdelta, -, -, -, rfl⟩ := h
  obtain ⟨rfl, hasset⟩ := checkSpendable_ok hspendable
  have hhonest := hhonest id hasset
  have hasked : Moves id token .sip10Pool 0 w0 w4 :=
    ((poolBalance_moves hhonest hbalance).before
      (keeps_sip10CalculateFee holdings _ _ _ _ _ _ hfee)).after
        ((holdings_registerNullifier hnullifier).trans (holdings_verifyProof hverify))
  have hcounted : Moves id token .sip10Pool args.amount w4 w6 :=
    ((moves_counted htotal).after (holdings_record hcompleted)).of_eq (by omega)
  have hcharged : Moves id token .sip10Pool (-fee) w6 w7 :=
    payFee_moves_pool hhonest hcharge
  have hpaid : Moves id token .sip10Pool (-(args.amount - fee : ℕ)) w7 w8 :=
    (hhonest.transfer_moves hpay).of_eq
      (by rw [if_neg hrecipient.2.1, if_pos rfl, Int.zero_sub])
  have hdone := hasked.trans (hcounted.trans (hcharged.trans
    (hpaid.trans (poolBalance_moves hhonest hdelta))))
  exact ⟨id, hasset, hdone.of_eq (by omega)⟩

include hctx

theorem shield_moves {args : ShieldArgs} {index : Nat}
    (h : shield P (callToken env execute) ctx token args inclusion w = .ok (index, w')) :
    ∃ id, w.assetRegistry.getAssetIdByPrincipal token = some id ∧
      Moves id token ctx.txSender 0 w w' := by
  unfold shield at h
  simp only [↓bind_ok, ↓exists_read, ↓exists_require, ↓exists_unwrap, ↓orError_ok,
    ↓exists_addUint, ↓PoolCalls.exists_checkCurrentRoot, ↓exists_onRegistry, ↓exists_checkActive,
    pure_ok] at h
  obtain ⟨id, hasset, -, -, -, asset, -, -, -, fee, w2, hfee, _, w3, hbalance, _, w4, hverify, _,
    w5, htransfer, _, w6, hdelta, -, -, _, w7, hcharge, _, w8, hnote, _, w9, hcommitment, rfl, _,
    w10, hupdate, -, _, w11, htotal, _, _, hcompleted, -, rfl⟩ := h
  have hhonest := hhonest id hasset
  have hasked : Moves id token ctx.txSender 0 w w4 :=
    ((poolBalance_moves hhonest hbalance).before
      (keeps_sip10CalculateFee holdings _ _ _ _ _ _ hfee)).after (holdings_verifyProof hverify)
  have hdeposited : Moves id token ctx.txSender args.amount w4 w5 :=
    (hhonest.transfer_moves htransfer).of_eq (by rw [if_pos rfl, if_neg hctx, Int.sub_zero])
  have hcharged : Moves id token ctx.txSender 0 w6 w7 :=
    payFee_moves_user hhonest hctx hcharge
  have hregistered : w10.holdings = w7.holdings :=
    (holdings_updateRoot hupdate).trans
      ((holdings_registerCommitment hcommitment).trans (holdings_registerNote hnote))
  have hcounted : Moves id token ctx.txSender (-args.amount) w10 w11 :=
    (moves_counted htotal).of_eq (by omega)
  have hdone := (hasked.trans (hdeposited.trans ((poolBalance_moves hhonest hdelta).trans
    (hcharged.trans (hcounted.before hregistered))))).after (holdings_record hcompleted)
  exact ⟨id, hasset, hdone.of_eq (by omega)⟩

theorem transfer_moves {args : TransferArgs} {index : Nat}
    (h : transfer P (callToken env execute) ctx token args inclusion w = .ok (index, w')) :
    ∃ id, w.assetRegistry.getAssetIdByPrincipal token = some id ∧
      Moves id token ctx.txSender 0 w w' := by
  unfold transfer at h
  simp only [↓bind_ok, ↓exists_require, ↓PoolCalls.exists_checkCurrentRoot, pure_ok] at h
  obtain ⟨id, w0, hspendable, -, fee, w1, hfee, _, w2, hverify, _, w3, hcharge, _, w4,
    hnullifier, _, w5, hcommitment, rfl, _, w6, hnote, _, w7, hupdate, _, _, hcompleted, -,
    rfl⟩ := h
  obtain ⟨rfl, hasset⟩ := checkSpendable_ok hspendable
  have hhonest := hhonest id hasset
  have hcharged : Moves id token ctx.txSender 0 w2 w3 :=
    payFee_moves_user hhonest hctx hcharge
  have hopened : w2.holdings = w0.holdings :=
    (holdings_verifyProof hverify).trans (keeps_sip10CalculateFee holdings _ _ _ _ _ _ hfee)
  have hregistered : w7.holdings = w3.holdings :=
    (holdings_updateRoot hupdate).trans ((holdings_registerNote hnote).trans
      ((holdings_registerCommitment hcommitment).trans (holdings_registerNullifier hnullifier)))
  exact ⟨id, hasset, ((hcharged.before hopened).after hregistered).after
    (holdings_record hcompleted)⟩

theorem split_moves {args : SplitArgs} {indices : Nat × Nat}
    (h : split P (callToken env execute) ctx token args inclusion w = .ok (indices, w')) :
    ∃ id, w.assetRegistry.getAssetIdByPrincipal token = some id ∧
      Moves id token ctx.txSender 0 w w' := by
  unfold split at h
  simp only [↓bind_ok, ↓exists_require, ↓exists_addUint, ↓PoolCalls.exists_checkCurrentRoot,
    pure_ok] at h
  obtain ⟨id, w0, hspendable, -, fee, w1, hfee, _, w2, hverify, _, w3, hcharge, _, w4,
    hnullifier, _, w5, hcommitment1, _, w6, hcommitment2, rfl, -, rfl, _, w7, hnote1, _, w8,
    hnote2, _, w9, hupdate, _, _, hcompleted, -, rfl⟩ := h
  obtain ⟨rfl, hasset⟩ := checkSpendable_ok hspendable
  have hhonest := hhonest id hasset
  have hcharged : Moves id token ctx.txSender 0 w2 w3 :=
    payFee_moves_user hhonest hctx hcharge
  have hopened : w2.holdings = w0.holdings :=
    (holdings_verifyProof hverify).trans (keeps_sip10CalculateFee holdings _ _ _ _ _ _ hfee)
  have hspent : w6.holdings = w3.holdings :=
    (holdings_registerCommitment hcommitment2).trans
      ((holdings_registerCommitment hcommitment1).trans (holdings_registerNullifier hnullifier))
  have hregistered : w9.holdings = w6.holdings :=
    (holdings_updateRoot hupdate).trans
      ((holdings_registerNote hnote2).trans (holdings_registerNote hnote1))
  exact ⟨id, hasset, ((hcharged.before hopened).after (hregistered.trans hspent)).after
    (holdings_record hcompleted)⟩

theorem mergeNotes_moves {args : MergeArgs} {index : Nat}
    (h : mergeNotes P (callToken env execute) ctx token args inclusion w = .ok (index, w')) :
    ∃ id, w.assetRegistry.getAssetIdByPrincipal token = some id ∧
      Moves id token ctx.txSender 0 w w' := by
  unfold mergeNotes at h
  simp only [↓bind_ok, ↓exists_require, ↓PoolCalls.exists_checkCurrentRoot, pure_ok] at h
  obtain ⟨id, w0, hspendable, -, fee, w1, hfee, _, w2, hverify, _, w3, hcharge, _, w4,
    hnullifier1, _, w5, hnullifier2, _, w6, hcommitment, rfl, _, w7, hnote, _, w8, hupdate,
    _, _, hcompleted, -, rfl⟩ := h
  obtain ⟨rfl, hasset⟩ := checkSpendable_ok hspendable
  have hhonest := hhonest id hasset
  have hcharged : Moves id token ctx.txSender 0 w2 w3 :=
    payFee_moves_user hhonest hctx hcharge
  have hopened : w2.holdings = w0.holdings :=
    (holdings_verifyProof hverify).trans (keeps_sip10CalculateFee holdings _ _ _ _ _ _ hfee)
  have hspent : w5.holdings = w3.holdings :=
    (holdings_registerNullifier hnullifier2).trans (holdings_registerNullifier hnullifier1)
  have hregistered : w8.holdings = w5.holdings :=
    (holdings_updateRoot hupdate).trans
      ((holdings_registerNote hnote).trans (holdings_registerCommitment hcommitment))
  exact ⟨id, hasset, ((hcharged.before hopened).after (hregistered.trans hspent)).after
    (holdings_record hcompleted)⟩

end Sip10Pool

/-! ## Calls -/

/-- The calls of the pool, of the fee contract and of the asset registry. -/
def Call.ofAssets : Call → Bool
  | .sip10Pool _ | .sip10ProtocolFees _ | .assetRegistry _ => true
  | _ => false

/-- The asset that such a call names. -/
def Call.asset? (assets : AssetRegistry) : Call → Option Nat
  | .sip10Pool (.shield token _ _) | .sip10Pool (.transfer token _ _)
  | .sip10Pool (.split token _ _) | .sip10Pool (.mergeNotes token _ _)
  | .sip10Pool (.withdraw token _ _) => assets.getAssetIdByPrincipal token
  | .sip10ProtocolFees (.collectFee assetId _ _ _)
  | .sip10ProtocolFees (.withdrawFees assetId _ _) => some assetId
  | .assetRegistry (.registerAsset _) => some assets.nextAssetId
  | .assetRegistry (.setAssetEnabled assetId _) | .assetRegistry (.deprecateAsset assetId)
  | .assetRegistry (.setAssetLimits assetId _ _ _ _)
  | .assetRegistry (.setAssetFeeConfig assetId _ _ _ _)
  | .assetRegistry (.setAssetFeeRecipient assetId _) => some assetId
  | _ => none

/-- What a call sends to the pool outside shield of the asset with this id: the fees
that are paid out, if the pool is the asset's fee recipient. -/
def Call.sentToPool (assets : AssetRegistry) (id : Nat) : Call → Nat
  | .sip10ProtocolFees (.withdrawFees assetId amount _) =>
      if assetId = id ∧ (assets.assets.lookup id).map Asset.feeRecipient = some .sip10Pool then
        amount
      else 0
  | _ => 0

/-- Only the asset that is named gets something. -/
theorem Call.sentToPool_of_ne {assets : AssetRegistry} {id : Nat} {call : Call}
    (h : call.asset? assets ≠ some id) : call.sentToPool assets id = 0 := by
  unfold sentToPool
  split
  · exact if_neg fun hsame => h (congrArg some hsame.1)
  · rfl

/-- What a successful call of the three contracts did. -/
inductive AssetRun (call : Call) (w w' : World) : Prop where
  | idle (hcall : ∀ id, call.sentToPool w.assetRegistry id = 0) (h : w'.holdings = w.holdings)
  | moves {id : Nat} {asset : Asset} {payer : Principal}
      (hcall : call.asset? w.assetRegistry = some id)
      (hasset : w'.assetRegistry.assets.lookup id = some asset)
      (h : Moves id asset.token payer (call.sentToPool w.assetRegistry id) w w')

/-- Every registered token is honest. -/
def HonestAssets (env : Env) (assets : AssetRegistry) : Prop :=
  ∀ id asset, assets.assets.lookup id = some asset → HonestToken env asset.token

/-- Every registered token is honest, and the later directory has its asset. -/
structure KnownHonest (env : Env) (w w' : World) : Prop where
  directory : AssetRegistry.Directory w.assetRegistry
  known : ∀ token id, w.assetRegistry.getAssetIdByPrincipal token = some id →
    HonestToken env token ∧
      ∃ asset, w'.assetRegistry.assets.lookup id = some asset ∧ asset.token = token

namespace KnownHonest

variable {id : Nat} (hknown : KnownHonest env w w')
include hknown

theorem honest (token : Principal) (id : Nat)
    (hid : w.assetRegistry.getAssetIdByPrincipal token = some id) : HonestToken env token :=
  (hknown.known token id hid).1

/-- The asset of a token, by its record. -/
theorem id_of_asset {asset : Asset} (hasset : w.assetRegistry.assets.lookup id = some asset) :
    w.assetRegistry.getAssetIdByPrincipal asset.token = some id :=
  (hknown.directory.inverse id asset.token).mp ⟨asset, hasset, rfl⟩

/-- An operation on a token worked on its asset. -/
theorem assetRun {call : Call} {payer : Principal}
    (hid : w.assetRegistry.getAssetIdByPrincipal token = some id)
    (hcall : call.asset? w.assetRegistry = some id)
    (h : Moves id token payer (call.sentToPool w.assetRegistry id) w w') : AssetRun call w w' := by
  obtain ⟨-, asset, hasset, rfl⟩ := hknown.known token id hid
  exact .moves hcall hasset h

end KnownHonest

theorem Sip10Pool.execute_assetRun {P : Primitives} (hctx : ctx.txSender ≠ .sip10Pool)
    (hknown : KnownHonest env w w') {poolCall : Sip10Pool.Call} {data : List Nat}
    (h : Sip10Pool.execute P (callToken env execute) ctx poolCall w = .ok (data, w')) :
    AssetRun (.sip10Pool poolCall) w w' := by
  cases poolCall with
  | shield token args inclusion =>
      simp only [Sip10Pool.execute, bind_ok, pure_ok] at h
      obtain ⟨_, _, hrun, -, rfl⟩ := h
      obtain ⟨id, hid, hmoves⟩ := shield_moves (hknown.honest token) hctx hrun
      exact hknown.assetRun hid hid hmoves
  | transfer token args inclusion =>
      simp only [Sip10Pool.execute, bind_ok, pure_ok] at h
      obtain ⟨_, _, hrun, -, rfl⟩ := h
      obtain ⟨id, hid, hmoves⟩ := transfer_moves (hknown.honest token) hctx hrun
      exact hknown.assetRun hid hid hmoves
  | split token args inclusion =>
      simp only [Sip10Pool.execute, bind_ok, pure_ok] at h
      obtain ⟨_, _, hrun, -, rfl⟩ := h
      obtain ⟨id, hid, hmoves⟩ := split_moves (hknown.honest token) hctx hrun
      exact hknown.assetRun hid hid hmoves
  | mergeNotes token args inclusion =>
      simp only [Sip10Pool.execute, bind_ok, pure_ok] at h
      obtain ⟨_, _, hrun, -, rfl⟩ := h
      obtain ⟨id, hid, hmoves⟩ := mergeNotes_moves (hknown.honest token) hctx hrun
      exact hknown.assetRun hid hid hmoves
  | withdraw token args inclusion =>
      simp only [Sip10Pool.execute, bind_ok, pure_ok] at h
      obtain ⟨_, _, hrun, -, rfl⟩ := h
      obtain ⟨id, hid, hmoves⟩ := withdraw_moves (hknown.honest token) hrun
      exact hknown.assetRun hid hid hmoves
  | setOperationEnabled op enabled =>
      simp only [Sip10Pool.execute, setOperationEnabled, ↓bind_ok, ↓exists_read, ↓exists_require,
        onSip10Pool_ok, modify_ok, pure_ok] at h
      obtain ⟨_, _, ⟨_, ⟨-, -, -, rfl⟩, rfl⟩, -, rfl⟩ := h
      exact .idle (fun _ => rfl) rfl

namespace Sip10ProtocolFees

/-- The token that a fee is collected in is the asset's. -/
theorem collectFee_names {tokens : TokenCode} {id feeType amount value : Nat}
    (h : collectFee tokens ctx id feeType amount token w = .ok (value, w')) :
    ∃ asset, w.assetRegistry.assets.lookup id = some asset ∧ asset.token = token := by
  unfold collectFee at h
  simp only [↓bind_ok, ↓exists_read, ↓exists_onRegistry, ↓exists_checkActive, ↓exists_require,
    ↓exists_unwrap] at h
  obtain ⟨asset, hasset, -, -, -, -, -, htoken, -⟩ := h
  exact ⟨asset, hasset, htoken.symm⟩

theorem withdrawFees_names {tokens : TokenCode} {id amount : Nat} {u : Unit}
    (h : withdrawFees tokens ctx id amount token w = .ok (u, w')) :
    ∃ asset, w.assetRegistry.assets.lookup id = some asset ∧ asset.token = token := by
  unfold withdrawFees at h
  simp only [↓bind_ok, ↓exists_read, ↓exists_require, ↓exists_unwrap] at h
  obtain ⟨asset, hasset, -, -, -, htoken, -⟩ := h
  exact ⟨asset, hasset, htoken.symm⟩

theorem execute_assetRun (hctx : ctx.txSender ≠ .sip10Pool) (hknown : KnownHonest env w w')
    {feeCall : Call} {u : Unit}
    (h : Sip10ProtocolFees.execute (callToken env execute) ctx feeCall w = .ok (u, w')) :
    AssetRun (.sip10ProtocolFees feeCall) w w' := by
  have hfrozen {m : Exec Sip10ProtocolFees Unit}
      (hm : ∀ fees, m w.sip10ProtocolFees = .ok (u, fees) →
        fees.assetTreasury = w.sip10ProtocolFees.assetTreasury ∧
          fees.assetFeeStats = w.sip10ProtocolFees.assetFeeStats)
      (h : onSip10ProtocolFees m w = .ok (u, w')) : w'.holdings = w.holdings := by
    obtain ⟨fees, hrun, rfl⟩ := onSip10ProtocolFees_ok.mp h
    obtain ⟨htreasury, hstats⟩ := hm fees hrun
    simp only [World.holdings, htreasury, hstats]
  have hfees (frozen : Bool) (fees : Sip10ProtocolFees)
      (h : setFeesFrozen w.registry ctx frozen w.sip10ProtocolFees = .ok (u, fees)) :
      fees.assetTreasury = w.sip10ProtocolFees.assetTreasury ∧
        fees.assetFeeStats = w.sip10ProtocolFees.assetFeeStats := by
    simp only [setFeesFrozen, ↓bind_ok, ↓exists_read, ↓exists_require, modify_ok] at h
    obtain ⟨-, -, rfl⟩ := h
    exact ⟨rfl, rfl⟩
  have htreasury (frozen : Bool) (fees : Sip10ProtocolFees)
      (h : setTreasuryFrozen w.registry ctx frozen w.sip10ProtocolFees = .ok (u, fees)) :
      fees.assetTreasury = w.sip10ProtocolFees.assetTreasury ∧
        fees.assetFeeStats = w.sip10ProtocolFees.assetFeeStats := by
    simp only [setTreasuryFrozen, ↓bind_ok, ↓exists_read, ↓exists_require, modify_ok] at h
    obtain ⟨-, -, rfl⟩ := h
    exact ⟨rfl, rfl⟩
  simp only [Sip10ProtocolFees.execute, ↓bind_ok, ↓exists_read] at h
  cases feeCall with
  | collectFee id feeType amount token =>
      simp only [bind_ok, pure_ok] at h
      obtain ⟨_, _, hrun, -, rfl⟩ := h
      obtain ⟨asset, hasset, rfl⟩ := collectFee_names hrun
      have hid := hknown.id_of_asset hasset
      have hmoves := collectFee_moves (hknown.honest _ id hid) hrun
      rw [if_neg hctx] at hmoves
      exact hknown.assetRun hid rfl hmoves
  | withdrawFees id amount token =>
      obtain ⟨asset, hasset, rfl⟩ := withdrawFees_names h
      have hid := hknown.id_of_asset hasset
      obtain ⟨asset', hasset', -, hmoves⟩ := withdrawFees_moves (hknown.honest _ id hid) h
      obtain rfl := Option.some.inj (hasset.symm.trans hasset')
      refine hknown.assetRun hid rfl (hmoves.of_eq ?_)
      simp only [Call.sentToPool, hasset, Option.map_some, Option.some.injEq, true_and]
      split <;> rfl
  | freezeFees => exact .idle (fun _ => rfl) (hfrozen (hfees true) h)
  | unfreezeFees => exact .idle (fun _ => rfl) (hfrozen (hfees false) h)
  | freezeTreasury => exact .idle (fun _ => rfl) (hfrozen (htreasury true) h)
  | unfreezeTreasury => exact .idle (fun _ => rfl) (hfrozen (htreasury false) h)

end Sip10ProtocolFees

namespace AssetRegistry

/-- Registration asks the token for its decimals, and besides that writes an asset. -/
theorem registerAsset_asks {tokens : TokenCode} {args : RegisterAssetArgs} {id : Nat}
    (h : registerAsset tokens ctx args w = .ok (id, w')) :
    ∃ decimals mid, tokens args.token (ctx.calledBy .assetRegistry) .getDecimals w =
        .ok (decimals, mid) ∧ w'.holdings = mid.holdings ∧ w'.history = mid.history ∧
      ∃ asset, w'.assetRegistry.assets.lookup w.assetRegistry.nextAssetId = some asset ∧
        asset.token = args.token := by
  unfold registerAsset at h
  simp only [↓bind_ok, ↓exists_read, ↓exists_require, ↓orError_ok, ↓exists_addUint,
    onAssetRegistry_ok, modify_ok, pure_ok] at h
  obtain ⟨-, -, -, -, -, -, -, -, _, mid, hasked, -, -, -, _, _, ⟨_, rfl, rfl⟩, -, rfl⟩ := h
  exact ⟨_, mid, hasked, rfl, rfl, _, AList.lookup_insert _, rfl⟩

theorem registerAsset_moves {args : RegisterAssetArgs} {id : Nat} {payer : Principal}
    (hhonest : HonestToken env args.token)
    (h : registerAsset (callToken env execute) ctx args w = .ok (id, w')) :
    Moves w.assetRegistry.nextAssetId args.token payer 0 w w' := by
  obtain ⟨_, mid, hasked, hsame, -⟩ := registerAsset_asks h
  exact (hhonest.getDecimals_moves hasked).after hsame

/-- No account is touched. -/
theorem registerAsset_assetRun {args : RegisterAssetArgs} {id : Nat}
    (hhonest : HonestAssets env w'.assetRegistry)
    (h : registerAsset (callToken env execute) ctx args w = .ok (id, w')) :
    AssetRun (.assetRegistry (.registerAsset args)) w w' := by
  obtain ⟨_, _, -, -, -, asset, hasset, htoken⟩ := registerAsset_asks h
  have hmoves : Moves w.assetRegistry.nextAssetId asset.token ctx.txSender 0 w w' := by
    rw [htoken]
    exact registerAsset_moves (htoken ▸ hhonest _ _ hasset) h
  exact .moves rfl hasset hmoves

theorem execute_assetRun {assetCall : AssetRegistry.Call} {data : Option Nat}
    (hhonest : HonestAssets env w'.assetRegistry)
    (h : AssetRegistry.execute (callToken env execute) ctx assetCall w = .ok (data, w')) :
    AssetRun (.assetRegistry assetCall) w w' := by
  cases assetCall with
  | registerAsset args =>
      simp only [AssetRegistry.execute, bind_ok, pure_ok] at h
      obtain ⟨_, _, hrun, -, rfl⟩ := h
      exact registerAsset_assetRun hhonest hrun
  | _ =>
      simp only [AssetRegistry.execute, ↓bind_ok, ↓exists_read, onAssetRegistry_ok, pure_ok] at h
      obtain ⟨_, _, ⟨_, -, rfl⟩, -, rfl⟩ := h
      exact .idle (fun _ => rfl) rfl

end AssetRegistry

/-! ## Transactions -/

theorem Reachable.knownHonest (hreach : Reachable env w) (hlater : Continues env w w')
    (hhonest : HonestAssets env w'.assetRegistry) : KnownHonest env w w' where
  directory := hreach.directory
  known token id hid := by
    obtain ⟨asset, hasset, rfl⟩ := (hreach.directory.inverse id token).mpr hid
    obtain ⟨-, hextends⟩ := keepsDirectory_kept.continues hlater hreach.directory
    obtain ⟨asset', hasset', htoken, -⟩ := hextends.assets id asset hasset
    exact ⟨htoken ▸ hhonest id asset' hasset', asset', hasset', htoken⟩

theorem exec_assetRun {call : Call} {depth : Nat} {data : List Nat}
    (hctx : ctx.txSender ≠ .sip10Pool) (hcall : call.ofAssets) (hknown : KnownHonest env w w')
    (hhonest : HonestAssets env w'.assetRegistry)
    (h : exec env depth ctx call w = .ok (data, w')) : AssetRun call w w' := by
  cases depth with
  | zero => cases h
  | succ depth =>
      obtain ⟨mid, hrun, rfl⟩ := execCall_ok.mp h
      obtain ⟨inner, hdispatch, hinner⟩ := withinCall_ok hrun
      have hsender : inner.txSender ≠ .sip10Pool := hinner.txSender ▸ hctx
      have hmid : KnownHonest env w mid := ⟨hknown.directory, hknown.known⟩
      have hassets : AssetRun call w mid := by
        cases call with
        | sip10Pool poolCall => exact Sip10Pool.execute_assetRun hsender hmid hdispatch
        | sip10ProtocolFees feeCall =>
            simp only [dispatch, bind_ok, pure_ok] at hdispatch
            obtain ⟨_, _, hexecute, -, rfl⟩ := hdispatch
            exact Sip10ProtocolFees.execute_assetRun hsender hmid hexecute
        | assetRegistry assetCall =>
            simp only [dispatch, bind_ok, pure_ok] at hdispatch
            obtain ⟨_, _, hexecute, -, rfl⟩ := hdispatch
            exact AssetRegistry.execute_assetRun hhonest hexecute
        | _ => cases hcall
      cases hassets with
      | idle hsent hsame => exact .idle hsent hsame
      | moves hnamed hasset hmoves => exact .moves hnamed hasset (hmoves.after rfl)

/-- A failed call changes nothing. -/
theorem transact_of_failed {call : Call} {depth : Nat}
    (h : ¬ (exec env depth ctx call w).isOk) : transact env depth ctx call w = w := by
  unfold transact
  cases hrun : exec env depth ctx call w with
  | ok result =>
      rw [hrun] at h
      exact absurd rfl h
  | error fault => rfl

/-- What a call did to the account of one asset, named or not. -/
theorem AssetRun.account {call : Call} (h : AssetRun call w w')
    (hdir : AssetRegistry.Directory w'.assetRegistry) {id : Nat} {asset : Asset}
    (hasset : w'.assetRegistry.assets.lookup id = some asset) :
    (w'.account id asset.token).surplus =
        (w.account id asset.token).surplus + call.sentToPool w.assetRegistry id ∧
      (call.asset? w.assetRegistry ≠ some id →
        w'.account id asset.token = w.account id asset.token) := by
  cases h with
  | idle hsent hsame =>
      rw [hsent, account_of_holdings hsame]
      exact ⟨(Int.add_zero _).symm, fun _ => rfl⟩
  | @moves named namedAsset payer hnamed hfound hmoves =>
      by_cases heq : id = named
      · subst heq
        obtain rfl := Option.some.inj (hfound.symm.trans hasset)
        exact ⟨hmoves.surplus, fun hother => absurd hnamed hother⟩
      · have hne : asset.token ≠ namedAsset.token := fun htoken =>
          heq ((hdir.names hfound id asset hasset).mpr htoken)
        have hother : call.asset? w.assetRegistry ≠ some id := by
          rw [hnamed]
          exact fun hsame => heq (Option.some.inj hsame).symm
        rw [Call.sentToPool_of_ne hother, hmoves.apart id asset.token heq hne]
        exact ⟨(Int.add_zero _).symm, fun _ => rfl⟩

/-- The STX side is no part of it. -/
theorem AssetRun.stx {call : Call} (h : AssetRun call w w') :
    w'.stx = w.stx ∧ w'.registry.protocolStatistics.totalShieldedStx =
      w.registry.protocolStatistics.totalShieldedStx := by
  cases h with
  | idle _ hsame => exact ⟨congrArg Holdings.stx hsame, congrArg Holdings.totalShieldedStx hsame⟩
  | moves _ _ hmoves => exact ⟨hmoves.stx, hmoves.total⟩

/-- In every reachable state, whatever runs outside the protocol, and for every call of
the pool, of the fee contract and of the asset registry after which the registered
tokens are honest: what the pool holds of a token beyond the asset's shielded total
grows by the fees paid out to the pool itself and by nothing else.  The accounts of an
asset that the call does not name are left alone, and so is the STX side. -/
theorem assets_conserved (hreach : Reachable env w) (hctx : ctx.TopLevel) (depth : Nat)
    (call : Call) (hcall : call.ofAssets)
    (hhonest : HonestAssets env (transact env depth ctx call w).assetRegistry) {id : Nat}
    {asset : Asset}
    (hasset : (transact env depth ctx call w).assetRegistry.assets.lookup id = some asset) :
    (w.account id asset.token).surplus ≤
        ((transact env depth ctx call w).account id asset.token).surplus ∧
      ((transact env depth ctx call w).account id asset.token).surplus =
        (w.account id asset.token).surplus +
          (if (exec env depth ctx call w).isOk then call.sentToPool w.assetRegistry id else 0 : ℕ) ∧
      (call.asset? w.assetRegistry ≠ some id →
        (transact env depth ctx call w).account id asset.token = w.account id asset.token) ∧
      (transact env depth ctx call w).stx .privacyPool = w.stx .privacyPool ∧
      (transact env depth ctx call w).registry.protocolStatistics.totalShieldedStx =
        w.registry.protocolStatistics.totalShieldedStx := by
  by_cases hok : (exec env depth ctx call w).isOk
  · have hlater : Continues env w (transact env depth ctx call w) :=
      Continues.transact .refl hctx depth call
    obtain ⟨data, hrun⟩ := exec_eq_transact hok
    have hassets := exec_assetRun (ne_of_isProtocol hctx.sender rfl) hcall
      (hreach.knownHonest hlater hhonest) hhonest hrun
    obtain ⟨hsurplus, hother⟩ := hassets.account (hreach.continues hlater).directory hasset
    rw [if_pos hok]
    exact ⟨hsurplus ▸ Int.le_add_of_nonneg_right (Int.natCast_nonneg _), hsurplus, hother,
      congrFun hassets.stx.1 _, hassets.stx.2⟩
  · rw [if_neg hok, transact_of_failed hok]
    exact ⟨Int.le_refl _, (Int.add_zero _).symm, fun _ => rfl, rfl, rfl⟩

namespace Sample

/-- A fee has been collected, and the pool is to get it. -/
def feesToPool : World :=
  transact honestEnv 1 (sentBy owner) (.assetRegistry (.setAssetFeeRecipient 1 .sip10Pool))
    (feePaid honestEnv)

def paidToPool : World := transact honestEnv 1 (sentBy owner) withdrawFive feesToPool

theorem feesToPool_reachable : Reachable honestEnv feesToPool :=
  (feePaid_reachable honestEnv).transact owner_topLevel 1 _

/-- The only asset is the token's. -/
theorem honestAssets {w : World} (hreach : Reachable honestEnv w)
    (hcount : w.assetRegistry.assetCount = 1)
    (htoken : (w.assetRegistry.assets.lookup 1).map Asset.token = some Sample.token) :
    HonestAssets honestEnv w.assetRegistry := by
  intro id asset hasset
  have hrange := (hreach.directory.ids id).mp (DataMap.mem_iff_lookup.mpr ⟨asset, hasset⟩)
  obtain rfl : id = 1 := by omega
  rw [hasset] at htoken
  have hsame : asset.token = Sample.token := Option.some.inj htoken
  rw [hsame]
  exact honestTokens Sample.token rfl

end Sample

/-- The fee of five goes to the pool, and nothing to anyone else. -/
theorem assets_conserved_paidToPool :
    (Sample.paidToPool.account 1 Sample.token).surplus =
        (Sample.feesToPool.account 1 Sample.token).surplus + 5 ∧
      Sample.paidToPool.stx .privacyPool = Sample.feesToPool.stx .privacyPool := by
  have hcount : Sample.paidToPool.assetRegistry.assetCount = 1 := by decide +kernel
  have htoken : (Sample.paidToPool.assetRegistry.assets.lookup 1).map Asset.token =
      some Sample.token := by decide +kernel
  have hsent : (if (exec Sample.honestEnv 1 (Sample.sentBy Sample.owner) Sample.withdrawFive
      Sample.feesToPool).isOk then
        Sample.withdrawFive.sentToPool Sample.feesToPool.assetRegistry 1 else 0) = 5 := by
    decide +kernel
  unfold Sample.paidToPool at hcount htoken ⊢
  have hhonest := Sample.honestAssets
    (Sample.feesToPool_reachable.transact Sample.owner_topLevel 1 Sample.withdrawFive) hcount htoken
  obtain ⟨asset, hfound, hasset⟩ := Option.map_eq_some_iff.mp htoken
  obtain ⟨-, hsurplus, -, hstx, -⟩ := assets_conserved Sample.feesToPool_reachable
    Sample.owner_topLevel 1 Sample.withdrawFive rfl hhonest hfound
  rw [hsent, hasset] at hsurplus
  exact ⟨hsurplus, hstx⟩

end StxShield
