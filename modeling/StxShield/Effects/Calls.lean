import StxShield.Effects.TokenCode

/-!
# What a call does

Every public function, whoever calls it, either stays within the relation that
token code respects, or does one of four things more: it is a registry call, it
registers an asset, it moves STX into the pool, or it is one of the ten
operations.
-/

namespace StxShield

open Library Exec World PrivacyRegistry

/-- What a successful call did. -/
inductive CallRun (P : Primitives) (rel : World → World → Prop) (tokens : TokenCode) (ctx : Ctx)
    (call : Call) (w w' : World) : Prop where
  | respects (hoperation : call.operation? = none) (hstx : call.stxReceived = 0) (h : rel w w')
  | registry {registryCall : PrivacyRegistry.Call} {after : RegistryLedger}
      (hcall : call = .privacyRegistry registryCall)
      (heffect : CallEffect ctx.contractCaller registryCall w.footprint.registry after)
      (h : w'.footprint = { w.footprint with registry := after })
  /-- The id is the one read before the token was asked for its decimals. -/
  | registerAsset {args : RegisterAssetArgs} {mid : World}
      (hcall : call = .assetRegistry (.registerAsset args))
      (hfresh : w.footprint.assets.idOf args.token = none)
      (hdecimals : tokens args.token (ctx.calledBy .assetRegistry) .getDecimals w =
        .ok (args.decimals, mid))
      (h : w'.footprint =
        { mid.footprint with
          assets := mid.footprint.assets.insert w.footprint.assets.nextId args.token })
  | receives (hoperation : call.operation? = none)
      (h : w'.footprint = { w.footprint with poolStx := w.footprint.poolStx + call.stxReceived })
  | operation {p : Pending} (hcall : call.operation? = some p.operation)
      (hrun : OperationRun P rel p w w')

/-- The token a call names, if it does. -/
def Call.token? : Call → Option Principal
  | .sip10Pool (.shield contract _ _) => some contract
  | .sip10Pool (.transfer contract _ _) => some contract
  | .sip10Pool (.split contract _ _) => some contract
  | .sip10Pool (.mergeNotes contract _ _) => some contract
  | .sip10Pool (.withdraw contract _ _) => some contract
  | .sip10ProtocolFees (.collectFee _ _ _ contract) => some contract
  | .sip10ProtocolFees (.withdrawFees _ _ contract) => some contract
  | .assetRegistry (.registerAsset args) => some args.token
  | .token contract _ => some contract
  | _ => none

theorem Call.stxReceived_of_operation {call : Call} {op : Operation}
    (h : call.operation? = some op) : call.stxReceived = 0 := by
  unfold Call.operation? at h
  split at h
  all_goals first
    | rfl
    | cases h

variable {env : Env} {rel : World → World → Prop} {admits : Ctx → Prop} {tokens : TokenCode}
  {ctx : Ctx} {w w' : World} {data : List Nat}

/-! ## Single contracts -/

namespace CallRun

/-- Functions that leave the footprint alone. -/
theorem of_keeps {α : Type} {P : Primitives} {call : Call} {m : Exec World α} {a : α}
    (hrel : Tolerates rel) (hoperation : call.operation? = none) (hstx : call.stxReceived = 0)
    (hkeeps : Keeps footprint m) (h : m w = .ok (a, w')) : CallRun P rel tokens ctx call w w' :=
  .respects hoperation hstx (hrel.footprint (hkeeps w a w' h))

end CallRun

theorem ZkVerifier.execute_respects (hrel : Tolerates rel) {P : Primitives} (call : Verifier.Call) :
    Respects rel (ZkVerifier.execute P ctx call) := by
  intro w value w' h
  cases call with
  | verifyProof proofType version inputsHash inclusion =>
      simp only [ZkVerifier.execute, bind_ok, pure_ok] at h
      obtain ⟨_, _, hverify, -, rfl⟩ := h
      exact hrel.verified (zkVerifier_verifyProof_effect hverify)
  | _ =>
      exact hrel.footprint
        ((keeps_bind keeps_read fun _ => keeps_onZkVerifier _ : Keeps footprint _) _ _ _ h)

theorem Sip10ZkVerifier.execute_respects (hrel : Tolerates rel) {P : Primitives}
    (call : Sip10Verifier.Call) : Respects rel (Sip10ZkVerifier.execute P ctx call) := by
  intro w value w' h
  cases call with
  | common call =>
      cases call with
      | verifyProof proofType version inputsHash inclusion =>
          simp only [Sip10ZkVerifier.execute, bind_ok, pure_ok] at h
          obtain ⟨_, _, hverify, -, rfl⟩ := h
          exact hrel.verified (sip10ZkVerifier_verifyProof_effect hverify)
      | _ =>
          exact hrel.footprint
            ((keeps_bind keeps_read fun _ => keeps_onSip10ZkVerifier _ :
              Keeps footprint _) _ _ _ h)
  | setCircuitVersion version =>
      exact hrel.footprint
        ((keeps_bind keeps_read fun _ => keeps_onSip10ZkVerifier _ : Keeps footprint _) _ _ _ h)
  | setAuthorizedPool pool =>
      exact hrel.footprint
        ((keeps_bind keeps_read fun _ => keeps_onSip10ZkVerifier _ : Keeps footprint _) _ _ _ h)

theorem Sip10ProtocolFees.execute_respects (hrel : Tolerates rel) (hadmits : Delegable admits)
    {call : Sip10ProtocolFees.Call} (htokens : ∀ token,
      Call.token? (.sip10ProtocolFees call) = some token → TokenRespects admits rel (tokens token))
    (hctx : admits ctx) :
    Respects rel (Sip10ProtocolFees.execute tokens ctx call) := by
  intro w value w' h
  simp only [Sip10ProtocolFees.execute, ↓bind_ok, ↓exists_read] at h
  cases call with
  | collectFee assetId feeType amount token =>
      simp only [bind_ok, pure_ok] at h
      obtain ⟨_, _, hcollect, -, rfl⟩ := h
      exact collectFee_respects hrel hadmits.toAdmissible (htokens token rfl) hctx _ _ _ _ _ _
        hcollect
  | withdrawFees assetId amount token =>
      exact withdrawFees_respects hrel hadmits (htokens token rfl) hctx _ _ _ _ _ h
  | _ => exact hrel.footprint (keeps_onSip10ProtocolFees _ _ _ _ h)

/-- STX arrives at the pool, or the call does not concern it. -/
theorem stxTransfer_run {P : Primitives} (hrel : Tolerates rel)
    (hsender : ctx.txSender ≠ .privacyPool) {amount : Nat} {sender recipient : Principal} {u : Unit}
    (h : stxTransfer ctx amount sender recipient w = .ok (u, w')) :
    CallRun P rel tokens ctx (.stxTransfer amount sender recipient) w w' := by
  have hsent := (stxTransfer_ok.mp h).2.2.1
  have hne : sender ≠ .privacyPool := hsent ▸ hsender
  by_cases hrecipient : recipient = .privacyPool
  · subst hrecipient
    exact .receives rfl (stxTransfer_into_pool hne h)
  · refine .of_keeps hrel rfl ?_ (stxTransfer_keeps_footprint hne hrecipient) h
    simp [Call.stxReceived, hrecipient]

theorem ProtocolFees.withdrawFees_run {P : Primitives} (hrel : Tolerates rel) {amount : Nat}
    {recipient : Principal} {u : Unit}
    (h : ProtocolFees.withdrawFees ctx amount recipient w = .ok (u, w')) :
    CallRun P rel tokens ctx (.protocolFees (.withdrawFees amount recipient)) w w' := by
  unfold withdrawFees at h
  simp only [↓bind_ok, ↓exists_read, ↓exists_require, ↓orError_ok, ↓exists_addUint,
    ↓exists_subUint, onProtocolFees_ok, modify_ok] at h
  obtain ⟨-, -, -, -, -, _, mid, htransfer, -, -, _, rfl, rfl⟩ := h
  have hne : Principal.protocolFees ≠ .privacyPool := by decide
  by_cases hrecipient : recipient = .privacyPool
  · subst hrecipient
    have hpaid := stxTransfer_into_pool hne htransfer
    exact .receives rfl hpaid
  · have hkeeps := stxTransfer_keeps_footprint hne hrecipient _ _ _ htransfer
    exact .respects rfl (by simp [Call.stxReceived, hrecipient]) (hrel.footprint hkeeps)

theorem ProtocolFees.execute_run {P : Primitives} (hrel : Tolerates rel)
    (hsender : ctx.txSender ≠ .privacyPool) {call : ProtocolFees.Call} {u : Unit}
    (h : ProtocolFees.execute ctx call w = .ok (u, w')) :
    CallRun P rel tokens ctx (.protocolFees call) w w' := by
  simp only [ProtocolFees.execute, ↓bind_ok, ↓exists_read] at h
  cases call with
  | collectFee feeType amount =>
      simp only [bind_ok, pure_ok] at h
      obtain ⟨_, _, hcollect, -, rfl⟩ := h
      exact .of_keeps hrel rfl rfl (collectFee_keeps_footprint hsender _ _) hcollect
  | withdrawFees amount recipient => exact withdrawFees_run hrel h
  | _ => exact .of_keeps hrel rfl rfl (keeps_onProtocolFees _) h

/-- Administration never gives an id or takes one, and leaves a record's token
alone. -/
theorem AssetRegistry.administer_keeps_table (registry : PrivacyRegistry)
    (call : AssetRegistry.Call) : Keeps table (AssetRegistry.administer registry ctx call) := by
  have hsame {assets : AssetRegistry} {assetId : Nat} {asset edited : Asset}
      (hasset : assets.assets.lookup assetId = some asset) (htoken : edited.token = asset.token) :
      table { assets with assets := assets.assets.insert assetId edited } = table assets := by
    refine AssetTable.ext rfl (funext fun id => ?_) rfl
    by_cases heq : id = assetId
    · subst heq
      simp [table, hasset, htoken]
    · simp [table, AList.lookup_insert_ne heq]
  intro assets u assets' h
  cases call with
  | registerAsset args => simp only [administer, abort_ok] at h
  | setAssetEnabled assetId enabled =>
      simp only [administer, setAssetEnabled, ↓bind_ok, ↓exists_read, ↓exists_unwrap,
        ↓exists_require, modify_ok] at h
      obtain ⟨asset, hasset, -, -, -, rfl⟩ := h
      exact hsame hasset rfl
  | deprecateAsset assetId =>
      simp only [administer, deprecateAsset, ↓bind_ok, ↓exists_read, ↓exists_unwrap,
        ↓exists_require, modify_ok] at h
      obtain ⟨asset, hasset, -, -, rfl⟩ := h
      exact hsame hasset rfl
  | setAssetLimits assetId minShield maxShield minNote maxNote =>
      simp only [administer, setAssetLimits, ↓bind_ok, ↓exists_read, ↓exists_unwrap,
        ↓exists_require, modify_ok] at h
      obtain ⟨asset, hasset, -, -, -, rfl⟩ := h
      exact hsame hasset rfl
  | setAssetFeeConfig assetId feeType bps flat enabled =>
      simp only [administer, setAssetFeeConfig, ↓bind_ok, ↓exists_read, ↓exists_unwrap,
        ↓exists_require, modify_ok] at h
      obtain ⟨_, -, -, -, -, -, -, rfl⟩ := h
      rfl
  | setAssetFeeRecipient assetId feeRecipient =>
      simp only [administer, setAssetFeeRecipient, ↓bind_ok, ↓exists_read, ↓exists_unwrap,
        ↓exists_require, modify_ok] at h
      obtain ⟨asset, hasset, -, -, -, rfl⟩ := h
      exact hsame hasset rfl

theorem keeps_onAssetRegistry {α : Type} {m : Exec AssetRegistry α}
    (h : Keeps AssetRegistry.table m) : Keeps footprint (onAssetRegistry m) :=
  keeps_zoom_of_keeps h fun storage w heq => by simp only [footprint, heq]

theorem AssetRegistry.registerAsset_run {P : Primitives} {args : RegisterAssetArgs} {id : Nat}
    (h : AssetRegistry.registerAsset tokens ctx args w = .ok (id, w')) :
    CallRun P rel tokens ctx (.assetRegistry (.registerAsset args)) w w' := by
  unfold registerAsset at h
  simp only [↓bind_ok, ↓exists_read, ↓exists_require, ↓orError_ok, ↓exists_addUint,
    onAssetRegistry_ok, modify_ok, pure_ok] at h
  obtain ⟨-, -, -, -, -, hfresh, -, -, _, mid, hdecimals, rfl, -, -, _, _, ⟨_, rfl, rfl⟩, -,
    rfl⟩ := h
  refine .registerAsset rfl (Option.isNone_iff_eq_none.mp hfresh) hdecimals ?_
  have htable : (withAsset mid.assetRegistry w.assetRegistry.nextAssetId args
      (w.assetRegistry.nextAssetId + 1) (mid.assetRegistry.assetCount + 1)).table =
      mid.assetRegistry.table.insert w.assetRegistry.nextAssetId args.token := by
    refine AssetTable.ext (funext fun token => ?_) (funext fun id => ?_) rfl
    · by_cases heq : token = args.token
      · subst heq
        simp [table, AssetTable.insert, getAssetIdByPrincipal, withAsset]
      · simp [table, AssetTable.insert, getAssetIdByPrincipal, withAsset,
          Function.update_of_ne heq, AList.lookup_insert_ne heq]
    · by_cases heq : id = w.assetRegistry.nextAssetId
      · subst heq
        simp [table, AssetTable.insert, withAsset]
      · simp [table, AssetTable.insert, withAsset, Function.update_of_ne heq,
          AList.lookup_insert_ne heq]
  exact Footprint.ext rfl htable rfl rfl rfl rfl

theorem AssetRegistry.execute_run {P : Primitives} (hrel : Tolerates rel)
    {call : AssetRegistry.Call} {id : Option Nat}
    (h : AssetRegistry.execute tokens ctx call w = .ok (id, w')) :
    CallRun P rel tokens ctx (.assetRegistry call) w w' := by
  cases call with
  | registerAsset args =>
      simp only [execute, bind_ok, pure_ok] at h
      obtain ⟨_, _, hrun, -, rfl⟩ := h
      exact registerAsset_run hrun
  | _ =>
      refine .of_keeps hrel rfl rfl (keeps_bind keeps_read fun _ => keeps_bind ?_ fun _ => ?_) h
      · exact keeps_onAssetRegistry (administer_keeps_table _ _)
      · exact keeps_pure _

theorem PrivacyPool.execute_run {P : Primitives} (hrel : Tolerates rel)
    (hsender : ctx.txSender ≠ .privacyPool) {call : PrivacyPool.Call} {value : Option Nat}
    (h : PrivacyPool.execute P ctx call w = .ok (value, w')) :
    CallRun P rel tokens ctx (.privacyPool call) w w' := by
  simp only [execute, ↓bind_ok, ↓exists_read] at h
  cases call with
  | shield args inclusion =>
      simp only [bind_ok, pure_ok] at h
      obtain ⟨_, _, hrun, -, rfl⟩ := h
      exact .operation rfl (shield_run hrel hsender hrun)
  | transfer args inclusion =>
      simp only [bind_ok, pure_ok] at h
      obtain ⟨_, _, hrun, -, rfl⟩ := h
      exact .operation rfl (transfer_run hrel hsender hrun)
  | withdraw args inclusion =>
      simp only [bind_ok, pure_ok] at h
      obtain ⟨_, _, hrun, -, rfl⟩ := h
      exact .operation rfl (withdraw_run hrel hrun)
  | _ => exact .of_keeps hrel rfl rfl (keeps_bind (keeps_onPrivacyPool _) fun _ => keeps_pure _) h

theorem SplitMergeManager.execute_run {P : Primitives} (hrel : Tolerates rel)
    (hsender : ctx.txSender ≠ .privacyPool) {call : SplitMergeManager.Call}
    (h : SplitMergeManager.execute P ctx call w = .ok (data, w')) :
    CallRun P rel tokens ctx (.splitMergeManager call) w w' := by
  simp only [execute, ↓bind_ok, ↓exists_read] at h
  cases call with
  | splitNote args inclusion =>
      simp only [bind_ok, pure_ok] at h
      obtain ⟨_, _, hrun, -, rfl⟩ := h
      exact .operation rfl (splitNote_run hrel hsender hrun)
  | mergeNotes args inclusion =>
      simp only [bind_ok, pure_ok] at h
      obtain ⟨_, _, hrun, -, rfl⟩ := h
      exact .operation rfl (mergeNotes_run hrel hsender hrun)
  | _ =>
      exact .of_keeps hrel rfl rfl (keeps_bind (keeps_onSplitMergeManager _) fun _ => keeps_pure _) h

theorem Sip10Pool.execute_run {P : Primitives} (hrel : Tolerates rel) (hadmits : Delegable admits)
    {call : Sip10Pool.Call} (htokens : ∀ token,
      Call.token? (.sip10Pool call) = some token → TokenRespects admits rel (tokens token))
    (hctx : admits ctx)
    (h : Sip10Pool.execute P tokens ctx call w = .ok (data, w')) :
    CallRun P rel tokens ctx (.sip10Pool call) w w' := by
  cases call with
  | shield token args inclusion =>
      simp only [execute, bind_ok, pure_ok] at h
      obtain ⟨_, _, hrun, -, rfl⟩ := h
      obtain ⟨_, hrun⟩ := shield_run hrel hadmits.toAdmissible (htokens token rfl) hctx hrun
      exact .operation rfl hrun
  | transfer token args inclusion =>
      simp only [execute, bind_ok, pure_ok] at h
      obtain ⟨_, _, hrun, -, rfl⟩ := h
      obtain ⟨_, hrun⟩ := transfer_run hrel hadmits.toAdmissible (htokens token rfl) hctx hrun
      exact .operation rfl hrun
  | split token args inclusion =>
      simp only [execute, bind_ok, pure_ok] at h
      obtain ⟨_, _, hrun, -, rfl⟩ := h
      obtain ⟨_, hrun⟩ := split_run hrel hadmits.toAdmissible (htokens token rfl) hctx hrun
      exact .operation rfl hrun
  | mergeNotes token args inclusion =>
      simp only [execute, bind_ok, pure_ok] at h
      obtain ⟨_, _, hrun, -, rfl⟩ := h
      obtain ⟨_, hrun⟩ := mergeNotes_run hrel hadmits.toAdmissible (htokens token rfl) hctx hrun
      exact .operation rfl hrun
  | withdraw token args inclusion =>
      simp only [execute, bind_ok, pure_ok] at h
      obtain ⟨_, _, hrun, -, rfl⟩ := h
      obtain ⟨_, hrun⟩ := withdraw_run hrel hadmits (htokens token rfl) hctx hrun
      exact .operation rfl hrun
  | setOperationEnabled op enabled =>
      simp only [execute, ↓bind_ok, ↓exists_read, pure_ok] at h
      obtain ⟨_, _, hrun, -, rfl⟩ := h
      refine .of_keeps hrel rfl rfl (keeps_zoom_of_keeps (g := Sip10Pool.shieldedTotal) ?_ ?_) hrun
      · unfold setOperationEnabled
        repeat first
          | exact keeps_modify fun _ => rfl
          | refine keeps_bind ?_ fun _ => ?_
          | simp
      · intro storage w heq
        simp only [footprint, getShieldedTotal, heq]

/-! ## Dispatch -/

/-- Case by case over the public functions. -/
theorem dispatch_run (hrel : Tolerates rel) (hadmits : Delegable admits) {call : Call}
    (htokens : ∀ token, call.token? = some token → TokenRespects admits rel (tokens token))
    (hctx : admits ctx)
    (h : dispatch env tokens ctx call w = .ok (data, w')) :
    CallRun env.primitives rel tokens ctx call w w' := by
  have hsender := hadmits.sender hctx
  cases call with
  | privacyRegistry call =>
      simp only [dispatch, bind_ok, onRegistry_ok, pure_ok] at h
      obtain ⟨_, _, ⟨registry, hrun, rfl⟩, -, rfl⟩ := h
      exact .registry rfl (execute_effect hrun) rfl
  | noteManager call =>
      exact .of_keeps hrel rfl rfl
        (keeps_bind (noteManager_keeps_footprint ctx call) fun _ => keeps_pure _) h
  | zkVerifier call =>
      simp only [dispatch, bind_ok, pure_ok] at h
      obtain ⟨_, _, hrun, -, rfl⟩ := h
      exact .respects rfl rfl (ZkVerifier.execute_respects hrel call _ _ _ hrun)
  | sip10ZkVerifier call =>
      simp only [dispatch, bind_ok, pure_ok] at h
      obtain ⟨_, _, hrun, -, rfl⟩ := h
      exact .respects rfl rfl (Sip10ZkVerifier.execute_respects hrel call _ _ _ hrun)
  | protocolFees call =>
      simp only [dispatch, bind_ok, pure_ok] at h
      obtain ⟨_, _, hrun, -, rfl⟩ := h
      exact ProtocolFees.execute_run hrel hsender hrun
  | assetRegistry call =>
      simp only [dispatch, bind_ok, pure_ok] at h
      obtain ⟨_, _, hrun, -, rfl⟩ := h
      exact AssetRegistry.execute_run hrel hrun
  | sip10ProtocolFees call =>
      simp only [dispatch, bind_ok, pure_ok] at h
      obtain ⟨_, _, hrun, -, rfl⟩ := h
      exact .respects rfl rfl
        (Sip10ProtocolFees.execute_respects hrel hadmits htokens hctx _ _ _ hrun)
  | privacyPool call =>
      simp only [dispatch, bind_ok, pure_ok] at h
      obtain ⟨_, _, hrun, -, rfl⟩ := h
      exact PrivacyPool.execute_run hrel hsender hrun
  | splitMergeManager call => exact SplitMergeManager.execute_run hrel hsender h
  | sip10Pool call => exact Sip10Pool.execute_run hrel hadmits htokens hctx h
  | stxTransfer amount sender recipient =>
      simp only [dispatch, bind_ok, pure_ok] at h
      obtain ⟨_, _, hrun, -, rfl⟩ := h
      exact stxTransfer_run hrel hsender hrun
  | token token function =>
      simp only [dispatch, bind_ok, pure_ok] at h
      obtain ⟨_, _, hrun, -, rfl⟩ := h
      exact .respects rfl rfl (htokens token rfl ctx function hctx _ _ _ hrun)

end StxShield
