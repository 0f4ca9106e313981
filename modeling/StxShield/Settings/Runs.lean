import StxShield.Protocol.Runs
import StxShield.Security.Solvency
import StxShield.Settings.Calls

/-!
# Settings over runs

Every execution, whatever token code it meets, leads from settings that follow from the
accepted calls to settings that follow from them.
-/

namespace StxShield

open Library Exec World

variable {env : Env} {P : Primitives} {tokens : TokenCode} {inclusion : Inclusion}
  {admits : Ctx → Prop} {ctx : Ctx} {call : Call} {w w' : World} {α : Type}

/-- Calls were accepted, and the settings followed. -/
structure Follows (w w' : World) : Prop where
  added : ∃ during, accepted w'.history = during ++ accepted w.history
  governed : ∀ {start}, Governed start (accepted w.history) w.settings →
    Governed start (accepted w'.history) w'.settings

theorem follows_of_governed (h : w'.governed = w.governed) : Follows w w' := by
  obtain ⟨hsettings, haccepted⟩ := Prod.mk.inj h
  refine ⟨⟨[], haccepted⟩, fun hgoverned => ?_⟩
  rw [hsettings, haccepted]
  exact hgoverned

theorem follows_closed : Closed Follows where
  refl _ := follows_of_governed rfl
  trans huv hvw := by
    obtain ⟨first, hfirst⟩ := huv.added
    obtain ⟨second, hsecond⟩ := hvw.added
    refine ⟨⟨second ++ first, ?_⟩, fun h => hvw.governed (huv.governed h)⟩
    rw [hsecond, hfirst, List.append_assoc]
  store _ _ _ _ := follows_of_governed rfl

theorem follows_composes : Composes Follows := ⟨follows_closed.refl, follows_closed.trans⟩

theorem follows_of_keeps {m : Exec World α} (hm : Keeps governed m) : Respects Follows m :=
  fun _ _ _ h => follows_of_governed (hm _ _ _ h)

/-! ## SIP-10 operations -/

section Tokens

variable (hadmits : Delegable admits) (htokens : TokensRespect admits Follows tokens)
  (hctx : admits ctx)
include hadmits htokens hctx

theorem Sip10ProtocolFees.collectFee_follows (assetId feeType amount : Nat) (token : Principal) :
    Respects Follows (collectFee tokens ctx assetId feeType amount token) := by
  have hasked := htokens token _ (.transfer amount ctx.txSender .sip10ProtocolFees)
    (hadmits.calledBy .sip10ProtocolFees hctx)
  unfold collectFee
  repeat first
    | with_reducible refine follows_composes.bind ?_ fun _ => ?_
    | exact respects_orError hasked
    | exact follows_of_keeps (by simp)

namespace Sip10Pool

theorem poolBalance_follows (token : Principal) :
    Respects Follows (poolBalance tokens ctx token) :=
  respects_within (respects_orError
    (htokens _ _ _ (hadmits.calledBy _ (hadmits.entering _ hctx))))

theorem payFee_follows (assetUid feeType fee : Nat) (token : Principal) :
    Respects Follows (payFee tokens ctx assetUid feeType fee token) := by
  refine respects_ite (follows_composes.bind (respects_within ?_) fun _ =>
    follows_composes.pure _) (follows_composes.pure _)
  exact Sip10ProtocolFees.collectFee_follows hadmits htokens (hadmits.entering _ hctx) _ _ _ _

omit hadmits htokens hctx in
theorem checkSpendable_keeps_governed (token : Principal) (op : Nat) :
    Keeps governed (checkSpendable token op) := by
  unfold checkSpendable
  repeat first
    | with_reducible refine keeps_bind ?_ fun _ => ?_
    | simp

theorem shield_follows (token : Principal) (args : ShieldArgs) :
    Respects Follows (shield P tokens ctx token args inclusion) := by
  have hcaller := hadmits.calledBy .sip10Pool hctx
  unfold shield
  repeat first
    | with_reducible refine follows_composes.bind ?_ fun _ => ?_
    | exact poolBalance_follows hadmits htokens hctx _
    | exact payFee_follows hadmits htokens hcaller _ _ _ _
    | exact respects_orError (htokens _ _ _ hcaller)
    | exact follows_of_keeps (by simp)

theorem transfer_follows (token : Principal) (args : TransferArgs) :
    Respects Follows (transfer P tokens ctx token args inclusion) := by
  have hcaller := hadmits.calledBy .sip10Pool hctx
  unfold transfer
  repeat first
    | with_reducible refine follows_composes.bind ?_ fun _ => ?_
    | exact payFee_follows hadmits htokens hcaller _ _ _ _
    | exact follows_of_keeps (checkSpendable_keeps_governed _ _)
    | exact follows_of_keeps (by simp)

theorem split_follows (token : Principal) (args : SplitArgs) :
    Respects Follows (split P tokens ctx token args inclusion) := by
  have hcaller := hadmits.calledBy .sip10Pool hctx
  unfold split
  repeat first
    | with_reducible refine follows_composes.bind ?_ fun _ => ?_
    | exact payFee_follows hadmits htokens hcaller _ _ _ _
    | exact follows_of_keeps (checkSpendable_keeps_governed _ _)
    | exact follows_of_keeps (by simp)

theorem mergeNotes_follows (token : Principal) (args : MergeArgs) :
    Respects Follows (mergeNotes P tokens ctx token args inclusion) := by
  have hcaller := hadmits.calledBy .sip10Pool hctx
  unfold mergeNotes
  repeat first
    | with_reducible refine follows_composes.bind ?_ fun _ => ?_
    | exact payFee_follows hadmits htokens hcaller _ _ _ _
    | exact follows_of_keeps (checkSpendable_keeps_governed _ _)
    | exact follows_of_keeps (by simp)

theorem withdraw_follows (token : Principal) (args : WithdrawArgs) :
    Respects Follows (withdraw P tokens ctx token args inclusion) := by
  have hcontract : admits (ctx.asContract .sip10Pool) :=
    hadmits.asContract (by decide) (by decide) hctx
  unfold withdraw
  repeat first
    | with_reducible refine follows_composes.bind ?_ fun _ => ?_
    | exact poolBalance_follows hadmits htokens hctx _
    | exact payFee_follows hadmits htokens hcontract _ _ _ _
    | exact follows_of_keeps (checkSpendable_keeps_governed _ _)
    | exact respects_orError (htokens _ _ _ hcontract)
    | exact follows_of_keeps (by simp)

end Sip10Pool

end Tokens

/-! ## Calls -/

/-- What a call that succeeded has done to the settings. -/
inductive Configures (ctx : Ctx) (call : Call) (w w' : World) : Prop where
  | atomic (hsettings : w'.settings = w.settings.configure ctx call)
      (haccepted : accepted w'.history = accepted w.history) : Configures ctx call w w'
  | asks (hidle : ∀ s : Settings, s.configure ctx call = s) (htoken : call.token? ≠ none)
      (h : Follows w w') : Configures ctx call w w'
  | registersAsset {args : RegisterAssetArgs} {mid : World}
      (hcall : call = .assetRegistry (.registerAsset args)) (h : Follows w mid)
      (hregisters : RegistersAsset args mid w') : Configures ctx call w w'

theorem Configures.of_governed (hidle : ∀ s : Settings, s.configure ctx call = s)
    (h : w'.governed = w.governed) : Configures ctx call w w' := by
  obtain ⟨hsettings, haccepted⟩ := Prod.mk.inj h
  exact .atomic (hsettings.trans (hidle _).symm) haccepted

/-- The call is recorded, and the settings are those of a run with one more call. -/
theorem Configures.follows (h : Configures ctx call w w')
    (hgrants : w.settings.Grants ctx.contractCaller call.power) (registered : Nat) :
    Follows w { w' with history := .called ctx call registered :: w'.history } := by
  -- what happened in between, and the settings that the call found when it returned
  have hcalled : ∃ during s, accepted w'.history = during ++ accepted w.history ∧
      (∀ {start}, Governed start (accepted w.history) w.settings →
        Governed start (accepted w'.history) s) ∧
      (call.token? = none → during = []) ∧ w'.settings = s.configure ctx call := by
    cases h with
    | atomic hsettings haccepted =>
        exact ⟨[], w.settings, haccepted, fun h => haccepted ▸ h, fun _ => rfl, hsettings⟩
    | asks hidle htoken hfollows =>
        obtain ⟨during, hduring⟩ := hfollows.added
        exact ⟨during, w'.settings, hduring, hfollows.governed, fun h => absurd h htoken,
          (hidle _).symm⟩
    | @registersAsset args mid hcall hfollows hregisters =>
        obtain ⟨during, hduring⟩ := hfollows.added
        obtain rfl := hregisters.written
        subst hcall
        exact ⟨during, mid.settings, hduring, hfollows.governed, fun h => (Option.some_ne_none _ h).elim,
          rfl⟩
  obtain ⟨during, s, hduring, hgoverned, hatomic, hsettings⟩ := hcalled
  have hcalls : accepted (Event.called ctx call registered :: w'.history) =
      (ctx, call) :: (during ++ accepted w.history) := congrArg ((ctx, call) :: ·) hduring
  refine ⟨⟨(ctx, call) :: during, hcalls⟩, fun hstart => ?_⟩
  have hmid := hgoverned hstart
  rw [hduring] at hmid
  change Governed _ (accepted (Event.called ctx call registered :: w'.history)) w'.settings
  rw [hcalls, hsettings]
  exact .accepted hstart hgrants hmid hatomic

theorem Serves.configures (h : Serves ctx call w w') :
    w.settings.Grants ctx.contractCaller call.power ∧ Configures ctx call w w' :=
  ⟨h.grants, .atomic h.settings h.accepted⟩

theorem AssetRegistry.registerAsset_grants {args : RegisterAssetArgs} {id : Nat}
    (h : registerAsset tokens ctx args w = .ok (id, w')) :
    w.settings.Grants ctx.contractCaller (Call.registerAsset args).power := by
  simp only [registerAsset, ↓bind_ok, ↓exists_read, ↓exists_require] at h
  exact h.1

section Dispatch

variable (hadmits : Delegable admits) (htokens : TokensRespect admits Follows tokens)
  (hctx : admits ctx)
include hadmits htokens hctx

theorem Sip10ProtocolFees.execute_configures {feeCall : Sip10ProtocolFees.Call} {u : Unit}
    (h : execute tokens ctx feeCall w = .ok (u, w')) :
    w.settings.Grants ctx.contractCaller feeCall.power ∧
      Configures ctx (.sip10ProtocolFees feeCall) w w' := by
  simp only [execute, ↓bind_ok, ↓exists_read] at h
  cases feeCall with
  | collectFee assetId feeType amount token =>
      simp only [bind_ok, pure_ok] at h
      obtain ⟨_, _, hrun, -, rfl⟩ := h
      refine ⟨?_, .asks (fun _ => rfl) (Option.some_ne_none _)
        (collectFee_follows hadmits htokens hctx _ _ _ _ _ _ _ hrun)⟩
      simp only [collectFee, ↓bind_ok, ↓exists_read, ↓exists_unwrap, ↓exists_onRegistry,
        ↓PrivacyRegistry.exists_checkActive, ↓exists_require] at hrun
      obtain ⟨_, -, -, -, hcaller, -⟩ := hrun
      exact hcaller
  | withdrawFees assetId amount token =>
      have hcontract : admits (ctx.asContract .sip10ProtocolFees) :=
        hadmits.asContract (by decide) (by decide) hctx
      have hfollows : Respects Follows (withdrawFees tokens ctx assetId amount token) := by
        unfold withdrawFees
        repeat first
          | with_reducible refine follows_composes.bind ?_ fun _ => ?_
          | exact respects_orError (htokens _ _ _ hcontract)
          | exact follows_of_keeps (by simp)
      refine ⟨?_, .asks (fun _ => rfl) (Option.some_ne_none _) (hfollows _ _ _ h)⟩
      simp only [withdrawFees, ↓bind_ok, ↓exists_read, ↓exists_unwrap, ↓exists_require] at h
      obtain ⟨_, -, howner, -⟩ := h
      exact howner
  | freezeFees | unfreezeFees =>
      simp only [onSip10ProtocolFees_ok, setFeesFrozen, ↓bind_ok, ↓exists_read, ↓exists_require,
        modify_ok] at h
      obtain ⟨_, ⟨hadmin, -, rfl⟩, rfl⟩ := h
      exact ⟨hadmin, .atomic rfl rfl⟩
  | freezeTreasury | unfreezeTreasury =>
      simp only [onSip10ProtocolFees_ok, setTreasuryFrozen, ↓bind_ok, ↓exists_read,
        ↓exists_require, modify_ok] at h
      obtain ⟨_, ⟨hadmin, -, rfl⟩, rfl⟩ := h
      exact ⟨hadmin, .atomic rfl rfl⟩

theorem Sip10Pool.execute_configures {poolCall : Sip10Pool.Call} {data : List Nat}
    (h : execute P tokens ctx poolCall w = .ok (data, w')) :
    w.settings.Grants ctx.contractCaller (Call.sip10Pool poolCall).power ∧
      Configures ctx (.sip10Pool poolCall) w w' := by
  cases poolCall with
  | setOperationEnabled op enabled =>
      simp only [execute, ↓bind_ok, ↓exists_read, pure_ok] at h
      obtain ⟨_, _, hrun, -, rfl⟩ := h
      exact (setOperationEnabled_serves hrun).configures
  | shield token args inclusion =>
      simp only [execute, bind_ok, pure_ok] at h
      obtain ⟨_, _, hrun, -, rfl⟩ := h
      exact ⟨trivial, .asks (fun _ => rfl) (Option.some_ne_none _)
        (shield_follows hadmits htokens hctx _ _ _ _ _ hrun)⟩
  | transfer token args inclusion =>
      simp only [execute, bind_ok, pure_ok] at h
      obtain ⟨_, _, hrun, -, rfl⟩ := h
      exact ⟨trivial, .asks (fun _ => rfl) (Option.some_ne_none _)
        (transfer_follows hadmits htokens hctx _ _ _ _ _ hrun)⟩
  | split token args inclusion =>
      simp only [execute, bind_ok, pure_ok] at h
      obtain ⟨_, _, hrun, -, rfl⟩ := h
      exact ⟨trivial, .asks (fun _ => rfl) (Option.some_ne_none _)
        (split_follows hadmits htokens hctx _ _ _ _ _ hrun)⟩
  | mergeNotes token args inclusion =>
      simp only [execute, bind_ok, pure_ok] at h
      obtain ⟨_, _, hrun, -, rfl⟩ := h
      exact ⟨trivial, .asks (fun _ => rfl) (Option.some_ne_none _)
        (mergeNotes_follows hadmits htokens hctx _ _ _ _ _ hrun)⟩
  | withdraw token args inclusion =>
      simp only [execute, bind_ok, pure_ok] at h
      obtain ⟨_, _, hrun, -, rfl⟩ := h
      exact ⟨trivial, .asks (fun _ => rfl) (Option.some_ne_none _)
        (withdraw_follows hadmits htokens hctx _ _ _ _ _ hrun)⟩

/-- Registering an asset is left out: the id it was given is the run's business. -/
theorem dispatch_configures {data : List Nat} (h : dispatch env tokens ctx call w = .ok (data, w'))
    (hregister : ∀ args, call ≠ .assetRegistry (.registerAsset args)) :
    w.settings.Grants ctx.contractCaller call.power ∧ Configures ctx call w w' := by
  cases call with
  | privacyRegistry registryCall =>
      simp only [dispatch, bind_ok, pure_ok] at h
      obtain ⟨_, _, hrun, -, rfl⟩ := h
      exact (PrivacyRegistry.execute_serves hrun).configures
  | noteManager managerCall =>
      simp only [dispatch, bind_ok, pure_ok] at h
      obtain ⟨_, _, hrun, -, rfl⟩ := h
      exact (NoteManager.execute_serves hrun).configures
  | zkVerifier verifierCall =>
      simp only [dispatch, bind_ok, pure_ok] at h
      obtain ⟨_, _, hrun, -, rfl⟩ := h
      exact (ZkVerifier.execute_serves hrun).configures
  | sip10ZkVerifier verifierCall =>
      simp only [dispatch, bind_ok, pure_ok] at h
      obtain ⟨_, _, hrun, -, rfl⟩ := h
      exact (Sip10ZkVerifier.execute_serves hrun).configures
  | protocolFees feeCall =>
      simp only [dispatch, bind_ok, pure_ok] at h
      obtain ⟨_, _, hrun, -, rfl⟩ := h
      exact (ProtocolFees.execute_serves hrun).configures
  | assetRegistry assetCall =>
      simp only [dispatch, bind_ok, pure_ok] at h
      obtain ⟨_, _, hrun, -, rfl⟩ := h
      cases assetCall with
      | registerAsset args => exact absurd rfl (hregister args)
      | _ =>
          simp only [AssetRegistry.execute, ↓bind_ok, ↓exists_read, pure_ok] at hrun
          obtain ⟨_, _, hadministered, -, rfl⟩ := hrun
          exact (AssetRegistry.administer_serves hadministered).configures
  | sip10ProtocolFees feeCall =>
      simp only [dispatch, bind_ok, pure_ok] at h
      obtain ⟨_, _, hrun, -, rfl⟩ := h
      exact Sip10ProtocolFees.execute_configures hadmits htokens hctx hrun
  | privacyPool poolCall =>
      simp only [dispatch, bind_ok, pure_ok] at h
      obtain ⟨_, _, hrun, -, rfl⟩ := h
      exact (PrivacyPool.execute_serves hrun).configures
  | splitMergeManager managerCall => exact (SplitMergeManager.execute_serves h).configures
  | sip10Pool poolCall => exact Sip10Pool.execute_configures hadmits htokens hctx h
  | stxTransfer amount sender recipient =>
      simp only [dispatch, bind_ok, pure_ok] at h
      obtain ⟨_, _, hrun, -, rfl⟩ := h
      exact ⟨trivial, .of_governed (fun _ => rfl) (keeps_governed_stxTransfer _ _ _ _ _ _ hrun)⟩
  | token token function =>
      simp only [dispatch, bind_ok, pure_ok] at h
      obtain ⟨_, _, hrun, -, rfl⟩ := h
      exact ⟨trivial, .asks (fun _ => rfl) (Option.some_ne_none _)
        (htokens token ctx function hctx _ _ _ hrun)⟩

end Dispatch

/-! ## Runs -/

theorem RunsIn.configure {inner : Ctx} (h : RunsIn ctx call inner) (s : Settings) :
    s.configure inner call = s.configure ctx call := by
  rcases h with ⟨rfl, -⟩ | ⟨function, -, -, rfl⟩ <;> rfl

theorem Configures.runsIn {inner : Ctx} (hinner : RunsIn ctx call inner)
    (h : Configures inner call w w') : Configures ctx call w w' := by
  cases h with
  | atomic hsettings haccepted =>
      exact .atomic (hsettings.trans (hinner.configure _)) haccepted
  | asks hidle htoken hfollows =>
      exact .asks (fun s => (hinner.configure s).symm.trans (hidle s)) htoken hfollows
  | registersAsset hcall hfollows hregisters => exact .registersAsset hcall hfollows hregisters

theorem exec_follows (env : Env) (depth : Nat) : CallsRespect StxSafe Follows (exec env depth) := by
  refine exec_respects follows_closed stxSafe_delegable ?_ depth
  intro depth htokens ctx call hctx _ w data w' h
  obtain ⟨mid, hrun, rfl⟩ := execCall_ok.mp h
  obtain ⟨inner, hdispatch, hinner⟩ := withinCall_ok hrun
  have hadmitted : StxSafe inner := hinner.admitted stxSafe_delegable.entering hctx
  have hserved : w.settings.Grants inner.contractCaller call.power ∧
      Configures inner call w mid := by
    by_cases hregister : ∃ args, call = .assetRegistry (.registerAsset args)
    · obtain ⟨args, rfl⟩ := hregister
      simp only [dispatch, AssetRegistry.execute, bind_ok, pure_ok] at hdispatch
      obtain ⟨_, _, ⟨_, _, hregistered, -, rfl⟩, -, rfl⟩ := hdispatch
      have hregistering : RegisteringAsset inner := by
        obtain ⟨-, rfl⟩ := hinner.entered rfl
        exact ⟨List.mem_cons_self, hctx.pool⟩
      obtain ⟨asked, hasked, hregisters⟩ := registerAsset_writes htokens hregistering
        (stxSafe_delegable.calledBy _ hadmitted) hregistered
      exact ⟨AssetRegistry.registerAsset_grants hregistered, .registersAsset rfl hasked hregisters⟩
    · exact dispatch_configures stxSafe_delegable htokens hadmitted hdispatch
        fun args hcall => hregister ⟨args, hcall⟩
  rw [hinner.contractCaller] at hserved
  exact (hserved.2.runsIn hinner).follows hserved.1 _

theorem Continues.follows (h : Continues env w w') : Follows w w' := by
  induction h with
  | refl => exact follows_closed.refl w
  | tail _ hstep ih =>
      obtain ⟨ctx, hctx, depth, call, rfl⟩ := hstep
      exact follows_closed.trans ih (transact_respects Ctx.TopLevel.stxSafe follows_closed.refl
        (exec_follows env depth) hctx call _)

/-- The settings of the chain are what the accepted calls make of those it was deployed with,
and each of these calls was made by a holder of the power it needs. -/
theorem settings_governed {deployer : Principal} {stx : Principal → Nat}
    {ledgers : Principal → TokenLedger}
    (hrun : Continues env (World.deployed deployer stx ledgers) w) :
    Governed (.deployed deployer) (accepted w.history) w.settings ∧
      w.settings = replay (.deployed deployer) (accepted w.history) := by
  have hgoverned : Governed (.deployed deployer) (accepted w.history) w.settings :=
    hrun.follows.governed .start
  exact ⟨hgoverned, hgoverned.eq_replay⟩

namespace Sample

/-- The owner registers an asset and names a successor, who takes over and pauses. -/
def succeeded : World :=
  transactAll Sample.env 1 (sentBy alice)
    [.privacyRegistry .acceptOwnership, .privacyRegistry .pauseProtocol]
    (transact Sample.env 1 (sentBy owner) (.privacyRegistry (.transferOwnership alice)) ready)

theorem succeeded_continues : Continues Sample.env start succeeded := by
  have hready : Continues Sample.env start ready :=
    Continues.transactAll .refl owner_topLevel 1 setup
  exact (hready.transact owner_topLevel 1 _).transactAll alice_topLevel 1 _

end Sample

/-- The successor's pause is in the settings, and the settings are the replay. -/
theorem settings_governed_succeeded :
    Sample.succeeded.settings.registry.owner = Sample.alice ∧
      Sample.succeeded.settings.registry.protocolState = .paused ∧
      Sample.succeeded.settings = replay (.deployed Sample.owner) (accepted Sample.succeeded.history) :=
  ⟨by decide +kernel, by decide +kernel, (settings_governed Sample.succeeded_continues).2⟩

end StxShield
