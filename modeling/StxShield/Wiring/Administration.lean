import StxShield.Security.Relayer
import StxShield.Settings.Authority
import StxShield.Wiring.Scripts

/-!
# A chain that is administered by the scripts

As long as the deployer signs nothing privileged but what its scripts send, nobody gains a
power that the scripts do not give, and the assumptions about a wired deployment hold.
-/

namespace StxShield

open Library Exec World PrivacyRegistry

/-! ## Who calls -/

/-- Whatever has been called since was called from outside the protocol. -/
def Outside (w w' : World) : Prop :=
  ∀ call ∈ accepted w'.history, call ∈ accepted w.history ∨
    call.1.contractCaller.isProtocol = false

theorem Outside.of_eq {w w' : World} (h : accepted w'.history = accepted w.history) :
    Outside w w' := fun _ hcall => .inl (h ▸ hcall)

theorem outside_closed : Closed Outside where
  refl _ := .of_eq rfl
  trans huv hvw call hcall := (hvw call hcall).elim (huv call) .inr
  store _ _ _ _ := .of_eq rfl

theorem Writes.keeps_accepted {call : Call} {w w' : World} (h : Writes call w w') :
    accepted w'.history = accepted w.history := by
  cases h with
  | noteManager hrun =>
      obtain ⟨_, _, rfl, -⟩ := NoteManager.execute_frame hrun
      rfl
  | _ => rfl

theorem outside_covers (call : Call) : Covers call Outside where
  refl := outside_closed.refl
  trans := outside_closed.trans
  writes h := .of_eq h.keeps_accepted

theorem exec_outside (env : Env) (depth : Nat) : CallsRespect StxSafe Outside (exec env depth) := by
  refine exec_respects outside_closed stxSafe_delegable ?_ depth
  intro depth htokens ctx call hctx hexternal w data w' h
  have hwrites := execCall_writes (outside_covers call) htokens hctx h
  have hrecorded {mid after : World} {registered : Nat} (hmid : Outside w mid)
      (hafter : accepted after.history = accepted mid.history) :
      Outside w { after with history := .called ctx call registered :: after.history } := by
    intro other hother
    rcases List.mem_cons.mp hother with rfl | hold
    · exact .inr hexternal
    · exact hmid other (hafter ▸ hold)
  cases hwrites with
  | covered hmid => exact hrecorded hmid rfl
  | registerAsset _ hmid hregisters =>
      obtain rfl := hregisters.written
      exact hrecorded hmid rfl

theorem Continues.outside {env : Env} {w w' : World} (h : Continues env w w') : Outside w w' := by
  induction h with
  | refl => exact outside_closed.refl w
  | tail _ hstep ih =>
      obtain ⟨ctx, hctx, depth, call, rfl⟩ := hstep
      exact outside_closed.trans ih (transact_respects Ctx.TopLevel.stxSafe outside_closed.refl
        (exec_outside env depth) hctx call _)

namespace Wiring

/-- Posting an aggregation is what a relayer is for. -/
def Posts : Call → Prop
  | .zkVerifier (.submitAggregation ..) => True
  | .sip10ZkVerifier (.common (.submitAggregation ..)) => True
  | _ => False

/-- The settings that the scripts keep. -/
structure Administered (deployer : Principal) (s : Settings) : Prop where
  owner : s.registry.owner = deployer
  pendingOwner : s.registry.pendingOwner = none
  administrators : s.registry.administrators = ∅
  callers : ∀ who, s.registry.Authorizes who → who.isProtocol = true
  limits : s.registry.protocolLimits = (PrivacyRegistry.deployed deployer).protocolLimits
  state : s.registry.protocolState ≠ .emergency ∧ s.registry.protocolState ≠ .deprecated
  pool : ∀ who, s.authorizedPool = some who → who = .sip10Pool
  zkVerifier : s.zkVerifier.verificationFrozen = false
  sip10ZkVerifier : s.sip10ZkVerifier.verificationFrozen = false
  protocolFees : s.protocolFees = { feesFrozen := false, treasuryFrozen := false }
  sip10ProtocolFees : s.sip10ProtocolFees = { feesFrozen := false, treasuryFrozen := false }
  privacyPool : s.privacyPool = .deployed
  splitMergeManager : s.splitMergeManager = .deployed
  switches : s.operationSwitches = ∅
  assets : ∀ id asset, s.assetRegistry.assets.lookup id = some asset → asset.status = .active

variable {deployer who : Principal} {genesis : Buff32} {s : Settings} {ctx : Ctx} {call : Call}

theorem administered_deployed : Administered deployer (.deployed deployer) where
  owner := rfl
  pendingOwner := rfl
  administrators := rfl
  callers who h := by cases h
  limits := rfl
  state := ⟨fun h => ProtocolState.noConfusion h, fun h => ProtocolState.noConfusion h⟩
  pool who h := by cases h
  zkVerifier := rfl
  sip10ZkVerifier := rfl
  protocolFees := rfl
  sip10ProtocolFees := rfl
  privacyPool := rfl
  splitMergeManager := rfl
  switches := rfl
  assets id asset h := by cases h

/-! ## One call -/

theorem posts_of_power (h : call.power = .relayer ∨ call.power = .sip10Relayer) : Posts call := by
  cases call with
  | privacyRegistry call => cases call <;> rcases h with h | h <;> cases h
  | noteManager call => cases call <;> rcases h with h | h <;> cases h
  | zkVerifier call => cases call <;> first | trivial | (rcases h with h | h <;> cases h)
  | sip10ZkVerifier call =>
      cases call with
      | common call => cases call <;> first | trivial | (rcases h with h | h <;> cases h)
      | setCircuitVersion => rcases h with h | h <;> cases h
      | setAuthorizedPool => rcases h with h | h <;> cases h
  | protocolFees call => cases call <;> rcases h with h | h <;> cases h
  | assetRegistry call => cases call <;> rcases h with h | h <;> cases h
  | sip10ProtocolFees call => cases call <;> rcases h with h | h <;> cases h
  | privacyPool call => cases call <;> rcases h with h | h <;> cases h
  | splitMergeManager call => cases call <;> rcases h with h | h <;> cases h
  | sip10Pool call => cases call <;> rcases h with h | h <;> cases h
  | stxTransfer => rcases h with h | h <;> cases h
  | token => rcases h with h | h <;> cases h

theorem configure_of_posts (h : Posts call) : s.configure ctx call = s := by
  unfold Posts at h
  split at h
  · rfl
  · rfl
  · exact h.elim

namespace Administered

variable (h : Administered deployer s)
include h

/-- The deployer is the only administrator. -/
theorem eq_of_isAdmin {role : Nat} (hadmin : s.registry.IsAdmin who role) : who = deployer := by
  rcases hadmin with howner | hrole
  · exact howner.trans h.owner
  · rw [h.administrators] at hrole
    cases hrole

/-- Whoever else is outside the protocol may post aggregations and what anyone may do. -/
theorem granted (hgrants : s.Grants who call.power) (hexternal : who.isProtocol = false)
    (hother : who ≠ deployer) : call.power = .anyone ∨ Posts call := by
  have hinside (hcaller : s.registry.Authorizes who) : False := by
    have hprotocol := h.callers who hcaller
    rw [hexternal] at hprotocol
    cases hprotocol
  cases hpower : call.power with
  | anyone => exact .inl rfl
  | relayer => exact .inr (posts_of_power (.inl hpower))
  | sip10Relayer => exact .inr (posts_of_power (.inr hpower))
  | owner =>
      rw [hpower] at hgrants
      exact absurd (hgrants.trans h.owner) hother
  | admin role =>
      rw [hpower] at hgrants
      exact absurd (h.eq_of_isAdmin hgrants) hother
  | keyAdmin =>
      rw [hpower] at hgrants
      exact absurd (hgrants.elim h.eq_of_isAdmin h.eq_of_isAdmin) hother
  | pendingOwner =>
      rw [hpower] at hgrants
      exact absurd (h.pendingOwner.symm.trans hgrants) (Option.some_ne_none who).symm
  | authorizedCaller =>
      rw [hpower] at hgrants
      exact (hinside hgrants).elim
  | rootUpdater =>
      rw [hpower] at hgrants
      exact hgrants.elim (fun hcaller => (hinside hcaller).elim)
        fun howner => absurd (howner.trans h.owner) hother
  | authorizedPool =>
      rw [hpower] at hgrants
      obtain rfl := h.pool who hgrants.symm
      cases hexternal

theorem routine (hcall : Routine genesis call) : Administered deployer (s.configure ctx call) := by
  unfold Routine at hcall
  split at hcall
  case h_1 added =>
    refine { h with callers := fun who hcaller => ?_ }
    by_cases heq : who = added
    · exact heq ▸ hcall
    · have hold : (s.registry.authorizedCallers.insert added true).lookup who =
          s.registry.authorizedCallers.lookup who := AList.lookup_insert_ne heq
      have hauthorizes : ((s.registry.authorizedCallers.insert added true).lookup who).getD false =
        true := hcaller
      rw [hold] at hauthorizes
      exact h.callers who hauthorizes
  case h_18 pool => exact { h with pool := fun who hpool => (Option.some.inj hpool).symm.trans hcall }
  case h_20 args =>
    refine { h with assets := fun id asset hasset => ?_ }
    by_cases heq : id = s.assetRegistry.nextAssetId
    · subst heq
      obtain rfl := Option.some.inj ((AList.lookup_insert _).symm.trans hasset)
      rfl
    · exact h.assets id asset ((AList.lookup_insert_ne heq).symm.trans hasset)
  case h_22 => exact hcall.elim
  all_goals first
    | exact { h with }
    | exact { h with
        state := ⟨fun h => ProtocolState.noConfusion h, fun h => ProtocolState.noConfusion h⟩ }

end Administered

/-! ## Runs -/

/-- A call that keeps to the rules: anybody's, a relayer's post, or one of the deployer's. -/
def Permitted (deployer : Principal) (genesis : Buff32) (call : Accepted) : Prop :=
  call.2.power = .anyone ∨ Posts call.2 ∨
    call.1.contractCaller = deployer ∧ Scripted deployer genesis call.2

/-- Nobody but the deployer makes a call that configures anything. -/
theorem configure_of_permitted {accepted : Accepted} (h : Permitted deployer genesis accepted)
    (hother : accepted.1.contractCaller ≠ deployer) :
    s.configure accepted.1 accepted.2 = s := by
  rcases h with hanyone | hposts | ⟨hdeployer, -⟩
  · exact s.configure_of_anyone _ hanyone
  · exact configure_of_posts hposts
  · exact absurd hdeployer hother

theorem Administered.permitted {accepted : Accepted} (h : Administered deployer s)
    (hpermitted : Permitted deployer genesis accepted) :
    Administered deployer (s.configure accepted.1 accepted.2) := by
  rcases hpermitted with hanyone | hposts | ⟨-, hscripted⟩
  · rw [s.configure_of_anyone _ hanyone]
    exact h
  · rw [configure_of_posts hposts]
    exact h
  · exact h.routine hscripted.routine

/-- By induction over the calls: each was granted by settings that the scripts had kept. -/
theorem administered_of_governed {calls : List Accepted}
    (h : Governed (.deployed deployer) calls s)
    (hexternal : ∀ call ∈ calls, call.1.contractCaller.isProtocol = false)
    (hscripts : ∀ call ∈ calls, call.1.contractCaller = deployer →
      Permitted deployer genesis call) :
    Administered deployer s ∧ ∀ call ∈ calls, Permitted deployer genesis call := by
  induction h with
  | start => exact ⟨administered_deployed, fun call hcall => absurd hcall List.not_mem_nil⟩
  | @accepted earlier during s s' ctx call _ hgrants _ _ hbefore hduring =>
      have hbefore := hbefore (fun other hother => hexternal other (by simp [hother]))
        fun other hother => hscripts other (by simp [hother])
      have hduring := hduring (fun other hother => hexternal other (List.mem_cons_of_mem _ hother))
        fun other hother => hscripts other (List.mem_cons_of_mem _ hother)
      have hpermitted : Permitted deployer genesis (ctx, call) := by
        by_cases hdeployer : ctx.contractCaller = deployer
        · exact hscripts _ List.mem_cons_self hdeployer
        · exact (hbefore.1.granted hgrants (hexternal _ List.mem_cons_self) hdeployer).elim .inl
            fun hposts => .inr (.inl hposts)
      exact ⟨hduring.1.permitted hpermitted, List.forall_mem_cons.mpr ⟨hpermitted, hduring.2⟩⟩

theorem replay_own {start : Settings} {calls : List Accepted}
    (h : ∀ call ∈ calls, Permitted deployer genesis call) :
    replay start calls = replay start (calls.filter fun call => call.1.contractCaller = deployer) := by
  induction calls with
  | nil => rfl
  | cons call earlier ih =>
      obtain ⟨hcall, hearlier⟩ := List.forall_mem_cons.mp h
      by_cases hdeployer : call.1.contractCaller = deployer
      · rw [List.filter_cons_of_pos (by simpa using hdeployer)]
        exact congrArg (fun s => Settings.configure s call.1 call.2) (ih hearlier)
      · rw [List.filter_cons_of_neg (by simpa using hdeployer)]
        exact (configure_of_permitted hcall hdeployer).trans (ih hearlier)

theorem mem_accepted {H : List Event} {registered : Nat} (h : .called ctx call registered ∈ H) :
    (ctx, call) ∈ accepted H :=
  List.mem_filterMap.mpr ⟨_, h, rfl⟩

/-- Registering callers and posting roots are the deployer's business. -/
theorem wired_of_permitted {B : Circuit.Builtins} {H : List Event}
    (hgenesis : genesis = fieldBuff (emptyRoot B))
    (h : ∀ call ∈ accepted H, Permitted deployer genesis call) : Wired B H where
  authorized ctx caller registered hmem := by
    rcases h _ (mem_accepted hmem) with hanyone | hposts | ⟨-, hscripted⟩
    · cases hanyone
    · exact hposts.elim
    · exact hscripted.routine
  root ctx newRoot version registered hmem := by
    rcases h _ (mem_accepted hmem) with hanyone | hposts | ⟨-, hscripted⟩
    · cases hanyone
    · exact hposts.elim
    · exact (hscripted.routine : newRoot = genesis).trans hgenesis

end Wiring

/-- In every run in which the deployer signs nothing privileged but the calls of its scripts
and aggregation posts: the deployer stays the only administrator and only the protocol's
contracts are authorised, every other privileged call is a relayer's post, the settings are
the replay of the deployer's own calls, and the deployment is wired. -/
theorem administered_by_scripts {env : Env} {w : World} {deployer : Principal} {genesis : Buff32}
    {stx : Principal → Nat} {ledgers : Principal → TokenLedger}
    (hrun : Continues env (World.deployed deployer stx ledgers) w)
    (hscripts : ∀ call ∈ accepted w.history, call.1.contractCaller = deployer →
      Wiring.Permitted deployer genesis call) :
    Wiring.Administered deployer w.settings ∧
      (∀ call ∈ accepted w.history, Wiring.Permitted deployer genesis call) ∧
      w.settings = replay (.deployed deployer)
        ((accepted w.history).filter fun call => call.1.contractCaller = deployer) ∧
      ∀ B, genesis = fieldBuff (emptyRoot B) → Wired B w.history := by
  have hgoverned : Governed (.deployed deployer) (accepted w.history) w.settings :=
    hrun.follows.governed .start
  have hexternal (call : Accepted) (hcall : call ∈ accepted w.history) :
      call.1.contractCaller.isProtocol = false :=
    (hrun.outside call hcall).resolve_left List.not_mem_nil
  obtain ⟨hadministered, hpermitted⟩ :=
    Wiring.administered_of_governed hgoverned hexternal hscripts
  exact ⟨hadministered, hpermitted, hgoverned.eq_replay.trans (Wiring.replay_own hpermitted),
    fun B hgenesis => Wiring.wired_of_permitted hgenesis hpermitted⟩

namespace Sample

def wireOptions : Wiring.WireOptions where
  vkeyHashes _ := none
  proofLengths _ := 0
  relayer := some bob
  treasury := none
  fees := [(1, 25, 0)]
  genesisRoot := fieldBuff (shieldPublic stxCoin false).oldRoot
  zkverifyContextHash := none
  zkverifyBindings _ := none

def wireCalls : List Call := (Wiring.wireContracts wireOptions).filterMap Wiring.Step.call?

/-- The owner wires the contracts; what others ask for is refused. -/
def wiredUp : World :=
  transact Sample.env 1 (sentBy bob) (.privacyRegistry .pauseProtocol)
    (transactAll Sample.env 1 (sentBy owner) wireCalls start)

theorem wiredUp_continues : Continues Sample.env start wiredUp :=
  (Continues.transactAll .refl owner_topLevel 1 wireCalls).transact bob_topLevel 1 _

theorem wireCalls_eq : wireCalls =
    [.privacyRegistry (.addAuthorizedCaller .privacyPool),
      .privacyRegistry (.addAuthorizedCaller .noteManager),
      .privacyRegistry (.addAuthorizedCaller .splitMergeManager),
      .privacyRegistry (.updateRoot wireOptions.genesisRoot 1), .zkVerifier (.addRelayer bob),
      .protocolFees (.setFee 1 25 0 true)] := rfl

def isWireCall : Call → Bool
  | .privacyRegistry (.addAuthorizedCaller who) => who ∈ Wiring.authorizedCallers
  | .privacyRegistry (.updateRoot root version) => root = wireOptions.genesisRoot ∧ version = 1
  | .zkVerifier (.addRelayer who) => who = bob
  | .protocolFees (.setFee feeType bps flat enabled) => (feeType, bps, flat, enabled) = (1, 25, 0, true)
  | _ => false

theorem mem_wireCalls {call : Call} (h : isWireCall call = true) : call ∈ wireCalls := by
  rw [wireCalls_eq]
  unfold isWireCall at h
  split at h
  case h_1 who =>
    simp only [Wiring.authorizedCallers, decide_eq_true_eq, List.mem_cons, List.not_mem_nil,
      or_false] at h
    rcases h with rfl | rfl | rfl
    all_goals simp
  case h_2 =>
    obtain ⟨rfl, rfl⟩ := of_decide_eq_true h
    simp
  case h_3 =>
    obtain rfl := of_decide_eq_true h
    simp
  case h_4 =>
    cases of_decide_eq_true h
    simp
  case h_5 => cases h

theorem wiredUp_accepted :
    ((accepted wiredUp.history).all fun call => isWireCall call.2) = true := by decide +kernel

theorem wiredUp_authorizes :
    (wiredUp.registry.authorizedCallers.lookup .privacyPool).getD false = true := by decide +kernel

end Sample

/-- The calls of one script, all accepted. -/
theorem administered_by_scripts_wiredUp :
    Sample.wiredUp.settings.registry.owner = Sample.owner ∧
      Sample.wiredUp.settings.registry.Authorizes .privacyPool ∧
      Wired Sample.builtins Sample.wiredUp.history := by
  have hauthorized := Sample.wiredUp_authorizes
  have hrun := Sample.wiredUp_continues
  have haccepted := List.all_eq_true.mp Sample.wiredUp_accepted
  generalize Sample.wiredUp = w at hauthorized hrun haccepted ⊢
  obtain ⟨hadministered, -, -, hwired⟩ := administered_by_scripts hrun fun call hcall hdeployer =>
    .inr (.inr ⟨hdeployer, .wireContracts Sample.wireOptions rfl
      (Sample.mem_wireCalls (haccepted call hcall))⟩)
  have hempty : Sample.wireOptions.genesisRoot = fieldBuff (emptyRoot Sample.builtins) :=
    by rw [emptyRoot_eq]; rfl
  exact ⟨hadministered.owner, hauthorized, hwired Sample.builtins hempty⟩

end StxShield
