import StxShield.Effects.Calls

/-!
# The contracts refine the machine

Every execution of a call, with whatever token code runs inside it, takes the
abstract state of the chain through steps of the machine.  The operations that
token code performs in the middle of another operation are the steps taken
while that operation is pending.
-/

namespace StxShield

open Library Exec World PrivacyRegistry

variable {env : Env} {w w' : World}

/-! ## Asset ids -/

def registerAssetFunction : FunctionId := .function .assetRegistry 0

/-- No asset was registered in between. -/
structure KeepsIds (w w' : World) : Prop where
  assets : w'.footprint.assets = w.footprint.assets
  grows : w.footprint.history ⊆ w'.footprint.history

theorem keepsIds_refl (w : World) : KeepsIds w w := ⟨rfl, List.Subset.refl _⟩

theorem keepsIds_trans {u v w : World} (huv : KeepsIds u v) (hvw : KeepsIds v w) :
    KeepsIds u w where
  assets := hvw.assets.trans huv.assets
  grows := List.Subset.trans huv.grows hvw.grows

theorem keepsIds_tolerates : Tolerates KeepsIds where
  trans := keepsIds_trans
  footprint h := by
    refine ⟨?_, ?_⟩ <;> rw [h]
    exact List.Subset.refl _
  verified h := by
    refine ⟨?_, ?_⟩ <;> rw [h]
    exact List.subset_cons_self _ _
  grows h := h.grows

theorem keepsIds_closed : Closed KeepsIds where
  refl := keepsIds_refl
  trans := keepsIds_trans
  store _ _ _ _ := ⟨rfl, List.Subset.refl _⟩

/-- `register-asset` is running, so it cannot be entered again. -/
def RegisteringAsset (ctx : Ctx) : Prop :=
  registerAssetFunction ∈ ctx.stack ∧ ctx.txSender ≠ .privacyPool

/-- A function that is running stays on the stack of every call it makes. -/
theorem delegable_of_stack (function : FunctionId) :
    Delegable fun ctx => function ∈ ctx.stack ∧ ctx.txSender ≠ .privacyPool where
  sender h := h.2
  calledBy _ h := h
  entering _ h := ⟨List.mem_cons_of_mem _ h.1, h.2⟩
  asContract hpool _ h := ⟨h.1, hpool⟩

theorem registeringAsset_delegable : Delegable RegisteringAsset :=
  delegable_of_stack registerAssetFunction

/-- An operation's own effects do not concern asset ids. -/
theorem Committed.keepsIds {P : Primitives} {p : Pending} {version : Nat}
    (h : Committed P p version w w') : KeepsIds w w' := by
  refine ⟨?_, ?_⟩ <;> rw [h.footprint]
  · rfl
  · exact List.subset_cons_self _ _

/-- While an asset is being registered no other is. -/
theorem exec_keepsIds (env : Env) (depth : Nat) :
    CallsRespect RegisteringAsset KeepsIds (exec env depth) := by
  refine exec_respects keepsIds_closed registeringAsset_delegable ?_ depth
  intro depth htokens ctx call hctx _ w data w' h
  obtain ⟨mid, hrun, rfl⟩ := execCall_ok.mp h
  obtain ⟨inner, hdispatch, hinner⟩ := withinCall_ok hrun
  have hadmitted : RegisteringAsset inner := hinner.admitted registeringAsset_delegable.entering hctx
  have hmid : KeepsIds w mid := by
    cases dispatch_run keepsIds_tolerates registeringAsset_delegable
      (fun token _ => htokens token) hadmitted
      hdispatch with
    | respects _ _ hrel => exact hrel
    | registry _ _ hfootprint =>
        refine ⟨?_, ?_⟩ <;> rw [hfootprint]
        exact List.Subset.refl _
    | registerAsset hcall =>
        subst hcall
        exact absurd hctx.1 (hinner.entered rfl).1
    | receives _ hfootprint =>
        refine ⟨?_, ?_⟩ <;> rw [hfootprint]
        exact List.Subset.refl _
    | operation _ hoperation =>
        obtain ⟨-, u, v, version, hbefore, hcommitted, hafter⟩ := hoperation
        exact keepsIds_trans hbefore (keepsIds_trans hcommitted.keepsIds hafter)
  exact keepsIds_trans hmid ⟨rfl, List.subset_cons_self _ _⟩

/-! ## Simulation -/

/-- The machine takes the steps that lead from one chain state to another,
whatever is pending, in any run that contains the later state. -/
structure Simulated (P : Primitives) (w w' : World) : Prop where
  grows : w.footprint.history ⊆ w'.footprint.history
  steps : ∀ H, w'.footprint.history ⊆ H → ∀ pending,
    Steps P H (w.state pending) (w'.state pending)

/-- Contexts in which no STX can be sent from the pool. -/
def PoolSafe (ctx : Ctx) : Prop := ctx.txSender ≠ .privacyPool

theorem poolSafe_delegable : Delegable PoolSafe where
  sender h := h
  calledBy _ h := h
  entering _ h := h
  asContract hpool _ _ := hpool

variable {P : Primitives}

theorem simulated_trans {u v w : World} (huv : Simulated P u v) (hvw : Simulated P v w) :
    Simulated P u w where
  grows := List.Subset.trans huv.grows hvw.grows
  steps H hH pending :=
    (huv.steps H (List.Subset.trans hvw.grows hH) pending).trans (hvw.steps H hH pending)

/-- Nothing happened that the machine can see. -/
theorem simulated_of_state_eq (hgrows : w.footprint.history ⊆ w'.footprint.history)
    (h : ∀ pending, w'.state pending = w.state pending) : Simulated P w w' where
  grows := hgrows
  steps H _ pending := by rw [h pending]

theorem simulated_tolerates : Tolerates (Simulated P) where
  trans := simulated_trans
  footprint h := by
    refine simulated_of_state_eq ?_ fun pending => ?_
    · rw [h]
      exact List.Subset.refl _
    · rw [World.state, h]
  verified h := by
    refine simulated_of_state_eq ?_ fun pending => ?_
    · rw [h]
      exact List.subset_cons_self _ _
    · rw [World.state, h]
      simp [Footprint.state, stxReceived, Event.stxReceived, Event.operation?, List.filterMap_cons]
  grows h := h.grows

theorem simulated_closed : Closed (Simulated P) where
  refl _ := simulated_of_state_eq (List.Subset.refl _) fun _ => rfl
  trans := simulated_trans
  store _ _ _ _ := simulated_of_state_eq (List.Subset.refl _) fun _ => rfl

/-- The footprint after a call has been recorded. -/
def Footprint.record (f : Footprint) (ctx : Ctx) (call : Call) (registered : Nat) : Footprint :=
  { f with history := .called ctx call registered :: f.history }

/-- The abstract state when STX that reached the pool has been counted. -/
def State.credit (s : State) (amount : Nat) : State := { s with received := s.received + amount }

theorem Footprint.record_state (f : Footprint) (ctx : Ctx) (call : Call) (registered : Nat)
    (pending : List Pending) :
    (f.record ctx call registered).state pending = (f.state pending).credit call.stxReceived := by
  simp [Footprint.record, Footprint.state, State.credit, Event.stxReceived, Event.operation?,
    List.filterMap_cons, stxReceived, Nat.add_comm]

theorem OperationRun.grows {p : Pending} (hrun : OperationRun P (Simulated P) p w w') :
    w.footprint.history ⊆ w'.footprint.history := by
  obtain ⟨-, u, v, version, hbefore, hcommitted, hafter⟩ := hrun
  have hcommit : u.footprint.history ⊆ v.footprint.history := by
    rw [hcommitted.footprint]
    exact List.subset_cons_self _ _
  exact List.Subset.trans hbefore.grows (List.Subset.trans hcommit hafter.grows)

/-- An operation is a begin, the steps before its commit, the commit, and the
steps after it. -/
theorem OperationRun.steps {H : List Event} {p : Pending} {ctx : Ctx} {call : Call}
    (hrun : OperationRun P (Simulated P) p w w') (hH : w'.footprint.history ⊆ H)
    (hcalled : Event.called ctx call w.footprint.registry.registered ∈ H)
    (hcall : call.operation? = some p.operation) (pending : List Pending) :
    Steps P H (w.state pending) (w'.state pending) := by
  obtain ⟨hchecks, u, v, version, hbefore, hcommitted, hafter⟩ := hrun
  have hv : v.footprint.history ⊆ H :=
    List.Subset.trans hafter.grows hH
  have hcompleted : Event.completed p.operation version ∈ H := by
    apply hv
    rw [hcommitted.footprint]
    exact List.mem_cons_self
  have hu : u.footprint.history ⊆ H := by
    refine List.Subset.trans ?_ hv
    rw [hcommitted.footprint]
    exact List.subset_cons_self _ _
  have hregistered := (hchecks pending).registered
  have hbegin : Step P H (w.state pending) (w.state (p :: pending)) :=
    .begin (hregistered ▸ hcalled) hcall (hchecks pending)
  have hcommit : Step P H (u.state (p :: pending)) (v.state pending) := by
    have hstate : v.state pending = (u.state (p :: pending)).commit p pending := by
      rw [World.state, hcommitted.footprint, Footprint.commit_state]
    rw [hstate]
    exact .commit rfl hcompleted (hu hcommitted.verified) (hcommitted.registers _)
  calc
    Steps P H (w.state pending) (w.state (p :: pending)) := .single hbegin
    Steps P H _ (u.state (p :: pending)) := hbefore.steps H hu _
    Steps P H _ (v.state pending) := .single hcommit
    Steps P H _ (w'.state pending) := hafter.steps H hH _

section Simulation

variable {H : List Event} {ctx : Ctx} {call : Call}

/-- A registry call from outside is one step. -/
theorem registry_step {registryCall : PrivacyRegistry.Call} {after : RegistryLedger}
    (hcaller : ctx.contractCaller.isProtocol = false)
    (heffect : CallEffect ctx.contractCaller registryCall w.footprint.registry after)
    (hw' : w'.footprint = { w.footprint with registry := after })
    (hcalled : .called ctx (.privacyRegistry registryCall) w.footprint.registry.registered ∈ H)
    (pending : List Pending) : Step P H (w.state pending) (w'.state pending) := by
  have hstate : w'.state pending = { w.state pending with registry := after } := by
    rw [World.state, hw']
    rfl
  rw [hstate]
  exact .registry hcaller hcalled heffect

/-- Registering an asset is one step after the token's. -/
theorem registerAsset_step {mid : World} {args : RegisterAssetArgs} {registered : Nat}
    (hkeeps : KeepsIds w mid) (hfresh : w.footprint.assets.idOf args.token = none)
    (hw' : w'.footprint =
      { mid.footprint with
        assets := mid.footprint.assets.insert w.footprint.assets.nextId args.token })
    (hcalled : .called ctx (.assetRegistry (.registerAsset args)) registered ∈ H)
    (pending : List Pending) : Step P H (mid.state pending) (w'.state pending) := by
  have hstate : w'.state pending =
      { mid.state pending with assets := (mid.state pending).assets.register args.token } := by
    rw [World.state, hw', ← hkeeps.assets]
    rfl
  rw [hstate]
  refine .registerAsset hcalled ?_
  rw [Footprint.state_assets, hkeeps.assets]
  exact hfresh

/-- STX that arrives is a step once it has been counted. -/
theorem receive_step {mid : World} {amount : Nat}
    (hmid : mid.footprint = { w.footprint with poolStx := w.footprint.poolStx + amount })
    (pending : List Pending) :
    Step P H (w.state pending) ((mid.state pending).credit amount) := by
  have hstate : (mid.state pending).credit amount =
      { w.state pending with
        poolStx := (w.state pending).poolStx + amount
        received := (w.state pending).received + amount } := by
    rw [World.state, hmid]
    rfl
  rw [hstate]
  exact .receive amount

end Simulation

/-- A call is simulated if the token code in it is. -/
theorem execCall_simulated (env : Env) (depth : Nat)
    (htokens : TokensRespect PoolSafe (Simulated env.primitives)
      (callToken env (exec env depth))) :
    CallsRespect PoolSafe (Simulated env.primitives)
      (execCall env (callToken env (exec env depth))) := by
  intro ctx call hctx hcaller w data w' h
  obtain ⟨mid, hrun, hrecord⟩ := execCall_ok.mp h
  obtain ⟨inner, hdispatch, hinner⟩ := withinCall_ok hrun
  have hfootprint : w'.footprint =
      mid.footprint.record ctx call w.footprint.registry.registered := hrecord ▸ rfl
  have hstate (pending : List Pending) :
      w'.state pending = (mid.state pending).credit call.stxReceived := by
    rw [World.state, hfootprint, Footprint.record_state]
  have hgrows : mid.footprint.history ⊆ w'.footprint.history := by
    rw [hfootprint]
    exact List.subset_cons_self _ _
  have hcalled :
      Event.called ctx call w.footprint.registry.registered ∈ w'.footprint.history := by
    rw [hfootprint]
    exact List.mem_cons_self
  have hsafe : PoolSafe inner ∧ inner.contractCaller = ctx.contractCaller :=
    ⟨hinner.admitted poolSafe_delegable.entering hctx, hinner.contractCaller⟩
  cases dispatch_run simulated_tolerates poolSafe_delegable (fun token _ => htokens token)
    hsafe.1 hdispatch with
  | respects _ hcall hsim =>
      refine simulated_trans hsim (simulated_of_state_eq hgrows fun pending => ?_)
      rw [hstate, hcall]
      rfl
  | @registry _ after hcall heffect hmid =>
      subst hcall
      rw [hsafe.2] at heffect
      refine ⟨?_, fun H hH pending => .single ?_⟩
      · rwa [hmid] at hgrows
      · have hw' : w'.state pending = mid.state pending := hstate pending
        exact hw' ▸ registry_step hcaller heffect hmid (hH hcalled) pending
  | @registerAsset _ asked hcall hfresh hdecimals hmid =>
      subst hcall
      have hsim : Simulated env.primitives w asked :=
        htokens _ _ _ (poolSafe_delegable.calledBy _ hsafe.1) _ _ _ hdecimals
      have hasking : RegisteringAsset (inner.calledBy .assetRegistry) := by
        obtain ⟨-, rfl⟩ := hinner.entered rfl
        exact ⟨List.mem_cons_self, hctx⟩
      have hkeeps : KeepsIds w asked :=
        callToken_respects keepsIds_closed registeringAsset_delegable (exec_keepsIds env depth)
          _ _ _ hasking _ _ _ hdecimals
      have hasked : asked.footprint.history ⊆ w'.footprint.history := by
        rwa [hmid] at hgrows
      refine simulated_trans hsim ⟨hasked, fun H hH pending => .single ?_⟩
      have hw' : w'.state pending = mid.state pending := hstate pending
      exact hw' ▸ registerAsset_step hkeeps hfresh hmid (hH hcalled) pending
  | receives _ hmid =>
      refine ⟨?_, fun H _ pending => .single ?_⟩
      · rwa [hmid] at hgrows
      · rw [hstate]
        exact receive_step hmid pending
  | operation hcall hoperation =>
      have hquiet : Simulated env.primitives mid w' := by
        refine simulated_of_state_eq hgrows fun pending => ?_
        rw [hstate, Call.stxReceived_of_operation hcall]
        rfl
      refine ⟨List.Subset.trans hoperation.grows hgrows, fun H hH pending => ?_⟩
      exact (hoperation.steps (List.Subset.trans hgrows hH) (hH hcalled) hcall pending).trans
        (hquiet.steps H hH pending)

/-- Every execution is a run of the machine. -/
theorem exec_simulated (env : Env) (depth : Nat) :
    CallsRespect PoolSafe (Simulated env.primitives) (exec env depth) :=
  exec_respects simulated_closed poolSafe_delegable (execCall_simulated env) depth

/-- What every execution respects holds of transactions, failed ones included. -/
theorem transact_respects {admits : Ctx → Prop} (hadmits : ∀ {ctx : Ctx}, ctx.TopLevel → admits ctx)
    {rel : World → World → Prop} (hrefl : ∀ w, rel w w) {depth : Nat}
    (hcalls : CallsRespect admits rel (exec env depth)) {ctx : Ctx} (hctx : ctx.TopLevel)
    (call : Call) (w : World) : rel w (transact env depth ctx call w) := by
  unfold transact
  split
  case h_1 data w' h => exact hcalls ctx call (hadmits hctx) hctx.caller _ _ _ h
  case h_2 => exact hrefl w

theorem Ctx.TopLevel.poolSafe {ctx : Ctx} (h : ctx.TopLevel) : PoolSafe ctx :=
  h.external.sender_ne_pool

/-! ## Calls and operations -/

/-- Between two states as many operations were completed as there were calls
that performed them. -/
structure Accounted (w w' : World) : Prop where
  grows : w.footprint.history ⊆ w'.footprint.history
  count : ∀ op, (w'.footprint.history.filterMap Event.operation?).count op +
      (performed w.footprint.history).count op =
    (w.footprint.history.filterMap Event.operation?).count op +
      (performed w'.footprint.history).count op

theorem accounted_trans {u v w : World} (huv : Accounted u v) (hvw : Accounted v w) :
    Accounted u w where
  grows := List.Subset.trans huv.grows hvw.grows
  count op := by
    have hfirst := huv.count op
    have hsecond := hvw.count op
    omega

theorem accounted_tolerates : Tolerates Accounted where
  trans := accounted_trans
  footprint h := by
    refine ⟨?_, fun op => ?_⟩ <;> rw [h]
    exact List.Subset.refl _
  verified h := by
    refine ⟨?_, fun op => ?_⟩ <;> rw [h]
    · exact List.subset_cons_self _ _
    · simp [performed, Event.operation?, Event.performed?, List.filterMap_cons]
  grows h := h.grows

theorem accounted_closed : Closed Accounted where
  refl _ := ⟨List.Subset.refl _, fun _ => rfl⟩
  trans := accounted_trans
  store _ _ _ _ := ⟨List.Subset.refl _, fun _ => rfl⟩

theorem execCall_accounted (env : Env) (depth : Nat)
    (htokens : TokensRespect PoolSafe Accounted (callToken env (exec env depth))) :
    CallsRespect PoolSafe Accounted (execCall env (callToken env (exec env depth))) := by
  intro ctx call hctx hcaller w data w' h
  obtain ⟨mid, hrun, hrecord⟩ := execCall_ok.mp h
  obtain ⟨inner, hdispatch, hinner⟩ := withinCall_ok hrun
  have hfootprint : w'.footprint =
      mid.footprint.record ctx call w.footprint.registry.registered := hrecord ▸ rfl
  have hgrows : mid.footprint.history ⊆ w'.footprint.history := by
    rw [hfootprint]
    exact List.subset_cons_self _ _
  have hsafe : PoolSafe inner := hinner.admitted poolSafe_delegable.entering hctx
  -- a call that performs no operation is recorded without consequence
  have hquiet (hnone : call.operation? = none) : Accounted mid w' := by
    refine ⟨hgrows, fun op => ?_⟩
    rw [hfootprint]
    simp [Footprint.record, performed, Event.operation?, Event.performed?, hnone,
      List.filterMap_cons]
  have hsame (hhistory : mid.footprint.history = w.footprint.history) : Accounted w mid := by
    refine ⟨?_, fun op => ?_⟩ <;> rw [hhistory]
    exact List.Subset.refl _
  cases dispatch_run accounted_tolerates poolSafe_delegable (fun token _ => htokens token) hsafe
    hdispatch with
  | respects hnone _ hrel => exact accounted_trans hrel (hquiet hnone)
  | registry hcall _ hmid =>
      refine accounted_trans (hsame ?_) (hquiet (hcall ▸ rfl))
      rw [hmid]
  | @registerAsset _ asked hcall _ hdecimals hmid =>
      have hasked : Accounted w asked :=
        htokens _ _ _ (poolSafe_delegable.calledBy _ hsafe) _ _ _ hdecimals
      refine accounted_trans hasked (accounted_trans ⟨?_, fun op => ?_⟩ (hquiet (hcall ▸ rfl)))
      · rw [hmid]
        exact List.Subset.refl _
      · rw [hmid]
  | receives hnone hmid =>
      refine accounted_trans (hsame ?_) (hquiet hnone)
      rw [hmid]
  | @operation p hcall hoperation =>
      obtain ⟨-, u, v, version, hbefore, hcommitted, hafter⟩ := hoperation
      have hcommit : v.footprint.history =
          .completed p.operation version :: u.footprint.history := by
        rw [hcommitted.footprint]
        rfl
      refine ⟨List.Subset.trans hbefore.grows (List.Subset.trans ?_
        (List.Subset.trans hafter.grows hgrows)), fun op => ?_⟩
      · rw [hcommit]
        exact List.subset_cons_self _ _
      · have hfirst := hbefore.count op
        have hsecond := hafter.count op
        rw [hcommit] at hsecond
        rw [hfootprint]
        simp only [Footprint.record, performed, Event.operation?, Event.performed?, hcall,
          List.filterMap_cons, List.count_cons] at hfirst hsecond ⊢
        omega

/-- In every execution calls and completed operations match. -/
theorem exec_accounted (env : Env) (depth : Nat) :
    CallsRespect PoolSafe Accounted (exec env depth) :=
  exec_respects accounted_closed poolSafe_delegable (execCall_accounted env) depth

theorem performed_perm (h : Reachable env w) : (performed w.history).Perm (w.state []).log := by
  refine List.perm_iff_count.mpr fun op => ?_
  induction h with
  | deployed => rfl
  | @transact start hreach ctx hctx depth call ih =>
      have hstep : Accounted start (transact env depth ctx call start) :=
        transact_respects Ctx.TopLevel.poolSafe accounted_closed.refl (exec_accounted env depth) hctx call start
      have hcount := hstep.count op
      have hbefore : (performed start.footprint.history).count op =
          (start.footprint.history.filterMap Event.operation?).count op := ih
      change (performed (transact env depth ctx call start).footprint.history).count op =
        ((transact env depth ctx call start).footprint.history.filterMap Event.operation?).count op
      omega

/-! ## Runs -/

/-- The machine when the protocol has just been deployed. -/
def State.deployed (poolStx : Nat) : State where
  registry :=
    { leaves := [], registered := 0, nullifiers := [], roots := ∅, currentRoot := zeroHash,
      authorized := fun _ => false, totalShieldedStx := 0 }
  assets := { idOf := fun _ => none, tokenOf := fun _ => none, nextId := 1 }
  shieldedTotal _ := 0
  poolStx := poolStx
  received := 0
  log := []
  pending := []

theorem State.deployed_guarded (poolStx : Nat) : (State.deployed poolStx).Guarded :=
  fun _ hauthorized => absurd hauthorized Bool.false_ne_true

theorem deployed_state (deployer : Principal) (stx : Principal → Nat)
    (tokens : Principal → TokenLedger) :
    (World.deployed deployer stx tokens).state [] = State.deployed (stx .privacyPool) := by
  refine State.ext (RegistryLedger.ext rfl rfl rfl ?_ rfl rfl rfl) rfl rfl rfl rfl rfl rfl
  exact Set.eq_empty_of_forall_notMem fun root hroot => AList.notMem_empty root hroot

/-- Every reachable chain state is the end of a run of the machine, also as part
of a longer history. -/
theorem Reachable.steps (h : Reachable env w) :
    ∃ poolStx, ∀ H, w.history ⊆ H →
      Steps env.primitives H (State.deployed poolStx) (w.state []) := by
  induction h with
  | deployed hdeployer stx tokens =>
      refine ⟨stx .privacyPool, fun H _ => ?_⟩
      rw [deployed_state]
  | @transact start hreach ctx hctx depth call ih =>
      obtain ⟨poolStx, hsteps⟩ := ih
      have hsim : Simulated env.primitives start _ :=
        transact_respects Ctx.TopLevel.poolSafe simulated_closed.refl (exec_simulated env depth) hctx call start
      exact ⟨poolStx, fun H hH =>
        (hsteps H (List.Subset.trans hsim.grows hH)).trans (hsim.steps H hH [])⟩

theorem Steps.assets_consistent {H : List Event} {poolStx : Nat} {s : State}
    (h : Steps P H (State.deployed poolStx) s) : s.assets.Consistent := by
  induction h with
  | refl => exact ⟨nofun, nofun⟩
  | tail _ hstep ih => exact hstep.assets_consistent ih

theorem Steps.assets_listed {H : List Event} {poolStx : Nat} {s : State}
    (h : Steps P H (State.deployed poolStx) s) : s.assets.Listed := by
  induction h with
  | refl => exact nofun
  | tail _ hstep ih => exact hstep.assets_listed ih

/-- Tokens and ids belong together in every reachable state. -/
theorem Reachable.assets (h : Reachable env w) :
    w.assetRegistry.table.Consistent ∧ w.assetRegistry.table.Listed := by
  obtain ⟨poolStx, hsteps⟩ := h.steps
  have hrun := hsteps w.history (List.Subset.refl _)
  exact ⟨hrun.assets_consistent, hrun.assets_listed⟩

end StxShield
