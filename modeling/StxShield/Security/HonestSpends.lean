import StxShield.Protocol.Spending
import StxShield.Security.Solvency

/-!
# Honest spends pass the checks of the books

The registry refuses more nullifiers than commitments, and both families refuse
to pay out more than their totals.  On a spend of a note in the tree none of
these checks can fail: the books are right, whatever has happened so far.
-/

namespace StxShield

open Library Exec World Circuit PrivacyRegistry

/-- What an honest spend brings: a note to spend, under a root the registry
accepts, with nullifiers nobody has used, and a statement that verifies. -/
structure HonestSpend (P : Primitives) (inclusion : Inclusion) (ctx : Ctx) (op : Operation)
    (w : World) : Prop where
  active : w.registry.protocolState = .active
  spends : op.nullifiers ≠ []
  known : w.registry.isKnownRoot op.declaredRoot
  unused : ∀ nullifier ∈ op.nullifiers, w.registry.nullifiers.lookup nullifier = none
  verifies : (op.verify P inclusion ctx (op.circuitVersion w) w).isOk

variable {env : Env} {w m : World} {B : Builtins} {Q : Queries} {tokens : TokenCode}
  {inclusion : Inclusion} {ctx : Ctx} {op : Operation} {assetUid : Nat}

/-- The pending operation of a spend that is under way. -/
def Operation.pending (op : Operation) (assetUid : Nat) : Pending := ⟨op, assetUid, 0⟩

theorem nullifier_mem_iff {nullifier : Buff32} :
    nullifier ∈ w.footprint.registry.nullifiers ↔ nullifier ∈ w.registry.nullifiers := by
  change nullifier ∈ w.registry.nullifiers.keys.reverse ↔ _
  rw [List.mem_reverse, AList.mem_keys]

theorem nullifiers_nodup : w.footprint.registry.nullifiers.Nodup :=
  List.nodup_reverse.mpr w.registry.nullifiers.keys_nodup

theorem Operation.deposit_of_spends (h : op.nullifiers ≠ []) : op.deposit = 0 := by
  obtain ⟨currency, action⟩ := op
  cases action with
  | shield args => exact absurd rfl h
  | _ => rfl

theorem poolSafe_context (hctx : PoolSafe ctx) : PoolSafe (op.context inclusion ctx) := by
  unfold Operation.context
  cases (op.call inclusion).function? with
  | none => exact hctx
  | some function => exact hctx

/-- A verified statement is about a transaction. -/
theorem HonestSpend.transaction (h : HonestSpend env.primitives inclusion ctx op w)
    (hfree : CollisionFree env.primitives B Q)
    (hpresented : op.inputs env.primitives (op.circuitVersion w) ∈ Q.preimages)
    (hsound : ∀ m, Arrives env.primitives tokens inclusion ctx op w m →
      Sound env.primitives B Q m.history) :
    ∃ tx : Transaction B Q.poseidon, op.Realizes env.primitives tx := by
  have hverifies := h.verifies
  cases hverify : op.verify env.primitives inclusion ctx (op.circuitVersion w) w with
  | error fault =>
      rw [hverify] at hverifies
      cases hverifies
  | ok outcome =>
      obtain ⟨leaf, w'⟩ := outcome
      have hevent := (Operation.verify_effect hverify).1
      refine (hsound w' (.verified .start hverify)).transaction_of_presented hfree hpresented ?_
      change _ ∈ w'.footprint.history
      rw [hevent]
      exact List.mem_cons_self

/-- Wherever a spend has arrived, the books are right and it has a note to
spend. -/
theorem Arrives.invariant {depth : Nat} (hreach : Reachable env w)
    (hfree : CollisionFree env.primitives B Q) (hctx : PoolSafe ctx)
    (hknown : w.registry.isKnownRoot op.declaredRoot) (hasset : op.HasAsset w assetUid)
    (h : Arrives env.primitives (callToken env (exec env depth)) inclusion ctx op w m)
    (hsound : Sound env.primitives B Q m.history) (hwired : Wired B m.history) :
    (∃ coins, Invariant env.primitives B Q (m.state [op.pending assetUid]) coins) ∧
      m.books.Agree := by
  have hsimulated := h.simulated
    (callToken_respects simulated_closed poolSafe_delegable (exec_simulated env depth)) hctx
  have hbooked := h.booked
    (callToken_respects booked_closed poolSafe_delegable (exec_booked env depth)) hctx
  constructor
  · obtain ⟨poolStx, hsteps⟩ := hreach.steps
    obtain ⟨coins, hstart⟩ := Invariant.run hfree hsound hwired (hsteps _ hsimulated.grows)
    have hbegun : Invariant env.primitives B Q (w.state [op.pending assetUid]) coins :=
      hstart.begin (mem_roots_of_isKnownRoot hknown) hasset
    exact hbegun.steps hfree hsound hwired (hsimulated.steps _ (List.Subset.refl _) _)
  · obtain ⟨deployer, stx, tokens, hrun⟩ := hreach.exists_deployed
    exact (agree_deployed deployer stx tokens).run hwired.toGuarded
      ((booked_trans hrun.booked hbooked).steps _ (List.Subset.refl _))

/-! ## The checks -/

section Checks

variable {coins : List Coin} {tx : Transaction B Q.poseidon}

/-- There is room for nullifiers of the operation that are not registered. -/
theorem room_for_nullifiers (hfree : CollisionFree env.primitives B Q)
    (hrealizes : op.Realizes env.primitives tx) (hagree : m.books.Agree)
    (h : Invariant env.primitives B Q (m.state [op.pending assetUid]) coins)
    {fresh : List Buff32} (hfresh : ∀ nullifier ∈ fresh, nullifier ∈ op.nullifiers)
    (hunused : ∀ nullifier ∈ fresh, nullifier ∉ m.footprint.registry.nullifiers)
    (hdistinct : fresh.Nodup) :
    m.registry.protocolStatistics.totalNullifiers + fresh.length ≤
      m.registry.protocolStatistics.totalCommitments := by
  have hnodup : (m.footprint.registry.nullifiers ++ fresh).Nodup :=
    List.nodup_append'.mpr ⟨nullifiers_nodup, hdistinct,
      fun nullifier hold hnew => hunused nullifier hnew hold⟩
  have hle := h.tree.length_nullifiers_le (p := op.pending assetUid) hfree hrealizes
    List.mem_cons_self hfresh hnodup
  have hnullifiers : m.registry.protocolStatistics.totalNullifiers =
      (m.state [op.pending assetUid]).registry.nullifiers.length := hagree.totalNullifiers
  have hcommitments : m.registry.protocolStatistics.totalCommitments =
      (m.state [op.pending assetUid]).registry.leaves.length := hagree.totalCommitments
  omega

/-- The check of the first nullifier passes. -/
theorem count_passes (hfree : CollisionFree env.primitives B Q)
    (hrealizes : op.Realizes env.primitives tx) (hagree : m.books.Agree)
    (h : Invariant env.primitives B Q (m.state [op.pending assetUid]) coins)
    {code : Nat} (hcode : code ∈ consistencyErrors) {caller : Ctx} {nullifier : Buff32}
    (hmem : nullifier ∈ op.nullifiers) :
    PoolCalls.registerNullifier caller nullifier m ≠ .error (.err code) := by
  intro hfail
  obtain ⟨hunused, hfull⟩ := PoolCalls.registerNullifier_error hcode hfail
  have hfresh : nullifier ∉ m.footprint.registry.nullifiers :=
    mt nullifier_mem_iff.mp (AList.lookup_eq_none.mp hunused)
  exact hfull (room_for_nullifiers hfree hrealizes hagree h (List.forall_mem_singleton.mpr hmem)
    (List.forall_mem_singleton.mpr hfresh) (List.nodup_singleton _))

/-- So does that of the second, before the commitment of a merge is counted. -/
theorem secondCount_passes (hfree : CollisionFree env.primitives B Q)
    (hrealizes : op.Realizes env.primitives tx) (hagree : m.books.Agree)
    (h : Invariant env.primitives B Q (m.state [op.pending assetUid]) coins)
    {code : Nat} (hcode : code ∈ consistencyErrors) {caller : Ctx} {first second : Buff32}
    (hop : op.nullifiers = [first, second]) {u : Unit} {m' : World}
    (hfirst : PoolCalls.registerNullifier caller first m = .ok (u, m')) :
    PoolCalls.registerNullifier caller second m' ≠ .error (.err code) := by
  intro hfail
  obtain ⟨hunused, hfull⟩ := PoolCalls.registerNullifier_error hcode hfail
  obtain ⟨hfresh, heffect⟩ := PoolCalls.registerNullifier_effect hfirst
  have hnew : second ∉ m'.footprint.registry.nullifiers :=
    mt nullifier_mem_iff.mp (AList.lookup_eq_none.mp hunused)
  rw [heffect, List.mem_append, List.mem_singleton, not_or] at hnew
  have hroom : m.registry.protocolStatistics.totalNullifiers + [first, second].length ≤
      m.registry.protocolStatistics.totalCommitments :=
    room_for_nullifiers hfree hrealizes hagree h (fun nullifier hmem => hop ▸ hmem)
      (by simp [hfresh, hnew.1]) (by simp [Ne.symm hnew.2])
  have hbooks := (registerNullifier_enters hfirst).books
  have hcounted : m'.registry.protocolStatistics.totalNullifiers =
      m.registry.protocolStatistics.totalNullifiers + 1 := congrArg Books.totalNullifiers hbooks
  have hkept : m'.registry.protocolStatistics.totalCommitments =
      m.registry.protocolStatistics.totalCommitments := congrArg Books.totalCommitments hbooks
  rw [List.length_cons, List.length_singleton] at hroom
  omega

/-- The STX total covers a withdrawal of STX. -/
theorem stxTotal_passes (hfree : CollisionFree env.primitives B Q)
    (hrealizes : op.Realizes env.primitives tx)
    (h : Invariant env.primitives B Q (m.state [op.pending assetUid]) coins)
    {code : Nat} (hcode : code ∈ consistencyErrors) {caller : Ctx} {nullifier : Buff32}
    (hcurrency : op.currency = .stx) (hop : op.nullifiers = [nullifier]) {u : Unit} {m' : World}
    (hregister : PoolCalls.registerNullifier caller nullifier m = .ok (u, m')) :
    onRegistry (recordWithdrawal caller op.payout) m' ≠ .error (.err code) := by
  intro hfail
  obtain ⟨hfresh, heffect⟩ := PoolCalls.registerNullifier_effect hregister
  have hcovered := h.covered (p := op.pending assetUid) hfree hrealizes List.mem_cons_self
    (by simpa [Operation.pending, hop] using hfresh) (by simp [Operation.pending, hop])
    (show op.deposit = 0 from
      Operation.deposit_of_spends (hop ▸ List.cons_ne_nil _ _))
  have htotal : (m.state [op.pending assetUid]).total (op.pending assetUid) =
      m'.footprint.registry.totalShieldedStx := by
    rw [heffect]
    simp [State.total, Operation.pending, hcurrency]
  rw [htotal] at hcovered
  exact recordWithdrawal_error hcode hfail hcovered

/-- An asset's total covers a withdrawal, whatever the token does when it is
asked for the pool's balance. -/
theorem assetTotal_passes (hfree : CollisionFree env.primitives B Q)
    (hrealizes : op.Realizes env.primitives tx) (hctx : PoolSafe ctx) {depth : Nat}
    (h : Invariant env.primitives B Q (w.state [op.pending assetUid]) coins)
    (hunused : ∀ nullifier ∈ op.nullifiers, w.registry.nullifiers.lookup nullifier = none)
    {token : Principal} {args : WithdrawArgs} (hop : op = ⟨.sip10 token, .withdraw args⟩)
    {balance : Nat}
    (hasks : Sip10Pool.poolBalance (callToken env (exec env depth)) (op.context inclusion ctx) token
      w = .ok (balance, m)) : op.payout ≤ m.sip10Pool.getShieldedTotal assetUid := by
  subst hop
  have hcovered := h.covered (p := Operation.pending _ assetUid) hfree hrealizes List.mem_cons_self
    (fun nullifier hmem => mt nullifier_mem_iff.mp (AList.lookup_eq_none.mp (hunused _ hmem)))
    (List.nodup_singleton _) rfl
  have hdelegable : Delegable Withdrawing := delegable_of_stack withdrawFunction
  have hrunning : Withdrawing
      (Operation.context inclusion ctx ⟨.sip10 token, .withdraw args⟩) :=
    ⟨List.mem_cons_self, hctx⟩
  have hkeeps : KeepsTotals w m := Sip10Pool.poolBalance_respects hdelegable.toAdmissible
    (callToken_respects keepsTotals_closed hdelegable (exec_keepsTotals env depth) token) hrunning
    _ _ _ hasks
  exact hcovered.trans (hkeeps.totals assetUid)

end Checks

/-- In every reachable state of a wired deployment an honest spend, wherever
token code interferes, never fails with the error of the nullifier count or of
either shielded total. -/
theorem honest_spend_not_blocked (hreach : Reachable env w)
    (hfree : CollisionFree env.primitives B Q) (hctx : ctx.TopLevel) {depth : Nat}
    (h : HonestSpend env.primitives inclusion (op.context inclusion ctx) op w)
    (hpresented : op.inputs env.primitives (op.circuitVersion w) ∈ Q.preimages)
    (hsound : ∀ m, Arrives env.primitives (callToken env (exec env depth)) inclusion
      (op.context inclusion ctx) op w m →
      Sound env.primitives B Q m.history ∧ Wired B m.history)
    {code : Nat} (hcode : code ∈ consistencyErrors) :
    exec env (depth + 1) ctx (op.call inclusion) w ≠ .error (.err code) := by
  intro hfails
  have hsafe : PoolSafe ctx := hctx.external.sender_ne_pool
  obtain ⟨tx, hrealizes⟩ := h.transaction hfree hpresented fun m hm => (hsound m hm).1
  have harrived {m : World} {assetUid : Nat} (hasset : op.HasAsset w assetUid)
      (harrives : Arrives env.primitives (callToken env (exec env depth)) inclusion
        (op.context inclusion ctx) op w m) :=
    harrives.invariant hreach hfree (poolSafe_context hsafe) h.known hasset
      (hsound m harrives).1 (hsound m harrives).2
  cases exec_blocked hcode h.spends hfails with
  | count hasset harrives hmem hfail =>
      obtain ⟨⟨coins, hinvariant⟩, hagree⟩ := harrived hasset harrives
      exact count_passes hfree hrealizes hagree hinvariant hcode hmem hfail
  | secondCount hasset harrives hop hfirst hfail =>
      obtain ⟨⟨coins, hinvariant⟩, hagree⟩ := harrived hasset harrives
      exact secondCount_passes hfree hrealizes hagree hinvariant hcode hop hfirst hfail
  | stxTotal hcurrency harrives hop hregister hfail =>
      have hasset : op.HasAsset w 0 := fun token htoken => by
        rw [hcurrency] at htoken
        cases htoken
      obtain ⟨⟨coins, hinvariant⟩, -⟩ := harrived hasset harrives
      exact stxTotal_passes hfree hrealizes hinvariant hcode hcurrency hop hregister hfail
  | assetTotal hop hasset hasks hfail =>
      obtain ⟨⟨coins, hinvariant⟩, -⟩ := harrived hasset .start
      exact hfail (assetTotal_passes hfree hrealizes hsafe hinvariant h.unused hop hasks)

/-! ## A withdrawal that empties the pool -/

/-- An operation on STX adds nothing to the history but its statement. -/
theorem Arrives.history_all {P : Primitives} (hcurrency : op.currency = .stx)
    (h : Arrives P tokens inclusion ctx op w m) {expected : Event → Bool}
    (hstart : w.history.all expected)
    (hstatement : expected (.proofVerified op.verifier op.proofType
      (P.keccak256 (op.inputs P (op.circuitVersion w))))) : m.history.all expected := by
  induction h with
  | start => exact hstart
  | @verified m m' leaf _ hverify ih =>
      have hhistory : m'.footprint.history = _ :=
        congrArg Footprint.history (Operation.verify_effect hverify).1
      change m'.footprint.history.all expected
      rw [hhistory, List.all_cons, Bool.and_eq_true]
      exact ⟨hstatement, ih⟩
  | asked htoken =>
      rw [hcurrency] at htoken
      cases htoken
  | paid _ _ _ hpays ih =>
      rw [(untouched_payFee hpays).history]
      exact ih
  | paidInTokens htoken =>
      rw [hcurrency] at htoken
      cases htoken

namespace Sample

def withdrawal : Operation := ⟨.stx, .withdraw withdrawArgs⟩

theorem withdrawal_honest :
    HonestSpend primitives (Sample.inclusion 3)
      (withdrawal.context (Sample.inclusion 3) (sentBy alice)) withdrawal interleaved where
  active := by decide +kernel
  spends := by decide +kernel
  known := by decide +kernel
  unused := by decide +kernel
  verifies := by decide +kernel

end Sample

/-- The withdrawal of all shielded STX. -/
theorem honest_spend_not_blocked_emptied :
    Sample.withdrawn.registry.protocolStatistics.totalShieldedStx = 0 ∧
      exec Sample.env 1 (Sample.sentBy Sample.alice) Sample.callWithdrawStx Sample.interleaved ≠
        .error (.err errInsufficientShieldedBalance) := by
  have hpresented : Sample.withdrawal.inputs Sample.primitives
      (Sample.withdrawal.circuitVersion Sample.interleaved) ∈
      Sample.statements.map Statement.encode := by decide +kernel
  have hstatement : Sample.expected (.proofVerified Sample.withdrawal.verifier
      Sample.withdrawal.proofType (Sample.primitives.keccak256 (Sample.withdrawal.inputs
        Sample.primitives (Sample.withdrawal.circuitVersion Sample.interleaved)))) := by
    decide +kernel
  refine ⟨by decide +kernel, honest_spend_not_blocked Sample.interleaved_reachable
    Sample.collisionFree Sample.alice_topLevel Sample.withdrawal_honest hpresented
    (fun m harrives => ?_) (by decide)⟩
  have hexpected := harrives.history_all rfl Sample.interleaved_expected hstatement
  exact ⟨Sample.sound hexpected, Sample.wired hexpected⟩

end StxShield
