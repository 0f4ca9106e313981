import StxShield.Security.Solvency

/-!
# Custody of STX

What the STX pool holds beyond the shielded total.  Operations move both sides
by the same amount, whatever the fees are and whoever is paid; only STX that
reaches the pool outside shield changes the difference, and only upwards.
-/

namespace StxShield

open Library

variable {P : Primitives} {H : List Event} {s s' : State} {p : Pending} {rest : List Pending}

/-- The part of the pool's STX that backs no note and was not sent there
outside shield. -/
def State.surplus (s : State) : ℤ :=
  (s.poolStx : ℤ) - s.registry.totalShieldedStx - s.received

/-- An operation takes out of the pool what it takes out of the total. -/
theorem surplus_commit (h : s.Registers p) : (s.commit p rest).surplus = s.surplus := by
  have hcovered := h.covered
  have hpaid := h.paid
  unfold State.total at hcovered
  unfold State.surplus State.commit Operation.poolStx PrivacyRegistry.RegistryLedger.commit
  cases hcurrency : p.operation.currency with
  | stx =>
      rw [hcurrency] at hcovered
      have hpaid := hpaid hcurrency
      simp only at hcovered ⊢
      omega
  | sip10 token => rfl

theorem surplus_step (hguarded : s.Guarded) (hstep : Step P H s s') : s'.surplus = s.surplus := by
  cases hstep with
  | begin => rfl
  | commit _ _ _ hregisters => exact surplus_commit hregisters
  | registry hcaller _ heffect =>
      obtain ⟨-, -, -, htotal⟩ := hguarded.call_effect hcaller heffect
      simp only [State.surplus, htotal]
  | registerAsset => rfl
  | receive amount =>
      simp only [State.surplus]
      omega

/-- Along a run the surplus stays what it was, and what was received only
grows. -/
theorem surplus_run (hhistory : Guarded H) (hguarded : s.Guarded) (hsteps : Steps P H s s') :
    s'.Guarded ∧ s'.surplus = s.surplus ∧ s.received ≤ s'.received := by
  induction hsteps with
  | refl => exact ⟨hguarded, rfl, Nat.le_refl _⟩
  | tail _ hstep ih =>
      obtain ⟨hmid, hsurplus, hreceived⟩ := ih
      refine ⟨hstep.guarded hhistory hmid, (surplus_step hmid hstep).trans hsurplus,
        hreceived.trans ?_⟩
      cases hstep with
      | receive amount => exact Nat.le_add_right _ _
      | _ => exact Nat.le_refl _

/-! ## On the chain -/

/-- What the pool holds beyond the registry's shielded total. -/
def poolSurplus (w : World) : ℤ :=
  (w.stx .privacyPool : ℤ) - w.registry.protocolStatistics.totalShieldedStx

/-- The pool holds at least the shielded total, also in the middle of a
transaction. -/
theorem pool_covers_total {env : Env} {w m : World} (hreach : Reachable env w)
    (hmid : Simulated env.primitives w m) (hguarded : Guarded m.history) :
    m.registry.protocolStatistics.totalShieldedStx ≤ m.stx .privacyPool := by
  obtain ⟨poolStx, hsteps⟩ := hreach.steps
  have hrun := (hsteps _ hmid.grows).trans (hmid.steps _ (List.Subset.refl _) [])
  obtain ⟨-, hsurplus, -⟩ := surplus_run hguarded (State.deployed_guarded poolStx) hrun
  simp only [State.surplus, State.deployed, Footprint.state, World.footprint,
    PrivacyRegistry.ledger] at hsurplus
  omega

/-- For every reachable state and every call: the pool's surplus over the
shielded total grows by exactly what the call, and token code inside it, sends
to the pool outside shield.  A failed call changes neither. -/
theorem pool_surplus_conserved {env : Env} {w : World} (hreach : Reachable env w) {ctx : Ctx}
    (hctx : ctx.TopLevel) (depth : Nat) (call : Call)
    (hguarded : Guarded (transact env depth ctx call w).history) :
    poolSurplus w ≤ poolSurplus (transact env depth ctx call w) ∧
      poolSurplus (transact env depth ctx call w) = poolSurplus w +
        (stxReceived (transact env depth ctx call w).history - stxReceived w.history : ℤ) ∧
      (transact env depth ctx call w).registry.protocolStatistics.totalShieldedStx ≤
        (transact env depth ctx call w).stx .privacyPool := by
  have hsim : Simulated env.primitives w (transact env depth ctx call w) :=
    transact_respects Ctx.TopLevel.poolSafe simulated_closed.refl (exec_simulated env depth) hctx call w
  obtain ⟨poolStx, hsteps⟩ := hreach.steps
  obtain ⟨hstart, hsurplus, -⟩ := surplus_run hguarded (State.deployed_guarded poolStx)
    (hsteps _ hsim.grows)
  obtain ⟨-, hkept, hreceived⟩ := surplus_run hguarded hstart
    (hsim.steps _ (List.Subset.refl _) [])
  have hinitial : (State.deployed poolStx).surplus = poolStx := by
    simp [State.surplus, State.deployed]
  rw [hinitial] at hsurplus
  simp only [State.surplus, Footprint.state, World.footprint, PrivacyRegistry.ledger]
    at hsurplus hkept hreceived
  unfold poolSurplus
  refine ⟨?_, ?_, ?_⟩ <;> omega

/-- Shielding a token that shields STX when called moves a million micro-STX into
the pool, all of it backing the note. -/
theorem pool_surplus_conserved_interleaved :
    poolSurplus Sample.ready ≤ poolSurplus Sample.interleaved ∧
      poolSurplus Sample.interleaved = poolSurplus Sample.ready +
        (stxReceived Sample.interleaved.history - stxReceived Sample.ready.history : ℤ) ∧
      Sample.interleaved.registry.protocolStatistics.totalShieldedStx ≤
        Sample.interleaved.stx .privacyPool := by
  have hguarded : Guarded Sample.interleaved.history :=
    (Sample.wired Sample.interleaved_expected).toGuarded
  unfold Sample.interleaved at hguarded ⊢
  have h := pool_surplus_conserved Sample.ready_reachable Sample.alice_topLevel 2
    Sample.callShieldToken hguarded
  exact h

end StxShield
