import StxShield.Security.DoubleSpend

/-!
# Limits on single notes

The registry keeps, for each asset, a floor and a cap for the amount of a note.
No operation reads them: a note is within them exactly when the amounts that go
into the operation leave it there.
-/

namespace StxShield

open Library Circuit Exec World

variable {env : Env} {w w' : World} {P : Primitives} {B : Builtins} {Q : Queries} {ctx : Ctx}
  {token : Principal}

/-! ## Limits and amounts -/

/-- `min-note` is a floor, `max-note` a cap unless it is zero. -/
def Asset.Allows (asset : Asset) (amount : Nat) : Prop :=
  asset.minNote ≤ amount ∧ (asset.maxNote = 0 ∨ amount ≤ asset.maxNote)

namespace Circuit.Transaction

variable {queries : Set Query} (tx : Transaction B queries)

/-- What the spent notes are worth together. -/
def spent : Nat := (tx.inputs.map fun input => input.1.amount).sum

/-- The first of the new notes, which a split's spender chooses. -/
def share : Nat := (tx.outputs.map Coin.amount).headD 0

end Circuit.Transaction

/-- What the notes an action creates are worth: a shield is told, a transfer and a
merge pass on what they spend, and a split divides it. -/
def Action.createdAmounts (spent share : Nat) : Action → List Nat
  | .shield args => [args.amount]
  | .transfer _ => [spent]
  | .withdraw _ => []
  | .split _ => [share, spent - share]
  | .merge _ => [spent]

theorem Operation.Realizes.createdAmounts {op : Operation} {tx : Transaction B Q.poseidon}
    (hrealizes : op.Realizes P tx) (hranged : ∀ input ∈ tx.inputs, input.1.amount < 2 ^ 64) :
    tx.outputs.map Coin.amount = op.action.createdAmounts tx.spent tx.share := by
  have hbalanced : op.deposit + tx.spent = op.payout + (tx.outputs.map Coin.amount).sum := by
    rw [hrealizes.deposit, hrealizes.payout]
    exact tx.balanced hranged
  have hcount : (tx.outputs.map Coin.amount).length = op.commitments.length := by
    rw [hrealizes.commitments, List.length_map, List.length_map]
  have hspent : op.nullifiers = [] → tx.spent = 0 := by
    intro hnone
    rw [hrealizes.nullifiers, List.map_eq_nil_iff] at hnone
    simp [Transaction.spent, hnone]
  unfold Transaction.share
  generalize tx.outputs.map Coin.amount = created at *
  obtain ⟨currency, action⟩ := op
  cases action with
  | shield args =>
      obtain ⟨amount, rfl⟩ := List.length_eq_one_iff.mp hcount
      rw [hspent rfl, List.sum_singleton] at hbalanced
      exact congrArg (· :: []) (by simpa [Operation.deposit, Operation.payout] using hbalanced.symm)
  | transfer args =>
      obtain ⟨amount, rfl⟩ := List.length_eq_one_iff.mp hcount
      rw [List.sum_singleton] at hbalanced
      exact congrArg (· :: []) (by simpa [Operation.deposit, Operation.payout] using hbalanced.symm)
  | withdraw args => exact List.length_eq_zero_iff.mp hcount
  | split args =>
      obtain ⟨first, second, rfl⟩ := List.length_eq_two.mp hcount
      have hsum : tx.spent = first + second := by simpa [Operation.deposit, Operation.payout] using hbalanced
      have hrest : tx.spent - first = second := by omega
      simp [Action.createdAmounts, hrest]
  | merge args =>
      obtain ⟨amount, rfl⟩ := List.length_eq_one_iff.mp hcount
      rw [List.sum_singleton] at hbalanced
      exact congrArg (· :: []) (by simpa [Operation.deposit, Operation.payout] using hbalanced.symm)

/-! ## Operations of a run -/

/-- What an operation of a run spent was in the tree, so it is in range. -/
theorem Reachable.spent_ranged (hreach : Reachable env w) (hfree : CollisionFree env.primitives B Q)
    (hsound : Sound env.primitives B Q w.history) (hwired : Wired B w.history) {op : Operation}
    (hop : op ∈ performed w.history) {tx : Transaction B Q.poseidon}
    (hrealizes : op.Realizes env.primitives tx) : ∀ input ∈ tx.inputs, input.1.amount < 2 ^ 64 := by
  intro input hinput
  obtain ⟨poolStx, hsteps⟩ := hreach.steps
  obtain ⟨coins, hinvariant⟩ := Invariant.run hfree hsound hwired (hsteps _ (List.Subset.refl _))
  have hnullifier : fieldBuff input.2 ∈ op.nullifiers := by
    rw [hrealizes.nullifiers]
    exact List.mem_map_of_mem hinput
  have hregistered : fieldBuff input.2 ∈ (w.state []).registry.nullifiers :=
    hreach.logInvariant.nullifiers.mem _ (List.mem_flatMap.mpr ⟨op, hop, hnullifier⟩)
  obtain ⟨coin, hcoin, hnullifies⟩ := hinvariant.tree.nullifiers _ hregistered
  have hspend := tx.spends input hinput
  have hsame : input.1 = coin := hfree.nullified_eq hspend.opened
    (hinvariant.tree.opened coin hcoin) (nullifies_of_spend hspend) hnullifies
  rw [hsame]
  exact hinvariant.tree.ranged coin hcoin

/-- Every operation of a run makes notes of the amounts that go into it. -/
theorem Reachable.performed_amounts (hreach : Reachable env w)
    (hfree : CollisionFree env.primitives B Q) (hsound : Sound env.primitives B Q w.history)
    (hwired : Wired B w.history) {op : Operation} (hop : op ∈ performed w.history) :
    (∃ tx : Transaction B Q.poseidon, op.Realizes env.primitives tx) ∧
      ∀ tx : Transaction B Q.poseidon, op.Realizes env.primitives tx →
        tx.outputs.map Coin.amount = op.action.createdAmounts tx.spent tx.share := by
  obtain ⟨version, hcompleted, hverified⟩ := hreach.logInvariant.verified _ hop
  exact ⟨hsound.transaction hfree hcompleted hverified, fun tx hrealizes =>
    hrealizes.createdAmounts (hreach.spent_ranged hfree hsound hwired hop hrealizes)⟩

/-- A call that succeeds has performed its operation. -/
theorem exec_performed {depth : Nat} {call : Call} {data : List Nat} {op : Operation}
    (h : exec env depth ctx call w = .ok (data, w')) (hcall : call.operation? = some op) :
    op ∈ performed w'.history := by
  cases depth with
  | zero => cases h
  | succ depth =>
      obtain ⟨mid, -, rfl⟩ := execCall_ok.mp h
      exact List.mem_filterMap.mpr ⟨_, List.mem_cons_self, hcall⟩

theorem Sip10Pool.checkSpendable_asset {op id : Nat}
    (h : checkSpendable token op w = .ok (id, w')) :
    ∃ asset, w.assetRegistry.getAssetIdByPrincipal token = some id ∧
      w.assetRegistry.assets.lookup id = some asset := by
  unfold checkSpendable AssetRegistry.canSpend at h
  simp only [↓bind_ok, ↓exists_read, ↓exists_unwrap, ↓exists_onRegistry,
    ↓PrivacyRegistry.exists_checkActive, ↓exists_require, pure_ok] at h
  obtain ⟨_, hid, -, -, hknown, rfl, -⟩ := h
  obtain ⟨asset, hasset⟩ := Option.isSome_iff_exists.mp hknown
  exact ⟨asset, hid, hasset⟩

/-- It was called for an asset in the directory. -/
theorem exec_asset {depth : Nat} {call : Call} {data : List Nat} {action : Action}
    (h : exec env depth ctx call w = .ok (data, w'))
    (hcall : call.operation? = some ⟨.sip10 token, action⟩) :
    ∃ id asset, w.assetRegistry.getAssetIdByPrincipal token = some id ∧
      w.assetRegistry.assets.lookup id = some asset := by
  cases depth with
  | zero => cases h
  | succ depth =>
      obtain ⟨mid, hrun, rfl⟩ := execCall_ok.mp h
      obtain ⟨inner, hdispatch, -⟩ := withinCall_ok hrun
      cases call with
      | sip10Pool poolCall =>
          cases poolCall with
          | shield contract args inclusion =>
              cases hcall
              simp only [dispatch, Sip10Pool.execute, Sip10Pool.shield, ↓bind_ok, ↓exists_read,
                ↓exists_unwrap, ↓exists_require] at hdispatch
              obtain ⟨_, _, ⟨id, hid, _, _, _, _, _, asset, hasset, -⟩, -⟩ := hdispatch
              exact ⟨id, asset, hid, hasset⟩
          | transfer contract args inclusion =>
              cases hcall
              simp only [dispatch, Sip10Pool.execute, Sip10Pool.transfer, ↓bind_ok] at hdispatch
              obtain ⟨_, _, ⟨id, _, hcheck, -⟩, -⟩ := hdispatch
              obtain ⟨asset, hasset⟩ := Sip10Pool.checkSpendable_asset hcheck
              exact ⟨id, asset, hasset⟩
          | split contract args inclusion =>
              cases hcall
              simp only [dispatch, Sip10Pool.execute, Sip10Pool.split, ↓bind_ok] at hdispatch
              obtain ⟨_, _, ⟨id, _, hcheck, -⟩, -⟩ := hdispatch
              obtain ⟨asset, hasset⟩ := Sip10Pool.checkSpendable_asset hcheck
              exact ⟨id, asset, hasset⟩
          | mergeNotes contract args inclusion =>
              cases hcall
              simp only [dispatch, Sip10Pool.execute, Sip10Pool.mergeNotes, ↓bind_ok] at hdispatch
              obtain ⟨_, _, ⟨id, _, hcheck, -⟩, -⟩ := hdispatch
              obtain ⟨asset, hasset⟩ := Sip10Pool.checkSpendable_asset hcheck
              exact ⟨id, asset, hasset⟩
          | withdraw contract args inclusion =>
              cases hcall
              simp only [dispatch, Sip10Pool.execute, Sip10Pool.withdraw, ↓bind_ok, ↓exists_read]
                at hdispatch
              obtain ⟨_, _, ⟨id, _, hcheck, -⟩, -⟩ := hdispatch
              obtain ⟨asset, hasset⟩ := Sip10Pool.checkSpendable_asset hcheck
              exact ⟨id, asset, hasset⟩
          | setOperationEnabled => cases hcall
      | privacyPool poolCall => cases poolCall <;> cases hcall
      | splitMergeManager managerCall => cases managerCall <;> cases hcall
      | _ => cases hcall

/-- Any successful operation on an asset, whoever calls it and inside whatever other
call of a run: the notes it creates are within the limits that the asset has when it
starts if and only if the shielded amount, the amount that a transfer or a merge
spends, or the two shares of a split are. -/
theorem note_limits_iff {final : World} (hreach : Reachable env final)
    (hfree : CollisionFree env.primitives B Q) (hsound : Sound env.primitives B Q final.history)
    (hwired : Wired B final.history) {depth : Nat} {call : Call} {data : List Nat}
    {action : Action} (hrun : exec env depth ctx call w = .ok (data, w'))
    (hpart : w'.history ⊆ final.history)
    (hcall : call.operation? = some ⟨.sip10 token, action⟩) :
    ∃ id asset, w.assetRegistry.getAssetIdByPrincipal token = some id ∧
      w.assetRegistry.assets.lookup id = some asset ∧
      (∃ tx : Transaction B Q.poseidon,
        Operation.Realizes env.primitives ⟨.sip10 token, action⟩ tx) ∧
      ∀ tx : Transaction B Q.poseidon,
        Operation.Realizes env.primitives ⟨.sip10 token, action⟩ tx →
        ((∀ coin ∈ tx.outputs, asset.Allows coin.amount) ↔
          ∀ amount ∈ action.createdAmounts tx.spent tx.share, asset.Allows amount) := by
  obtain ⟨id, asset, hid, hasset⟩ := exec_asset hrun hcall
  have hop : ⟨.sip10 token, action⟩ ∈ performed final.history :=
    List.filterMap_subset _ hpart (exec_performed hrun hcall)
  obtain ⟨hexists, hamounts⟩ := hreach.performed_amounts hfree hsound hwired hop
  refine ⟨id, asset, hid, hasset, hexists, fun tx hrealizes => ?_⟩
  rw [← hamounts tx hrealizes]
  exact List.forall_mem_map.symm

namespace Sample

/-- No note is to be worth less than `minNote`. -/
def floored (minNote : Nat) : World :=
  transact Sample.env 1 (sentBy owner) (.assetRegistry (.setAssetLimits 1 1 1000 minNote 0)) ready

/-- Tokens are shielded under that floor. -/
def shieldedUnder (minNote : Nat) : World :=
  transact Sample.env 2 (sentBy alice) callShieldToken (floored minNote)

theorem shieldedUnder_reachable (minNote : Nat) : Reachable Sample.env (shieldedUnder minNote) :=
  (ready_reachable.transact owner_topLevel 1 _).transact alice_topLevel 2 callShieldToken

def shieldedArgs : ShieldArgs := shieldArgs (shieldPublic tokenCoin true)

theorem callShieldToken_operation :
    callShieldToken.operation? = some ⟨.sip10 Sample.token, .shield shieldedArgs⟩ := rfl

theorem shieldedArgs_amount : (shieldedArgs.amount : Nat) = 500 := by decide

end Sample

/-- Under a floor of 500 a deposit of 500 makes a note within the limits. -/
theorem note_limits_iff_floored :
    ∃ asset, (Sample.floored 500).assetRegistry.assets.lookup 1 = some asset ∧
      asset.minNote = 500 ∧
      ∃ tx : Transaction Sample.builtins Sample.queries.poseidon,
        Operation.Realizes Sample.primitives ⟨.sip10 Sample.token, .shield Sample.shieldedArgs⟩ tx ∧
        ∀ coin ∈ tx.outputs, asset.Allows coin.amount := by
  have hok : (exec Sample.env 2 (Sample.sentBy Sample.alice) Sample.callShieldToken
      (Sample.floored 500)).isOk := by decide +kernel
  have hexpected : (Sample.shieldedUnder 500).history.all Sample.expected := by decide +kernel
  have hid : (Sample.floored 500).assetRegistry.getAssetIdByPrincipal Sample.token = some 1 := by
    decide +kernel
  have hlimits : ((Sample.floored 500).assetRegistry.assets.lookup 1).map (fun asset =>
      (asset.minNote, asset.maxNote)) = some (500, 0) := by decide +kernel
  obtain ⟨data, hrun⟩ := exec_eq_transact hok
  obtain ⟨id, asset, hid', hasset, ⟨tx, hrealizes⟩, hiff⟩ :=
    note_limits_iff (Sample.shieldedUnder_reachable 500) Sample.collisionFree
      (Sample.sound hexpected) (Sample.wired hexpected) hrun (List.Subset.refl _)
      Sample.callShieldToken_operation
  obtain rfl : id = 1 := Option.some.inj (hid'.symm.trans hid)
  rw [hasset] at hlimits
  obtain ⟨hmin, hmax⟩ := Prod.mk.inj (Option.some.inj hlimits)
  refine ⟨asset, hasset, hmin, tx, hrealizes, (hiff tx hrealizes).mpr fun amount hamount => ?_⟩
  obtain rfl := List.mem_singleton.mp hamount
  rw [Sample.shieldedArgs_amount]
  exact ⟨hmin.le, .inl hmax⟩

/-- Under a floor of 1000 a deposit of 500 is accepted all the same. -/
theorem note_below_floor :
    ¬ ∀ (env : Env) (B : Builtins) (Q : Queries) (final : World), Reachable env final →
      CollisionFree env.primitives B Q → Sound env.primitives B Q final.history →
      Wired B final.history → ∀ depth ctx call w data w' token action,
      exec env depth ctx call w = .ok (data, w') → w'.history ⊆ final.history →
      call.operation? = some ⟨.sip10 token, action⟩ → ∀ id asset,
      w.assetRegistry.getAssetIdByPrincipal token = some id →
      w.assetRegistry.assets.lookup id = some asset →
      ∀ tx : Transaction B Q.poseidon,
        Operation.Realizes env.primitives ⟨.sip10 token, action⟩ tx →
        ∀ coin ∈ tx.outputs, asset.Allows coin.amount := by
  intro halways
  have hok : (exec Sample.env 2 (Sample.sentBy Sample.alice) Sample.callShieldToken
      (Sample.floored 1000)).isOk := by decide +kernel
  have hexpected : (Sample.shieldedUnder 1000).history.all Sample.expected := by decide +kernel
  have hid : (Sample.floored 1000).assetRegistry.getAssetIdByPrincipal Sample.token = some 1 := by
    decide +kernel
  have hlimits : ((Sample.floored 1000).assetRegistry.assets.lookup 1).map Asset.minNote =
      some 1000 := by decide +kernel
  obtain ⟨data, hrun⟩ := exec_eq_transact hok
  have hreach := Sample.shieldedUnder_reachable 1000
  have hop := exec_performed hrun Sample.callShieldToken_operation
  obtain ⟨⟨tx, hrealizes⟩, hamounts⟩ := hreach.performed_amounts Sample.collisionFree
    (Sample.sound hexpected) (Sample.wired hexpected) hop
  have hcreated := hamounts tx hrealizes
  change tx.outputs.map Coin.amount = [(Sample.shieldedArgs.amount : Nat)] at hcreated
  rw [Sample.shieldedArgs_amount] at hcreated
  obtain ⟨coin, houtputs, hamount⟩ := List.map_eq_singleton_iff.mp hcreated
  obtain ⟨asset, hasset, hmin⟩ := Option.map_eq_some_iff.mp hlimits
  have hallows := halways _ _ _ _ hreach Sample.collisionFree (Sample.sound hexpected)
    (Sample.wired hexpected) _ _ _ _ _ _ _ _ hrun (List.Subset.refl _)
    Sample.callShieldToken_operation 1 asset hid hasset tx hrealizes coin
    (houtputs ▸ List.mem_singleton_self coin)
  have hfloor := hallows.1
  omega

end StxShield
