import StxShield.Security.CommitmentTree
import StxShield.Security.DoubleSpend

/-!
# Token code in the middle of an operation

A token may begin and finish other operations while one of its own is pending.
Totals and nullifiers survive that whatever it does.  The tree survives it when
nothing was appended in between: an operation that was overtaken posts a root
that leaves out what overtook it.
-/

namespace StxShield

open Library Circuit PrivacyRegistry

/-- A successful operation is among those performed. -/
theorem mem_performed_of_exec {env : Env} {depth : Nat} {ctx : Ctx} {call : Call} {w w' : World}
    {data : List Nat} {op : Operation} (h : exec env depth ctx call w = .ok (data, w'))
    (hcall : call.operation? = some op) : op ∈ performed w'.history := by
  cases depth with
  | zero => simp [exec] at h
  | succ depth =>
      obtain ⟨mid, -, rfl⟩ := execCall_ok.mp h
      exact List.mem_filterMap.mpr ⟨_, List.mem_cons_self, hcall⟩

/-- Once an operation was performed there are coins. -/
theorem coins_ne_nil {P : Primitives} {B : Builtins} {Q : Queries} {H : List Event} {s : State}
    {coins : List Coin} (htree : TreeInvariant B Q s coins) (hlog : LogInvariant P H s)
    {op : Operation} (hop : op ∈ s.log) : coins ≠ [] := by
  rintro rfl
  rcases op.registers_something with hsome | hsome
  · obtain ⟨nullifier, hnullifier⟩ := List.exists_mem_of_ne_nil _ hsome
    obtain ⟨coin, hcoin, -⟩ := htree.nullifiers nullifier
      (hlog.nullifiers.mem _ (List.mem_flatMap.mpr ⟨op, hop, hnullifier⟩))
    cases hcoin
  · obtain ⟨commitment, hcommitment⟩ := List.exists_mem_of_ne_nil _ hsome
    have hleaf : commitment ∈ s.registry.leaves :=
      hlog.commitments.mem _ (List.mem_flatMap.mpr ⟨op, hop, hcommitment⟩)
    rw [htree.leaves] at hleaf
    cases hleaf

/-- After a SIP-10 operation, whatever its token did in the middle: if every
operation so far, the token's included, was called with the leaf index that was
free then, the current root is the root of the registered commitments.  The
totals are those of the unspent coins and no leaf was spent twice. -/
theorem shared_tree_after_operation {env : Env} {w w' : World} (hreach : Reachable env w)
    {ctx : Ctx} (hctx : ctx.TopLevel) (depth : Nat) {call : Sip10Pool.Call} {op : Operation}
    (hcall : Call.operation? (.sip10Pool call) = some op) {data : List Nat}
    (hrun : exec env depth ctx (.sip10Pool call) w = .ok (data, w')) {B : Builtins} {Q : Queries}
    (hfree : CollisionFree env.primitives B Q) (hsound : Sound env.primitives B Q w'.history)
    (hwired : Wired B w'.history) (hpunctual : Punctual w'.history) :
    ∃ coins : List Coin,
      w'.registry.leaves = coins.map (leafOf B) ∧
      w'.registry.currentRoot.root = fieldBuff (treeRoot B (coins.map (Coin.commitment B))) ∧
      unspentValue B none w'.registry.ledger.nullifiers coins =
        w'.registry.protocolStatistics.totalShieldedStx ∧
      (∀ token assetUid, w'.assetRegistry.getAssetIdByPrincipal token = some assetUid →
        unspentValue B (some (fePrincipal env.primitives token)) w'.registry.ledger.nullifiers
          coins = w'.sip10Pool.getShieldedTotal assetUid) ∧
      (spends (performed w'.history)).Pairwise fun spend other => ∀ leaf,
        Consumes env.primitives B Q spend.1 spend.2 leaf →
        ¬ Consumes env.primitives B Q other.1 other.2 leaf := by
  have hafter : transact env depth ctx (.sip10Pool call) w = w' := by
    unfold transact
    rw [hrun]
  have hreach' : Reachable env w' := hafter ▸ hreach.transact hctx depth (.sip10Pool call)
  obtain ⟨poolStx, hsteps⟩ := hreach'.steps
  have hsteps' := hsteps _ (List.Subset.refl _)
  obtain ⟨coins, h⟩ := Invariant.run hfree hsound hwired hsteps'
  have hroot := RootInvariant.run hfree hsound hwired hpunctual hsteps'
  have hlog := hreach'.logInvariant
  have hop : op ∈ performed w'.history := mem_performed_of_exec hrun hcall
  have hcoins : coins ≠ [] :=
    coins_ne_nil { h.tree with : TreeInvariant B Q { w'.state [] with log := performed w'.history }
      coins } hlog hop
  have hposted : (w'.state []).registry.roots.Nonempty :=
    not_not.mp fun hnone => hcoins (h.tree.unposted hnone)
  obtain ⟨leaves, x, hleaves, hcurrent, htree⟩ := hroot.current hposted
  have hsame : leaves = coins.map (Coin.commitment B) := by
    refine List.map_injective_iff.mpr fieldBuff_injective (hleaves.symm.trans ?_)
    rw [h.tree.leaves, List.map_map]
    rfl
  subst hsame
  exact ⟨coins, h.tree.leaves, hcurrent.trans (congrArg fieldBuff htree.root_eq.symm),
    h.solvent.stx, h.solvent.sip10, hfree.consumed_once hlog.nullifiers.nodup⟩

/-! ## Sample runs -/

namespace Sample

def undisturbed : World := transact env 2 (sentBy alice) callShieldTokenFirst switchedOff

theorem undisturbed_run :
    ∃ data, exec env 2 (sentBy alice) callShieldTokenFirst switchedOff = .ok (data, undisturbed) :=
  exec_eq_transact (by decide +kernel)

theorem undisturbed_expected : undisturbed.history.all expected := by decide +kernel

theorem undisturbed_punctual : undisturbed.history.all Event.punctual := by decide +kernel

theorem interleaved_run :
    ∃ data, exec env 2 (sentBy alice) callShieldToken ready = .ok (data, interleaved) :=
  exec_eq_transact (by decide +kernel)

end Sample

/-- The token's shield when shielding STX is switched off. -/
theorem shared_tree_after_undisturbed :
    ∃ coins : List Coin, Sample.undisturbed.registry.leaves = coins.map (leafOf Sample.builtins) ∧
      Sample.undisturbed.registry.currentRoot.root =
        fieldBuff (treeRoot Sample.builtins (coins.map (Coin.commitment Sample.builtins))) := by
  obtain ⟨data, hrun⟩ := Sample.undisturbed_run
  obtain ⟨coins, hleaves, hroot, -⟩ := shared_tree_after_operation Sample.switchedOff_reachable
    Sample.alice_topLevel 2 rfl hrun Sample.collisionFree (Sample.sound Sample.undisturbed_expected)
    (Sample.wired Sample.undisturbed_expected) (punctual_of_all Sample.undisturbed_punctual)
  exact ⟨coins, hleaves, hroot⟩

/-- The token's shield when the token's own call succeeds. -/
theorem shared_tree_after_interleaved :
    Reachable Sample.env Sample.ready ∧
      (∃ data, exec Sample.env 2 (Sample.sentBy Sample.alice) Sample.callShieldToken Sample.ready =
        .ok (data, Sample.interleaved)) ∧
      CollisionFree Sample.env.primitives Sample.builtins Sample.queries ∧
      Sound Sample.env.primitives Sample.builtins Sample.queries Sample.interleaved.history ∧
      Wired Sample.builtins Sample.interleaved.history ∧
      ¬ ∃ coins : List Coin,
        Sample.interleaved.registry.leaves = coins.map (leafOf Sample.builtins) ∧
        Sample.interleaved.registry.currentRoot.root =
          fieldBuff (treeRoot Sample.builtins (coins.map (Coin.commitment Sample.builtins))) := by
  refine ⟨Sample.ready_reachable, Sample.interleaved_run, Sample.collisionFree,
    Sample.sound Sample.interleaved_expected, Sample.wired Sample.interleaved_expected, ?_⟩
  rintro ⟨coins, hleaves, hroot⟩
  refine Sample.interleaved_root ⟨_, hleaves.trans ?_, hroot⟩
  rw [List.map_map]
  rfl

end StxShield
