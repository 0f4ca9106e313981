import StxShield.Protocol.Presentation
import StxShield.Security.Solvency

/-!
# Double spends and replays

Every completed operation leaves its nullifiers and commitments in the
registry, which takes none of them twice.  A leaf has one coin and a coin one
nullifier, so no leaf is spent twice; and every operation has a nullifier or a
commitment, so none is repeated.
-/

namespace StxShield

open Library Circuit PrivacyRegistry

/-! ## What is consumed -/

/-- The operation spends a leaf: the transaction behind it has the leaf's coin
among its inputs, under this nullifier. -/
def Consumes (P : Primitives) (B : Builtins) (Q : Queries) (op : Operation)
    (nullifier leaf : Buff32) : Prop :=
  ∃ tx : Transaction B Q.poseidon, op.Realizes P tx ∧
    ∃ input ∈ tx.inputs, fieldBuff input.2 = nullifier ∧ leafOf B input.1 = leaf

/-- The single spends of operations: a merge has two. -/
def spends (ops : List Operation) : List (Operation × Buff32) :=
  ops.flatMap fun op => op.nullifiers.map fun nullifier => (op, nullifier)

theorem Operation.nullifiers_bound (op : Operation) : op.bound.nullifiers = op.nullifiers := by
  obtain ⟨currency, action⟩ := op
  cases action <;> rfl

theorem Operation.commitments_bound (op : Operation) : op.bound.commitments = op.commitments := by
  obtain ⟨currency, action⟩ := op
  cases action <;> rfl

/-- Every operation registers something. -/
theorem Operation.registers_something (op : Operation) :
    op.nullifiers ≠ [] ∨ op.commitments ≠ [] := by
  obtain ⟨currency, action⟩ := op
  cases action <;> simp [nullifiers, commitments]

theorem spends_snd (ops : List Operation) :
    (spends ops).map Prod.snd = ops.flatMap Operation.nullifiers := by
  simp [spends, List.map_flatMap, Function.comp_def]

/-! ## The log -/

/-- What the operations in a log registered is registered, each once. -/
structure Published (field : Operation → List Buff32) (log : List Operation)
    (registered : List Buff32) : Prop where
  nodup : (log.flatMap field).Nodup
  mem : ∀ x ∈ log.flatMap field, x ∈ registered

namespace Published

variable {field : Operation → List Buff32} {log : List Operation} {registered after : List Buff32}

theorem mono (h : Published field log registered) (hsub : registered ⊆ after) :
    Published field log after :=
  ⟨h.nodup, fun x hx => hsub (h.mem x hx)⟩

/-- One more operation whose entries are new. -/
theorem cons (h : Published field log registered) {op : Operation} (hnodup : (field op).Nodup)
    (hfresh : ∀ x ∈ field op, x ∉ registered) :
    Published field (op :: log) (registered ++ field op) where
  nodup := by
    rw [List.flatMap_cons]
    exact List.nodup_append'.mpr ⟨hnodup, h.nodup, fun x hx hold => hfresh x hx (h.mem x hold)⟩
  mem x hx := by
    rw [List.flatMap_cons] at hx
    rcases List.mem_append.mp hx with hnew | hold
    · exact List.mem_append_right _ hnew
    · exact List.mem_append_left _ (h.mem x hold)

/-- Two operations with a common entry are not both in the log. -/
theorem pairwise_ne (h : Published field log registered) :
    log.Pairwise fun op other => field op ≠ [] → field op ≠ field other := by
  refine (List.nodup_flatMap.mp h.nodup).2.imp fun hdisjoint hne hsame => ?_
  obtain ⟨x, hx⟩ := List.exists_mem_of_ne_nil _ hne
  exact hdisjoint hx (hsame ▸ hx)

end Published

variable {P : Primitives} {H : List Event} {s s' : State}

/-- The log of a run, against the registry and the history. -/
structure LogInvariant (P : Primitives) (H : List Event) (s : State) : Prop where
  nullifiers : Published Operation.nullifiers s.log s.registry.nullifiers
  commitments : Published Operation.commitments s.log s.registry.leaves
  verified : ∀ op ∈ s.log, ∃ version, Event.completed op version ∈ H ∧
    Event.proofVerified op.verifier op.proofType (P.keccak256 (op.inputs P version)) ∈ H

namespace LogInvariant

theorem deployed (poolStx : Nat) : LogInvariant P H (State.deployed poolStx) :=
  ⟨⟨List.nodup_nil, nofun⟩, ⟨List.nodup_nil, nofun⟩, nofun⟩

/-- Whoever calls what, the registry forgets nothing. -/
theorem step (h : LogInvariant P H s) (hstep : Step P H s s') : LogInvariant P H s' := by
  cases hstep with
  | begin => exact ⟨h.nullifiers, h.commitments, h.verified⟩
  | @commit p rest version hpending hcompleted hverified hregisters =>
      exact
        { nullifiers := h.nullifiers.cons hregisters.nullifiers_nodup hregisters.nullifiers_fresh
          commitments := h.commitments.cons hregisters.commitments_nodup
            hregisters.commitments_fresh
          verified := List.forall_mem_cons.mpr ⟨⟨version, hcompleted, hverified⟩, h.verified⟩ }
  | registry _ _ heffect =>
      cases heffect with
      | quiet => exact h
      | authorized _ hleaves hnullifiers =>
          exact ⟨h.nullifiers.mono hnullifiers.subset, h.commitments.mono hleaves.subset, h.verified⟩
      | root => exact ⟨h.nullifiers, h.commitments, h.verified⟩
      | allowlist => exact ⟨h.nullifiers, h.commitments, h.verified⟩
  | registerAsset => exact ⟨h.nullifiers, h.commitments, h.verified⟩
  | receive => exact ⟨h.nullifiers, h.commitments, h.verified⟩

theorem run {poolStx : Nat} (hsteps : Steps P H (State.deployed poolStx) s) :
    LogInvariant P H s := by
  induction hsteps with
  | refl => exact deployed poolStx
  | tail _ hstep ih => exact ih.step hstep

/-- Calls and completed operations are the same in another order. -/
theorem perm {log : List Operation} (h : LogInvariant P H s) (hperm : log.Perm s.log) :
    LogInvariant P H { s with log := log } where
  nullifiers := ⟨(hperm.flatMap_right _).nodup_iff.mpr h.nullifiers.nodup,
    fun x hx => h.nullifiers.mem x ((hperm.flatMap_right _).mem_iff.mp hx)⟩
  commitments := ⟨(hperm.flatMap_right _).nodup_iff.mpr h.commitments.nodup,
    fun x hx => h.commitments.mem x ((hperm.flatMap_right _).mem_iff.mp hx)⟩
  verified op hop := h.verified op (hperm.mem_iff.mp hop)

/-- No two operations of the log agree in all the arguments their statements
bind. -/
theorem bound_nodup (h : LogInvariant P H s) : (s.log.map Operation.bound).Nodup := by
  refine List.pairwise_map.mpr ((h.nullifiers.pairwise_ne.and h.commitments.pairwise_ne).imp ?_)
  rintro op other ⟨hnullifiers, hcommitments⟩ hsame
  rcases op.registers_something with hsome | hsome
  · refine hnullifiers hsome ?_
    rw [← op.nullifiers_bound, hsame, other.nullifiers_bound]
  · refine hcommitments hsome ?_
    rw [← op.commitments_bound, hsame, other.commitments_bound]

end LogInvariant

/-! ## Leaves -/

variable {B : Builtins} {Q : Queries}

/-- Every single spend of an operation that realizes a transaction consumes a
leaf. -/
theorem consumes_of_realizes {op : Operation} {tx : Transaction B Q.poseidon}
    (hrealizes : op.Realizes P tx) {nullifier : Buff32} (hmem : nullifier ∈ op.nullifiers) :
    ∃ leaf, Consumes P B Q op nullifier leaf := by
  rw [hrealizes.nullifiers] at hmem
  obtain ⟨input, hinput, rfl⟩ := List.mem_map.mp hmem
  exact ⟨leafOf B input.1, tx, hrealizes, input, hinput, rfl, rfl⟩

/-- Spends of one leaf have one nullifier. -/
theorem CollisionFree.consumes_eq (hfree : CollisionFree P B Q) {op other : Operation}
    {nullifier nullifier' leaf : Buff32} (h : Consumes P B Q op nullifier leaf)
    (h' : Consumes P B Q other nullifier' leaf) : nullifier = nullifier' := by
  obtain ⟨tx, -, input, hinput, rfl, hleaf⟩ := h
  obtain ⟨tx', -, input', hinput', rfl, hleaf'⟩ := h'
  have hspend := tx.spends input hinput
  have hspend' := tx'.spends input' hinput'
  have hcoin : input.1 = input'.1 :=
    hfree.coin_eq hspend.opened hspend'.opened (fieldBuff_injective (hleaf.trans hleaf'.symm))
  exact hfree.nullifier_eq (nullifies_of_spend hspend) (hcoin ▸ nullifies_of_spend hspend')

/-- Operations with distinct nullifiers consume no leaf twice. -/
theorem CollisionFree.consumed_once (hfree : CollisionFree P B Q) {ops : List Operation}
    (hdistinct : (ops.flatMap Operation.nullifiers).Nodup) :
    (spends ops).Pairwise fun spend other => ∀ leaf,
      Consumes P B Q spend.1 spend.2 leaf → ¬ Consumes P B Q other.1 other.2 leaf := by
  rw [← spends_snd] at hdistinct
  exact (List.pairwise_map.mp hdistinct).imp fun hne leaf h h' => hne (hfree.consumes_eq h h')

/-! ## On the chain -/

theorem Reachable.logInvariant {env : Env} {w : World} (h : Reachable env w) :
    LogInvariant env.primitives w.history { w.state [] with log := performed w.history } := by
  obtain ⟨poolStx, hsteps⟩ := h.steps
  exact (LogInvariant.run (hsteps _ (List.Subset.refl _))).perm (performed_perm h)

/-- In every reachable state, for the operations that the calls made so far
performed, whoever made them: every single spend consumes a leaf, no leaf is
consumed by two spends, and no two operations agree in all the arguments their
proofs bind. -/
theorem no_double_spend {env : Env} {w : World} (hreach : Reachable env w)
    (hfree : CollisionFree env.primitives B Q) (hsound : Sound env.primitives B Q w.history) :
    (∀ spend ∈ spends (performed w.history),
        ∃ leaf, Consumes env.primitives B Q spend.1 spend.2 leaf) ∧
      ((spends (performed w.history)).Pairwise fun spend other => ∀ leaf,
        Consumes env.primitives B Q spend.1 spend.2 leaf →
        ¬ Consumes env.primitives B Q other.1 other.2 leaf) ∧
      ((performed w.history).map Operation.bound).Nodup := by
  have hlog := hreach.logInvariant
  refine ⟨?_, hfree.consumed_once hlog.nullifiers.nodup, hlog.bound_nodup⟩
  rintro ⟨op, nullifier⟩ hspend
  obtain ⟨performed, hperformed, hmem⟩ := List.mem_flatMap.mp hspend
  obtain ⟨nullifier', hnullifier, hpair⟩ := List.mem_map.mp hmem
  cases hpair
  obtain ⟨version, hcompleted, hverified⟩ := hlog.verified _ hperformed
  obtain ⟨tx, hrealizes⟩ := hsound.transaction hfree hcompleted hverified
  exact consumes_of_realizes hrealizes hnullifier

/-- The withdrawal at the end of the sample run spends the one leaf it can. -/
theorem no_double_spend_withdrawn :
    (performed Sample.withdrawn.history).length = 3 ∧
      (spends (performed Sample.withdrawn.history)).length = 1 ∧
      ((performed Sample.withdrawn.history).map Operation.bound).Nodup :=
  ⟨by decide +kernel, by decide +kernel,
    (no_double_spend Sample.withdrawn_reachable Sample.collisionFree
      (Sample.sound Sample.withdrawn_expected)).2.2⟩

end StxShield
