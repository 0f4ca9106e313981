import StxShield.Library.NoteLedger
import StxShield.Protocol.Refinement
import StxShield.Protocol.Soundness

/-!
# The invariant of the commitment tree

Behind the registered commitments there are coins, every known root is the root
of a tree that holds nothing but such commitments, and every registered
nullifier belongs to one of the coins.  The invariant holds in every run of a
wired deployment, whatever token code does in the middle of an operation.
-/

namespace StxShield

open Library Circuit PrivacyRegistry

/-- The registry is left to the protocol's contracts: nobody else is authorised
to register anything, and the one root posted from outside is the empty tree's. -/
structure Wired (B : Builtins) (H : List Event) : Prop extends Guarded H where
  root : ∀ ctx newRoot version registered,
    Event.called ctx (.privacyRegistry (.updateRoot newRoot version)) registered ∈ H →
    newRoot = fieldBuff (emptyRoot B)

/-- The leaf a coin is registered under. -/
def leafOf (B : Builtins) (coin : Coin) : Buff32 := fieldBuff (coin.commitment B)

/-- What the registry's storage means. -/
structure TreeInvariant (B : Builtins) (Q : Queries) (s : State) (coins : List Coin) : Prop where
  leaves : s.registry.leaves = coins.map (leafOf B)
  nodup : s.registry.leaves.Nodup
  registered : s.registry.registered = s.registry.leaves.length
  opened : ∀ coin ∈ coins, Opened B Q coin
  ranged : ∀ coin ∈ coins, coin.amount < 2 ^ 64
  guarded : s.Guarded
  roots : ∀ root ∈ s.registry.roots, ∃ slots x, root = fieldBuff x ∧ TreeRoot B Q slots x ∧
    ∀ slot, slots slot = emptyLeaf ∨ fieldBuff (slots slot) ∈ s.registry.leaves
  /-- The empty tree's root was the first. -/
  posted : s.registry.roots.Nonempty → fieldBuff (emptyRoot B) ∈ s.registry.roots
  unposted : ¬ s.registry.roots.Nonempty → coins = []
  nullifiers : ∀ nullifier ∈ s.registry.nullifiers, ∃ coin ∈ coins, Nullifies B nullifier coin
  known : ∀ p ∈ s.pending, p.operation.declaredRoot ∈ s.registry.roots

variable {P : Primitives} {B : Builtins} {Q : Queries} {H : List Event} {s s' : State}
  {coins : List Coin} {p : Pending} {rest : List Pending}

/-! ## What a transaction meets in the tree -/

namespace TreeInvariant

theorem leaf_mem (h : TreeInvariant B Q s coins) {coin : Coin} :
    coin ∈ coins → leafOf B coin ∈ s.registry.leaves := fun hmem => by
  rw [h.leaves]
  exact List.mem_map_of_mem hmem

/-- An opened coin whose leaf is registered is one of the coins. -/
theorem mem_of_leaf (hfree : CollisionFree P B Q) (h : TreeInvariant B Q s coins) {coin : Coin}
    (hopened : Opened B Q coin) (hleaf : leafOf B coin ∈ s.registry.leaves) : coin ∈ coins := by
  rw [h.leaves] at hleaf
  obtain ⟨other, hother, hsame⟩ := List.mem_map.mp hleaf
  have heq := hfree.coin_eq hopened (h.opened other hother) (fieldBuff_injective hsame.symm)
  exact heq ▸ hother

theorem coins_nodup (h : TreeInvariant B Q s coins) : coins.Nodup :=
  List.Nodup.of_map (leafOf B) (h.leaves ▸ h.nodup)

/-- A coin spent under a known root is one of the coins. -/
theorem spend_mem (hfree : CollisionFree P B Q) (h : TreeInvariant B Q s coins) {coin : Coin}
    {nullifier root : Fr} (hroot : fieldBuff root ∈ s.registry.roots)
    (hspend : Spend B Q.poseidon coin nullifier root) : coin ∈ coins := by
  obtain ⟨slots, x, heq, htree, hslots⟩ := h.roots _ hroot
  obtain rfl := fieldBuff_injective heq
  obtain ⟨slot, hslot⟩ := hfree.spend_slot htree hspend
  have hopened : Opened B Q coin := hspend.opened
  rcases hslots slot with hempty | hleaf
  · exact absurd (hslot.symm.trans hempty) (hfree.commitment_ne_zero hopened)
  · rw [hslot] at hleaf
    exact h.mem_of_leaf hfree hopened hleaf

/-- All inputs of a pending operation's transaction are. -/
theorem inputs_mem (hfree : CollisionFree P B Q) (h : TreeInvariant B Q s coins)
    {tx : Transaction B Q.poseidon} (hrealizes : p.operation.Realizes P tx)
    (hpending : p ∈ s.pending) : ∀ input ∈ tx.inputs, input.1 ∈ coins := fun input hinput => by
  have hroot := h.known p hpending
  rw [hrealizes.root] at hroot
  exact h.spend_mem hfree hroot (tx.spends input hinput)

theorem outputs_opened {tx : Transaction B Q.poseidon} : ∀ coin ∈ tx.outputs, Opened B Q coin :=
  tx.opened

/-- None of its outputs is. -/
theorem outputs_not_mem (h : TreeInvariant B Q s coins) {tx : Transaction B Q.poseidon}
    (hrealizes : p.operation.Realizes P tx) (hregisters : s.Registers p) :
    ∀ coin ∈ tx.outputs, coin ∉ coins := fun coin hcoin hmem => by
  refine hregisters.commitments_fresh (leafOf B coin) ?_ (h.leaf_mem hmem)
  rw [hrealizes.commitments]
  exact List.mem_map_of_mem hcoin

/-- A coin that is not in the tree has not been spent. -/
theorem not_spent (hfree : CollisionFree P B Q) (h : TreeInvariant B Q s coins) {coin : Coin}
    (hopened : Opened B Q coin) (hnew : coin ∉ coins) :
    ∀ nullifier ∈ s.registry.nullifiers, ¬ Nullifies B nullifier coin :=
  fun nullifier hmem hnullifies => by
    obtain ⟨other, hother, hsame⟩ := h.nullifiers nullifier hmem
    have heq := hfree.nullified_eq hopened (h.opened other hother) hnullifies hsame
    exact hnew (heq ▸ hother)

/-! ## Commits -/

theorem commit_leaves (h : TreeInvariant B Q s coins) {tx : Transaction B Q.poseidon}
    (hrealizes : p.operation.Realizes P tx) :
    (s.commit p rest).registry.leaves = (coins ++ tx.outputs).map (leafOf B) := by
  rw [List.map_append, ← h.leaves]
  exact congrArg (s.registry.leaves ++ ·) hrealizes.commitments

/-- The roots after an operation: an operation that appends adds one. -/
theorem mem_commit_roots {root : Buff32} :
    root ∈ (s.commit p rest).registry.roots ↔
      root ∈ s.registry.roots ∨ ∃ index, p.operation.extension = some (root, index) := by
  simp only [State.commit, RegistryLedger.commit]
  cases hext : p.operation.extension with
  | none => simp
  | some ext =>
      obtain ⟨newRoot, index⟩ := ext
      simp [Set.mem_insert_iff, eq_comm, or_comm]

/-- The new root is the root of the declared tree with the outputs written. -/
theorem appended_root (hfree : CollisionFree P B Q) {tx : Transaction B Q.poseidon}
    (hrealizes : p.operation.Realizes P tx) {slots : Nat → Fr} (htree : TreeRoot B Q slots tx.root)
    {newRoot : Buff32} {index : Nat} (hext : p.operation.extension = some (newRoot, index)) :
    ∃ x, newRoot = fieldBuff x ∧
      TreeRoot B Q (MerkleTree.writeFrom slots index (tx.outputs.map (Coin.commitment B))) x := by
  have happended := tx.appended
  rw [hrealizes.extension] at hext
  cases htx : tx.extension with
  | none =>
      rw [htx] at hext
      cases hext
  | some ext =>
      obtain ⟨index', x⟩ := ext
      rw [htx] at hext happended
      cases hext
      exact ⟨x, rfl, hfree.appends htree happended⟩

theorem commit_tree (hfree : CollisionFree P B Q) (h : TreeInvariant B Q s coins)
    {tx : Transaction B Q.poseidon} (hrealizes : p.operation.Realizes P tx)
    (hpending : s.pending = p :: rest) (hregisters : s.Registers p) :
    TreeInvariant B Q (s.commit p rest) (coins ++ tx.outputs) := by
  have hmem : p ∈ s.pending := hpending ▸ List.mem_cons_self
  have hleaves : (s.commit p rest).registry.leaves = (coins ++ tx.outputs).map (leafOf B) :=
    h.commit_leaves hrealizes
  have hgrown : ∀ leaf ∈ s.registry.leaves, leaf ∈ (s.commit p rest).registry.leaves :=
    fun leaf hleaf => List.mem_append_left _ hleaf
  refine
    { leaves := hleaves
      nodup := ?_
      registered := ?_
      opened := ?_
      ranged := ?_
      guarded := h.guarded
      roots := ?_
      posted := fun _ => mem_commit_roots.mpr (.inl (h.posted ⟨_, h.known p hmem⟩))
      unposted := fun hnone => absurd ⟨_, mem_commit_roots.mpr (.inl (h.known p hmem))⟩ hnone
      nullifiers := ?_
      known := ?_ }
  · exact List.nodup_append'.mpr ⟨h.nodup, hregisters.commitments_nodup,
      fun leaf hleaf hnew => hregisters.commitments_fresh leaf hnew hleaf⟩
  · change s.registry.registered + _ = (s.registry.leaves ++ p.operation.commitments).length
    rw [h.registered, List.length_append]
  · exact List.forall_mem_append.mpr ⟨h.opened, tx.opened⟩
  · exact List.forall_mem_append.mpr ⟨h.ranged, tx.ranged⟩
  · intro root hroot
    rcases mem_commit_roots.mp hroot with hold | ⟨index, hext⟩
    · obtain ⟨slots, x, heq, htree, hslots⟩ := h.roots root hold
      exact ⟨slots, x, heq, htree, fun slot => (hslots slot).imp_right (hgrown _)⟩
    · obtain ⟨slots, x, heq, htree, hslots⟩ := h.roots _ (h.known p hmem)
      rw [hrealizes.root] at heq
      obtain rfl := fieldBuff_injective heq
      obtain ⟨x, rfl, hnew⟩ := appended_root hfree hrealizes htree hext
      refine ⟨_, x, rfl, hnew, fun slot => ?_⟩
      rcases MerkleTree.writeFrom_eq_or_mem slots index (tx.outputs.map (Coin.commitment B)) slot
        with hsame | hwritten
      · rw [hsame]
        exact (hslots slot).imp_right (hgrown _)
      · right
        obtain ⟨coin, hcoin, hleaf⟩ := List.mem_map.mp hwritten
        rw [hleaves, ← hleaf]
        exact List.mem_map_of_mem (f := leafOf B) (List.mem_append_right _ hcoin)
  · intro nullifier hnullifier
    rcases List.mem_append.mp hnullifier with hold | hnew
    · obtain ⟨coin, hcoin, hnullifies⟩ := h.nullifiers nullifier hold
      exact ⟨coin, List.mem_append_left _ hcoin, hnullifies⟩
    · rw [hrealizes.nullifiers] at hnew
      obtain ⟨input, hinput, rfl⟩ := List.mem_map.mp hnew
      exact ⟨input.1, List.mem_append_left _ (h.inputs_mem hfree hrealizes hmem input hinput),
        nullifies_of_spend (tx.spends input hinput)⟩
  · intro other hother
    refine mem_commit_roots.mpr (.inl (h.known other ?_))
    rw [hpending]
    exact List.mem_cons_of_mem _ hother

/-! ## Runs -/

theorem deployed (poolStx : Nat) : TreeInvariant B Q (State.deployed poolStx) [] where
  leaves := rfl
  nodup := List.nodup_nil
  registered := rfl
  opened := nofun
  ranged := nofun
  guarded := nofun
  roots := nofun
  posted := nofun
  unposted _ := rfl
  nullifiers := nofun
  known := nofun

/-- Registry calls from outside can do nothing but post the first root and
change the allowlist. -/
theorem registry_call (hfree : CollisionFree P B Q) (hwired : Wired B H)
    (h : TreeInvariant B Q s coins) {ctx : Ctx} {call : PrivacyRegistry.Call} {registered : Nat}
    {after : RegistryLedger} (hcaller : ctx.contractCaller.isProtocol = false)
    (hcalled : Event.called ctx (.privacyRegistry call) registered ∈ H)
    (heffect : CallEffect ctx.contractCaller call s.registry after) :
    TreeInvariant B Q { s with registry := after } coins := by
  have hstep : Step P H s { s with registry := after } := .registry hcaller hcalled heffect
  have hguarded := hstep.guarded hwired.toGuarded h.guarded
  cases heffect with
  | quiet => exact h
  | authorized hauth =>
      rw [h.guarded _ hauth] at hcaller
      cases hcaller
  | @root _ newRoot version hfresh =>
      obtain rfl := hwired.root _ _ _ _ hcalled
      have hnone : ¬ s.registry.roots.Nonempty := fun hposted => hfresh (h.posted hposted)
      refine
        { h with
          roots := fun root hroot => ?_
          posted := fun _ => Set.mem_insert _ _
          unposted := fun hposted => absurd ⟨_, Set.mem_insert _ _⟩ hposted
          known := fun p hp => Set.mem_insert_of_mem _ (h.known p hp) }
      rcases hroot with rfl | hold
      · exact ⟨_, _, rfl, hfree.emptyRoot, fun _ => .inl rfl⟩
      · exact absurd ⟨root, hold⟩ hnone
  | allowlist => exact { h with guarded := hguarded }

end TreeInvariant

end StxShield
