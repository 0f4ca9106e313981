import StxShield.Protocol.Invariant

/-!
# Shielded totals and unspent coins

The totals the contracts keep are the values of the unspent coins, kind by
kind.  Nobody can see which coins are unspent; the totals are right because
every operation's transaction balances.
-/

namespace StxShield

open Library Circuit PrivacyRegistry

/-- What a coin counts for in the total of one kind: the field its commitment
binds, or none for STX. -/
def value (kind : Option Bytes) (coin : Coin) : Nat :=
  if coin.asset.map encode = kind then coin.amount else 0

/-- The value of the coins of one kind that no registered nullifier belongs to. -/
noncomputable def unspentValue (B : Builtins) (kind : Option Bytes) (nullifiers : List Buff32)
    (coins : List Coin) : Nat :=
  NoteLedger.total (Nullifies B) (value kind) nullifiers coins

/-- The totals are those of the unspent coins. -/
structure Solvent (P : Primitives) (B : Builtins) (s : State) (coins : List Coin) : Prop where
  stx : unspentValue B none s.registry.nullifiers coins = s.registry.totalShieldedStx
  sip10 : ∀ token assetUid, s.assets.idOf token = some assetUid →
    unspentValue B (some (fePrincipal P token)) s.registry.nullifiers coins =
      s.shieldedTotal assetUid

/-- Every coin's asset is registered, and no asset is counted before it is. -/
structure AssetInvariant (P : Primitives) (Q : Queries) (s : State) (coins : List Coin) :
    Prop where
  consistent : s.assets.Consistent
  principals : ∀ token assetUid, s.assets.idOf token = some assetUid → token ∈ Q.principals
  kinds : ∀ coin ∈ coins, ∀ assetId, coin.asset = some assetId → ∃ token assetUid,
    s.assets.idOf token = some assetUid ∧ encode assetId = fePrincipal P token
  unassigned : ∀ assetUid, s.assets.nextId ≤ assetUid → s.shieldedTotal assetUid = 0
  pending : ∀ p ∈ s.pending, ∀ token, p.operation.currency = .sip10 token →
    s.assets.idOf token = some p.assetUid

variable {P : Primitives} {B : Builtins} {Q : Queries} {H : List Event} {s s' : State}
  {coins : List Coin} {p : Pending} {rest : List Pending}

/-! ## The value of a transaction -/

theorem sum_value {tx : Transaction B Q.poseidon} {kind : Option Bytes} {list : List Coin}
    (h : ∀ coin ∈ list, coin.asset = tx.asset) :
    (list.map (value kind)).sum =
      if tx.asset.map encode = kind then (list.map Coin.amount).sum else 0 := by
  induction list with
  | nil => simp
  | cons coin list ih =>
      have hcoin := h coin List.mem_cons_self
      have hrest := ih fun other hother => h other (List.mem_cons_of_mem _ hother)
      simp only [List.map_cons, List.sum_cons, hrest, value, hcoin]
      split <;> rfl

/-- What the inputs are worth of a kind. -/
theorem sum_inputs_value {tx : Transaction B Q.poseidon} (hrealizes : p.operation.Realizes P tx)
    (kind : Option Bytes) :
    (tx.inputs.map fun input => value kind input.1).sum =
      if p.operation.currency.field? P = kind then
        (tx.inputs.map fun input => input.1.amount).sum
      else 0 := by
  have hasset : ∀ coin ∈ tx.inputs.map Prod.fst, coin.asset = tx.asset := by
    simpa using fun coin nullifier hinput => tx.inputs_asset (coin, nullifier) hinput
  have hsum : ((tx.inputs.map Prod.fst).map (value kind)).sum =
      if tx.asset.map encode = kind then ((tx.inputs.map Prod.fst).map Coin.amount).sum else 0 :=
    sum_value hasset
  rw [hrealizes.asset] at hsum
  simpa [List.map_map, Function.comp_def] using hsum

/-- Nullifiers that are registered take the inputs' value away. -/
theorem unspentValue_publish (hfree : CollisionFree P B Q) (h : TreeInvariant B Q s coins)
    {tx : Transaction B Q.poseidon} (hrealizes : p.operation.Realizes P tx)
    (hpending : p ∈ s.pending)
    (hfresh : ∀ nullifier ∈ p.operation.nullifiers, nullifier ∉ s.registry.nullifiers)
    (hdistinct : p.operation.nullifiers.Nodup) (kind : Option Bytes) :
    unspentValue B kind (s.registry.nullifiers ++ p.operation.nullifiers) coins +
        (tx.inputs.map fun input => value kind input.1).sum =
      unspentValue B kind s.registry.nullifiers coins := by
  have hinputs := h.inputs_mem hfree hrealizes hpending
  let spends : List (Coin × Buff32) := tx.inputs.map fun input => (input.1, fieldBuff input.2)
  have htags : spends.map Prod.snd = p.operation.nullifiers := by
    rw [hrealizes.nullifiers, List.map_map]
    rfl
  have hspends : ∀ spend ∈ spends, spend.1 ∈ coins ∧ Nullifies B spend.2 spend.1 := by
    intro spend hspend
    obtain ⟨input, hinput, rfl⟩ := List.mem_map.mp hspend
    exact ⟨hinputs input hinput, nullifies_of_spend (tx.spends input hinput)⟩
  have hmem : ∀ spend ∈ spends, spend.2 ∈ p.operation.nullifiers := fun spend hspend =>
    htags ▸ List.mem_map_of_mem hspend
  have hpublish : NoteLedger.total (Nullifies B) (value kind)
        (s.registry.nullifiers ++ spends.map Prod.snd) coins +
        (spends.map fun spend => value kind spend.1).sum =
      NoteLedger.total (Nullifies B) (value kind) s.registry.nullifiers coins :=
    NoteLedger.total_publish_all h.coins_nodup
      (fun spend hspend other hother hnullifies =>
        hfree.nullified_eq (h.opened other hother) (h.opened _ (hspends spend hspend).1)
          hnullifies (hspends spend hspend).2)
      (fun spend hspend tag hnullifies => hfree.nullifier_eq hnullifies (hspends spend hspend).2)
      (fun spend hspend => (hspends spend hspend).1)
      (fun spend hspend => (hspends spend hspend).2)
      (fun spend hspend => hfresh _ (hmem spend hspend)) (htags ▸ hdistinct)
  have hvalues : (spends.map fun spend => value kind spend.1) =
      tx.inputs.map fun input => value kind input.1 := by
    rw [List.map_map]
    rfl
  rw [htags, hvalues] at hpublish
  exact hpublish

/-- The unspent value of a kind changes by what the transaction creates and
spends of it. -/
theorem unspentValue_commit (hfree : CollisionFree P B Q) (h : TreeInvariant B Q s coins)
    {tx : Transaction B Q.poseidon} (hrealizes : p.operation.Realizes P tx)
    (hpending : p ∈ s.pending) (hregisters : s.Registers p) (kind : Option Bytes) :
    unspentValue B kind (s.registry.nullifiers ++ p.operation.nullifiers) (coins ++ tx.outputs) +
        (tx.inputs.map fun input => value kind input.1).sum =
      unspentValue B kind s.registry.nullifiers coins + (tx.outputs.map (value kind)).sum := by
  have hinputs := h.inputs_mem hfree hrealizes hpending
  have hnew := h.outputs_not_mem hrealizes hregisters
  -- outputs are spent neither by what was registered nor by what is now
  have hunspent : ∀ coin ∈ tx.outputs,
      ¬ NoteLedger.Spent (Nullifies B) (s.registry.nullifiers ++ p.operation.nullifiers) coin := by
    rintro coin hcoin ⟨nullifier, hnullifier, hnullifies⟩
    have hopened := TreeInvariant.outputs_opened coin hcoin
    rcases List.mem_append.mp hnullifier with hold | hnow
    · exact h.not_spent hfree hopened (hnew coin hcoin) nullifier hold hnullifies
    · rw [hrealizes.nullifiers] at hnow
      obtain ⟨input, hinput, rfl⟩ := List.mem_map.mp hnow
      have hspent := hinputs input hinput
      have heq := hfree.nullified_eq hopened (h.opened _ hspent) hnullifies
        (nullifies_of_spend (tx.spends input hinput))
      exact hnew coin hcoin (heq ▸ hspent)
  have hpublish := unspentValue_publish hfree h hrealizes hpending hregisters.nullifiers_fresh
    hregisters.nullifiers_nodup kind
  unfold unspentValue at hpublish ⊢
  rw [NoteLedger.total_append hunspent]
  omega

/-- For the kind of the operation that is the deposit less the payout, for
every other kind nothing. -/
theorem unspentValue_balanced (hfree : CollisionFree P B Q) (h : TreeInvariant B Q s coins)
    {tx : Transaction B Q.poseidon} (hrealizes : p.operation.Realizes P tx)
    (hpending : p ∈ s.pending) (hregisters : s.Registers p) (kind : Option Bytes) :
    unspentValue B kind (s.registry.nullifiers ++ p.operation.nullifiers) (coins ++ tx.outputs) +
        (if p.operation.currency.field? P = kind then p.operation.payout else 0) =
      unspentValue B kind s.registry.nullifiers coins +
        (if p.operation.currency.field? P = kind then p.operation.deposit else 0) := by
  have hcommit := unspentValue_commit hfree h hrealizes hpending hregisters kind
  have hinputs := h.inputs_mem hfree hrealizes hpending
  have hbalanced := tx.balanced fun input hinput => h.ranged _ (hinputs input hinput)
  rw [sum_inputs_value hrealizes, sum_value tx.outputs_asset, hrealizes.asset] at hcommit
  rw [← hrealizes.deposit, ← hrealizes.payout] at hbalanced
  split at hcommit
  case isTrue heq =>
    rw [if_pos heq, if_pos heq]
    omega
  case isFalse hne =>
    rw [if_neg hne, if_neg hne]
    omega

/-! ## Assets -/

namespace AssetInvariant

theorem deployed (poolStx : Nat) : AssetInvariant P Q (State.deployed poolStx) [] where
  consistent := ⟨nofun, nofun⟩
  principals := nofun
  kinds := nofun
  unassigned _ _ := rfl
  pending := nofun

/-- The total of an asset after an operation. -/
theorem shieldedTotal_of_ne (h : AssetInvariant P Q s coins) (hpending : p ∈ s.pending)
    {token : Principal} {assetUid : Nat} (hasset : s.assets.idOf token = some assetUid)
    (hne : p.operation.currency ≠ .sip10 token) :
    p.shieldedTotal s.shieldedTotal assetUid = s.shieldedTotal assetUid := by
  unfold Pending.shieldedTotal
  cases hcurrency : p.operation.currency with
  | stx => rfl
  | sip10 other =>
      have hother := h.pending p hpending other hcurrency
      have huid : assetUid ≠ p.assetUid := by
        rintro rfl
        exact hne (hcurrency.trans (h.consistent.injective hother hasset ▸ rfl))
      exact Function.update_of_ne huid _ _

theorem shieldedTotal_self {token : Principal} {assetUid : Nat}
    (h : AssetInvariant P Q s coins) (hpending : p ∈ s.pending)
    (hasset : s.assets.idOf token = some assetUid) (hcurrency : p.operation.currency = .sip10 token) :
    p.shieldedTotal s.shieldedTotal assetUid =
      s.shieldedTotal assetUid + p.operation.deposit - p.operation.payout := by
  have huid : p.assetUid = assetUid :=
    Option.some.inj ((h.pending p hpending token hcurrency).symm.trans hasset)
  simp [Pending.shieldedTotal, hcurrency, huid]

/-- A field is the encoding of one registered token at most. -/
theorem field_eq_iff (hfree : CollisionFree P B Q) (h : AssetInvariant P Q s coins)
    (hpending : p ∈ s.pending) {token : Principal} {assetUid : Nat}
    (hasset : s.assets.idOf token = some assetUid) :
    p.operation.currency.field? P = some (fePrincipal P token) ↔
      p.operation.currency = .sip10 token := by
  constructor
  · intro hfield
    cases hcurrency : p.operation.currency with
    | stx =>
        rw [hcurrency] at hfield
        cases hfield
    | sip10 other =>
        rw [hcurrency] at hfield
        have hsame : fePrincipal P other = fePrincipal P token := Option.some.inj hfield
        have hother := h.pending p hpending other hcurrency
        rw [hfree.principals (h.principals _ _ hother) (h.principals _ _ hasset) hsame]
  · intro hcurrency
    rw [hcurrency]
    rfl

theorem commit (h : AssetInvariant P Q s coins) {tx : Transaction B Q.poseidon}
    (hrealizes : p.operation.Realizes P tx) (hpending : s.pending = p :: rest) :
    AssetInvariant P Q (s.commit p rest) (coins ++ tx.outputs) where
  consistent := h.consistent
  principals := h.principals
  kinds coin hcoin assetId hasset := by
    rcases List.mem_append.mp hcoin with hold | hnew
    · exact h.kinds coin hold assetId hasset
    · have hfield := hrealizes.asset
      rw [← tx.outputs_asset coin hnew, hasset, Option.map_some] at hfield
      cases hcurrency : p.operation.currency with
      | stx =>
          rw [hcurrency] at hfield
          cases hfield
      | sip10 token =>
          rw [hcurrency] at hfield
          have hmem : p ∈ s.pending := hpending ▸ List.mem_cons_self
          exact ⟨token, p.assetUid, h.pending p hmem token hcurrency, Option.some.inj hfield⟩
  unassigned assetUid huid := by
    have hzero := h.unassigned assetUid huid
    change p.shieldedTotal s.shieldedTotal assetUid = 0
    unfold Pending.shieldedTotal
    cases hcurrency : p.operation.currency with
    | stx => exact hzero
    | sip10 token =>
        have hmem : p ∈ s.pending := hpending ▸ List.mem_cons_self
        have hlt := h.consistent.lt _ _ (h.pending p hmem token hcurrency)
        have hne : assetUid ≠ p.assetUid := by
          have hnext : s.assets.nextId ≤ assetUid := huid
          omega
        exact (Function.update_of_ne hne _ _).trans hzero
  pending other hother := h.pending other (hpending ▸ List.mem_cons_of_mem _ hother)

/-- A new asset gets the next id. -/
theorem registerAsset (h : AssetInvariant P Q s coins) {token : Principal}
    (hfresh : s.assets.idOf token = none) (hasked : token ∈ Q.principals) :
    AssetInvariant P Q { s with assets := s.assets.register token } coins where
  consistent := h.consistent.register token
  principals other assetUid hother := by
    rcases AssetTable.register_cases hother with ⟨rfl, -⟩ | ⟨-, hold⟩
    · exact hasked
    · exact h.principals other assetUid hold
  kinds coin hcoin assetId hasset := by
    obtain ⟨other, assetUid, hother, hfield⟩ := h.kinds coin hcoin assetId hasset
    exact ⟨other, assetUid, AssetTable.register_idOf hfresh hother, hfield⟩
  unassigned assetUid huid := h.unassigned assetUid (Nat.le_of_succ_le huid)
  pending p hp other hcurrency := AssetTable.register_idOf hfresh (h.pending p hp other hcurrency)

end AssetInvariant

/-! ## Steps and runs -/

theorem solvent_commit (hfree : CollisionFree P B Q) (htree : TreeInvariant B Q s coins)
    (hassets : AssetInvariant P Q s coins) (h : Solvent P B s coins)
    {tx : Transaction B Q.poseidon} (hrealizes : p.operation.Realizes P tx)
    (hpending : p ∈ s.pending) (hregisters : s.Registers p) :
    Solvent P B (s.commit p rest) (coins ++ tx.outputs) where
  stx := by
    have hbalanced := unspentValue_balanced hfree htree hrealizes hpending hregisters none
    rw [h.stx] at hbalanced
    change unspentValue B none (s.registry.nullifiers ++ p.operation.nullifiers)
      (coins ++ tx.outputs) = (s.registry.commit p.operation).totalShieldedStx
    unfold RegistryLedger.commit
    cases hcurrency : p.operation.currency with
    | stx =>
        simp only [hcurrency, Currency.field?, ↓reduceIte] at hbalanced
        exact Nat.eq_sub_of_add_eq hbalanced
    | sip10 token =>
        simpa only [hcurrency, Currency.field?, reduceCtorEq, ↓reduceIte, Nat.add_zero]
          using hbalanced
  sip10 token assetUid hasset := by
    have hbalanced := unspentValue_balanced hfree htree hrealizes hpending hregisters
      (some (fePrincipal P token))
    rw [h.sip10 token assetUid hasset] at hbalanced
    change unspentValue B (some (fePrincipal P token))
      (s.registry.nullifiers ++ p.operation.nullifiers) (coins ++ tx.outputs) =
      p.shieldedTotal s.shieldedTotal assetUid
    by_cases hcurrency : p.operation.currency = .sip10 token
    · have hfield := (hassets.field_eq_iff hfree hpending hasset).mpr hcurrency
      rw [if_pos hfield, if_pos hfield] at hbalanced
      rw [hassets.shieldedTotal_self hpending hasset hcurrency]
      exact Nat.eq_sub_of_add_eq hbalanced
    · have hfield := mt (hassets.field_eq_iff hfree hpending hasset).mp hcurrency
      rw [if_neg hfield, if_neg hfield] at hbalanced
      rw [hassets.shieldedTotal_of_ne hpending hasset hcurrency]
      exact hbalanced

/-- An asset that is only now registered has no coins, and nothing is counted
for it. -/
theorem solvent_registerAsset (hfree : CollisionFree P B Q) (hassets : AssetInvariant P Q s coins)
    (h : Solvent P B s coins) {token : Principal} (hfresh : s.assets.idOf token = none)
    (hasked : token ∈ Q.principals) :
    Solvent P B { s with assets := s.assets.register token } coins where
  stx := h.stx
  sip10 other assetUid hother := by
    rcases AssetTable.register_cases hother with ⟨rfl, rfl⟩ | ⟨-, hold⟩
    · have hnone : ∀ coin ∈ coins, value (some (fePrincipal P other)) coin = 0 := by
        intro coin hcoin
        refine if_neg fun hkind => ?_
        obtain ⟨assetId, hasset, hfield⟩ := Option.map_eq_some_iff.mp hkind
        obtain ⟨registered, uid, hregistered, hencoded⟩ := hassets.kinds coin hcoin assetId hasset
        have hsame := hfree.principals (hassets.principals _ _ hregistered) hasked
          (hencoded.symm.trans hfield)
        rw [hsame, hfresh] at hregistered
        cases hregistered
      change unspentValue B _ s.registry.nullifiers coins = s.shieldedTotal s.assets.nextId
      rw [hassets.unassigned _ (Nat.le_refl _)]
      refine List.sum_eq_zero fun amount hamount => ?_
      obtain ⟨coin, hcoin, rfl⟩ := List.mem_map.mp hamount
      exact hnone coin (List.mem_of_mem_filter hcoin)
    · exact h.sip10 other assetUid hold

/-- Everything that holds of the coins behind a state. -/
structure Invariant (P : Primitives) (B : Builtins) (Q : Queries) (s : State) (coins : List Coin) :
    Prop where
  tree : TreeInvariant B Q s coins
  assets : AssetInvariant P Q s coins
  solvent : Solvent P B s coins

/-- An operation may become pending once its root and its asset are known. -/
theorem Invariant.begin (h : Invariant P B Q s coins)
    (hknown : p.operation.declaredRoot ∈ s.registry.roots)
    (hasset : ∀ token, p.operation.currency = .sip10 token →
      s.assets.idOf token = some p.assetUid) :
    Invariant P B Q { s with pending := p :: s.pending } coins where
  tree := { h.tree with known := List.forall_mem_cons.mpr ⟨hknown, h.tree.known⟩ }
  assets := { h.assets with pending := List.forall_mem_cons.mpr ⟨hasset, h.assets.pending⟩ }
  solvent := ⟨h.solvent.stx, h.solvent.sip10⟩

/-- One step keeps the invariant, for perhaps more coins. -/
theorem Invariant.step (hfree : CollisionFree P B Q) (hsound : Sound P B Q H)
    (hwired : Wired B H) (h : Invariant P B Q s coins) (hstep : Step P H s s') :
    ∃ coins', Invariant P B Q s' coins' := by
  cases hstep with
  | @begin p ctx call hcalled hcall hchecks =>
      exact ⟨coins, h.begin hchecks.known hchecks.asset⟩
  | @commit p rest version hpending hcompleted hverified hregisters =>
      obtain ⟨tx, hrealizes⟩ := hsound.transaction hfree hcompleted hverified
      have hmem : p ∈ s.pending := hpending ▸ List.mem_cons_self
      exact ⟨coins ++ tx.outputs,
        h.tree.commit_tree hfree hrealizes hpending hregisters,
        h.assets.commit hrealizes hpending,
        solvent_commit hfree h.tree h.assets h.solvent hrealizes hmem hregisters⟩
  | registry hcaller hcalled heffect =>
      obtain ⟨-, -, hnullifiers, htotal⟩ := h.tree.guarded.call_effect hcaller heffect
      refine ⟨coins, h.tree.registry_call (P := P) hfree hwired hcaller hcalled heffect,
        { h.assets with }, ⟨?_, fun token assetUid hasset => ?_⟩⟩
      · rw [hnullifiers, htotal]
        exact h.solvent.stx
      · rw [hnullifiers]
        exact h.solvent.sip10 token assetUid hasset
  | registerAsset hcalled hfresh =>
      have hasked := hsound.registered _ _ _ hcalled
      exact ⟨coins, { h.tree with }, h.assets.registerAsset hfresh hasked,
        solvent_registerAsset hfree h.assets h.solvent hfresh hasked⟩
  | receive amount =>
      exact ⟨coins, { h.tree with }, { h.assets with }, ⟨h.solvent.stx, h.solvent.sip10⟩⟩

theorem Invariant.deployed (poolStx : Nat) : Invariant P B Q (State.deployed poolStx) [] where
  tree := .deployed poolStx
  assets := .deployed poolStx
  solvent := ⟨rfl, nofun⟩

theorem Invariant.steps (hfree : CollisionFree P B Q) (hsound : Sound P B Q H)
    (hwired : Wired B H) (h : Invariant P B Q s coins) (hsteps : Steps P H s s') :
    ∃ coins', Invariant P B Q s' coins' := by
  induction hsteps with
  | refl => exact ⟨coins, h⟩
  | tail _ hstep ih =>
      obtain ⟨coins, hmid⟩ := ih
      exact hmid.step hfree hsound hwired hstep

/-- Every run keeps it. -/
theorem Invariant.run (hfree : CollisionFree P B Q) (hsound : Sound P B Q H)
    (hwired : Wired B H) {poolStx : Nat} (hsteps : Steps P H (State.deployed poolStx) s) :
    ∃ coins, Invariant P B Q s coins :=
  (Invariant.deployed poolStx).steps hfree hsound hwired hsteps

/-! ## Room for a pending operation -/

/-- With any of a pending operation's nullifiers that are not registered yet,
there are no more nullifiers than commitments. -/
theorem TreeInvariant.length_nullifiers_le (hfree : CollisionFree P B Q)
    (h : TreeInvariant B Q s coins) {tx : Transaction B Q.poseidon}
    (hrealizes : p.operation.Realizes P tx) (hpending : p ∈ s.pending) {fresh : List Buff32}
    (hfresh : ∀ nullifier ∈ fresh, nullifier ∈ p.operation.nullifiers)
    (hdistinct : (s.registry.nullifiers ++ fresh).Nodup) :
    s.registry.nullifiers.length + fresh.length ≤ s.registry.leaves.length := by
  have htags : ∀ nullifier ∈ s.registry.nullifiers ++ fresh, ∃ coin ∈ coins,
      Nullifies B nullifier coin := by
    intro nullifier hnullifier
    rcases List.mem_append.mp hnullifier with hold | hnew
    · exact h.nullifiers nullifier hold
    · have hspent := hfresh nullifier hnew
      rw [hrealizes.nullifiers] at hspent
      obtain ⟨input, hinput, rfl⟩ := List.mem_map.mp hspent
      exact ⟨input.1, h.inputs_mem hfree hrealizes hpending input hinput,
        nullifies_of_spend (tx.spends input hinput)⟩
  rw [← List.length_append, h.leaves, List.length_map]
  exact NoteLedger.length_le_of_tags hdistinct htags fun _ _ _ _ => hfree.nullifier_eq

/-- The total covers what a pending operation pays out. -/
theorem Invariant.covered (hfree : CollisionFree P B Q) (h : Invariant P B Q s coins)
    {tx : Transaction B Q.poseidon} (hrealizes : p.operation.Realizes P tx)
    (hpending : p ∈ s.pending)
    (hfresh : ∀ nullifier ∈ p.operation.nullifiers, nullifier ∉ s.registry.nullifiers)
    (hdistinct : p.operation.nullifiers.Nodup) (hdeposit : p.operation.deposit = 0) :
    p.operation.payout ≤ s.total p := by
  have hinputs := h.tree.inputs_mem hfree hrealizes hpending
  have hbalanced := tx.balanced fun input hinput => h.tree.ranged _ (hinputs input hinput)
  rw [← hrealizes.deposit, ← hrealizes.payout, hdeposit, Nat.zero_add] at hbalanced
  have hpublish := unspentValue_publish hfree h.tree hrealizes hpending hfresh hdistinct
    (p.operation.currency.field? P)
  rw [sum_inputs_value hrealizes, if_pos rfl] at hpublish
  have htotal : unspentValue B (p.operation.currency.field? P) s.registry.nullifiers coins =
      s.total p := by
    unfold State.total
    cases hcurrency : p.operation.currency with
    | stx => exact h.solvent.stx
    | sip10 token => exact h.solvent.sip10 token _ (h.assets.pending p hpending token hcurrency)
  omega

end StxShield
