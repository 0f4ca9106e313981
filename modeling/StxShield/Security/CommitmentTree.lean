import StxShield.Security.Solvency

/-!
# The current root

The registry takes the new root from the proof.  It is the root of the
registered commitments as long as every operation appends behind the
commitments that were registered when it was called: the root is checked at the
start of an operation and not again after token code has run in the middle.
-/

namespace StxShield

open Library Circuit PrivacyRegistry

/-- Every operation that appends was called with the next free leaf index. -/
def Punctual (H : List Event) : Prop :=
  ∀ ctx call registered op root index, Event.called ctx call registered ∈ H →
    call.operation? = some op → op.extension = some (root, index) → index = registered

/-- The condition on a single call. -/
def Event.punctual : Event → Bool
  | .called _ call registered =>
      match call.operation? >>= Operation.extension with
      | some (_, index) => index = registered
      | none => true
  | _ => true

theorem punctual_of_all {H : List Event} (h : H.all Event.punctual) : Punctual H := by
  intro ctx call registered op root index hmem hcall hext
  have hevent : Event.punctual (.called ctx call registered) := List.all_eq_true.mp h _ hmem
  simpa [Event.punctual, hcall, hext] using hevent

/-- The root of the tree of the given leaves in order, padded with empty leaves. -/
def treeRoot (B : Builtins) (leaves : List Fr) : Fr :=
  MerkleTree.root B.hash2 treeDepth (MerkleTree.filled emptyLeaf leaves)

/-- The current root is the root of the registered commitments, and a pending
operation either knows it or has been overtaken. -/
structure RootInvariant (B : Builtins) (Q : Queries) (s : State) : Prop where
  current : s.registry.roots.Nonempty → ∃ leaves x, s.registry.leaves = leaves.map fieldBuff ∧
    s.registry.currentRoot = fieldBuff x ∧ TreeRoot B Q (MerkleTree.filled emptyLeaf leaves) x
  begun : ∀ p ∈ s.pending, p.registered ≤ s.registry.registered
  undisturbed : ∀ p ∈ s.pending, p.registered = s.registry.registered →
    p.operation.extension.isSome → p.operation.declaredRoot = s.registry.currentRoot
  punctual : ∀ p ∈ s.pending, ∀ root index, p.operation.extension = some (root, index) →
    index = p.registered

theorem treeRoot_eq (B : Builtins) (leaves : List Fr) :
    treeRoot B leaves = MerkleTree.listRoot B.hash2 treeDepth emptyLeaf leaves :=
  MerkleTree.root_filled B.hash2 treeDepth emptyLeaf leaves

variable {P : Primitives} {B : Builtins} {Q : Queries} {H : List Event} {s s' : State}
  {coins : List Coin} {p : Pending} {rest : List Pending}

/-- An operation that posts a root also appends. -/
theorem Operation.commitments_pos {op : Operation} (h : op.extension.isSome) :
    0 < op.commitments.length := by
  obtain ⟨currency, action⟩ := op
  cases action <;> simp [extension, commitments] at h ⊢

namespace RootInvariant

theorem deployed (poolStx : Nat) : RootInvariant B Q (State.deployed poolStx) where
  current := fun ⟨_, hroot⟩ => hroot.elim
  begun := nofun
  undisturbed := nofun
  punctual := nofun

theorem begin (h : RootInvariant B Q s) (hpunctual : Punctual H) {ctx : Ctx} {call : Call}
    (hcalled : Event.called ctx call p.registered ∈ H)
    (hcall : call.operation? = some p.operation) (hchecks : s.Checks p) :
    RootInvariant B Q { s with pending := p :: s.pending } where
  current := h.current
  begun := List.forall_mem_cons.mpr ⟨hchecks.registered.le, h.begun⟩
  undisturbed := List.forall_mem_cons.mpr ⟨fun _ => hchecks.current, h.undisturbed⟩
  punctual := List.forall_mem_cons.mpr
    ⟨fun root index hext => hpunctual _ _ _ _ root index hcalled hcall hext, h.punctual⟩

/-- The root posted by an operation that was not overtaken. -/
theorem commit_current (hfree : CollisionFree P B Q) (htree : TreeInvariant B Q s coins)
    (h : RootInvariant B Q s) {tx : Transaction B Q.poseidon} (hrealizes : p.operation.Realizes P tx)
    (hpending : s.pending = p :: rest) (hregisters : s.Registers p) :
    ∃ leaves x, (s.commit p rest).registry.leaves = leaves.map fieldBuff ∧
      (s.commit p rest).registry.currentRoot = fieldBuff x ∧
      TreeRoot B Q (MerkleTree.filled emptyLeaf leaves) x := by
  have hmem : p ∈ s.pending := hpending ▸ List.mem_cons_self
  obtain ⟨leaves, x, hleaves, hcurrent, hroot⟩ := h.current ⟨_, htree.known p hmem⟩
  have hnew : (s.commit p rest).registry.leaves =
      (leaves ++ tx.outputs.map (Coin.commitment B)).map fieldBuff := by
    rw [List.map_append, ← hleaves, List.map_map]
    exact congrArg (s.registry.leaves ++ ·) hrealizes.commitments
  cases hext : p.operation.extension with
  | none =>
      have hnone : tx.outputs = [] := by
        have happended := tx.appended
        rw [hrealizes.extension, Option.map_eq_none_iff] at hext
        rwa [hext] at happended
      refine ⟨leaves, x, ?_, ?_, hroot⟩
      · simpa [hnone] using hnew
      · simpa [State.commit, RegistryLedger.commit, hext] using hcurrent
  | some ext =>
      obtain ⟨newRoot, index⟩ := ext
      have hindex : index = s.registry.registered := (hregisters.extension _ _ hext).1
      have hundisturbed : p.registered = s.registry.registered :=
        (h.punctual p hmem _ _ hext).symm.trans hindex
      have hdeclared := h.undisturbed p hmem hundisturbed (by rw [hext]; rfl)
      rw [hrealizes.root, hcurrent] at hdeclared
      obtain rfl := fieldBuff_injective hdeclared
      obtain ⟨y, rfl, hy⟩ := TreeInvariant.appended_root hfree hrealizes hroot hext
      refine ⟨_, y, hnew, ?_, ?_⟩
      · simp [State.commit, RegistryLedger.commit, hext]
      · rw [MerkleTree.filled_append_all]
        have hlength : index = leaves.length := by
          rw [hindex, htree.registered, hleaves, List.length_map]
        rwa [hlength] at hy

theorem commit (hfree : CollisionFree P B Q) (htree : TreeInvariant B Q s coins)
    (h : RootInvariant B Q s) {tx : Transaction B Q.poseidon} (hrealizes : p.operation.Realizes P tx)
    (hpending : s.pending = p :: rest) (hregisters : s.Registers p) :
    RootInvariant B Q (s.commit p rest) where
  current _ := h.commit_current hfree htree hrealizes hpending hregisters
  begun other hother := by
    have hle := h.begun other (hpending ▸ List.mem_cons_of_mem _ hother)
    exact Nat.le_add_right_of_le hle
  undisturbed other hother hregistered hextends := by
    have hmem : other ∈ s.pending := hpending ▸ List.mem_cons_of_mem _ hother
    have hle := h.begun other hmem
    have hcount : other.registered = s.registry.registered + p.operation.commitments.length :=
      hregistered
    cases hext : p.operation.extension with
    | none =>
        have hsame := h.undisturbed other hmem (by omega) hextends
        simpa [State.commit, RegistryLedger.commit, hext] using hsame
    | some ext =>
        have hpos := p.operation.commitments_pos (by rw [hext]; rfl)
        omega
  punctual other hother := h.punctual other (hpending ▸ List.mem_cons_of_mem _ hother)

/-- From outside only the first root can be posted, and then nothing is
pending. -/
theorem registry_call (hfree : CollisionFree P B Q) (hwired : Wired B H)
    (htree : TreeInvariant B Q s coins) (h : RootInvariant B Q s) {ctx : Ctx}
    {call : PrivacyRegistry.Call} {registered : Nat} {after : RegistryLedger}
    (hcaller : ctx.contractCaller.isProtocol = false)
    (hcalled : Event.called ctx (.privacyRegistry call) registered ∈ H)
    (heffect : CallEffect ctx.contractCaller call s.registry after) :
    RootInvariant B Q { s with registry := after } := by
  cases heffect with
  | quiet => exact h
  | authorized hauth =>
      rw [htree.guarded _ hauth] at hcaller
      cases hcaller
  | root hfresh =>
      obtain rfl := hwired.root _ _ _ _ hcalled
      have hnone : ¬ s.registry.roots.Nonempty := fun hposted => hfresh (htree.posted hposted)
      have hidle : s.pending = [] := List.eq_nil_iff_forall_not_mem.mpr fun p hp =>
        hnone ⟨_, htree.known p hp⟩
      refine ⟨fun _ => ⟨[], _, ?_, rfl, hfree.emptyRoot⟩, ?_, ?_, ?_⟩
      · simp [htree.leaves, htree.unposted hnone]
      all_goals
        intro p hp
        change p ∈ s.pending at hp
        rw [hidle] at hp
        cases hp
  | allowlist => exact ⟨h.current, h.begun, h.undisturbed, h.punctual⟩

theorem step (hfree : CollisionFree P B Q) (hsound : Sound P B Q H) (hwired : Wired B H)
    (hpunctual : Punctual H) (htree : TreeInvariant B Q s coins) (h : RootInvariant B Q s)
    (hstep : Step P H s s') : RootInvariant B Q s' := by
  cases hstep with
  | begin hcalled hcall hchecks => exact h.begin hpunctual hcalled hcall hchecks
  | commit hpending hcompleted hverified hregisters =>
      obtain ⟨tx, hrealizes⟩ := hsound.transaction hfree hcompleted hverified
      exact h.commit hfree htree hrealizes hpending hregisters
  | registry hcaller hcalled heffect =>
      exact h.registry_call hfree hwired htree hcaller hcalled heffect
  | registerAsset => exact ⟨h.current, h.begun, h.undisturbed, h.punctual⟩
  | receive => exact ⟨h.current, h.begun, h.undisturbed, h.punctual⟩

theorem run (hfree : CollisionFree P B Q) (hsound : Sound P B Q H) (hwired : Wired B H)
    (hpunctual : Punctual H) {poolStx : Nat} (hsteps : Steps P H (State.deployed poolStx) s) :
    RootInvariant B Q s := by
  induction hsteps with
  | refl => exact deployed poolStx
  | tail hsteps hstep ih =>
      obtain ⟨coins, h⟩ := Invariant.run hfree hsound hwired hsteps
      exact ih.step hfree hsound hwired hpunctual h.tree hstep

end RootInvariant

/-! ## An overtaken operation -/

namespace Sample

def interleavedLeaves : List Fr := [stxCoin.commitment builtins, tokenCoin.commitment builtins]

theorem interleaved_root : ¬ ∃ leaves : List Fr,
    interleaved.registry.leaves = leaves.map fieldBuff ∧
      interleaved.registry.currentRoot.root = fieldBuff (treeRoot builtins leaves) := by
  rintro ⟨leaves, hleaves, hroot⟩
  have hregistered : interleaved.registry.leaves = interleavedLeaves.map fieldBuff := by
    decide +kernel
  obtain rfl := List.map_injective_iff.mpr fieldBuff_injective (hregistered.symm.trans hleaves)
  rw [treeRoot_eq] at hroot
  revert hroot
  decide +kernel

end Sample

/-! ## Runs -/

/-- In every run whose operations append with the leaf index that was free when
they were called, the current root is the root of the registered commitments
in registration order, from the first root on. -/
theorem current_root_eq_treeRoot {env : Env} {w : World} (hreach : Reachable env w) {B : Builtins}
    {Q : Queries} (hfree : CollisionFree env.primitives B Q)
    (hsound : Sound env.primitives B Q w.history) (hwired : Wired B w.history)
    (hpunctual : Punctual w.history) (hposted : ∃ root, root ∈ w.registry.merkleRoots) :
    ∃ leaves : List Fr, w.registry.leaves = leaves.map fieldBuff ∧
      w.registry.currentRoot.root = fieldBuff (treeRoot B leaves) := by
  obtain ⟨poolStx, hsteps⟩ := hreach.steps
  have hrun := RootInvariant.run hfree hsound hwired hpunctual (hsteps _ (List.Subset.refl _))
  obtain ⟨leaves, x, hleaves, hcurrent, hroot⟩ := hrun.current hposted
  exact ⟨leaves, hleaves, hcurrent.trans (congrArg fieldBuff hroot.root_eq.symm)⟩

/-- The condition holds after a plain shield of STX. -/
theorem current_root_eq_treeRoot_shielded :
    ∃ leaves : List Fr, Sample.shielded.registry.leaves = leaves.map fieldBuff ∧
      Sample.shielded.registry.currentRoot.root = fieldBuff (treeRoot Sample.builtins leaves) := by
  have hposted : Sample.shielded.registry.merkleRoots.lookup
      Sample.shielded.registry.currentRoot.root ≠ none := by decide +kernel
  refine current_root_eq_treeRoot Sample.shielded_reachable Sample.collisionFree
    (Sample.sound Sample.shielded_expected) (Sample.wired Sample.shielded_expected)
    (punctual_of_all ?_) ⟨_, not_not.mp (mt AList.lookup_eq_none.mpr hposted)⟩
  decide +kernel

/-- Without the condition a leaf can be skipped.  The token's shield was proved
against the empty tree with leaf index 1; the token shields STX at index 0 in
the middle of it, and the root posted last has an empty slot there. -/
theorem current_root_skips_leaf :
    Reachable Sample.env Sample.interleaved ∧
      CollisionFree Sample.env.primitives Sample.builtins Sample.queries ∧
      Sound Sample.env.primitives Sample.builtins Sample.queries Sample.interleaved.history ∧
      Wired Sample.builtins Sample.interleaved.history ∧
      (∃ root, root ∈ Sample.interleaved.registry.merkleRoots) ∧
      ¬ ∃ leaves : List Fr, Sample.interleaved.registry.leaves = leaves.map fieldBuff ∧
        Sample.interleaved.registry.currentRoot.root =
          fieldBuff (treeRoot Sample.builtins leaves) := by
  have hposted : Sample.interleaved.registry.merkleRoots.lookup
      Sample.interleaved.registry.currentRoot.root ≠ none := by decide +kernel
  refine ⟨Sample.interleaved_reachable, Sample.collisionFree,
    Sample.sound Sample.interleaved_expected, Sample.wired Sample.interleaved_expected,
    ⟨_, not_not.mp (mt AList.lookup_eq_none.mpr hposted)⟩, ?_⟩
  exact Sample.interleaved_root

end StxShield
