import StxShield.Protocol.Layout

/-!
# Cryptographic assumptions

A hash function into a finite set has collisions, so collision-freeness is
asked on the inputs that a run and the witnesses behind its statements
evaluate.  With every input among the queries it is plain injectivity.
-/

namespace StxShield

open Library Circuit

/-- The inputs of Poseidon, keccak256 and the principal encoding that matter. -/
structure Queries where
  poseidon : Set Query
  preimages : Set Bytes
  principals : Set Principal

/-- The pairs of nodes among the queries. -/
def Queries.nodes (Q : Queries) : Set (Fr × Fr) := { pair | Query.hash2 pair.1 pair.2 ∈ Q.poseidon }

/-- No collisions among the queries, neither within an arity nor across them,
and no query hashes to the empty leaf.  The queries contain the nodes of the
empty tree and, with a coin, its nullifier. -/
structure CollisionFree (P : Primitives) (B : Builtins) (Q : Queries) : Prop where
  poseidon : Set.InjOn B.hash Q.poseidon
  nonzero : ∀ query ∈ Q.poseidon, B.hash query ≠ 0
  derivation : Function.Injective B.fixedBaseScalarMul
  keccak256 : Set.InjOn P.keccak256 Q.preimages
  principals : Set.InjOn (fePrincipal P) Q.principals
  emptyTree : MerkleTree.Within B.hash2 Q.nodes treeDepth fun _ => emptyLeaf
  nullifiers : ∀ (coin : Coin) (ownerSk : Fr), (∀ query ∈ coin.queries B, query ∈ Q.poseidon) →
    B.fixedBaseScalarMul ownerSk = coin.ownerPk →
    Query.hash2 (coin.commitment B) ownerSk ∈ Q.poseidon

/-- A verifier accepts a statement only if its circuit has a witness, and what
the run hashed to compare with statements is among the queries. -/
structure Sound (P : Primitives) (B : Builtins) (Q : Queries) (H : List Event) : Prop where
  proved : ∀ verifier proofType inputsHash,
    Event.proofVerified verifier proofType inputsHash ∈ H →
    ∃ statement : Statement, statement.verifier = verifier ∧ statement.proofType = proofType ∧
      statement.Holds B Q.poseidon ∧ P.keccak256 statement.encode = inputsHash ∧
      statement.encode ∈ Q.preimages
  presented : ∀ op version, Event.completed op version ∈ H → op.inputs P version ∈ Q.preimages
  registered : ∀ ctx args registered,
    Event.called ctx (.assetRegistry (.registerAsset args)) registered ∈ H →
    args.token ∈ Q.principals

variable {P : Primitives} {B : Builtins} {Q : Queries}

/-- An operation whose statement was accepted performs a transaction. -/
theorem Sound.transaction_of_presented {H : List Event} (hsound : Sound P B Q H)
    (hfree : CollisionFree P B Q) {op : Operation} {version : Nat}
    (hpresented : op.inputs P version ∈ Q.preimages)
    (hverified : Event.proofVerified op.verifier op.proofType
      (P.keccak256 (op.inputs P version)) ∈ H) :
    ∃ tx : Transaction B Q.poseidon, op.Realizes P tx := by
  obtain ⟨statement, hverifier, htype, hholds, hhash, hasked⟩ := hsound.proved _ _ _ hverified
  have hbytes : statement.encode = op.inputs P version :=
    hfree.keccak256 hasked hpresented hhash
  obtain ⟨tx, htx⟩ := hholds.transaction
  have hfields : op.fields P version = statement.fields.map encode := by
    refine fields_eq_of_flatten_eq (fields_length_eq htype hverifier)
      (op.fields_length_le P version) ?_ ?_
    · simp
    · rw [← op.inputs_eq_flatten, ← hbytes]
      rfl
  exact ⟨tx, (Operation.agrees_of_fields htype hverifier hfields).realizes htx⟩

/-- So does a completed operation. -/
theorem Sound.transaction {H : List Event} (hsound : Sound P B Q H) (hfree : CollisionFree P B Q)
    {op : Operation} {version : Nat} (hcompleted : Event.completed op version ∈ H)
    (hverified : Event.proofVerified op.verifier op.proofType
      (P.keccak256 (op.inputs P version)) ∈ H) :
    ∃ tx : Transaction B Q.poseidon, op.Realizes P tx :=
  hsound.transaction_of_presented hfree (hsound.presented op version hcompleted) hverified

/-! ## Consequences for coins -/

theorem CollisionFree.nodes (hfree : CollisionFree P B Q) :
    Set.InjOn (fun pair : Fr × Fr => B.hash2 pair.1 pair.2) Q.nodes := by
  intro left hleft right hright h
  have hquery := hfree.poseidon hleft hright h
  obtain ⟨hfirst, hsecond⟩ := Query.hash2.inj hquery
  exact Prod.ext hfirst hsecond

/-- The coin's opening is among the queries. -/
def Opened (B : Builtins) (Q : Queries) (coin : Coin) : Prop :=
  ∀ query ∈ coin.queries B, query ∈ Q.poseidon

theorem CollisionFree.commitment_ne_zero (hfree : CollisionFree P B Q) {coin : Coin}
    (hcoin : Opened B Q coin) : coin.commitment B ≠ emptyLeaf := by
  rw [← Coin.hash_lastQuery B coin]
  exact hfree.nonzero _ (hcoin _ (Coin.lastQuery_mem B coin))

theorem CollisionFree.coin_eq (hfree : CollisionFree P B Q) {coin other : Coin}
    (hcoin : Opened B Q coin) (hother : Opened B Q other)
    (h : coin.commitment B = other.commitment B) : coin = other :=
  Coin.eq_of_commitment hfree.poseidon hcoin hother h

/-! ## Consequences for trees -/

/-- A root of the tree with the given slots, all of whose nodes are queries. -/
structure TreeRoot (B : Builtins) (Q : Queries) (slots : Nat → Fr) (root : Fr) : Prop where
  root_eq : MerkleTree.root B.hash2 treeDepth slots = root
  within : MerkleTree.Within B.hash2 Q.nodes treeDepth slots

/-- The root of the tree without leaves. -/
def emptyRoot (B : Builtins) : Fr := MerkleTree.root B.hash2 treeDepth fun _ => emptyLeaf

theorem emptyRoot_eq (B : Builtins) :
    emptyRoot B = MerkleTree.emptySubtree B.hash2 emptyLeaf treeDepth :=
  MerkleTree.root_empty B.hash2 emptyLeaf treeDepth

theorem CollisionFree.emptyRoot (hfree : CollisionFree P B Q) :
    TreeRoot B Q (fun _ => emptyLeaf) (emptyRoot B) :=
  ⟨rfl, hfree.emptyTree⟩

theorem climbInputs_mem {leaf : Fr} {path : MerklePath}
    (h : ∀ query ∈ pathQueries B leaf path, query ∈ Q.poseidon) :
    ∀ pair ∈ MerkleTree.climbInputs B.hash2 leaf path.steps, pair ∈ Q.nodes := fun _ hpair =>
  h _ (List.mem_map_of_mem hpair)

/-- A coin spent under a root lies in one of its slots. -/
theorem CollisionFree.spend_slot (hfree : CollisionFree P B Q) {slots : Nat → Fr} {root : Fr}
    (htree : TreeRoot B Q slots root) {coin : Coin} {nullifier : Fr}
    (h : Spend B Q.poseidon coin nullifier root) : ∃ slot, slots slot = coin.commitment B := by
  obtain ⟨path, hroot, hasked⟩ := h.member
  have hwithin := htree.within
  have hclimb := hroot.trans htree.root_eq.symm
  rw [← path.length_eq] at hwithin hclimb
  exact ⟨_, (MerkleTree.climb_sound hfree.nodes hwithin (climbInputs_mem hasked) hclimb).symm⟩

/-- An insertion finds the slot empty and writes it. -/
theorem CollisionFree.insertion (hfree : CollisionFree P B Q) {slots : Nat → Fr}
    {leaf oldRoot newRoot : Fr} {index : Nat} (htree : TreeRoot B Q slots oldRoot)
    (h : Insertion B Q.poseidon leaf index oldRoot newRoot) :
    TreeRoot B Q (Function.update slots index leaf) newRoot := by
  obtain ⟨path, rfl, hold, hnew, holdAsked, hnewAsked⟩ := h
  have hwithin := htree.within
  have hclimb := hold.trans htree.root_eq.symm
  rw [← path.length_eq] at hwithin hclimb
  obtain ⟨hroot, hinside⟩ := MerkleTree.climb_update hfree.nodes hwithin
    (climbInputs_mem holdAsked) (climbInputs_mem hnewAsked) hclimb
  rw [path.length_eq] at hroot hinside
  exact ⟨hroot.symm.trans hnew, hinside⟩

theorem CollisionFree.appends (hfree : CollisionFree P B Q) {leaves : List Fr} {slots : Nat → Fr}
    {oldRoot newRoot : Fr} {index : Nat} (htree : TreeRoot B Q slots oldRoot)
    (h : Appends B Q.poseidon leaves index oldRoot newRoot) :
    TreeRoot B Q (MerkleTree.writeFrom slots index leaves) newRoot := by
  induction leaves generalizing slots oldRoot index with
  | nil => exact (h : oldRoot = newRoot) ▸ htree
  | cons leaf rest ih =>
      obtain ⟨midRoot, hinsert, hrest⟩ := h
      exact ih (hfree.insertion htree hinsert) hrest

/-! ## Consequences for nullifiers -/

/-- A registered nullifier is the one derived from a coin with its owner's
secret. -/
def Nullifies (B : Builtins) (nullifier : Buff32) (coin : Coin) : Prop :=
  ∃ ownerSk, B.fixedBaseScalarMul ownerSk = coin.ownerPk ∧
    nullifier = fieldBuff (B.hash2 (coin.commitment B) ownerSk)

theorem nullifies_of_spend {Q : Set Query} {coin : Coin} {nullifier root : Fr}
    (h : Spend B Q coin nullifier root) : Nullifies B (fieldBuff nullifier) coin := by
  obtain ⟨ownerSk, hkey, rfl, -⟩ := h.owned
  exact ⟨ownerSk, hkey, rfl⟩

/-- A coin has at most one nullifier. -/
theorem CollisionFree.nullifier_eq (hfree : CollisionFree P B Q) {coin : Coin}
    {nullifier other : Buff32} (h : Nullifies B nullifier coin) (h' : Nullifies B other coin) :
    nullifier = other := by
  obtain ⟨ownerSk, hkey, rfl⟩ := h
  obtain ⟨ownerSk', hkey', rfl⟩ := h'
  rw [hfree.derivation (hkey.trans hkey'.symm)]

/-- A nullifier belongs to at most one coin. -/
theorem CollisionFree.nullified_eq (hfree : CollisionFree P B Q) {coin other : Coin}
    {nullifier : Buff32} (hcoin : Opened B Q coin) (hother : Opened B Q other)
    (h : Nullifies B nullifier coin) (h' : Nullifies B nullifier other) : coin = other := by
  obtain ⟨ownerSk, hkey, rfl⟩ := h
  obtain ⟨ownerSk', hkey', hsame⟩ := h'
  have hquery := hfree.poseidon (hfree.nullifiers coin ownerSk hcoin hkey)
    (hfree.nullifiers other ownerSk' hother hkey') (fieldBuff_injective hsame)
  exact hfree.coin_eq hcoin hother (Query.hash2.inj hquery).1

end StxShield
