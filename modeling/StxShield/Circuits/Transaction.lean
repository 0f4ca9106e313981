import StxShield.Circuits.Main

/-!
# What a statement says

A provable statement describes a transaction on coins: the coins it spends lie
under its root, the coins it creates are appended behind one another, and no
value appears or disappears.
-/

namespace StxShield.Circuit

open Library Exec

variable {B : Builtins} {Q : Set Query}

/-! ## Relations between coins, nullifiers and roots -/

/-- A coin under a root is nullified by someone who knows its owner's secret. -/
structure Spend (B : Builtins) (Q : Set Query) (coin : Coin) (nullifier root : Fr) : Prop where
  opened : ∀ query ∈ coin.queries B, query ∈ Q
  owned : ∃ ownerSk, B.fixedBaseScalarMul ownerSk = coin.ownerPk ∧
    B.hash2 (coin.commitment B) ownerSk = nullifier ∧
    Query.hash2 (coin.commitment B) ownerSk ∈ Q
  member : ∃ path : MerklePath, MerkleTree.climb B.hash2 (coin.commitment B) path.steps = root ∧
    ∀ query ∈ pathQueries B (coin.commitment B) path, query ∈ Q

/-- A leaf goes to an empty slot. -/
def Insertion (B : Builtins) (Q : Set Query) (leaf : Fr) (index : Nat) (oldRoot newRoot : Fr) :
    Prop :=
  ∃ path : MerklePath, MerkleTree.position path.steps = index ∧
    MerkleTree.climb B.hash2 emptyLeaf path.steps = oldRoot ∧
    MerkleTree.climb B.hash2 leaf path.steps = newRoot ∧
    (∀ query ∈ pathQueries B emptyLeaf path, query ∈ Q) ∧
    ∀ query ∈ pathQueries B leaf path, query ∈ Q

/-- Leaves go to consecutive slots, one after the other. -/
def Appends (B : Builtins) (Q : Set Query) : List Fr → Nat → Fr → Fr → Prop
  | [], _, oldRoot, newRoot => oldRoot = newRoot
  | leaf :: rest, index, oldRoot, newRoot =>
      ∃ midRoot, Insertion B Q leaf index oldRoot midRoot ∧
        Appends B Q rest (index + 1) midRoot newRoot

theorem appends_singleton {leaf oldRoot newRoot : Fr} {index : Nat}
    (h : Insertion B Q leaf index oldRoot newRoot) : Appends B Q [leaf] index oldRoot newRoot :=
  ⟨newRoot, h, rfl⟩

/-- Coins spent with their nullifiers, coins created, and the value that enters
from outside or leaves.  What the tree looked like before is left open, so the
amounts balance only once the spent coins are known to be in range. -/
structure Transaction (B : Builtins) (Q : Set Query) where
  asset : Option Fr
  inputs : List (Coin × Fr)
  outputs : List Coin
  root : Fr
  deposit : Nat
  payout : Nat
  /-- The first slot and the root after the outputs, if there are any. -/
  extension : Option (Nat × Fr)
  inputs_asset : ∀ input ∈ inputs, input.1.asset = asset
  outputs_asset : ∀ coin ∈ outputs, coin.asset = asset
  spends : ∀ input ∈ inputs, Spend B Q input.1 input.2 root
  opened : ∀ coin ∈ outputs, ∀ query ∈ coin.queries B, query ∈ Q
  ranged : ∀ coin ∈ outputs, coin.amount < 2 ^ 64
  balanced : (∀ input ∈ inputs, input.1.amount < 2 ^ 64) →
    deposit + (inputs.map fun input => input.1.amount).sum =
      payout + (outputs.map Coin.amount).sum
  appended : match extension with
    | some (index, newRoot) =>
        Appends B Q (outputs.map (Coin.commitment B)) index root newRoot
    | none => outputs = []

/-! ## The statement's side -/

namespace Statement

variable (statement : Statement)

def nullifiers : List Fr :=
  match statement.inputs with
  | .shield _ => []
  | .transfer x => [x.nullifier]
  | .withdraw x => [x.nullifier]
  | .split x => [x.nullifier]
  | .merge x => [x.nullifier1, x.nullifier2]

def commitments : List Fr :=
  match statement.inputs with
  | .shield x => [x.commitment]
  | .transfer x => [x.newCommitment]
  | .withdraw _ => []
  | .split x => [x.commitment1, x.commitment2]
  | .merge x => [x.commitment]

def root : Fr :=
  match statement.inputs with
  | .shield x => x.oldRoot
  | .transfer x => x.merkleRoot
  | .withdraw x => x.merkleRoot
  | .split x => x.merkleRoot
  | .merge x => x.merkleRoot

def extension : Option (Nat × Fr) :=
  match statement.inputs with
  | .shield x => some (x.leafIndex.val, x.newRoot)
  | .transfer x => some (x.leafIndex.val, x.newRoot)
  | .withdraw _ => none
  | .split x => some (x.leafIndex.val, x.newRoot)
  | .merge x => some (x.leafIndex.val, x.newRoot)

def deposit : Nat :=
  match statement.inputs with
  | .shield x => x.amount.val
  | _ => 0

def payout : Nat :=
  match statement.inputs with
  | .withdraw x => x.amount.val
  | _ => 0

/-- A transaction is the one a statement describes. -/
structure Describes (tx : Transaction B Q) : Prop where
  asset : tx.asset = statement.asset
  nullifiers : tx.inputs.map Prod.snd = statement.nullifiers
  commitments : tx.outputs.map (Coin.commitment B) = statement.commitments
  root : tx.root = statement.root
  extension : tx.extension = statement.extension
  deposit : tx.deposit = statement.deposit
  payout : tx.payout = statement.payout

end Statement

/-! ## Circuit by circuit -/

theorem shield_transaction {asset : Option Fr} {x : Shield.Public}
    (h : Provable Q (Shield.circuit B asset x)) :
    ∃ tx : Transaction B Q, Statement.Describes ⟨asset, .shield x⟩ tx := by
  obtain ⟨w, transcript, hrun, hasked⟩ := h
  unfold Shield.circuit assertMaxBitSize64 at hrun
  simp only [↓bind_ok, ↓exists_assert, ↓exists_assertAssetBound, ↓exists_commitment,
    ↓exists_ownerCommitment, ↓exists_assertIndexBits, assertInsertion_ok] at hrun
  obtain ⟨-, -, -, hamount, hrange, hcommitment, -, hindex, hold, hnew, rfl⟩ := hrun
  simp only [List.forall_mem_append, List.nil_append] at hasked
  obtain ⟨⟨⟨hopened, -⟩, holdAsked⟩, hnewAsked⟩ := hasked
  let coin : Coin := ⟨asset, w.note⟩
  have hvalue : coin.amount = x.amount.val := congrArg Fin.val hamount
  refine ⟨{
    asset := asset
    inputs := []
    outputs := [coin]
    root := x.oldRoot
    deposit := x.amount.val
    payout := 0
    extension := some (x.leafIndex.val, x.newRoot)
    inputs_asset := List.forall_mem_nil _
    outputs_asset := by simp [coin]
    spends := List.forall_mem_nil _
    opened := by simpa using hopened
    ranged := by simpa [hvalue] using hrange
    balanced := by simp [hvalue]
    appended := appends_singleton
      ⟨w.insertion, hindex, hold, hcommitment ▸ hnew, holdAsked, hcommitment ▸ hnewAsked⟩ }, ?_⟩
  exact ⟨rfl, rfl, by simp [Statement.commitments, coin, hcommitment], rfl, rfl, rfl, rfl⟩

theorem transfer_transaction {asset : Option Fr} {x : Transfer.Public}
    (h : Provable Q (Transfer.circuit B asset x)) :
    ∃ tx : Transaction B Q, Statement.Describes ⟨asset, .transfer x⟩ tx := by
  obtain ⟨w, transcript, hrun, hasked⟩ := h
  unfold Transfer.circuit assertMaxBitSize64 at hrun
  simp only [↓bind_ok, ↓exists_assert, ↓exists_assertAssetBound, ↓exists_commitment,
    ↓exists_ownerCommitment, ↓exists_assertOwner, ↓exists_computeNullifier,
    ↓exists_assertMerkleMembership, ↓exists_assertIndexBits, assertInsertion_ok] at hrun
  obtain ⟨-, -, -, howner, hnullifier, hmember, hconserved, hrange, hcommitment, -, hindex, hold,
    hnew, rfl⟩ := hrun
  simp only [List.forall_mem_append, List.nil_append, List.forall_mem_singleton] at hasked
  obtain ⟨⟨⟨⟨⟨⟨hopenedIn, hasksNullifier⟩, hmemberAsked⟩, hopenedOut⟩, -⟩, holdAsked⟩,
    hnewAsked⟩ := hasked
  let input : Coin := ⟨asset, w.input⟩
  let output : Coin := ⟨asset, w.output⟩
  have hranged : output.amount < 2 ^ 64 := hrange
  have hvalue : input.amount = output.amount := congrArg Fin.val hconserved
  have hspend : Spend B Q input x.nullifier x.merkleRoot :=
    ⟨hopenedIn, ⟨w.ownerSk, howner, hnullifier, hasksNullifier⟩, w.merkle, hmember, hmemberAsked⟩
  refine ⟨{
    asset := asset
    inputs := [(input, x.nullifier)]
    outputs := [output]
    root := x.merkleRoot
    deposit := 0
    payout := 0
    extension := some (x.leafIndex.val, x.newRoot)
    inputs_asset := by simp [input]
    outputs_asset := by simp [output]
    spends := by simpa using hspend
    opened := by simpa using hopenedOut
    ranged := by simpa using hranged
    balanced := by simp [hvalue]
    appended := appends_singleton
      ⟨w.insertion, hindex, hold, hcommitment ▸ hnew, holdAsked, hcommitment ▸ hnewAsked⟩ }, ?_⟩
  exact ⟨rfl, rfl, by simp [Statement.commitments, output, hcommitment], rfl, rfl, rfl, rfl⟩

theorem withdraw_transaction {asset : Option Fr} {x : Withdraw.Public}
    (h : Provable Q (Withdraw.circuit B asset x)) :
    ∃ tx : Transaction B Q, Statement.Describes ⟨asset, .withdraw x⟩ tx := by
  obtain ⟨w, transcript, hrun, hasked⟩ := h
  unfold Withdraw.circuit assertMaxBitSize64 assert at hrun
  simp only [↓bind_ok, ↓exists_require, ↓exists_assertAssetBound, ↓exists_commitment,
    ↓exists_assertOwner, ↓exists_computeNullifier, ↓exists_assertMerkleMembership,
    require_ok] at hrun
  obtain ⟨-, -, -, howner, hnullifier, hmember, hamount, -, -, rfl⟩ := hrun
  simp only [List.forall_mem_append, List.nil_append, List.forall_mem_singleton] at hasked
  obtain ⟨⟨hopened, hasksNullifier⟩, hmemberAsked⟩ := hasked
  let input : Coin := ⟨asset, w.input⟩
  have hvalue : input.amount = x.amount.val := congrArg Fin.val hamount
  have hspend : Spend B Q input x.nullifier x.merkleRoot :=
    ⟨hopened, ⟨w.ownerSk, howner, hnullifier, hasksNullifier⟩, w.merkle, hmember, hmemberAsked⟩
  refine ⟨{
    asset := asset
    inputs := [(input, x.nullifier)]
    outputs := []
    root := x.merkleRoot
    deposit := 0
    payout := x.amount.val
    extension := none
    inputs_asset := by simp [input]
    outputs_asset := List.forall_mem_nil _
    spends := by simpa using hspend
    opened := List.forall_mem_nil _
    ranged := List.forall_mem_nil _
    balanced := by simp [hvalue]
    appended := rfl }, ?_⟩
  exact ⟨rfl, rfl, rfl, rfl, rfl, rfl, rfl⟩

/-- The sum of two 64-bit amounts does not wrap around. -/
theorem val_add_of_range {x y : Fr} (hx : x.val < 2 ^ 64) (hy : y.val < 2 ^ 64) :
    (x + y).val = x.val + y.val := by
  have hwide : 2 ^ 64 + 2 ^ 64 ≤ fieldModulus := by decide
  rw [Fin.val_add, Nat.mod_eq_of_lt (by omega)]

/-- Neither does the index after one that a path leads to. -/
theorem val_succ_of_position {index : Fr} {path : MerklePath}
    (h : MerkleTree.position path.steps = index.val) : (index + 1).val = index.val + 1 := by
  have hlt := MerkleTree.position_lt path.steps
  rw [path.length_eq, h] at hlt
  have hwide : 2 ^ treeDepth + 1 ≤ fieldModulus := by decide
  have hone : (1 : Fr).val = 1 := rfl
  rw [Fin.val_add, hone, Nat.mod_eq_of_lt (by omega)]

theorem split_transaction {asset : Option Fr} {x : Split.Public}
    (h : Provable Q (Split.circuit B asset x)) :
    ∃ tx : Transaction B Q, Statement.Describes ⟨asset, .split x⟩ tx := by
  obtain ⟨w, transcript, hrun, hasked⟩ := h
  unfold Split.circuit Split.doubleAppend assertMaxBitSize64 at hrun
  simp only [↓bind_ok, ↓exists_assert, ↓exists_assertAssetBound, ↓exists_commitment,
    ↓exists_ownerCommitment, ↓exists_assertOwner, ↓exists_computeNullifier,
    ↓exists_assertMerkleMembership, ↓exists_assertIndexBits, ↓exists_computeMerkleRoot,
    ↓exists_assertInsertion, assertInsertion_ok] at hrun
  obtain ⟨-, -, -, howner, hnullifier, hmember, hconserved, hrange1, hrange2, hcommitment1, -,
    hcommitment2, -, -, hindex1, hindex2, hold1, hnew1, hold2, hnew2, rfl⟩ := hrun
  simp only [List.forall_mem_append, List.nil_append, List.forall_mem_singleton] at hasked
  obtain ⟨⟨⟨⟨⟨⟨⟨⟨⟨⟨⟨hopenedIn, hasksNullifier⟩, hmemberAsked⟩, hopened1⟩, -⟩, hopened2⟩, -⟩, -⟩,
    holdAsked1⟩, hnewAsked1⟩, holdAsked2⟩, hnewAsked2⟩ := hasked
  let input : Coin := ⟨asset, w.input⟩
  let out1 : Coin := ⟨asset, w.out1⟩
  let out2 : Coin := ⟨asset, w.out2⟩
  have hranged : out1.amount < 2 ^ 64 ∧ out2.amount < 2 ^ 64 := ⟨hrange1, hrange2⟩
  have hvalue : input.amount = out1.amount + out2.amount :=
    (congrArg Fin.val hconserved).trans (val_add_of_range hrange1 hrange2)
  have hspend : Spend B Q input x.nullifier x.merkleRoot :=
    ⟨hopenedIn, ⟨w.ownerSk, howner, hnullifier, hasksNullifier⟩, w.merkle, hmember, hmemberAsked⟩
  have hnext : MerkleTree.position w.insertion2.steps = x.leafIndex.val + 1 :=
    hindex2.trans (val_succ_of_position hindex1)
  refine ⟨{
    asset := asset
    inputs := [(input, x.nullifier)]
    outputs := [out1, out2]
    root := x.merkleRoot
    deposit := 0
    payout := 0
    extension := some (x.leafIndex.val, x.newRoot)
    inputs_asset := by simp [input]
    outputs_asset := by simp [out1, out2]
    spends := by simpa using hspend
    opened := by simpa using And.intro hopened1 hopened2
    ranged := by simpa using hranged
    balanced := by simp [hvalue]
    appended := ⟨_, ⟨w.insertion1, hindex1, hold1, hcommitment1 ▸ rfl, holdAsked1,
      hcommitment1 ▸ hnewAsked1⟩, appends_singleton ⟨w.insertion2, hnext, hold2,
        hcommitment2 ▸ hnew2, holdAsked2, hcommitment2 ▸ hnewAsked2⟩⟩ }, ?_⟩
  exact ⟨rfl, rfl, by simp [Statement.commitments, out1, out2, hcommitment1, hcommitment2], rfl,
    rfl, rfl, rfl⟩

theorem merge_transaction {asset : Option Fr} {x : Merge.Public}
    (h : Provable Q (Merge.circuit B asset x)) :
    ∃ tx : Transaction B Q, Statement.Describes ⟨asset, .merge x⟩ tx := by
  obtain ⟨w, transcript, hrun, hasked⟩ := h
  unfold Merge.circuit assertMaxBitSize64 at hrun
  simp only [↓bind_ok, ↓exists_assert, ↓exists_assertAssetBound, ↓exists_commitment,
    ↓exists_ownerCommitment, ↓exists_assertOwner, ↓exists_computeNullifier,
    ↓exists_assertMerkleMembership, ↓exists_assertIndexBits, assertInsertion_ok] at hrun
  obtain ⟨-, -, -, howner1, hnullifier1, hmember1, howner2, hnullifier2, hmember2, -, -,
    hconserved, hrange, hcommitment, -, hindex, hold, hnew, rfl⟩ := hrun
  simp only [List.forall_mem_append, List.nil_append, List.forall_mem_singleton] at hasked
  obtain ⟨⟨⟨⟨⟨⟨⟨⟨⟨hopened1, hasksNullifier1⟩, hmemberAsked1⟩, hopened2⟩, hasksNullifier2⟩,
    hmemberAsked2⟩, hopenedOut⟩, -⟩, holdAsked⟩, hnewAsked⟩ := hasked
  let input1 : Coin := ⟨asset, w.input1⟩
  let input2 : Coin := ⟨asset, w.input2⟩
  let output : Coin := ⟨asset, w.output⟩
  have hranged : output.amount < 2 ^ 64 := hrange
  have hspend1 : Spend B Q input1 x.nullifier1 x.merkleRoot :=
    ⟨hopened1, ⟨w.ownerSk1, howner1, hnullifier1, hasksNullifier1⟩, w.merkle1, hmember1,
      hmemberAsked1⟩
  have hspend2 : Spend B Q input2 x.nullifier2 x.merkleRoot :=
    ⟨hopened2, ⟨w.ownerSk2, howner2, hnullifier2, hasksNullifier2⟩, w.merkle2, hmember2,
      hmemberAsked2⟩
  have hvalue (h1 : input1.amount < 2 ^ 64) (h2 : input2.amount < 2 ^ 64) :
      input1.amount + input2.amount = output.amount :=
    (val_add_of_range h1 h2).symm.trans (congrArg Fin.val hconserved)
  refine ⟨{
    asset := asset
    inputs := [(input1, x.nullifier1), (input2, x.nullifier2)]
    outputs := [output]
    root := x.merkleRoot
    deposit := 0
    payout := 0
    extension := some (x.leafIndex.val, x.newRoot)
    inputs_asset := by simp [input1, input2]
    outputs_asset := by simp [output]
    spends := by simpa using And.intro hspend1 hspend2
    opened := by simpa using hopenedOut
    ranged := by simpa using hranged
    balanced := fun hinputs => by
      have h1 := hinputs _ List.mem_cons_self
      have h2 := hinputs _ (List.mem_cons_of_mem _ List.mem_cons_self)
      simpa using hvalue h1 h2
    appended := appends_singleton
      ⟨w.insertion, hindex, hold, hcommitment ▸ hnew, holdAsked, hcommitment ▸ hnewAsked⟩ }, ?_⟩
  exact ⟨rfl, rfl, by simp [Statement.commitments, output, hcommitment], rfl, rfl, rfl, rfl⟩

/-- Every provable statement describes a transaction. -/
theorem Statement.Holds.transaction {statement : Statement} (h : statement.Holds B Q) :
    ∃ tx : Transaction B Q, statement.Describes tx := by
  obtain ⟨asset, inputs⟩ := statement
  cases asset with
  | none =>
      cases inputs with
      | shield x => exact shield_transaction h
      | transfer x => exact transfer_transaction h
      | withdraw x => exact withdraw_transaction h
      | split x => exact split_transaction h
      | merge x => exact merge_transaction h
  | some assetId =>
      cases inputs with
      | shield x => exact shield_transaction h
      | transfer x => exact transfer_transaction h
      | withdraw x => exact withdraw_transaction h
      | split x => exact split_transaction h
      | merge x => exact merge_transaction h

end StxShield.Circuit
