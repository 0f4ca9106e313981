import StxShield.Circuits.Main

/-!
# When a circuit is satisfied

An execution that ends without a failed assertion is what a proof is made from.
Each circuit is reduced to the equations its public inputs and its witness have
to meet, so that a prover's witness can be checked one equation at a time.
-/

namespace StxShield.Circuit

open Library Exec

/-- No assertion fails. -/
def Satisfied (program : Constraints Unit) : Prop := ∃ outcome, program [] = .ok outcome

section Sequences

variable {α : Type} {t : Transcript}

/-- The assertions of a sequence hold in turn. -/
theorem exists_bind {m : Constraints α} {next : α → Constraints Unit} :
    (∃ outcome, (m >>= next) t = .ok outcome) ↔
      ∃ value mid, m t = .ok (value, mid) ∧ ∃ outcome, next value mid = .ok outcome := by
  constructor
  · rintro ⟨⟨u, t'⟩, h⟩
    obtain ⟨value, mid, hm, hnext⟩ := bind_ok.mp h
    exact ⟨value, mid, hm, (u, t'), hnext⟩
  · rintro ⟨value, mid, hm, ⟨u, t'⟩, hnext⟩
    exact ⟨(u, t'), bind_ok.mpr ⟨value, mid, hm, hnext⟩⟩

/-- The last assertion of a circuit. -/
theorem exists_last {m : Constraints Unit} :
    (∃ outcome, m t = .ok outcome) ↔ ∃ u mid, m t = .ok (u, mid) ∧ True := by
  constructor
  · rintro ⟨⟨u, mid⟩, h⟩
    exact ⟨u, mid, h, trivial⟩
  · rintro ⟨u, mid, h, -⟩
    exact ⟨(u, mid), h⟩

end Sequences

variable {B : Builtins} {asset : Option Fr}

/-! ## What the equations are about -/

/-- A coin that is spent under a root, with its owner's secret. -/
structure Spent (B : Builtins) (coin : Coin) (ownerSk nullifier root : Fr) (path : MerklePath) :
    Prop where
  owner : B.fixedBaseScalarMul ownerSk = coin.ownerPk
  nullifier : B.hash2 (coin.commitment B) ownerSk = nullifier
  member : MerkleTree.climb B.hash2 (coin.commitment B) path.steps = root

/-- A coin that is created in range, its commitment and that of its owner. -/
structure Created (B : Builtins) (coin : Coin) (commitment ownerCommitment : Fr) : Prop where
  range : coin.amount < 2 ^ 64
  commitment : coin.commitment B = commitment
  owner : B.hash2 coin.note.ownerPkX coin.note.ownerPkY = ownerCommitment

/-- A leaf that goes to an empty slot, along a path. -/
structure Appended (B : Builtins) (leaf : Fr) (index oldRoot newRoot : Fr) (path : MerklePath) :
    Prop where
  slot : MerkleTree.position path.steps = index.val
  before : MerkleTree.climb B.hash2 emptyLeaf path.steps = oldRoot
  after : MerkleTree.climb B.hash2 leaf path.steps = newRoot

/-- The header that all circuits check. -/
structure Header (asset : Option Fr) (op circuitVersion expected : Fr) : Prop where
  op : op = expected
  version : circuitVersion = 2
  asset : ∀ assetId, asset = some assetId → assetId ≠ 0

/-! ## Circuit by circuit -/

theorem Shield.satisfied_iff {x : Shield.Public} {w : Shield.Witness} :
    Satisfied (Shield.circuit B asset x w) ↔
      Header asset x.op x.circuitVersion 1 ∧ w.note.amount = x.amount ∧
        Created B ⟨asset, w.note⟩ x.commitment x.ownerCommitment ∧
        Appended B x.commitment x.leafIndex x.oldRoot x.newRoot w.insertion := by
  unfold Satisfied Shield.circuit assertMaxBitSize64
  simp only [exists_bind, ↓exists_assert, ↓exists_assertAssetBound, ↓exists_commitment,
    ↓exists_ownerCommitment, ↓exists_assertIndexBits, exists_last, ↓exists_assertInsertion]
  constructor
  · rintro ⟨hop, hversion, hasset, hamount, hrange, hcommitment, howner, hslot, hold, hnew, -⟩
    have hranged : Coin.amount ⟨asset, w.note⟩ < 2 ^ 64 := by
      rw [Coin.amount, hamount]
      exact hrange
    exact ⟨⟨hop, hversion, hasset⟩, hamount, ⟨hranged, hcommitment, howner⟩, ⟨hslot, hold, hnew⟩⟩
  · rintro ⟨⟨hop, hversion, hasset⟩, hamount, ⟨hrange, hcommitment, howner⟩, hslot, hold, hnew⟩
    rw [Coin.amount, hamount] at hrange
    exact ⟨hop, hversion, hasset, hamount, hrange, hcommitment, howner, hslot, hold, hnew, trivial⟩

theorem Transfer.satisfied_iff {x : Transfer.Public} {w : Transfer.Witness} :
    Satisfied (Transfer.circuit B asset x w) ↔
      Header asset x.op x.circuitVersion 2 ∧
        Spent B ⟨asset, w.input⟩ w.ownerSk x.nullifier x.merkleRoot w.merkle ∧
        w.input.amount = w.output.amount ∧
        Created B ⟨asset, w.output⟩ x.newCommitment x.newOwnerCommitment ∧
        Appended B x.newCommitment x.leafIndex x.merkleRoot x.newRoot w.insertion := by
  unfold Satisfied Transfer.circuit assertMaxBitSize64
  simp only [exists_bind, ↓exists_assert, ↓exists_assertAssetBound, ↓exists_commitment,
    ↓exists_ownerCommitment, ↓exists_assertOwner, ↓exists_computeNullifier,
    ↓exists_assertMerkleMembership, ↓exists_assertIndexBits, exists_last, ↓exists_assertInsertion]
  constructor
  · rintro ⟨hop, hversion, hasset, howner, hnullifier, hmember, hamount, hrange, hcommitment, hkey,
      hslot, hold, hnew, -⟩
    exact ⟨⟨hop, hversion, hasset⟩, ⟨howner, hnullifier, hmember⟩, hamount,
      ⟨hrange, hcommitment, hkey⟩, ⟨hslot, hold, hnew⟩⟩
  · rintro ⟨⟨hop, hversion, hasset⟩, ⟨howner, hnullifier, hmember⟩, hamount,
      ⟨hrange, hcommitment, hkey⟩, hslot, hold, hnew⟩
    exact ⟨hop, hversion, hasset, howner, hnullifier, hmember, hamount, hrange, hcommitment, hkey,
      hslot, hold, hnew, trivial⟩

theorem Withdraw.satisfied_iff {x : Withdraw.Public} {w : Withdraw.Witness} :
    Satisfied (Withdraw.circuit B asset x w) ↔
      Header asset x.op x.circuitVersion 3 ∧
        Spent B ⟨asset, w.input⟩ w.ownerSk x.nullifier x.merkleRoot w.merkle ∧
        w.input.amount = x.amount ∧ x.amount.val < 2 ^ 64 ∧ x.recipientHash ≠ 0 := by
  unfold Satisfied Withdraw.circuit assertMaxBitSize64
  simp only [exists_bind, exists_last, ↓exists_assert, ↓exists_assertAssetBound,
    ↓exists_commitment, ↓exists_assertOwner, ↓exists_computeNullifier,
    ↓exists_assertMerkleMembership]
  constructor
  · rintro ⟨hop, hversion, hasset, howner, hnullifier, hmember, hamount, hrange, hrecipient, -⟩
    exact ⟨⟨hop, hversion, hasset⟩, ⟨howner, hnullifier, hmember⟩, hamount, hrange, hrecipient⟩
  · rintro ⟨⟨hop, hversion, hasset⟩, ⟨howner, hnullifier, hmember⟩, hamount, hrange, hrecipient⟩
    exact ⟨hop, hversion, hasset, howner, hnullifier, hmember, hamount, hrange, hrecipient, trivial⟩

/-- The second output goes next to the first, under the root after it. -/
theorem Split.satisfied_iff {x : Split.Public} {w : Split.Witness} :
    Satisfied (Split.circuit B asset x w) ↔
      Header asset x.op x.circuitVersion 4 ∧
        Spent B ⟨asset, w.input⟩ w.ownerSk x.nullifier x.merkleRoot w.merkle ∧
        w.input.amount = w.out1.amount + w.out2.amount ∧
        Created B ⟨asset, w.out1⟩ x.commitment1 x.ownerCommitment1 ∧
        Created B ⟨asset, w.out2⟩ x.commitment2 x.ownerCommitment2 ∧
        x.commitment1 ≠ x.commitment2 ∧
        ∃ midRoot, Appended B x.commitment1 x.leafIndex x.merkleRoot midRoot w.insertion1 ∧
          Appended B x.commitment2 (x.leafIndex + 1) midRoot x.newRoot w.insertion2 := by
  unfold Satisfied Split.circuit Split.doubleAppend assertMaxBitSize64
  simp only [exists_bind, ↓exists_assert, ↓exists_assertAssetBound, ↓exists_commitment,
    ↓exists_ownerCommitment, ↓exists_assertOwner, ↓exists_computeNullifier,
    ↓exists_assertMerkleMembership, ↓exists_assertIndexBits, ↓exists_computeMerkleRoot, exists_last,
    ↓exists_assertInsertion]
  constructor
  · rintro ⟨hop, hversion, hasset, howner, hnullifier, hmember, hamount, hrange1, hrange2,
      hcommitment1, hkey1, hcommitment2, hkey2, hne, hslot1, hslot2, hold1, -, hold2, hnew, -⟩
    exact ⟨⟨hop, hversion, hasset⟩, ⟨howner, hnullifier, hmember⟩, hamount,
      ⟨hrange1, hcommitment1, hkey1⟩, ⟨hrange2, hcommitment2, hkey2⟩, hne, _,
      ⟨hslot1, hold1, rfl⟩, hslot2, hold2, hnew⟩
  · rintro ⟨⟨hop, hversion, hasset⟩, ⟨howner, hnullifier, hmember⟩, hamount,
      ⟨hrange1, hcommitment1, hkey1⟩, ⟨hrange2, hcommitment2, hkey2⟩, hne, midRoot,
      ⟨hslot1, hold1, rfl⟩, hslot2, hold2, hnew⟩
    exact ⟨hop, hversion, hasset, howner, hnullifier, hmember, hamount, hrange1, hrange2,
      hcommitment1, hkey1, hcommitment2, hkey2, hne, hslot1, hslot2, hold1, trivial, hold2, hnew,
      trivial⟩

/-- Two coins and two nullifiers that differ. -/
theorem Merge.satisfied_iff {x : Merge.Public} {w : Merge.Witness} :
    Satisfied (Merge.circuit B asset x w) ↔
      Header asset x.op x.circuitVersion 5 ∧
        Spent B ⟨asset, w.input1⟩ w.ownerSk1 x.nullifier1 x.merkleRoot w.merkle1 ∧
        Spent B ⟨asset, w.input2⟩ w.ownerSk2 x.nullifier2 x.merkleRoot w.merkle2 ∧
        Coin.commitment B ⟨asset, w.input1⟩ ≠ Coin.commitment B ⟨asset, w.input2⟩ ∧
        x.nullifier1 ≠ x.nullifier2 ∧ w.input1.amount + w.input2.amount = w.output.amount ∧
        Created B ⟨asset, w.output⟩ x.commitment x.ownerCommitment ∧
        Appended B x.commitment x.leafIndex x.merkleRoot x.newRoot w.insertion := by
  unfold Satisfied Merge.circuit assertMaxBitSize64
  simp only [exists_bind, ↓exists_assert, ↓exists_assertAssetBound, ↓exists_commitment,
    ↓exists_ownerCommitment, ↓exists_assertOwner, ↓exists_computeNullifier,
    ↓exists_assertMerkleMembership, ↓exists_assertIndexBits, exists_last, ↓exists_assertInsertion]
  constructor
  · rintro ⟨hop, hversion, hasset, howner1, hnullifier1, hmember1, howner2, hnullifier2, hmember2,
      hne, hnullifiers, hamount, hrange, hcommitment, hkey, hslot, hold, hnew, -⟩
    exact ⟨⟨hop, hversion, hasset⟩, ⟨howner1, hnullifier1, hmember1⟩,
      ⟨howner2, hnullifier2, hmember2⟩, hne, hnullifiers, hamount, ⟨hrange, hcommitment, hkey⟩,
      ⟨hslot, hold, hnew⟩⟩
  · rintro ⟨⟨hop, hversion, hasset⟩, ⟨howner1, hnullifier1, hmember1⟩,
      ⟨howner2, hnullifier2, hmember2⟩, hne, hnullifiers, hamount, ⟨hrange, hcommitment, hkey⟩,
      hslot, hold, hnew⟩
    exact ⟨hop, hversion, hasset, howner1, hnullifier1, hmember1, howner2, hnullifier2, hmember2,
      hne, hnullifiers, hamount, hrange, hcommitment, hkey, hslot, hold, hnew, trivial⟩

end StxShield.Circuit
