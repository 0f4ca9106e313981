import Mathlib.Data.Set.Function
import StxShield.Library.Bytes
import StxShield.Library.Execution
import StxShield.Library.MerkleTree

/-!
# The circuit libraries

`stx_shield_lib` and `stx_shield_sip10_lib` in one: the two differ in whether a
note commitment binds an asset.  A circuit is executed on its public inputs and
a witness; it fails when an assertion does, and its state is the transcript of
the hash inputs it evaluated.
-/

namespace StxShield.Circuit

open Library Exec

/-! ## Field elements -/

/-- The order of the scalar field of BN254. -/
def fieldModulus : Nat :=
  21888242871839275222246405745257275088548364400416034343698204186575808495617

instance : NeZero fieldModulus := ⟨by decide⟩

abbrev Fr : Type := Fin fieldModulus

/-- The canonical 32-byte encoding of a field element. -/
def encode (x : Fr) : Bytes := bigEndian 32 x.val

@[simp]
theorem encode_length (x : Fr) : (encode x).length = 32 := bigEndian_length 32 x.val

theorem encode_injective : Function.Injective encode := by
  intro x y h
  have hwide : fieldModulus ≤ 256 ^ 32 := by decide
  exact Fin.ext
    (bigEndian_injective (Nat.lt_of_lt_of_le x.isLt hwide) (Nat.lt_of_lt_of_le y.isLt hwide) h)

/-! ## Hashing -/

/-- An input of one of the two Poseidon instances. -/
inductive Query where
  | hash2 (left right : Fr)
  | hash4 (first second third fourth : Fr)
  deriving DecidableEq

/-- What the circuits use of the Poseidon package and the embedded curve. -/
structure Builtins where
  hash2 : Fr → Fr → Fr
  hash4 : Fr → Fr → Fr → Fr → Fr
  fixedBaseScalarMul : Fr → Fr × Fr

def Builtins.hash (B : Builtins) : Query → Fr
  | .hash2 left right => B.hash2 left right
  | .hash4 first second third fourth => B.hash4 first second third fourth

abbrev Transcript : Type := List Query

/-- The execution of a circuit. -/
abbrev Constraints (α : Type) : Type := Exec Transcript α

def assert (condition : Prop) [Decidable condition] : Constraints Unit := require condition 0

variable (B : Builtins)

/-- Evaluate a hash and put its input on the transcript. -/
def evaluate (query : Query) : Constraints Fr := do
  modify fun transcript => transcript ++ [query]
  pure (B.hash query)

def hash2 (left right : Fr) : Constraints Fr := evaluate B (.hash2 left right)

def hash4 (first second third fourth : Fr) : Constraints Fr :=
  evaluate B (.hash4 first second third fourth)

/-! ## Notes -/

structure Note where
  amount : Fr
  ownerPkX : Fr
  ownerPkY : Fr
  blinding : Fr
  deriving DecidableEq

/-- `Note::commitment`; the SIP-10 library hashes the asset on top. -/
def Note.commitment (note : Note) : Option Fr → Constraints Fr
  | none => hash4 B note.amount note.ownerPkX note.ownerPkY note.blinding
  | some assetId => do
      let inner ← hash4 B note.amount note.ownerPkX note.ownerPkY note.blinding
      hash2 B inner assetId

def Note.ownerCommitment (note : Note) : Constraints Fr := hash2 B note.ownerPkX note.ownerPkY

def computeNullifier (noteCommitment ownerSk : Fr) : Constraints Fr := hash2 B noteCommitment ownerSk

def assertOwner (ownerSk ownerPkX ownerPkY : Fr) : Constraints Unit := do
  let derived := B.fixedBaseScalarMul ownerSk
  assert (derived.1 = ownerPkX)
  assert (derived.2 = ownerPkY)

/-- The pool derives the asset id from a principal; the STX library has none. -/
def assertAssetBound : Option Fr → Constraints Unit
  | none => pure ()
  | some assetId => assert (assetId ≠ 0)

/-- `x.assert_max_bit_size::<64>()` -/
def assertMaxBitSize64 (x : Fr) : Constraints Unit := assert (x.val < 2 ^ 64)

/-! ## The commitment tree -/

def treeDepth : Nat := 20

/-- `EMPTY_LEAF` -/
def emptyLeaf : Fr := 0

/-- A path's index bits and siblings, level by level from the leaf. -/
structure MerklePath where
  steps : List (Bool × Fr)
  length_eq : steps.length = treeDepth
  deriving DecidableEq

/-- The loop of `compute_merkle_root`. -/
def computeMerkleRoot (current : Fr) : List (Bool × Fr) → Constraints Fr
  | [] => pure current
  | (indexBit, sibling) :: rest => do
      let current ← if indexBit then hash2 B sibling current else hash2 B current sibling
      computeMerkleRoot current rest

def assertMerkleMembership (leaf : Fr) (path : MerklePath) (root : Fr) : Constraints Unit := do
  let computed ← computeMerkleRoot B leaf path.steps
  assert (computed = root)

/-- The slot was empty under the old root, and the same siblings give the new
root from the new leaf. -/
def assertInsertion (newLeaf : Fr) (path : MerklePath) (oldRoot newRoot : Fr) :
    Constraints Unit := do
  let old ← computeMerkleRoot B emptyLeaf path.steps
  assert (old = oldRoot)
  let new ← computeMerkleRoot B newLeaf path.steps
  assert (new = newRoot)

/-- The loop of `assert_index_bits`. -/
def accumulateBits : List (Bool × Fr) → Fr → Fr → Fr
  | [], acc, _ => acc
  | (indexBit, _) :: rest, acc, pow =>
      accumulateBits rest (if indexBit then acc + pow else acc) (pow * 2)

def assertIndexBits (leafIndex : Fr) (path : MerklePath) : Constraints Unit :=
  assert (accumulateBits path.steps 0 1 = leafIndex)

/-! ## Coins

A note together with the asset its commitment binds, and the values the
circuits compute from it. -/

structure Coin where
  asset : Option Fr
  note : Note
  deriving DecidableEq

namespace Coin

def amount (coin : Coin) : Nat := coin.note.amount.val

def inner (coin : Coin) : Fr :=
  B.hash4 coin.note.amount coin.note.ownerPkX coin.note.ownerPkY coin.note.blinding

def commitment (coin : Coin) : Fr :=
  match coin.asset with
  | none => coin.inner B
  | some assetId => B.hash2 (coin.inner B) assetId

/-- The inputs hashed to commit to a coin. -/
def queries (coin : Coin) : List Query :=
  .hash4 coin.note.amount coin.note.ownerPkX coin.note.ownerPkY coin.note.blinding ::
    match coin.asset with
    | none => []
    | some assetId => [.hash2 (coin.inner B) assetId]

/-- The public key of the owner. -/
def ownerPk (coin : Coin) : Fr × Fr := (coin.note.ownerPkX, coin.note.ownerPkY)

/-- The last input hashed, whose hash is the commitment. -/
def lastQuery (coin : Coin) : Query :=
  match coin.asset with
  | none => .hash4 coin.note.amount coin.note.ownerPkX coin.note.ownerPkY coin.note.blinding
  | some assetId => .hash2 (coin.inner B) assetId

theorem hash_lastQuery (coin : Coin) : B.hash (coin.lastQuery B) = coin.commitment B := by
  obtain ⟨asset, note⟩ := coin
  cases asset <;> rfl

theorem lastQuery_mem (coin : Coin) : coin.lastQuery B ∈ coin.queries B := by
  obtain ⟨asset, note⟩ := coin
  cases asset <;> simp [lastQuery, queries]

variable {B}

/-- A commitment has one opening: STX and SIP-10 notes never share one, because
their last hashes have different arities. -/
theorem eq_of_commitment {queried : Set Query} (hfree : Set.InjOn B.hash queried)
    {coin other : Coin} (hcoin : ∀ query ∈ coin.queries B, query ∈ queried)
    (hother : ∀ query ∈ other.queries B, query ∈ queried)
    (h : coin.commitment B = other.commitment B) : coin = other := by
  have hlast : coin.lastQuery B = other.lastQuery B := by
    refine hfree (hcoin _ (lastQuery_mem B coin)) (hother _ (lastQuery_mem B other)) ?_
    rw [hash_lastQuery B coin, hash_lastQuery B other, h]
  have hinner (c : Coin) (hc : ∀ query ∈ c.queries B, query ∈ queried) :
      Query.hash4 c.note.amount c.note.ownerPkX c.note.ownerPkY c.note.blinding ∈ queried :=
    hc _ List.mem_cons_self
  have hnote (hsame : coin.inner B = other.inner B) : coin.note = other.note := by
    obtain ⟨hamount, hx, hy, hblinding⟩ :=
      Query.hash4.inj (hfree (hinner coin hcoin) (hinner other hother) hsame)
    obtain ⟨asset, note⟩ := coin
    obtain ⟨asset', note'⟩ := other
    cases note
    cases note'
    simp_all
  obtain ⟨asset, note⟩ := coin
  obtain ⟨asset', note'⟩ := other
  cases asset with
  | none =>
      cases asset' with
      | none =>
          have hsame : Coin.inner B ⟨none, note⟩ = Coin.inner B ⟨none, note'⟩ := h
          cases hnote hsame
          rfl
      | some _ => cases hlast
  | some assetId =>
      cases asset' with
      | none => cases hlast
      | some assetId' =>
          obtain ⟨hsame, hasset⟩ := Query.hash2.inj hlast
          cases hnote hsame
          cases hasset
          rfl

end Coin

/-! ## What the gadgets establish -/

section Gadgets

variable {B} {t t' : Transcript} {α : Type}

theorem exists_assert {condition : Prop} [Decidable condition] {Q : Unit → Transcript → Prop} :
    (∃ u mid, assert condition t = .ok (u, mid) ∧ Q u mid) ↔ condition ∧ Q () t :=
  exists_require

theorem exists_evaluate {query : Query} {Q : Fr → Transcript → Prop} :
    (∃ x mid, evaluate B query t = .ok (x, mid) ∧ Q x mid) ↔ Q (B.hash query) (t ++ [query]) := by
  unfold evaluate
  simp only [↓bind_ok, ↓exists_modify, pure_ok]
  constructor
  · rintro ⟨_, _, ⟨rfl, rfl⟩, hq⟩
    exact hq
  · intro hq
    exact ⟨_, _, ⟨rfl, rfl⟩, hq⟩

theorem exists_hash2 {left right : Fr} {Q : Fr → Transcript → Prop} :
    (∃ x mid, hash2 B left right t = .ok (x, mid) ∧ Q x mid) ↔
      Q (B.hash2 left right) (t ++ [.hash2 left right]) :=
  exists_evaluate

/-- Recomputing a root climbs the path and hashes exactly its pairs. -/
theorem exists_computeMerkleRoot {leaf : Fr} {path : List (Bool × Fr)}
    {Q : Fr → Transcript → Prop} :
    (∃ x mid, computeMerkleRoot B leaf path t = .ok (x, mid) ∧ Q x mid) ↔
      Q (MerkleTree.climb B.hash2 leaf path)
        (t ++ (MerkleTree.climbInputs B.hash2 leaf path).map fun pair =>
          .hash2 pair.1 pair.2) := by
  induction path generalizing leaf t with
  | nil =>
      simp only [computeMerkleRoot, pure_ok, MerkleTree.climb, MerkleTree.climbInputs,
        List.map_nil, List.append_nil]
      constructor
      · rintro ⟨_, _, ⟨rfl, rfl⟩, hq⟩
        exact hq
      · intro hq
        exact ⟨_, _, ⟨rfl, rfl⟩, hq⟩
  | cons step rest ih =>
      obtain ⟨indexBit, sibling⟩ := step
      cases indexBit with
      | true =>
          simp only [computeMerkleRoot, ↓reduceIte, ↓bind_ok, ↓exists_hash2, ih]
          simp [MerkleTree.climb, MerkleTree.climbInputs, MerkleTree.siblingPair]
      | false =>
          simp only [computeMerkleRoot, Bool.false_eq_true, ↓reduceIte, ↓bind_ok, ↓exists_hash2, ih]
          simp [MerkleTree.climb, MerkleTree.climbInputs, MerkleTree.siblingPair]

theorem exists_commitment {note : Note} {asset : Option Fr} {Q : Fr → Transcript → Prop} :
    (∃ x mid, note.commitment B asset t = .ok (x, mid) ∧ Q x mid) ↔
      Q (Coin.commitment B ⟨asset, note⟩) (t ++ Coin.queries B ⟨asset, note⟩) := by
  cases asset with
  | none => exact exists_evaluate
  | some assetId =>
      simp only [Note.commitment, hash4, hash2, ↓bind_ok, ↓exists_evaluate]
      rw [List.append_assoc]
      rfl

theorem exists_ownerCommitment {note : Note} {Q : Fr → Transcript → Prop} :
    (∃ x mid, note.ownerCommitment B t = .ok (x, mid) ∧ Q x mid) ↔
      Q (B.hash2 note.ownerPkX note.ownerPkY) (t ++ [.hash2 note.ownerPkX note.ownerPkY]) :=
  exists_evaluate

theorem exists_computeNullifier {commitment ownerSk : Fr} {Q : Fr → Transcript → Prop} :
    (∃ x mid, computeNullifier B commitment ownerSk t = .ok (x, mid) ∧ Q x mid) ↔
      Q (B.hash2 commitment ownerSk) (t ++ [.hash2 commitment ownerSk]) :=
  exists_evaluate

theorem exists_assertOwner {ownerSk x y : Fr} {Q : Unit → Transcript → Prop} :
    (∃ u mid, assertOwner B ownerSk x y t = .ok (u, mid) ∧ Q u mid) ↔
      B.fixedBaseScalarMul ownerSk = (x, y) ∧ Q () t := by
  simp only [assertOwner, assert, ↓bind_ok, ↓exists_require, require_ok, Prod.ext_iff]
  constructor
  · rintro ⟨_, _, ⟨hx, hy, rfl⟩, hq⟩
    exact ⟨⟨hx, hy⟩, hq⟩
  · rintro ⟨⟨hx, hy⟩, hq⟩
    exact ⟨(), t, ⟨hx, hy, rfl⟩, hq⟩

theorem exists_assertAssetBound {asset : Option Fr} {Q : Unit → Transcript → Prop} :
    (∃ u mid, assertAssetBound asset t = .ok (u, mid) ∧ Q u mid) ↔
      (∀ assetId, asset = some assetId → assetId ≠ 0) ∧ Q () t := by
  cases asset with
  | none =>
      constructor
      · rintro ⟨_, _, h, hq⟩
        obtain ⟨rfl, rfl⟩ := pure_ok.mp h
        exact ⟨nofun, hq⟩
      · rintro ⟨-, hq⟩
        exact ⟨(), t, rfl, hq⟩
  | some assetId =>
      simp only [assertAssetBound, ↓exists_assert, Option.some.injEq, forall_eq']

/-- The inputs hashed on the way up a path. -/
def pathQueries (B : Builtins) (leaf : Fr) (path : MerklePath) : List Query :=
  (MerkleTree.climbInputs B.hash2 leaf path.steps).map fun pair => .hash2 pair.1 pair.2

theorem exists_assertMerkleMembership {leaf root : Fr} {path : MerklePath}
    {Q : Unit → Transcript → Prop} :
    (∃ u mid, assertMerkleMembership B leaf path root t = .ok (u, mid) ∧ Q u mid) ↔
      MerkleTree.climb B.hash2 leaf path.steps = root ∧ Q () (t ++ pathQueries B leaf path) := by
  simp only [assertMerkleMembership, assert, ↓bind_ok, ↓exists_computeMerkleRoot, require_ok]
  constructor
  · rintro ⟨_, _, ⟨hroot, rfl⟩, hq⟩
    exact ⟨hroot, hq⟩
  · rintro ⟨hroot, hq⟩
    exact ⟨(), _, ⟨hroot, rfl⟩, hq⟩

/-- The last assertion of a circuit that appends a leaf. -/
theorem assertInsertion_ok {leaf oldRoot newRoot : Fr} {path : MerklePath} {u : Unit} :
    assertInsertion B leaf path oldRoot newRoot t = .ok (u, t') ↔
      MerkleTree.climb B.hash2 emptyLeaf path.steps = oldRoot ∧
        MerkleTree.climb B.hash2 leaf path.steps = newRoot ∧
        t ++ pathQueries B emptyLeaf path ++ pathQueries B leaf path = t' := by
  simp only [assertInsertion, assert, ↓bind_ok, ↓exists_computeMerkleRoot, ↓exists_require,
    require_ok]
  rfl

theorem exists_assertInsertion {leaf oldRoot newRoot : Fr} {path : MerklePath}
    {Q : Unit → Transcript → Prop} :
    (∃ u mid, assertInsertion B leaf path oldRoot newRoot t = .ok (u, mid) ∧ Q u mid) ↔
      MerkleTree.climb B.hash2 emptyLeaf path.steps = oldRoot ∧
        MerkleTree.climb B.hash2 leaf path.steps = newRoot ∧
        Q () (t ++ pathQueries B emptyLeaf path ++ pathQueries B leaf path) := by
  constructor
  · rintro ⟨_, _, h, hq⟩
    obtain ⟨hold, hnew, rfl⟩ := assertInsertion_ok.mp h
    exact ⟨hold, hnew, hq⟩
  · rintro ⟨hold, hnew, hq⟩
    exact ⟨(), _, assertInsertion_ok.mpr ⟨hold, hnew, rfl⟩, hq⟩

end Gadgets

/-! ## Index bits -/

/-- Nothing wraps around: the accumulator holds the digits read so far, and the
power is larger than it. -/
theorem accumulateBits_val {path : List (Bool × Fr)} {acc pow : Fr} (hacc : acc.val < pow.val)
    (hfits : 2 * pow.val * 2 ^ path.length < fieldModulus) :
    (accumulateBits path acc pow).val = acc.val + pow.val * MerkleTree.position path := by
  induction path generalizing acc pow with
  | nil => simp [accumulateBits, MerkleTree.position]
  | cons step rest ih =>
      obtain ⟨indexBit, sibling⟩ := step
      have hgrow : 1 ≤ 2 ^ rest.length := Nat.one_le_two_pow
      have hpowFits : 2 * pow.val < fieldModulus := by
        have hle : 2 * pow.val * 1 ≤ 2 * pow.val * 2 ^ (rest.length + 1) :=
          Nat.mul_le_mul_left _ Nat.one_le_two_pow
        rw [List.length_cons] at hfits
        omega
      have hpow : (pow * 2).val = 2 * pow.val := by
        have htwo : (2 : Fr).val = 2 := rfl
        rw [Fin.val_mul, htwo, Nat.mod_eq_of_lt (by omega), Nat.mul_comm]
      have hnext : 2 * (pow * 2).val * 2 ^ rest.length < fieldModulus := by
        rw [hpow]
        rw [List.length_cons, Nat.pow_succ] at hfits
        calc
          2 * (2 * pow.val) * 2 ^ rest.length = 2 * pow.val * (2 ^ rest.length * 2) := by ring
          _ < fieldModulus := hfits
      cases indexBit with
      | true =>
          have hsum : (acc + pow).val = acc.val + pow.val := by
            rw [Fin.val_add, Nat.mod_eq_of_lt (by omega)]
          have hsmall : (acc + pow).val < (pow * 2).val := by
            rw [hsum, hpow]
            omega
          have hstep := ih hsmall hnext
          rw [accumulateBits, if_pos rfl, hstep, hsum, hpow, MerkleTree.position, Bool.toNat_true]
          ring
      | false =>
          have hsmall : acc.val < (pow * 2).val := by
            rw [hpow]
            omega
          have hstep := ih hsmall hnext
          rw [accumulateBits, if_neg Bool.false_ne_true, hstep, hpow, MerkleTree.position,
            Bool.toNat_false]
          ring

/-- The public leaf index is the slot the path leads to. -/
theorem exists_assertIndexBits {t : Transcript} {leafIndex : Fr} {path : MerklePath}
    {Q : Unit → Transcript → Prop} :
    (∃ u mid, assertIndexBits leafIndex path t = .ok (u, mid) ∧ Q u mid) ↔
      MerkleTree.position path.steps = leafIndex.val ∧ Q () t := by
  have hvalue : (accumulateBits path.steps 0 1).val = MerkleTree.position path.steps := by
    have hone : (1 : Fr).val = 1 := rfl
    have hzero : (0 : Fr).val = 0 := rfl
    rw [accumulateBits_val (by rw [hone, hzero]; exact Nat.one_pos)
      (by rw [hone, path.length_eq]; decide), hone, hzero]
    omega
  simp only [assertIndexBits, ↓exists_assert, Fin.ext_iff, hvalue]

end StxShield.Circuit
