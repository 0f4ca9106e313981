import Mathlib.Data.Nat.Bitwise
import StxShield.Circuits.Main
import StxShield.Library.CachedTree
import StxShield.Sdk.CommitmentTree

/-!
# The commitment tree and the tree of its leaves

What the client caches are the nodes of the tree over the leaves appended so far,
padded with zeros.  Its proofs and witnesses are therefore what the circuits check.
-/

namespace StxShield.Sdk

open Library Exec Circuit

variable {B : Builtins}

/-! ## Field elements as bytes -/

/-- The element that 32 bytes are passed to a circuit as. -/
def asField (b : Bytes) : Fr := reduce (bytesToBig b)

theorem reduce_val (x : Fr) : reduce (x.val : Int) = x := by
  refine Fin.ext ?_
  change ((x.val : Int) % fieldModulus).toNat = x.val
  rw [← Int.natCast_mod, Int.toNat_natCast, Nat.mod_eq_of_lt x.isLt]

theorem asField_encode (x : Fr) : asField (encode x) = x := by
  have hwide : fieldModulus ≤ 256 ^ 32 := by decide
  have hvalue : bytesToBig (encode x) = (x.val : Int) := by
    unfold bytesToBig encode
    rw [bigEndianValue_bigEndian, Nat.mod_eq_of_lt (Nat.lt_of_lt_of_le x.isLt hwide)]
  rw [asField, hvalue, reduce_val]

theorem bytes32ToField_encode (x : Fr) : bytes32ToField (encode x) = x.val := by
  rw [bytes32ToField, ← asField, asField_encode]

theorem fieldToBytes32_val (x : Fr) : fieldToBytes32 x.val = encode x := by
  rw [fieldToBytes32, reduce_val]

theorem encode_emptyLeaf : encode emptyLeaf = zero := bigEndian_zero 32

namespace CommitmentTree

/-- The hash of two nodes is Poseidon's; reading it back changes nothing. -/
theorem hash_eq (l r : Bytes) :
    hash B l r = poseidonHash2 B (bytes32ToField l) (bytes32ToField r) := by
  rw [hash, poseidonHash2]
  exact (congrArg fieldToBytes32 (bytes32ToField_encode _)).trans (fieldToBytes32_val _)

theorem hash_encode (x y : Fr) : hash B (encode x) (encode y) = encode (B.hash2 x y) := by
  rw [hash_eq, bytes32ToField_encode, bytes32ToField_encode, poseidonHash2, poseidon2, reduce_val,
    reduce_val, fieldToBytes32_val]

/-! ## The loops -/

variable {nodes : DataMap (Nat × Nat) Bytes} {depth : Nat}

theorem zeros_eq (level : Nat) : zeros B level = MerkleTree.emptySubtree (hash B) zero level := by
  induction level with
  | zero => rfl
  | succ level ih => rw [zeros, ih]; rfl

theorem nodeAt_set (level index : Nat) (value : Bytes) :
    nodeAt B (nodes.insert (level, index) value) =
      MerkleTree.Nodes.set (nodeAt B nodes) level index value := by
  funext other place
  rcases eq_or_ne other level with rfl | hlevel
  · rw [MerkleTree.Nodes.set, Function.update_self]
    rcases eq_or_ne place index with rfl | hindex
    · rw [nodeAt_insert, Function.update_self]
    · rw [nodeAt_insert_ne value fun heq => hindex (Prod.mk.inj heq).2,
        Function.update_of_ne hindex]
  · rw [nodeAt_insert_ne value fun heq => hlevel (Prod.mk.inj heq).1,
      MerkleTree.Nodes.set_of_ne _ index value hlevel]

theorem xor_one (i : Nat) : i ^^^ 1 = MerkleTree.sibling i := by
  unfold MerkleTree.sibling
  rcases Nat.mod_two_eq_zero_or_one i with heven | hodd
  · rw [if_neg (by omega), Nat.xor_one_of_even (Nat.even_iff.mpr heven)]
  · rw [if_pos hodd, Nat.xor_one_of_odd (Nat.odd_iff.mpr hodd)]

theorem pathFrom_eq (remaining level i : Nat) :
    pathFrom B nodes remaining level i =
      MerkleTree.pathFrom (nodeAt B nodes) remaining level i := by
  induction remaining generalizing level i with
  | zero => rfl
  | succ remaining ih =>
      rw [pathFrom, MerkleTree.pathFrom, ih, xor_one, Nat.and_one_is_mod, Nat.shiftRight_one]

/-- The pair that the loop hashes is the pair of neighbours. -/
theorem pair_eq (row : Nat → Bytes) (i : Nat) :
    (if i &&& 1 = 0 then (row i, row (i ^^^ 1)) else (row (i ^^^ 1), row i)) =
      (row (2 * (i / 2)), row (2 * (i / 2) + 1)) := by
  rw [xor_one, Nat.and_one_is_mod, MerkleTree.sibling]
  rcases Nat.mod_two_eq_zero_or_one i with heven | hodd
  · have hleft : 2 * (i / 2) = i := by omega
    rw [if_pos heven, if_neg (by omega), hleft]
  · have hright : 2 * (i / 2) + 1 = i := by omega
    have hleft : 2 * (i / 2) = i - 1 := by omega
    rw [if_neg (by omega), if_pos hodd, hright, hleft]

theorem setPath_eq (remaining level i : Nat) (nodes : DataMap (Nat × Nat) Bytes) :
    nodeAt B (setPath B remaining level i nodes) =
      MerkleTree.rehash (hash B) remaining level i (nodeAt B nodes) := by
  induction remaining generalizing level i nodes with
  | zero => rfl
  | succ remaining ih =>
      have hpair := pair_eq (nodeAt B nodes level) i
      rw [setPath, hpair, ih, nodeAt_set, MerkleTree.rehash, Nat.shiftRight_one]
      rfl

/-! ## The tree after some insertions -/

/-- The tree caches the nodes over its leaves. -/
structure Holds (B : Builtins) (tree : CommitmentTree depth) (leaves : List Bytes) : Prop where
  count : tree.count = leaves.length
  caches : MerkleTree.Caches (hash B) depth (nodeAt B tree.nodes) (MerkleTree.filled zero leaves)

theorem holds_empty : Holds B (empty : CommitmentTree depth) [] where
  count := rfl
  caches height _ := by
    funext index
    rw [MerkleTree.filled_nil, MerkleTree.level_empty, ← zeros_eq]
    rfl

variable {tree after : CommitmentTree depth} {leaves : List Bytes}

theorem Holds.insert (h : Holds B tree leaves) {commitment : Bytes} {index : Nat}
    (hinsert : tree.insert B commitment = .ok (index, after)) :
    index = leaves.length ∧ Holds B after (leaves ++ [commitment]) := by
  unfold CommitmentTree.insert at hinsert
  split at hinsert
  case isTrue => cases hinsert
  case isFalse =>
    cases hinsert
    refine ⟨h.count, ?_, ?_⟩
    · rw [List.length_append, ← h.count]
      rfl
    · rw [MerkleTree.filled_append, ← h.count]
      have hwritten := h.caches.write tree.count commitment
      rwa [← nodeAt_set, ← setPath_eq] at hwritten

theorem insert_ok (hroom : tree.count < maxLeaves) (commitment : Bytes) :
    ∃ after, tree.insert B commitment = .ok (tree.count, after) := by
  unfold CommitmentTree.insert
  rw [if_neg (Nat.not_le_of_lt hroom)]
  exact ⟨_, rfl⟩

/-- The leaves are appended in order. -/
theorem Holds.insertMany (h : Holds B tree leaves) (commitments : List Bytes)
    (hroom : leaves.length + commitments.length ≤ maxLeaves) :
    ∃ after, tree.insertMany B commitments =
        .ok (List.range' leaves.length commitments.length, after) ∧
      Holds B after (leaves ++ commitments) := by
  induction commitments generalizing tree leaves with
  | nil => exact ⟨tree, rfl, by rwa [List.append_nil]⟩
  | cons commitment rest ih =>
      rw [List.length_cons] at hroom
      have hfits : tree.count < maxLeaves := by
        rw [h.count]
        omega
      obtain ⟨mid, hinsert⟩ := insert_ok (B := B) hfits commitment
      obtain ⟨-, hmid⟩ := h.insert hinsert
      obtain ⟨after, hrest, hafter⟩ := ih hmid (by rw [List.length_append]; simp; omega)
      refine ⟨after, ?_, ?_⟩
      · rw [CommitmentTree.insertMany, hinsert, h.count, List.length_cons, List.range'_succ]
        simp only [Bind.bind, Except.bind, hrest, List.length_append]
        rfl
      · rwa [List.append_assoc] at hafter

/-! ## In field elements -/

theorem filled_encode (leaves : List Fr) :
    MerkleTree.filled zero (leaves.map encode) =
      fun i => encode (MerkleTree.filled emptyLeaf leaves i) := by
  funext i
  unfold MerkleTree.filled
  rw [← encode_emptyLeaf, List.getD_map]

/-- The nodes over leaves that are field elements. -/
def nodesOver (B : Builtins) (leaves : List Fr) : MerkleTree.Nodes Fr :=
  MerkleTree.level B.hash2 (MerkleTree.filled emptyLeaf leaves)

/-- The root computed from the leaves, padded with zeros to the depth of the tree. -/
def naiveRoot (B : Builtins) (leaves : List Fr) : Fr :=
  MerkleTree.root B.hash2 treeDepth (MerkleTree.filled emptyLeaf leaves)

/-- The path of a slot as a circuit takes it. -/
def circuitPath (B : Builtins) (leaves : List Fr) (slot : Nat) : MerklePath where
  steps := MerkleTree.pathFrom (nodesOver B leaves) Circuit.treeDepth 0 slot
  length_eq := MerkleTree.pathFrom_length _ _ _ _

/-- A path of the client is given to a circuit element by element. -/
def Carries (path : MerklePath) (steps : List (Bool × Bytes)) : Prop :=
  path.steps = steps.map fun step => (step.1, asField step.2)

section Elements

variable {tree : CommitmentTree} {leaves : List Fr} (h : Holds B tree (leaves.map encode))
include h

theorem Holds.nodeAt {level : Nat} (hlevel : level ≤ treeDepth) (index : Nat) :
    CommitmentTree.nodeAt B tree.nodes level index = encode (nodesOver B leaves level index) := by
  rw [h.caches level hlevel, filled_encode]
  exact MerkleTree.level_encode hash_encode _ level index

theorem Holds.root : tree.root B = encode (naiveRoot B leaves) := by
  rw [CommitmentTree.root, h.nodeAt (Nat.le_refl treeDepth), nodesOver, MerkleTree.level_root]
  rfl

theorem Holds.path (slot : Nat) :
    CommitmentTree.pathFrom B tree.nodes treeDepth 0 slot =
      (circuitPath B leaves slot).steps.map fun step => (step.1, encode step.2) := by
  rw [pathFrom_eq, h.caches.pathFrom, filled_encode]
  exact MerkleTree.pathFrom_encode (MerkleTree.level_encode hash_encode _) slot

end Elements

theorem carries_encode (path : MerklePath) :
    Carries path (path.steps.map fun step => (step.1, encode step.2)) := by
  have hread (step : Bool × Fr) : (step.1, asField (encode step.2)) = step := by
    rw [asField_encode]
  rw [Carries, List.map_map]
  exact ((List.map_congr_left fun step _ => hread step).trans (List.map_id _)).symm

theorem fold_encode (leaf : Fr) (path : MerklePath) :
    fold B (encode leaf) (path.steps.map fun step => (step.1, encode step.2)) =
      encode (MerkleTree.climb B.hash2 leaf path.steps) :=
  MerkleTree.climb_encode hash_encode leaf path.steps

/-! ## What the circuits check -/

/-- A circuit's assertions hold, whatever has been hashed before. -/
def Holding (m : Constraints Unit) : Prop := ∀ t, ∃ t', m t = .ok ((), t')

section Circuits

variable {leaves : List Fr}

theorem climb_circuitPath {slot : Nat} (hslot : slot < maxLeaves) (leaf : Fr) :
    MerkleTree.climb B.hash2 leaf (circuitPath B leaves slot).steps =
      MerkleTree.root B.hash2 treeDepth
        (Function.update (MerkleTree.filled emptyLeaf leaves) slot leaf) :=
  MerkleTree.climb_slot hslot _ leaf

theorem climb_leaf {slot : Nat} (hslot : slot < leaves.length) (hfits : leaves.length ≤ maxLeaves) :
    MerkleTree.climb B.hash2 (leaves.get ⟨slot, hslot⟩) (circuitPath B leaves slot).steps =
      naiveRoot B leaves := by
  have hleaf : MerkleTree.filled emptyLeaf leaves slot = leaves.get ⟨slot, hslot⟩ :=
    List.getD_eq_getElem leaves emptyLeaf hslot
  rw [climb_circuitPath (Nat.lt_of_lt_of_le hslot hfits), ← hleaf, Function.update_eq_self]
  rfl

/-- The next slot is empty. -/
theorem climb_empty (hroom : leaves.length < maxLeaves) :
    MerkleTree.climb B.hash2 emptyLeaf (circuitPath B leaves leaves.length).steps =
      naiveRoot B leaves := by
  have hempty : MerkleTree.filled emptyLeaf leaves leaves.length = emptyLeaf :=
    List.getD_eq_default leaves emptyLeaf (Nat.le_refl _)
  rw [climb_circuitPath hroom, Function.update_eq_self_iff.mpr hempty.symm]
  rfl

theorem climb_next (hroom : leaves.length < maxLeaves) (leaf : Fr) :
    MerkleTree.climb B.hash2 leaf (circuitPath B leaves leaves.length).steps =
      naiveRoot B (leaves ++ [leaf]) := by
  rw [climb_circuitPath hroom, naiveRoot, MerkleTree.filled_append]

theorem position_circuitPath {slot : Nat} (hslot : slot < maxLeaves) :
    MerkleTree.position (circuitPath B leaves slot).steps = slot :=
  (MerkleTree.position_pathFrom _ _ _ _).trans (Nat.mod_eq_of_lt hslot)

theorem ofNat_val {slot : Nat} (hslot : slot ≤ maxLeaves) :
    (Fin.ofNat fieldModulus slot).val = slot :=
  Nat.mod_eq_of_lt (Nat.lt_of_le_of_lt hslot (by decide))

theorem membership_holding {slot : Nat} (hslot : slot < leaves.length)
    (hfits : leaves.length ≤ maxLeaves) :
    Holding (assertMerkleMembership B (leaves.get ⟨slot, hslot⟩) (circuitPath B leaves slot)
      (naiveRoot B leaves)) := by
  intro t
  obtain ⟨_, t', hrun, -⟩ := (exists_assertMerkleMembership (Q := fun _ _ => True)).mpr
    ⟨climb_leaf (B := B) hslot hfits, trivial⟩
  exact ⟨t', hrun⟩

theorem indexBits_ok {slot : Nat} (hslot : slot < maxLeaves) (t : Transcript) :
    assertIndexBits (Fin.ofNat _ slot) (circuitPath B leaves slot) t = .ok ((), t) := by
  have hposition : MerkleTree.position (circuitPath B leaves slot).steps = slot :=
    position_circuitPath hslot
  obtain ⟨_, t', hrun, rfl⟩ := (exists_assertIndexBits (Q := fun _ mid => t = mid)).mpr
    ⟨hposition.trans (ofNat_val (Nat.le_of_lt hslot)).symm, rfl⟩
  exact hrun

theorem insertion_holding (hroom : leaves.length < maxLeaves) (leaf : Fr) :
    Holding (assertInsertion B leaf (circuitPath B leaves leaves.length) (naiveRoot B leaves)
      (naiveRoot B (leaves ++ [leaf]))) := by
  intro t
  exact ⟨_, assertInsertion_ok.mpr ⟨climb_empty hroom, climb_next hroom leaf, rfl⟩⟩

/-- The second output goes next to the first, in the tree with the first. -/
theorem doubleAppend_holding {second : List Fr} {first : Fr} (hsecond : second = leaves ++ [first])
    (hroom : second.length < maxLeaves) (leaf : Fr) :
    Holding (Split.doubleAppend B first leaf (Fin.ofNat _ leaves.length) (naiveRoot B leaves)
      (naiveRoot B (second ++ [leaf])) (circuitPath B leaves leaves.length)
      (circuitPath B second second.length)) := by
  have hlength : second.length = leaves.length + 1 := by rw [hsecond, List.length_append]; rfl
  have hfirst : leaves.length < maxLeaves := by omega
  have hnext : Fin.ofNat fieldModulus leaves.length + 1 = Fin.ofNat fieldModulus second.length := by
    refine Fin.ext ?_
    rw [ofNat_val (Nat.le_of_lt hroom), hlength, Fin.val_add, ofNat_val (Nat.le_of_lt hfirst)]
    exact Nat.mod_eq_of_lt (Nat.lt_of_lt_of_le (hlength ▸ hroom) (by decide))
  intro t
  obtain ⟨midRoot, t1, hmid, rfl⟩ := (exists_computeMerkleRoot
    (Q := fun x _ => x = naiveRoot B second)).mpr
    ((climb_next (B := B) hfirst first).trans (congrArg (naiveRoot B) hsecond.symm))
  obtain ⟨t2, hinsertFirst⟩ := insertion_holding (B := B) hfirst first t1
  obtain ⟨t3, hinsertSecond⟩ := insertion_holding (B := B) hroom leaf t2
  rw [← hsecond] at hinsertFirst
  have hbits : assertIndexBits (Fin.ofNat _ second.length) (circuitPath B second second.length) t =
      .ok ((), t) := indexBits_ok hroom t
  rw [← hnext] at hbits
  exact ⟨t3, bind_ok.mpr ⟨(), t, indexBits_ok hfirst t, bind_ok.mpr ⟨(), t, hbits,
    bind_ok.mpr ⟨_, t1, hmid, bind_ok.mpr ⟨(), t2, hinsertFirst, hinsertSecond⟩⟩⟩⟩⟩

end Circuits

/-! ## What the tree hands out -/

/-- The proof of a leaf is one for the tree's root, as a circuit and as the client
check it. -/
def ProofFeeds (B : Builtins) (tree : CommitmentTree) (index : Nat) (leaf : Fr) : Prop :=
  ∃ proof path, tree.proof B index = .ok proof ∧ proof.leaf = encode leaf ∧ proof.index = index ∧
    proof.root = tree.root B ∧ Carries path proof.path ∧
    Holding (assertMerkleMembership B leaf path (asField (tree.root B))) ∧
    verifyMerkleProof B proof = true

/-- A witness taken before an insertion foretells it, as a circuit checks it. -/
def WitnessFeeds (B : Builtins) (tree : CommitmentTree) (leaf : Fr) : Prop :=
  ∃ witness after path, tree.insertionWitness B (encode leaf) = .ok witness ∧
    tree.insert B (encode leaf) = .ok (witness.index, after) ∧ witness.index = tree.count ∧
    witness.emptyLeaf = zero ∧ witness.oldRoot = tree.root B ∧ witness.newRoot = after.root B ∧
    Carries path witness.path ∧ Holding (assertIndexBits (Fin.ofNat _ witness.index) path) ∧
    Holding (assertInsertion B leaf path (asField witness.oldRoot) (asField witness.newRoot))

/-- The witnesses of two insertions, each taken before its own, are those of a split. -/
def WitnessesFeedSplit (B : Builtins) (tree : CommitmentTree) (first second : Fr) : Prop :=
  ∃ witness1 index1 mid witness2 index2 after path1 path2,
    tree.insertionWitness B (encode first) = .ok witness1 ∧
    tree.insert B (encode first) = .ok (index1, mid) ∧
    mid.insertionWitness B (encode second) = .ok witness2 ∧
    mid.insert B (encode second) = .ok (index2, after) ∧
    Carries path1 witness1.path ∧ Carries path2 witness2.path ∧
    Holding (Split.doubleAppend B first second (Fin.ofNat _ witness1.index) (asField (tree.root B))
      (asField (after.root B)) path1 path2)

section Tree

variable {tree : CommitmentTree} {leaves : List Fr} (h : Holds B tree (leaves.map encode))
include h

theorem Holds.count_eq : tree.count = leaves.length := by
  rw [h.count, List.length_map]

theorem Holds.proofFeeds {index : Nat} (hindex : index < leaves.length)
    (hfits : leaves.length ≤ maxLeaves) :
    ProofFeeds B tree index (leaves.get ⟨index, hindex⟩) := by
  have hpath := h.path index
  have hleaf : CommitmentTree.nodeAt B tree.nodes 0 index = encode (leaves.get ⟨index, hindex⟩) :=
    (h.nodeAt (Nat.zero_le _) index).trans
      (congrArg encode (List.getD_eq_getElem leaves emptyLeaf hindex))
  have hknown : ¬ tree.count ≤ index := by
    rw [h.count_eq]
    omega
  refine ⟨_, circuitPath B leaves index, if_neg hknown, hleaf, rfl, rfl, ?_, ?_, ?_⟩
  · rw [hpath]
    exact carries_encode _
  · rw [h.root, asField_encode]
    exact membership_holding hindex hfits
  · have hfold : fold B (CommitmentTree.nodeAt B tree.nodes 0 index)
        (pathFrom B tree.nodes treeDepth 0 index) = tree.root B := by
      rw [hleaf, hpath, fold_encode, climb_leaf hindex hfits, h.root]
    rw [verifyMerkleProof, hfold]
    exact List.isPrefixOf_iff_prefix.mpr (List.prefix_refl _)

/-- The roots of a witness, and the tree it foretells. -/
theorem Holds.witness (hroom : leaves.length < maxLeaves) (leaf : Fr) :
    ∃ witness after, tree.insertionWitness B (encode leaf) = .ok witness ∧
      tree.insert B (encode leaf) = .ok (leaves.length, after) ∧
      Holds B after ((leaves ++ [leaf]).map encode) ∧ witness.index = leaves.length ∧
      witness.emptyLeaf = zero ∧ witness.oldRoot = encode (naiveRoot B leaves) ∧
      witness.newRoot = encode (naiveRoot B (leaves ++ [leaf])) ∧
      Carries (circuitPath B leaves leaves.length) witness.path := by
  have hcount : tree.count < maxLeaves := h.count_eq ▸ hroom
  obtain ⟨after, hinsert⟩ := insert_ok (B := B) hcount (encode leaf)
  have hafter := (h.insert hinsert).2
  have hpath := h.path leaves.length
  rw [h.count_eq] at hinsert
  refine ⟨_, after, if_neg (Nat.not_le_of_lt hcount), hinsert, ?_, h.count_eq, rfl, ?_, ?_, ?_⟩
  · rwa [List.map_append, List.map_singleton]
  · change fold B zero _ = _
    rw [h.count_eq, hpath, ← encode_emptyLeaf, fold_encode, climb_empty hroom]
  · change fold B (encode leaf) _ = _
    rw [h.count_eq, hpath, fold_encode, climb_next hroom]
  · change Carries _ (pathFrom B tree.nodes treeDepth 0 tree.count)
    rw [h.count_eq, hpath]
    exact carries_encode _

theorem Holds.witnessFeeds (hroom : leaves.length < maxLeaves) (leaf : Fr) :
    WitnessFeeds B tree leaf := by
  obtain ⟨witness, after, hwitness, hinsert, hafter, hindex, hempty, hold, hnew, hcarries⟩ :=
    h.witness hroom leaf
  refine ⟨witness, after, _, hwitness, hindex ▸ hinsert, hindex.trans h.count_eq.symm, hempty,
    hold.trans h.root.symm, hnew.trans hafter.root.symm, hcarries, ?_, ?_⟩
  · intro t
    rw [hindex]
    exact ⟨t, indexBits_ok hroom t⟩
  · rw [hold, hnew, asField_encode, asField_encode]
    exact insertion_holding hroom leaf

theorem Holds.witnessesFeedSplit (hroom : leaves.length + 1 < maxLeaves) (first second : Fr) :
    WitnessesFeedSplit B tree first second := by
  have hlength : (leaves ++ [first]).length < maxLeaves := by
    rwa [List.length_append]
  obtain ⟨witness1, mid, hwitness1, hinsert1, hmid, hindex1, -, -, -, hcarries1⟩ :=
    h.witness (by omega) first
  obtain ⟨witness2, after, hwitness2, hinsert2, hafter, -, -, -, -, hcarries2⟩ :=
    hmid.witness hlength second
  refine ⟨witness1, _, mid, witness2, _, after, _, _, hwitness1, hinsert1, hwitness2, hinsert2,
    hcarries1, hcarries2, ?_⟩
  rw [hindex1, h.root, hafter.root, asField_encode, asField_encode]
  exact doubleAppend_holding rfl hlength second

end Tree

/-- After any insertions of at most `maxLeaves` field elements into an empty tree: its
root is the naive one; the proof of each leaf passes the circuit's membership check and
the client's own; a witness for another insertion leaves the tree as it is, foretells
the root after that insertion and passes the circuit's checks; and the witnesses of two
insertions pass those of a split. -/
theorem commitment_tree_reference (B : Builtins) (leaves : List Fr)
    (hfits : leaves.length ≤ maxLeaves) :
    ∃ tree : CommitmentTree,
      (empty : CommitmentTree).insertMany B (leaves.map encode) =
        .ok (List.range leaves.length, tree) ∧
      tree.root B = encode (naiveRoot B leaves) ∧
      (∀ (index : Nat) (hindex : index < leaves.length),
        ProofFeeds B tree index (leaves.get ⟨index, hindex⟩)) ∧
      (leaves.length < maxLeaves → ∀ leaf, WitnessFeeds B tree leaf) ∧
      (leaves.length + 1 < maxLeaves → ∀ first second, WitnessesFeedSplit B tree first second) := by
  have hempty : Holds B (empty : CommitmentTree) [] := holds_empty
  obtain ⟨tree, hmany, hholds⟩ := hempty.insertMany (leaves.map encode) (by simpa using hfits)
  rw [List.length_map, List.length_nil, ← List.range_eq_range'] at hmany
  rw [List.nil_append] at hholds
  exact ⟨tree, hmany, hholds.root, fun index hindex => hholds.proofFeeds hindex hfits,
    hholds.witnessFeeds, hholds.witnessesFeedSplit⟩

end CommitmentTree

namespace Sample

/-- Hash functions that one can compute by hand. -/
def linear : Builtins where
  hash2 left right := left + 2 * right + 1
  hash4 first second third fourth := first + second + third + fourth
  fixedBaseScalarMul ownerSk := (ownerSk, 0)

end Sample

/-- A tree of two leaves. -/
theorem commitment_tree_reference_two :
    ∃ tree : CommitmentTree,
      (CommitmentTree.empty : CommitmentTree).insertMany Sample.linear [encode 3, encode 4] =
        .ok ([0, 1], tree) ∧
      tree.root Sample.linear = encode (CommitmentTree.naiveRoot Sample.linear [3, 4]) ∧
      CommitmentTree.ProofFeeds Sample.linear tree 1 4 ∧
      CommitmentTree.WitnessesFeedSplit Sample.linear tree 5 6 := by
  obtain ⟨tree, hmany, hroot, hproofs, -, hsplit⟩ :=
    CommitmentTree.commitment_tree_reference Sample.linear [3, 4] (by decide)
  exact ⟨tree, hmany, hroot, hproofs 1 (by decide), hsplit (by decide) 5 6⟩

end StxShield.Sdk
