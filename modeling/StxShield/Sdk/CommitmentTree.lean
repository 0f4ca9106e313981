import StxShield.Circuits.Lib

/-!
# The client's commitment tree

The SDK keeps the nodes of the commitment tree that are not those of an empty
tree, by level and index.  Appending a leaf rewrites the path above it; a witness
for an append is read off the tree before.
-/

namespace StxShield.Sdk

open Library Circuit

/-! ## Field elements -/

/-- A big integer, reduced. -/
def reduce (x : Int) : Fr :=
  ⟨(x % fieldModulus).toNat, by
    have hpos : (0 : Int) < fieldModulus := by decide
    have hlt := Int.emod_lt_of_pos x hpos
    have hnonneg := Int.emod_nonneg x (Int.ne_of_gt hpos)
    omega⟩

/-- The hashes of the Poseidon package; they reduce their arguments. -/
def poseidon2 (B : Builtins) (a b : Int) : Int := (B.hash2 (reduce a) (reduce b)).val

def poseidon4 (B : Builtins) (a b c d : Int) : Int :=
  (B.hash4 (reduce a) (reduce b) (reduce c) (reduce d)).val

/-- `bytesToBig` -/
def bytesToBig (b : Bytes) : Int := bigEndianValue b

def fieldToBytes32 (f : Int) : Bytes := encode (reduce f)

def bytes32ToField (b : Bytes) : Int := (reduce (bytesToBig b)).val

def poseidonHash2 (B : Builtins) (a b : Int) : Bytes := fieldToBytes32 (poseidon2 B a b)

/-! ## The tree -/

/-- `TREE_DEPTH` -/
def treeDepth : Nat := 20

/-- `MAX_LEAVES` -/
def maxLeaves : Nat := 2 ^ treeDepth

def zero : Bytes := List.replicate 32 0

structure CommitmentTree (depth : Nat := treeDepth) where
  nodes : DataMap (Nat × Nat) Bytes
  count : Nat

namespace CommitmentTree

variable (B : Builtins) {depth : Nat}

def hash (l r : Bytes) : Bytes :=
  fieldToBytes32 (bytes32ToField (poseidonHash2 B (bytes32ToField l) (bytes32ToField r)))

/-- The hash of an empty subtree at each level. -/
def zeros : Nat → Bytes
  | 0 => zero
  | level + 1 => hash B (zeros level) (zeros level)

def empty : CommitmentTree depth := { nodes := ∅, count := 0 }

/-- A node, or that of an empty subtree. -/
def nodeAt (nodes : DataMap (Nat × Nat) Bytes) (level index : Nat) : Bytes :=
  (nodes.lookup (level, index)).getD (zeros B level)

def root (tree : CommitmentTree depth) : Bytes := nodeAt B tree.nodes depth 0

/-- The loop of `setLeaf`, for the remaining levels. -/
def setPath : Nat → Nat → Nat → DataMap (Nat × Nat) Bytes → DataMap (Nat × Nat) Bytes
  | 0, _, _, nodes => nodes
  | remaining + 1, level, i, nodes =>
      let sibling := nodeAt B nodes level (i ^^^ 1)
      let current := nodeAt B nodes level i
      let (l, r) := if i &&& 1 = 0 then (current, sibling) else (sibling, current)
      setPath remaining (level + 1) (i >>> 1) (nodes.insert (level + 1, i >>> 1) (hash B l r))

def setLeaf (tree : CommitmentTree depth) (index : Nat) (value : Bytes) : CommitmentTree depth :=
  { tree with nodes := setPath B depth 0 index (tree.nodes.insert (0, index) value) }

/-- Appends a leaf and gives its index, unless the tree is full. -/
def insert (tree : CommitmentTree depth) (commitment : Bytes) :
    Except String (Nat × CommitmentTree depth) :=
  if maxLeaves ≤ tree.count then .error "commitment tree is full"
  else .ok (tree.count, { tree with count := tree.count + 1 }.setLeaf B tree.count commitment)

def insertMany (tree : CommitmentTree depth) :
    List Bytes → Except String (List Nat × CommitmentTree depth)
  | [] => .ok ([], tree)
  | commitment :: rest => do
      let (index, tree) ← tree.insert B commitment
      let (indices, tree) ← tree.insertMany rest
      return (index :: indices, tree)

/-- Direction and sibling at each of the remaining levels, bottom-up. -/
def pathFrom (nodes : DataMap (Nat × Nat) Bytes) : Nat → Nat → Nat → List (Bool × Bytes)
  | 0, _, _ => []
  | remaining + 1, level, i =>
      (i &&& 1 = 1, nodeAt B nodes level (i ^^^ 1)) ::
        pathFrom nodes remaining (level + 1) (i >>> 1)

/-- The root a leaf at the end of a path has. -/
def fold (leaf : Bytes) (path : List (Bool × Bytes)) : Bytes :=
  MerkleTree.climb (hash B) leaf path

structure InsertionWitness where
  index : Nat
  path : List (Bool × Bytes)
  emptyLeaf : Bytes
  oldRoot : Bytes
  newRoot : Bytes

def insertionWitness (tree : CommitmentTree depth) (commitment : Bytes) :
    Except String InsertionWitness :=
  if maxLeaves ≤ tree.count then .error "commitment tree is full"
  else
    let path := pathFrom B tree.nodes depth 0 tree.count
    .ok { index := tree.count, path := path, emptyLeaf := zero, oldRoot := fold B zero path,
          newRoot := fold B commitment path }

structure MerkleProof where
  leaf : Bytes
  index : Nat
  path : List (Bool × Bytes)
  root : Bytes

def proof (tree : CommitmentTree depth) (index : Nat) : Except String MerkleProof :=
  if tree.count ≤ index then
    .error ("leaf " ++ toString index ++ " is not in the tree (size " ++ toString tree.count ++ ")")
  else
    .ok { leaf := nodeAt B tree.nodes 0 index, index := index,
          path := pathFrom B tree.nodes depth 0 index, root := tree.root B }

/-- The root recomputed from a proof is compared byte by byte, as far as it goes. -/
def verifyMerkleProof (proof : MerkleProof) : Bool :=
  (fold B proof.leaf proof.path).isPrefixOf proof.root

/-! ## Appending -/

variable {B} {nodes : DataMap (Nat × Nat) Bytes}

theorem nodeAt_insert (level index : Nat) (value : Bytes) :
    nodeAt B (nodes.insert (level, index) value) level index = value := by
  unfold nodeAt
  rw [AList.lookup_insert]
  rfl

theorem nodeAt_insert_ne {level index other place : Nat} (value : Bytes)
    (h : (other, place) ≠ (level, index)) :
    nodeAt B (nodes.insert (level, index) value) other place = nodeAt B nodes other place := by
  unfold nodeAt
  rw [AList.lookup_insert_ne h]

/-- A path passes by what lies below it. -/
theorem pathFrom_insert_below {level index : Nat} (value : Bytes) {remaining start : Nat} (i : Nat)
    (h : level < start) :
    pathFrom B (nodes.insert (level, index) value) remaining start i =
      pathFrom B nodes remaining start i := by
  induction remaining generalizing start i with
  | zero => rfl
  | succ remaining ih =>
      have hne : (start, i ^^^ 1) ≠ (level, index) := by
        intro heq
        exact absurd (Prod.mk.inj heq).1 (Nat.ne_of_gt h)
      rw [pathFrom, pathFrom, nodeAt_insert_ne value hne, ih (i >>> 1) (Nat.lt_succ_of_lt h)]

/-- The siblings of a path do not include its own first node. -/
theorem pathFrom_insert_self (value : Bytes) (remaining level i : Nat) :
    pathFrom B (nodes.insert (level, i) value) remaining level i =
      pathFrom B nodes remaining level i := by
  cases remaining with
  | zero => rfl
  | succ remaining =>
      have hne : (level, i ^^^ 1) ≠ (level, i) := by
        intro heq
        have hsame : i ^^^ 1 = i := (Prod.mk.inj heq).2
        have hone : (i ^^^ (i ^^^ 1)) = 1 := by
          rw [← Nat.xor_assoc, Nat.xor_self, Nat.zero_xor]
        rw [hsame, Nat.xor_self] at hone
        cases hone
      rw [pathFrom, pathFrom, nodeAt_insert_ne value hne,
        pathFrom_insert_below value (i >>> 1) (Nat.lt_succ_self level)]

/-- The loop leaves the recomputed root at the top. -/
theorem nodeAt_setPath (remaining level i : Nat) (nodes : DataMap (Nat × Nat) Bytes) :
    nodeAt B (setPath B remaining level i nodes) (level + remaining) (i >>> remaining) =
      fold B (nodeAt B nodes level i) (pathFrom B nodes remaining level i) := by
  induction remaining generalizing level i nodes with
  | zero => rfl
  | succ remaining ih =>
      have hlevel : level + (remaining + 1) = level + 1 + remaining := by omega
      have hshift : i >>> (remaining + 1) = i >>> 1 >>> remaining := by
        rw [← Nat.shiftRight_add, Nat.add_comm]
      rw [setPath, hlevel, hshift, ih, nodeAt_insert, pathFrom_insert_self, pathFrom]
      have hbit : i &&& 1 = 0 ∨ i &&& 1 = 1 := by
        rw [Nat.and_one_is_mod]
        omega
      rcases hbit with heven | hodd
      · simp [fold, MerkleTree.climb, MerkleTree.siblingPair, heven]
      · simp [fold, MerkleTree.climb, MerkleTree.siblingPair, hodd]

/-- A witness for an append foretells the root after it. -/
theorem root_insert {tree after : CommitmentTree} {commitment : Bytes} {index : Nat}
    {witness : InsertionWitness} (hinsert : tree.insert B commitment = .ok (index, after))
    (hwitness : tree.insertionWitness B commitment = .ok witness) :
    after.root B = witness.newRoot ∧ index = witness.index := by
  unfold insert at hinsert
  unfold insertionWitness at hwitness
  by_cases hfull : maxLeaves ≤ tree.count
  · rw [if_pos hfull] at hinsert
    cases hinsert
  · rw [if_neg hfull] at hinsert hwitness
    cases hinsert
    cases hwitness
    have htop : tree.count >>> treeDepth = 0 := by
      rw [Nat.shiftRight_eq_div_pow]
      exact Nat.div_eq_of_lt (Nat.lt_of_not_le hfull)
    have hroot := nodeAt_setPath (B := B) treeDepth 0 tree.count
      (tree.nodes.insert (0, tree.count) commitment)
    rw [htop, Nat.zero_add, nodeAt_insert, pathFrom_insert_self] at hroot
    exact ⟨hroot, rfl⟩

end CommitmentTree

end StxShield.Sdk
