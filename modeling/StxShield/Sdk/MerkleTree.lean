import StxShield.Sdk.CommitmentTree

/-!
# The Merkle tree of the roots module

A second implementation of the commitment tree.  Its objects refer to an array of
leaves and to a map of nodes for each level, and a copy must not share them; so they
are kept in a heap, by address.
-/

namespace StxShield.Sdk.Roots

open Library Circuit

/-! ## Objects -/

/-- The arrays and the maps there are; those from `next` on are not in use. -/
structure Heap where
  arrays : Nat → List Bytes
  maps : Nat → DataMap Nat Bytes
  next : Nat

namespace Heap

def newArray (content : List Bytes) (heap : Heap) : Nat × Heap :=
  (heap.next,
    { heap with
      arrays := Function.update heap.arrays heap.next content
      next := heap.next + 1 })

/-- Maps with these contents, one after the other. -/
def newMaps (contents : Nat → DataMap Nat Bytes) (count : Nat) (heap : Heap) : Nat × Heap :=
  (heap.next,
    { heap with
      maps := fun address =>
        if heap.next ≤ address ∧ address < heap.next + count then contents (address - heap.next)
        else heap.maps address
      next := heap.next + count })

def setArray (address : Nat) (content : List Bytes) (heap : Heap) : Heap :=
  { heap with arrays := Function.update heap.arrays address content }

def setMap (address : Nat) (content : DataMap Nat Bytes) (heap : Heap) : Heap :=
  { heap with maps := Function.update heap.maps address content }

variable (address : Nat) {other : Nat} (heap : Heap)

@[simp]
theorem setArray_arrays (content : List Bytes) :
    (heap.setArray address content).arrays address = content :=
  Function.update_self _ _ _

theorem setArray_arrays_of_ne (content : List Bytes) (h : other ≠ address) :
    (heap.setArray address content).arrays other = heap.arrays other :=
  Function.update_of_ne h _ _

@[simp]
theorem setMap_maps (content : DataMap Nat Bytes) :
    (heap.setMap address content).maps address = content :=
  Function.update_self _ _ _

theorem setMap_maps_of_ne (content : DataMap Nat Bytes) (h : other ≠ address) :
    (heap.setMap address content).maps other = heap.maps other :=
  Function.update_of_ne h _ _

theorem newArray_arrays (content : List Bytes) :
    (heap.newArray content).2.arrays heap.next = content :=
  Function.update_self _ _ _

theorem newArray_arrays_of_lt (content : List Bytes) (h : other < heap.next) :
    (heap.newArray content).2.arrays other = heap.arrays other :=
  Function.update_of_ne (Nat.ne_of_lt h) _ _

theorem newMaps_maps (contents : Nat → DataMap Nat Bytes) {count place : Nat} (h : place < count) :
    (heap.newMaps contents count).2.maps (heap.next + place) = contents place := by
  have hnew : heap.next ≤ heap.next + place ∧ heap.next + place < heap.next + count :=
    ⟨Nat.le_add_right _ _, Nat.add_lt_add_left h _⟩
  exact (if_pos hnew).trans (congrArg contents (Nat.add_sub_cancel_left _ _))

theorem newMaps_maps_of_lt (contents : Nat → DataMap Nat Bytes) (count : Nat)
    (h : other < heap.next) : (heap.newMaps contents count).2.maps other = heap.maps other :=
  if_neg fun hnew => Nat.not_le_of_lt h hnew.1

end Heap

structure ShieldError where
  code : String
  message : String

/-- The addresses of the leaves and of the lowest level's nodes; the maps of the other
levels follow. -/
structure MerkleTree where
  depth : Nat
  leaves : Nat
  nodes : Nat

structure MerklePath where
  leaf : Bytes
  index : Nat
  /-- The index bit, 0 or 1, and the sibling at each level. -/
  path : List (Nat × Bytes)
  root : Bytes

namespace MerkleTree

variable (B : Builtins)

def hash (left right : Bytes) : Bytes :=
  poseidonHash2 B (bytes32ToField left) (bytes32ToField right)

/-- The root of an empty subtree of each height. -/
def zeros : Nat → Bytes
  | 0 => zero
  | height + 1 => hash B (zeros height) (zeros height)

/-- The constructor. -/
def create (depth : Nat) (heap : Heap) : MerkleTree × Heap :=
  let (leaves, heap) := heap.newArray []
  let (nodes, heap) := heap.newMaps (fun _ => ∅) (depth + 1)
  ({ depth := depth, leaves := leaves, nodes := nodes }, heap)

def setNode (tree : MerkleTree) (level index : Nat) (value : Bytes) (heap : Heap) : Heap :=
  heap.setMap (tree.nodes + level) ((heap.maps (tree.nodes + level)).insert index value)

def getNode (tree : MerkleTree) (heap : Heap) (level index : Nat) : Bytes :=
  ((heap.maps (tree.nodes + level)).lookup index).getD (zeros B level)

def size (tree : MerkleTree) (heap : Heap) : Nat := (heap.arrays tree.leaves).length

/-- The loop of `recomputePath`, for the remaining levels. -/
def recomputePath (tree : MerkleTree) : Nat → Nat → Nat → Heap → Heap
  | 0, _, _, heap => heap
  | remaining + 1, level, i, heap =>
      let left :=
        if i % 2 = 0 then tree.getNode B heap level i else tree.getNode B heap level (i - 1)
      let right :=
        if i % 2 = 0 then tree.getNode B heap level (i + 1) else tree.getNode B heap level i
      let parent := hash B left right
      tree.recomputePath remaining (level + 1) (i / 2)
        (tree.setNode (level + 1) (i / 2) parent heap)

/-- Appends a leaf and gives its index. -/
def append (tree : MerkleTree) (leaf : Bytes) (heap : Heap) : Except ShieldError Nat × Heap :=
  if 2 ^ tree.depth ≤ tree.size heap then
    (.error { code := "TREE_FULL", message := "commitment tree is full" }, heap)
  else
    let index := tree.size heap
    let heap := heap.setArray tree.leaves (heap.arrays tree.leaves ++ [leaf])
    let heap := tree.setNode 0 index leaf heap
    (.ok index, tree.recomputePath B tree.depth 0 index heap)

def root (tree : MerkleTree) (heap : Heap) : Bytes := tree.getNode B heap tree.depth 0

def clone (tree : MerkleTree) (heap : Heap) : MerkleTree × Heap :=
  let (copy, heap) := create tree.depth heap
  let (leaves, heap) := heap.newArray (heap.arrays tree.leaves)
  let (nodes, heap) := heap.newMaps (fun level => heap.maps (tree.nodes + level)) (tree.depth + 1)
  ({ copy with leaves := leaves, nodes := nodes }, heap)

/-- The loop of `projectRoot`. -/
def appendEach (tree : MerkleTree) : List Bytes → Heap → Except ShieldError Unit × Heap
  | [], heap => (.ok (), heap)
  | leaf :: rest, heap =>
      match tree.append B leaf heap with
      | (.ok _, heap) => tree.appendEach rest heap
      | (.error fault, heap) => (.error fault, heap)

def projectRoot (tree : MerkleTree) (newLeaves : List Bytes) (heap : Heap) :
    Except ShieldError Bytes × Heap :=
  let (scratch, heap) := tree.clone heap
  match scratch.appendEach B newLeaves heap with
  | (.ok (), heap) => (.ok (scratch.root B heap), heap)
  | (.error fault, heap) => (.error fault, heap)

/-- The loop of `proof`, for the remaining levels. -/
def pathFrom (tree : MerkleTree) (heap : Heap) : Nat → Nat → Nat → List (Nat × Bytes)
  | 0, _, _ => []
  | remaining + 1, level, i =>
      let isRight := i % 2 = 1
      let siblingIndex := if isRight then i - 1 else i + 1
      (if isRight then 1 else 0, tree.getNode B heap level siblingIndex) ::
        tree.pathFrom heap remaining (level + 1) (i / 2)

def proof (tree : MerkleTree) (index : Nat) (heap : Heap) : Except ShieldError MerklePath :=
  if tree.size heap ≤ index then
    .error { code := "BAD_INDEX", message := "no leaf at index " ++ toString index }
  else
    .ok { leaf := (heap.arrays tree.leaves).getD index zero, index := index,
          path := tree.pathFrom B heap tree.depth 0 index, root := tree.root B heap }

end MerkleTree

end StxShield.Sdk.Roots
