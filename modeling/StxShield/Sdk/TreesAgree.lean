import StxShield.Sdk.MerkleTree
import StxShield.Sdk.ReferenceTree

/-!
# Two trees in step

Both implementations cache the nodes of the tree over the leaves they have accepted.
They differ in when they are full: one counts to its own capacity, the other to that of
the deepest tree.
-/

namespace StxShield.Sdk.Roots

open Library Circuit

variable {B : Builtins}

namespace MerkleTree

/-! ## The loops -/

theorem hash_eq (left right : Bytes) : hash B left right = CommitmentTree.hash B left right :=
  (CommitmentTree.hash_eq left right).symm

theorem zeros_eq (height : Nat) : zeros B height = CommitmentTree.zeros B height := by
  induction height with
  | zero => rfl
  | succ height ih => rw [zeros, CommitmentTree.zeros, ih, hash_eq]

variable {tree other : MerkleTree} {heap heap' : Heap} {leaves : List Bytes}

theorem getNode_setNode (level index : Nat) (value : Bytes) :
    tree.getNode B (tree.setNode level index value heap) =
      Library.MerkleTree.Nodes.set (tree.getNode B heap) level index value := by
  funext other place
  rcases eq_or_ne other level with rfl | hlevel
  · rw [Library.MerkleTree.Nodes.set, Function.update_self, getNode, setNode, Heap.setMap_maps]
    rcases eq_or_ne place index with rfl | hindex
    · rw [AList.lookup_insert, Function.update_self, Option.getD_some]
    · rw [AList.lookup_insert_ne hindex, Function.update_of_ne hindex, getNode]
  · have haddress : tree.nodes + other ≠ tree.nodes + level := by omega
    rw [Library.MerkleTree.Nodes.set_of_ne _ _ _ hlevel, getNode, setNode,
      Heap.setMap_maps_of_ne _ _ _ haddress, getNode]

/-- The children that the loop picks are the two neighbours. -/
theorem children_eq (row : Nat → Bytes) (i : Nat) :
    (if i % 2 = 0 then row i else row (i - 1)) = row (2 * (i / 2)) ∧
      (if i % 2 = 0 then row (i + 1) else row i) = row (2 * (i / 2) + 1) := by
  rcases Nat.mod_two_eq_zero_or_one i with heven | hodd
  · have hleft : 2 * (i / 2) = i := by omega
    rw [if_pos heven, if_pos heven, hleft]
    exact ⟨rfl, rfl⟩
  · have hright : 2 * (i / 2) + 1 = i := by omega
    have hleft : 2 * (i / 2) = i - 1 := by omega
    rw [if_neg (by omega), if_neg (by omega), hright, hleft]
    exact ⟨rfl, rfl⟩

theorem recomputePath_eq (remaining level i : Nat) (heap : Heap) :
    tree.getNode B (tree.recomputePath B remaining level i heap) =
      Library.MerkleTree.rehash (CommitmentTree.hash B) remaining level i
        (tree.getNode B heap) := by
  induction remaining generalizing level i heap with
  | zero => rfl
  | succ remaining ih =>
      obtain ⟨hleft, hright⟩ := children_eq (tree.getNode B heap level) i
      rw [recomputePath, hleft, hright, ih, getNode_setNode, Library.MerkleTree.rehash, hash_eq]
      rfl

theorem pathFrom_eq (remaining level i : Nat) :
    tree.pathFrom B heap remaining level i =
      (Library.MerkleTree.pathFrom (tree.getNode B heap) remaining level i).map fun step =>
        (step.1.toNat, step.2) := by
  induction remaining generalizing level i with
  | zero => rfl
  | succ remaining ih =>
      rw [pathFrom, Library.MerkleTree.pathFrom, List.map_cons, ih]
      rcases Nat.mod_two_eq_zero_or_one i with heven | hodd
      · simp [heven, Library.MerkleTree.sibling]
      · simp [hodd, Library.MerkleTree.sibling]

/-! ## Objects and the leaves they hold -/

/-- The tree caches the nodes over its leaves, in storage that is in use. -/
structure Holds (B : Builtins) (tree : MerkleTree) (heap : Heap) (leaves : List Bytes) : Prop where
  array : heap.arrays tree.leaves = leaves
  caches : Library.MerkleTree.Caches (CommitmentTree.hash B) tree.depth (tree.getNode B heap)
    (Library.MerkleTree.filled zero leaves)
  leavesInUse : tree.leaves < heap.next
  nodesInUse : tree.nodes + tree.depth < heap.next

/-- The tree's own storage is the same in both heaps. -/
structure Same (tree : MerkleTree) (heap heap' : Heap) : Prop where
  leaves : heap'.arrays tree.leaves = heap.arrays tree.leaves
  nodes : ∀ level ≤ tree.depth, heap'.maps (tree.nodes + level) = heap.maps (tree.nodes + level)

/-- Nothing but the tree's own storage changes. -/
structure Writes (tree : MerkleTree) (heap heap' : Heap) : Prop where
  arrays : ∀ address, address ≠ tree.leaves → heap'.arrays address = heap.arrays address
  maps : ∀ address, (∀ level ≤ tree.depth, address ≠ tree.nodes + level) →
    heap'.maps address = heap.maps address
  next : heap'.next = heap.next

theorem Writes.refl (tree : MerkleTree) (heap : Heap) : Writes tree heap heap :=
  ⟨fun _ _ => rfl, fun _ _ => rfl, rfl⟩

theorem Writes.trans {last : Heap} (h : Writes tree heap heap') (h' : Writes tree heap' last) :
    Writes tree heap last where
  arrays address hne := (h'.arrays address hne).trans (h.arrays address hne)
  maps address hne := (h'.maps address hne).trans (h.maps address hne)
  next := h'.next.trans h.next

theorem setNode_writes {level : Nat} (hlevel : level ≤ tree.depth) (index : Nat) (value : Bytes) :
    Writes tree heap (tree.setNode level index value heap) where
  arrays _ _ := rfl
  maps _ hne := Heap.setMap_maps_of_ne _ _ _ (hne level hlevel)
  next := rfl

theorem setArray_writes (content : List Bytes) :
    Writes tree heap (heap.setArray tree.leaves content) where
  arrays _ hne := Heap.setArray_arrays_of_ne _ _ _ hne
  maps _ _ := rfl
  next := rfl

/-- The loop writes nodes only. -/
theorem recomputePath_writes {remaining level : Nat} (h : level + remaining ≤ tree.depth)
    (i : Nat) (heap : Heap) :
    Writes tree heap (tree.recomputePath B remaining level i heap) ∧
      (tree.recomputePath B remaining level i heap).arrays = heap.arrays := by
  induction remaining generalizing level i heap with
  | zero => exact ⟨.refl _ _, rfl⟩
  | succ remaining ih =>
      obtain ⟨hwrites, harrays⟩ := ih (by omega : level + 1 + remaining ≤ tree.depth) (i / 2) _
      exact ⟨(setNode_writes (by omega) _ _).trans hwrites, harrays⟩

theorem Holds.size (h : Holds B tree heap leaves) : tree.size heap = leaves.length := by
  rw [MerkleTree.size, h.array]

theorem Holds.append (h : Holds B tree heap leaves) (hroom : leaves.length < 2 ^ tree.depth)
    (leaf : Bytes) :
    ∃ heap', tree.append B leaf heap = (.ok leaves.length, heap') ∧
      Holds B tree heap' (leaves ++ [leaf]) ∧ Writes tree heap heap' := by
  have hnotFull : ¬ 2 ^ tree.depth ≤ tree.size heap := by
    rw [h.size]
    exact Nat.not_le_of_lt hroom
  let pushed := heap.setArray tree.leaves (heap.arrays tree.leaves ++ [leaf])
  let written := tree.setNode 0 leaves.length leaf pushed
  let last := tree.recomputePath B tree.depth 0 leaves.length written
  obtain ⟨hloop, harrays⟩ := recomputePath_writes (B := B) (Nat.zero_add tree.depth).le
    leaves.length written
  have hwrites : Writes tree heap last :=
    ((setArray_writes _).trans (setNode_writes (Nat.zero_le _) _ _)).trans hloop
  refine ⟨last, ?_, ⟨?_, ?_, ?_, ?_⟩, hwrites⟩
  · rw [MerkleTree.append, if_neg hnotFull, h.size]
  · rw [harrays]
    change pushed.arrays tree.leaves = _
    rw [Heap.setArray_arrays, h.array]
  · have hcached := h.caches.write leaves.length leaf
    rw [Library.MerkleTree.filled_append]
    change Library.MerkleTree.Caches _ _ (tree.getNode B last) _
    rwa [recomputePath_eq, getNode_setNode]
  · rw [hwrites.next]
    exact h.leavesInUse
  · rw [hwrites.next]
    exact h.nodesInUse

/-- A full tree stays as it is. -/
theorem Holds.append_full (h : Holds B tree heap leaves) (hfull : 2 ^ tree.depth ≤ leaves.length)
    (leaf : Bytes) :
    tree.append B leaf heap =
      (.error { code := "TREE_FULL", message := "commitment tree is full" }, heap) := by
  rw [MerkleTree.append, if_pos (h.size.symm ▸ hfull)]

/-! ## Copies -/

/-- Allocating for a new tree leaves what is in use alone. -/
theorem create_frame (depth : Nat) (heap : Heap) {address : Nat} (h : address < heap.next) :
    (create depth heap).2.arrays address = heap.arrays address ∧
      (create depth heap).2.maps address = heap.maps address := by
  refine ⟨Heap.newArray_arrays_of_lt _ _ h, ?_⟩
  exact Heap.newMaps_maps_of_lt (heap.newArray []).2 (fun _ => ∅) (depth + 1)
    (Nat.lt_succ_of_lt h)

theorem create_next (depth : Nat) (heap : Heap) :
    (create depth heap).2.next = heap.next + 1 + (depth + 1) := rfl

/-- A copy holds the same leaves, in storage of its own. -/
theorem Holds.clone (h : Holds B tree heap leaves) :
    ∃ copy heap', tree.clone heap = (copy, heap') ∧ copy.depth = tree.depth ∧
      Holds B copy heap' leaves ∧ Same tree heap heap' ∧ heap.next ≤ copy.leaves ∧
      heap.next ≤ copy.nodes := by
  let created := (create tree.depth heap).2
  let grown := (created.newArray (created.arrays tree.leaves)).2
  let last := (grown.newMaps (fun level => grown.maps (tree.nodes + level)) (tree.depth + 1)).2
  have hnext : created.next = heap.next + 1 + (tree.depth + 1) := create_next _ _
  have hleaves : created.arrays tree.leaves = leaves :=
    (create_frame tree.depth heap h.leavesInUse).1.trans h.array
  have hnodes (level : Nat) (hlevel : level ≤ tree.depth) :
      grown.maps (tree.nodes + level) = heap.maps (tree.nodes + level) := by
    have hlt : tree.nodes + level < heap.next := by
      have hinUse := h.nodesInUse
      omega
    exact (create_frame tree.depth heap hlt).2
  have hinUse := h.nodesInUse
  have hinUse' := h.leavesInUse
  refine ⟨{ depth := tree.depth, leaves := created.next, nodes := grown.next }, last, rfl, rfl,
    ⟨?_, ?_, ?_, ?_⟩, ⟨?_, fun level hlevel => ?_⟩, ?_, ?_⟩
  · exact (Heap.newArray_arrays created _).trans hleaves
  · intro height hheight
    rw [← h.caches height hheight]
    funext index
    have hcopied : last.maps (grown.next + height) = grown.maps (tree.nodes + height) :=
      Heap.newMaps_maps grown _ (Nat.lt_succ_of_le hheight)
    change ((last.maps (grown.next + height)).lookup index).getD _ = _
    rw [hcopied, hnodes height hheight]
    rfl
  · change created.next < created.next + 1 + (tree.depth + 1)
    omega
  · change created.next + 1 + tree.depth < created.next + 1 + (tree.depth + 1)
    omega
  · have hlt : tree.leaves < created.next := by omega
    exact (Heap.newArray_arrays_of_lt created _ hlt).trans (hleaves.trans h.array.symm)
  · have hlt : tree.nodes + level < grown.next := by
      change _ < created.next + 1
      omega
    exact (Heap.newMaps_maps_of_lt grown _ _ hlt).trans (hnodes level hlevel)
  · change heap.next ≤ created.next
    omega
  · change heap.next ≤ created.next + 1
    omega

/-- Writing to one tree does not show in another. -/
theorem Writes.same (h : Writes other heap heap') (hleaves : tree.leaves < other.leaves)
    (hnodes : tree.nodes + tree.depth < other.nodes) : Same tree heap heap' where
  leaves := h.arrays _ (Nat.ne_of_lt hleaves)
  nodes level hlevel := h.maps _ fun place _ => by omega

theorem Same.trans {last : Heap} (h : Same tree heap heap') (h' : Same tree heap' last) :
    Same tree heap last where
  leaves := h'.leaves.trans h.leaves
  nodes level hlevel := (h'.nodes level hlevel).trans (h.nodes level hlevel)

/-! ## Several leaves -/

theorem Holds.root (h : Holds B tree heap leaves) :
    tree.root B heap = Library.MerkleTree.root (CommitmentTree.hash B) tree.depth
      (Library.MerkleTree.filled zero leaves) := by
  rw [MerkleTree.root, h.caches tree.depth (Nat.le_refl _), Library.MerkleTree.level_root]

/-- What a run of appends returns is settled by the leaves. -/
theorem Holds.appendEach (h : Holds B tree heap leaves) (hfits : leaves.length ≤ 2 ^ tree.depth)
    (more : List Bytes) :
    ∃ heap', Writes tree heap heap' ∧
      (tree.appendEach B more heap = (.ok (), heap') ∧ Holds B tree heap' (leaves ++ more) ∧
          (leaves ++ more).length ≤ 2 ^ tree.depth ∨
        tree.appendEach B more heap =
            (.error { code := "TREE_FULL", message := "commitment tree is full" }, heap') ∧
          2 ^ tree.depth < (leaves ++ more).length) := by
  induction more generalizing leaves heap with
  | nil => exact ⟨heap, .refl _ _, .inl ⟨rfl, by rwa [List.append_nil], by rwa [List.append_nil]⟩⟩
  | cons leaf rest ih =>
      rcases Nat.lt_or_ge leaves.length (2 ^ tree.depth) with hroom | hfull
      · obtain ⟨mid, happend, hmid, hwrites⟩ := h.append hroom leaf
        obtain ⟨last, hlast, hrest⟩ := ih hmid (by rw [List.length_append]; exact hroom)
        refine ⟨last, hwrites.trans hlast, ?_⟩
        rw [MerkleTree.appendEach, happend]
        rwa [List.append_assoc, List.singleton_append] at hrest
      · refine ⟨heap, .refl _ _, .inr ⟨?_, ?_⟩⟩
        · rw [MerkleTree.appendEach, h.append_full hfull]
        · rw [List.length_append, List.length_cons]
          omega

/-- Projecting a root gives what appending would, and touches nothing of the tree. -/
theorem Holds.projectRoot (h : Holds B tree heap leaves) (hfits : leaves.length ≤ 2 ^ tree.depth)
    (more : List Bytes) :
    (tree.projectRoot B more heap).1 =
        (match tree.appendEach B more heap with
        | (.ok (), heap') => .ok (tree.root B heap')
        | (.error fault, _) => .error fault) ∧
      Same tree heap (tree.projectRoot B more heap).2 := by
  obtain ⟨copy, cloned, hclone, hdepth, hcopy, hsame, hleaves, hnodes⟩ := h.clone
  obtain ⟨last, hwrites, hscratch⟩ := hcopy.appendEach (hdepth ▸ hfits) more
  obtain ⟨last', -, htree⟩ := h.appendEach hfits more
  have hkept : Same tree heap last :=
    hsame.trans (hwrites.same (Nat.lt_of_lt_of_le h.leavesInUse hleaves)
      (Nat.lt_of_lt_of_le h.nodesInUse hnodes))
  rw [hdepth] at hscratch
  simp only [MerkleTree.projectRoot, hclone]
  rcases hscratch with ⟨hrun, hholds, hroom⟩ | ⟨hrun, hover⟩
  · rcases htree with ⟨hrun', hholds', -⟩ | ⟨-, hover⟩
    · simp only [hrun, hrun']
      refine ⟨congrArg Except.ok ?_, hkept⟩
      rw [hholds.root, hholds'.root, hdepth]
    · exact absurd hroom (Nat.not_le_of_lt hover)
  · rcases htree with ⟨-, -, hroom⟩ | ⟨hrun', -⟩
    · exact absurd hroom (Nat.not_le_of_lt hover)
    · simp only [hrun, hrun']
      exact ⟨trivial, hkept⟩

end MerkleTree

/-! ## Attempts -/

/-- A leaf after the other is appended; one that is refused is passed over. -/
def MerkleTree.attemptAll (B : Builtins) (tree : MerkleTree) :
    List Bytes → Heap → List (Except ShieldError Nat) × Heap
  | [], heap => ([], heap)
  | leaf :: rest, heap =>
      let (outcome, heap) := tree.append B leaf heap
      let (outcomes, heap) := tree.attemptAll B rest heap
      (outcome :: outcomes, heap)

end StxShield.Sdk.Roots

namespace StxShield.Sdk

open Library Circuit

variable {B : Builtins} {depth : Nat}

/-- A leaf after the other is inserted; one that is refused is passed over. -/
def CommitmentTree.attemptAll (B : Builtins) (tree : CommitmentTree depth) :
    List Bytes → List (Except String Nat) × CommitmentTree depth
  | [] => ([], tree)
  | leaf :: rest =>
      match tree.insert B leaf with
      | .ok (index, tree) =>
          let (outcomes, last) := tree.attemptAll B rest
          (.ok index :: outcomes, last)
      | .error message =>
          let (outcomes, last) := tree.attemptAll B rest
          (.error message :: outcomes, last)

/-- What attempts from one on are answered by a tree that is full at a capacity. -/
def outcomes (capacity start count : Nat) : List (Except String Nat) :=
  (List.range' start count).map fun index =>
    if index < capacity then .ok index else .error "commitment tree is full"

theorem outcomes_succ (capacity start count : Nat) :
    outcomes capacity start (count + 1) =
      (if start < capacity then .ok start else .error "commitment tree is full") ::
        outcomes capacity (start + 1) count := by
  rw [outcomes, List.range'_succ, List.map_cons, outcomes]

/-- Two capacities tell apart exactly the runs that go beyond the smaller. -/
theorem outcomes_eq_iff {capacity larger count : Nat} (h : capacity < larger) :
    outcomes larger 0 count = outcomes capacity 0 count ↔ count ≤ capacity := by
  unfold outcomes
  rw [List.map_inj_left]
  constructor
  · intro hall
    by_contra hover
    have hat := hall capacity (List.mem_range'_1.mpr ⟨Nat.zero_le _, by omega⟩)
    rw [if_pos h, if_neg (Nat.lt_irrefl _)] at hat
    cases hat
  · intro hle index hindex
    have hlt : index < count := by
      have hrange := List.mem_range'_1.mp hindex
      omega
    rw [if_pos (by omega), if_pos (by omega)]

theorem take_append_of_lt {capacity : Nat} {done : List Bytes} (h : done.length < capacity)
    (leaf : Bytes) : (done ++ [leaf]).take capacity = done.take capacity ++ [leaf] := by
  have hgrown : (done ++ [leaf]).length ≤ capacity := by
    rw [List.length_append]
    exact h
  rw [List.take_of_length_le (Nat.le_of_lt h), List.take_of_length_le hgrown]

theorem take_append_of_le {capacity : Nat} {done : List Bytes} (h : capacity ≤ done.length)
    (more : List Bytes) : (done ++ more).take capacity = done.take capacity :=
  List.take_append_of_le_length h

theorem CommitmentTree.Holds.attemptAll {tree : CommitmentTree depth} {done : List Bytes}
    (h : Holds B tree (done.take maxLeaves)) (leaves : List Bytes) :
    (tree.attemptAll B leaves).1 = outcomes maxLeaves done.length leaves.length ∧
      Holds B (tree.attemptAll B leaves).2 ((done ++ leaves).take maxLeaves) := by
  induction leaves generalizing tree done with
  | nil => exact ⟨rfl, by rwa [List.append_nil]⟩
  | cons leaf rest ih =>
      have hlength : (done ++ [leaf]).length = done.length + 1 := by
        rw [List.length_append, List.length_singleton]
      have hcons : done ++ leaf :: rest = done ++ [leaf] ++ rest := by
        rw [List.append_assoc, List.singleton_append]
      rw [List.length_cons, outcomes_succ, hcons, ← hlength]
      rcases Nat.lt_or_ge done.length maxLeaves with hroom | hfull
      · have hcount : tree.count = done.length := by
          rw [h.count, List.length_take, Nat.min_eq_right (Nat.le_of_lt hroom)]
        obtain ⟨after, hinsert⟩ := insert_ok (B := B) (hcount.symm ▸ hroom) leaf
        have hafter := (h.insert hinsert).2
        rw [← take_append_of_lt hroom] at hafter
        obtain ⟨hrest, hlast⟩ := ih hafter
        simp only [CommitmentTree.attemptAll, hinsert, hcount, if_pos hroom]
        exact ⟨congrArg _ hrest, hlast⟩
      · have hcount : maxLeaves ≤ tree.count := by
          rw [h.count, List.length_take, Nat.min_eq_left hfull]
        have hinsert : tree.insert B leaf = .error "commitment tree is full" := if_pos hcount
        rw [← take_append_of_le hfull [leaf]] at h
        obtain ⟨hrest, hlast⟩ := ih h
        simp only [CommitmentTree.attemptAll, hinsert, if_neg (Nat.not_lt_of_le hfull)]
        exact ⟨congrArg _ hrest, hlast⟩

namespace Roots

theorem MerkleTree.Holds.attemptAll {tree : MerkleTree} {heap : Heap} {done : List Bytes}
    (h : Holds B tree heap (done.take (2 ^ tree.depth))) (leaves : List Bytes) :
    (tree.attemptAll B leaves heap).1.map (Except.mapError ShieldError.message) =
        outcomes (2 ^ tree.depth) done.length leaves.length ∧
      Holds B tree (tree.attemptAll B leaves heap).2 ((done ++ leaves).take (2 ^ tree.depth)) := by
  induction leaves generalizing heap done with
  | nil => exact ⟨rfl, by rwa [List.append_nil]⟩
  | cons leaf rest ih =>
      have hlength : (done ++ [leaf]).length = done.length + 1 := by
        rw [List.length_append, List.length_singleton]
      have hcons : done ++ leaf :: rest = done ++ [leaf] ++ rest := by
        rw [List.append_assoc, List.singleton_append]
      rw [List.length_cons, outcomes_succ, hcons, ← hlength]
      rcases Nat.lt_or_ge done.length (2 ^ tree.depth) with hroom | hfull
      · have hcount : (done.take (2 ^ tree.depth)).length = done.length := by
          rw [List.length_take, Nat.min_eq_right (Nat.le_of_lt hroom)]
        obtain ⟨mid, happend, hmid, -⟩ := h.append (hcount.symm ▸ hroom) leaf
        rw [← take_append_of_lt hroom] at hmid
        obtain ⟨hrest, hlast⟩ := ih hmid
        simp only [MerkleTree.attemptAll, happend, hcount, if_pos hroom, List.map_cons]
        exact ⟨congrArg _ hrest, hlast⟩
      · have hcount : 2 ^ tree.depth ≤ (done.take (2 ^ tree.depth)).length := by
          rw [List.length_take, Nat.min_eq_left hfull]
        have happend := h.append_full hcount leaf
        rw [← take_append_of_le hfull [leaf]] at h
        obtain ⟨hrest, hlast⟩ := ih h
        simp only [MerkleTree.attemptAll, happend, if_neg (Nat.not_lt_of_le hfull), List.map_cons]
        exact ⟨congrArg _ hrest, hlast⟩

theorem MerkleTree.holds_create (depth : Nat) (heap : Heap) :
    Holds B (create depth heap).1 (create depth heap).2 [] where
  array := Heap.newArray_arrays heap []
  caches height hheight := by
    funext index
    rw [Library.MerkleTree.filled_nil, Library.MerkleTree.level_empty, ← CommitmentTree.zeros_eq,
      ← zeros_eq]
    have hempty : (create depth heap).2.maps ((create depth heap).1.nodes + height) = ∅ :=
      Heap.newMaps_maps (heap.newArray []).2 (fun _ => ∅) (Nat.lt_succ_of_le hheight)
    rw [getNode, hempty]
    rfl
  leavesInUse := by
    rw [create_next]
    change heap.next < _
    omega
  nodesInUse := by
    rw [create_next]
    change heap.next + 1 + depth < _
    omega

/-! ## Agreement -/

/-- Both have the proof of a leaf, the same one, or neither has. -/
def SameProof : Except String CommitmentTree.MerkleProof → Except ShieldError MerklePath → Prop
  | .ok proof, .ok path =>
      path.leaf = proof.leaf ∧ path.index = proof.index ∧ path.root = proof.root ∧
        path.path = proof.path.map fun step => (step.1.toNat, step.2)
  | .error _, .error _ => True
  | _, _ => False

theorem sameProof {tree : CommitmentTree depth} {other : MerkleTree} {heap : Heap}
    {leaves : List Bytes} (h : CommitmentTree.Holds B tree leaves)
    (h' : other.Holds B heap leaves) (hdepth : other.depth = depth) (index : Nat) :
    SameProof (tree.proof B index) (other.proof B index heap) := by
  subst hdepth
  unfold CommitmentTree.proof MerkleTree.proof
  rw [h.count, h'.size]
  split
  case isTrue => trivial
  case isFalse hknown =>
    refine ⟨?_, rfl, ?_, ?_⟩
    · have hleaf : CommitmentTree.nodeAt B tree.nodes 0 index = leaves.getD index zero :=
        congrFun (h.caches 0 (Nat.zero_le _)) index
      rw [hleaf, h'.array]
    · change other.root B heap = tree.root B
      rw [h'.root, CommitmentTree.root, h.caches _ (Nat.le_refl _), Library.MerkleTree.level_root]
    · change other.pathFrom B heap _ _ _ = (CommitmentTree.pathFrom B tree.nodes _ _ _).map _
      rw [MerkleTree.pathFrom_eq, CommitmentTree.pathFrom_eq, h'.caches.pathFrom,
        h.caches.pathFrom]

/-- A new tree of the first kind after attempts to insert, with what they returned. -/
def inserted (B : Builtins) (depth : Nat) (leaves : List Bytes) :
    List (Except String Nat) × CommitmentTree depth :=
  (CommitmentTree.empty : CommitmentTree depth).attemptAll B leaves

/-- A new tree of the second kind. -/
def created (depth : Nat) (heap : Heap) : MerkleTree := (MerkleTree.create depth heap).1

/-- The heap after attempts to append to it, with what they returned. -/
def appended (B : Builtins) (depth : Nat) (leaves : List Bytes) (heap : Heap) :
    List (Except ShieldError Nat) × Heap :=
  (created depth heap).attemptAll B leaves (MerkleTree.create depth heap).2

/-- The two trees after the same attempts, as seen from outside. -/
structure TreesAgree (B : Builtins) (depth : Nat) (leaves : List Bytes) (heap : Heap) : Prop where
  /-- The first takes `2 ^ depth` leaves and refuses the others. -/
  inserted : (inserted B depth leaves).1 = outcomes (2 ^ depth) 0 leaves.length
  /-- So does the second, with the same message. -/
  appended : (appended B depth leaves heap).1.map (Except.mapError ShieldError.message) =
    outcomes (2 ^ depth) 0 leaves.length
  /-- What was refused has changed nothing. -/
  kept : (Roots.inserted B depth leaves).2.root B =
    Library.MerkleTree.root (CommitmentTree.hash B) depth
      (Library.MerkleTree.filled zero (leaves.take (2 ^ depth)))
  root : (Roots.inserted B depth leaves).2.root B =
    (created depth heap).root B (Roots.appended B depth leaves heap).2
  proofs : ∀ index, SameProof ((Roots.inserted B depth leaves).2.proof B index)
    ((created depth heap).proof B index (Roots.appended B depth leaves heap).2)
  /-- A projected root is that after appending, which the tree shows nothing of. -/
  projects : ∀ more,
    ((created depth heap).projectRoot B more (Roots.appended B depth leaves heap).2).1 =
        (match (created depth heap).appendEach B more (Roots.appended B depth leaves heap).2 with
        | (.ok (), after) => .ok ((created depth heap).root B after)
        | (.error fault, _) => .error fault) ∧
      (created depth heap).Same (Roots.appended B depth leaves heap).2
        ((created depth heap).projectRoot B more (Roots.appended B depth leaves heap).2).2

variable {leaves : List Bytes}

theorem inserted_holds (depth : Nat) (leaves : List Bytes) :
    (inserted B depth leaves).1 = outcomes maxLeaves 0 leaves.length ∧
      CommitmentTree.Holds B (inserted B depth leaves).2 (leaves.take maxLeaves) := by
  have hempty : CommitmentTree.Holds B (CommitmentTree.empty : CommitmentTree depth)
      (([] : List Bytes).take maxLeaves) := CommitmentTree.holds_empty
  exact hempty.attemptAll leaves

theorem appended_holds (depth : Nat) (leaves : List Bytes) (heap : Heap) :
    (appended B depth leaves heap).1.map (Except.mapError ShieldError.message) =
        outcomes (2 ^ depth) 0 leaves.length ∧
      (created depth heap).Holds B (appended B depth leaves heap).2 (leaves.take (2 ^ depth)) := by
  have hempty : (created depth heap).Holds B (MerkleTree.create depth heap).2
      (([] : List Bytes).take (2 ^ depth)) := by
    rw [List.take_nil]
    exact MerkleTree.holds_create depth heap
  exact hempty.attemptAll leaves

theorem treesAgree_of_outcomes (heap : Heap)
    (houtcomes : outcomes maxLeaves 0 leaves.length = outcomes (2 ^ depth) 0 leaves.length)
    (htake : leaves.take maxLeaves = leaves.take (2 ^ depth)) :
    TreesAgree B depth leaves heap := by
  obtain ⟨hinserted, hholds⟩ := inserted_holds (B := B) depth leaves
  obtain ⟨happended, hholds'⟩ := appended_holds (B := B) depth leaves heap
  rw [htake] at hholds
  have hkept : (inserted B depth leaves).2.root B =
      Library.MerkleTree.root (CommitmentTree.hash B) depth
        (Library.MerkleTree.filled zero (leaves.take (2 ^ depth))) := by
    rw [CommitmentTree.root, hholds.caches _ (Nat.le_refl _), Library.MerkleTree.level_root]
  refine ⟨hinserted.trans houtcomes, happended, hkept, hkept.trans hholds'.root.symm,
    fun index => sameProof hholds hholds' rfl index, fun more => ?_⟩
  exact hholds'.projectRoot (List.length_take_le _ _) more

/-- Both kinds of tree give, after any attempts to append field elements, the same
outcomes, roots, proofs and full trees, and projected roots are right, exactly if the
tree has the depth that the first kind is made for or is not overfilled. -/
theorem trees_agree_iff (hdepth : depth ≤ treeDepth) (leaves : List Fr) (heap : Heap) :
    TreesAgree B depth (leaves.map encode) heap ↔
      depth = treeDepth ∨ leaves.length ≤ 2 ^ depth := by
  rcases Nat.lt_or_eq_of_le hdepth with hlt | rfl
  · have hsmaller : 2 ^ depth < maxLeaves := Nat.pow_lt_pow_right (by decide) hlt
    have hiff : outcomes maxLeaves 0 leaves.length = outcomes (2 ^ depth) 0 leaves.length ↔
        leaves.length ≤ 2 ^ depth := outcomes_eq_iff hsmaller
    constructor
    · intro hagree
      have hinserted := (inserted_holds (B := B) depth (leaves.map encode)).1
      have houtcomes := hinserted.symm.trans hagree.inserted
      rw [List.length_map] at houtcomes
      exact .inr (hiff.mp houtcomes)
    · rintro (rfl | hfits)
      · exact absurd hlt (Nat.lt_irrefl _)
      · have hlength : (leaves.map encode).length ≤ 2 ^ depth := by rwa [List.length_map]
        refine treesAgree_of_outcomes heap ?_ ?_
        · rw [List.length_map]
          exact hiff.mpr hfits
        · rw [List.take_of_length_le hlength,
            List.take_of_length_le (hlength.trans (Nat.le_of_lt hsmaller))]
  · exact ⟨fun _ => .inl rfl, fun _ => treesAgree_of_outcomes heap rfl rfl⟩

/-- Nothing has been allocated. -/
def Heap.fresh : Heap where
  arrays _ := []
  maps _ := ∅
  next := 0

/-- Two leaves fill trees of depth one. -/
theorem trees_agree_iff_two : TreesAgree Sample.linear 1 [encode 3, encode 4] .fresh :=
  (trees_agree_iff (by decide) [3, 4] .fresh).mpr (.inr (by decide))

/-- A tree of depth one takes a third leaf, where the other kind is full. -/
theorem trees_disagree :
    ¬ ∀ (B : Builtins) (depth : Nat), 1 ≤ depth → depth ≤ treeDepth → ∀ (leaves : List Fr)
      (heap : Heap), TreesAgree B depth (leaves.map encode) heap := by
  intro halways
  have hagree := halways Sample.linear 1 (by decide) (by decide) [3, 4, 5] .fresh
  have hinserted := (inserted_holds (B := Sample.linear) 1 [encode 3, encode 4, encode 5]).1
  have houtcomes := hinserted.symm.trans hagree.inserted
  have hle := (outcomes_eq_iff (by decide : 2 ^ 1 < maxLeaves)).mp houtcomes
  revert hle
  decide

end Roots

end StxShield.Sdk
