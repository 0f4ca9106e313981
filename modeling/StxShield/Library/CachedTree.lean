import StxShield.Library.MerkleTree

/-!
# Cached nodes of a Merkle tree

A tree that is filled over time keeps its nodes by height and index, and rewrites
those above each new leaf.  The nodes kept are then those of the tree over its
leaves, and the paths read off them lead to its root.
-/

namespace StxShield.Library.MerkleTree

variable {α β : Type} (hash : α → α → α)

/-! ## Heights -/

/-- The nodes at a height above the slots. -/
def level (slots : Nat → α) : Nat → Nat → α
  | 0 => slots
  | height + 1 => parents hash (level slots height)

theorem level_parents (slots : Nat → α) (height : Nat) :
    level hash (parents hash slots) height = level hash slots (height + 1) := by
  induction height with
  | zero => rfl
  | succ height ih => exact congrArg (parents hash) ih

theorem level_root (slots : Nat → α) (depth : Nat) :
    level hash slots depth 0 = root hash depth slots := by
  induction depth generalizing slots with
  | zero => rfl
  | succ depth ih => rw [root, ← ih, level_parents]

theorem level_empty (empty : α) (height index : Nat) :
    level hash (fun _ => empty) height index = emptySubtree hash empty height := by
  induction height generalizing index with
  | zero => rfl
  | succ height ih => exact congrArg₂ hash (ih _) (ih _)

/-- Writing a slot changes nothing but what lies above it. -/
theorem level_update_of_ne (slots : Nat → α) (slot : Nat) (leaf : α) {height index : Nat}
    (h : index ≠ slot / 2 ^ height) :
    level hash (Function.update slots slot leaf) height index = level hash slots height index := by
  induction height generalizing index with
  | zero =>
      rw [pow_zero, Nat.div_one] at h
      exact Function.update_of_ne h _ _
  | succ height ih =>
      rw [pow_succ, ← Nat.div_div_eq_div_mul] at h
      exact congrArg₂ hash (ih (by omega)) (ih (by omega))

/-! ## Keeping the nodes -/

/-- Nodes by height and index. -/
abbrev Nodes (α : Type) : Type := Nat → Nat → α

def Nodes.set (nodes : Nodes α) (height index : Nat) (value : α) : Nodes α :=
  Function.update nodes height (Function.update (nodes height) index value)

theorem Nodes.set_of_ne (nodes : Nodes α) {height other : Nat} (index : Nat) (value : α)
    (h : other ≠ height) : nodes.set height index value other = nodes other :=
  Function.update_of_ne h _ _

/-- The nodes above one are computed anew, for the remaining heights. -/
def rehash : Nat → Nat → Nat → Nodes α → Nodes α
  | 0, _, _, nodes => nodes
  | remaining + 1, height, index, nodes =>
      rehash remaining (height + 1) (index / 2)
        (nodes.set (height + 1) (index / 2) (parents hash (nodes height) (index / 2)))

/-- Up to a height the nodes are those of the tree over some slots. -/
def Caches (depth : Nat) (nodes : Nodes α) (slots : Nat → α) : Prop :=
  ∀ height ≤ depth, nodes height = level hash slots height

variable {hash} {depth : Nat} {nodes : Nodes α} {slots : Nat → α}

/-- One round: the heights done are those of the new tree, the others of the old. -/
theorem rehash_caches {slot : Nat} {leaf : α} {remaining height : Nat}
    (hdone : ∀ k ≤ height, nodes k = level hash (Function.update slots slot leaf) k)
    (hrest : ∀ k, height < k → k ≤ height + remaining → nodes k = level hash slots k) :
    Caches hash (height + remaining) (rehash hash remaining height (slot / 2 ^ height) nodes)
      (Function.update slots slot leaf) := by
  induction remaining generalizing height nodes with
  | zero => exact hdone
  | succ remaining ih =>
      have hnext : slot / 2 ^ height / 2 = slot / 2 ^ (height + 1) := by
        rw [pow_succ, Nat.div_div_eq_div_mul]
      have hsum : height + (remaining + 1) = height + 1 + remaining := by omega
      rw [rehash, hnext, hsum]
      apply ih
      · intro k hk
        rcases Nat.lt_or_eq_of_le hk with hlt | rfl
        · rw [nodes.set_of_ne _ _ (Nat.ne_of_lt hlt)]
          exact hdone k (Nat.le_of_lt_succ hlt)
        · rw [Nodes.set, Function.update_self, hrest _ (Nat.lt_succ_self height) (by omega),
            hdone height (Nat.le_refl height)]
          funext index
          by_cases heq : index = slot / 2 ^ (height + 1)
          · rw [heq, Function.update_self]
            rfl
          · rw [Function.update_of_ne heq, level_update_of_ne hash slots slot leaf heq]
      · intro k hlt hle
        rw [nodes.set_of_ne _ _ (Nat.ne_of_gt hlt)]
        exact hrest k (Nat.lt_of_succ_lt hlt) (by omega)

/-- Writing a leaf and computing anew what lies above it. -/
theorem Caches.write (h : Caches hash depth nodes slots) (slot : Nat) (leaf : α) :
    Caches hash depth (rehash hash depth 0 slot (nodes.set 0 slot leaf))
      (Function.update slots slot leaf) := by
  have hwritten : Caches hash (0 + depth)
      (rehash hash depth 0 (slot / 2 ^ 0) (nodes.set 0 slot leaf))
      (Function.update slots slot leaf) := by
    apply rehash_caches
    · intro k hk
      obtain rfl := Nat.le_zero.mp hk
      rw [Nodes.set, Function.update_self, h 0 (Nat.zero_le depth)]
      rfl
    · intro k hpos hle
      rw [nodes.set_of_ne _ _ (Nat.ne_of_gt hpos)]
      exact h k (by omega)
  rwa [Nat.zero_add, pow_zero, Nat.div_one] at hwritten

/-! ## Reading paths -/

def sibling (index : Nat) : Nat := if index % 2 = 1 then index - 1 else index + 1

/-- Direction and sibling at each of the remaining heights, bottom-up. -/
def pathFrom (nodes : Nodes α) : Nat → Nat → Nat → List (Bool × α)
  | 0, _, _ => []
  | remaining + 1, height, index =>
      (index % 2 = 1, nodes height (sibling index)) ::
        pathFrom nodes remaining (height + 1) (index / 2)

theorem pathFrom_length (nodes : Nodes α) (remaining height index : Nat) :
    (pathFrom nodes remaining height index).length = remaining := by
  induction remaining generalizing height index with
  | zero => rfl
  | succ remaining ih => rw [pathFrom, List.length_cons, ih]

/-- The directions are the lowest bits of the index. -/
theorem position_pathFrom (nodes : Nodes α) (remaining height index : Nat) :
    position (pathFrom nodes remaining height index) = index % 2 ^ remaining := by
  induction remaining generalizing height index with
  | zero => rw [pow_zero, Nat.mod_one]; rfl
  | succ remaining ih =>
      rw [pathFrom, position, ih, pow_succ', Nat.mod_mul]
      rcases Nat.mod_two_eq_zero_or_one index with heven | hodd
      · simp [heven]
      · simp [hodd]

theorem pathFrom_congr {nodes' : Nodes α} {remaining height : Nat}
    (h : ∀ k, height ≤ k → k < height + remaining → nodes k = nodes' k) (index : Nat) :
    pathFrom nodes remaining height index = pathFrom nodes' remaining height index := by
  induction remaining generalizing height index with
  | zero => rfl
  | succ remaining ih =>
      rw [pathFrom, pathFrom, h height (Nat.le_refl height) (by omega),
        ih (fun k hk hlt => h k (Nat.le_of_succ_le hk) (by omega))]

theorem Caches.pathFrom (h : Caches hash depth nodes slots) (index : Nat) :
    pathFrom nodes depth 0 index = pathFrom (level hash slots) depth 0 index :=
  pathFrom_congr (fun k _ hk => h k (by omega)) index

/-- The pair that a step of a path hashes is the pair of neighbours. -/
theorem hash_siblingPair (hash : α → α → α) (nodes : Nat → α) (index : Nat) :
    hash (siblingPair (nodes index) (decide (index % 2 = 1), nodes (sibling index))).1
        (siblingPair (nodes index) (decide (index % 2 = 1), nodes (sibling index))).2 =
      parents hash nodes (index / 2) := by
  unfold siblingPair sibling parents
  rcases Nat.mod_two_eq_zero_or_one index with heven | hodd
  · have hleft : 2 * (index / 2) = index := by omega
    simp [heven, hleft]
  · have hright : 2 * (index / 2) + 1 = index := by omega
    have hleft : 2 * (index / 2) = index - 1 := by omega
    simp only [hodd, decide_true, ↓reduceIte, hleft]
    rw [← hleft, hright]

/-- A path read off a tree leads, from any leaf put in its slot, to the root of the
tree with that leaf. -/
theorem climb_pathFrom (slots : Nat → α) (slot : Nat) (leaf : α) (remaining height : Nat) :
    climb hash (level hash (Function.update slots slot leaf) height (slot / 2 ^ height))
        (pathFrom (level hash slots) remaining height (slot / 2 ^ height)) =
      level hash (Function.update slots slot leaf) (height + remaining)
        (slot / 2 ^ (height + remaining)) := by
  induction remaining generalizing height with
  | zero => rfl
  | succ remaining ih =>
      have hnext : slot / 2 ^ height / 2 = slot / 2 ^ (height + 1) := by
        rw [pow_succ, Nat.div_div_eq_div_mul]
      have hother : sibling (slot / 2 ^ height) ≠ slot / 2 ^ height := by
        unfold sibling
        split <;> omega
      have hsum : height + (remaining + 1) = height + 1 + remaining := by omega
      rw [pathFrom, climb, ← level_update_of_ne hash slots slot leaf hother, hash_siblingPair hash,
        hnext, hsum]
      exact ih (height + 1)

theorem climb_slot {slot : Nat} (hslot : slot < 2 ^ depth) (slots : Nat → α) (leaf : α) :
    climb hash leaf (MerkleTree.pathFrom (level hash slots) depth 0 slot) =
      root hash depth (Function.update slots slot leaf) := by
  have hclimb : climb hash (Function.update slots slot leaf (slot / 2 ^ 0))
      (MerkleTree.pathFrom (level hash slots) depth 0 (slot / 2 ^ 0)) =
      level hash (Function.update slots slot leaf) (0 + depth) (slot / 2 ^ (0 + depth)) :=
    climb_pathFrom slots slot leaf depth 0
  rwa [pow_zero, Nat.div_one, Function.update_self, Nat.zero_add, Nat.div_eq_of_lt hslot,
    level_root] at hclimb

/-- The path of a leaf leads to the root. -/
theorem climb_member {slot : Nat} (hslot : slot < 2 ^ depth) (slots : Nat → α) :
    climb hash (slots slot) (MerkleTree.pathFrom (level hash slots) depth 0 slot) =
      root hash depth slots := by
  rw [climb_slot hslot, Function.update_eq_self]

/-! ## Another representation of the nodes -/

variable {hash' : β → β → β} {encode : α → β}

theorem level_encode (hencode : ∀ x y, hash' (encode x) (encode y) = encode (hash x y))
    (slots : Nat → α) (height index : Nat) :
    level hash' (fun i => encode (slots i)) height index =
      encode (level hash slots height index) := by
  induction height generalizing index with
  | zero => rfl
  | succ height ih =>
      rw [level, parents, ih, ih, hencode]
      rfl

theorem climb_encode (hencode : ∀ x y, hash' (encode x) (encode y) = encode (hash x y)) (leaf : α)
    (path : List (Bool × α)) :
    climb hash' (encode leaf) (path.map fun step => (step.1, encode step.2)) =
      encode (climb hash leaf path) := by
  induction path generalizing leaf with
  | nil => rfl
  | cons step rest ih =>
      obtain ⟨bit, sibling⟩ := step
      cases bit with
      | true => exact (congrArg (climb hash' · _) (hencode sibling leaf)).trans (ih _)
      | false => exact (congrArg (climb hash' · _) (hencode leaf sibling)).trans (ih _)

theorem pathFrom_encode {nodes' : Nodes β} {remaining height : Nat}
    (h : ∀ k index, nodes' k index = encode (nodes k index)) (index : Nat) :
    MerkleTree.pathFrom nodes' remaining height index =
      (MerkleTree.pathFrom nodes remaining height index).map fun step =>
        (step.1, encode step.2) := by
  induction remaining generalizing height index with
  | zero => rfl
  | succ remaining ih =>
      rw [MerkleTree.pathFrom, MerkleTree.pathFrom, List.map_cons, h, ih]

end StxShield.Library.MerkleTree
