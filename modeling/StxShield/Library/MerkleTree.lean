import Mathlib.Algebra.Ring.Nat
import Mathlib.Data.List.GetD
import Mathlib.Data.Set.Function
import Mathlib.Logic.Function.Basic

/-!
# Binary Merkle trees of fixed depth

A tree of depth `d` is read off a slot assignment: `root` combines neighbours
level by level, `climb` recomputes a root from one leaf and the siblings on its
path.  Collision-freeness is asked of the hash only on a set of inputs: a hash
into a finite type is not injective, and the trees and paths at hand evaluate
it finitely often.
-/

namespace StxShield.Library.MerkleTree

variable {α : Type} (hash : α → α → α)

/-- The level above a slot assignment. -/
def parents (slots : Nat → α) : Nat → α :=
  fun i => hash (slots (2 * i)) (slots (2 * i + 1))

def root : Nat → (Nat → α) → α
  | 0, slots => slots 0
  | depth + 1, slots => root depth (parents hash slots)

/-- The pair hashed one level up: the flag says the node is the right child. -/
def siblingPair (node : α) (step : Bool × α) : α × α :=
  if step.1 then (step.2, node) else (node, step.2)

/-- The root recomputed from a leaf and its path, lowest level first. -/
def climb (leaf : α) : List (Bool × α) → α
  | [] => leaf
  | step :: rest =>
      climb (hash (siblingPair leaf step).1 (siblingPair leaf step).2) rest

/-- The inputs a recomputation hashes. -/
def climbInputs (leaf : α) : List (Bool × α) → List (α × α)
  | [] => []
  | step :: rest =>
      siblingPair leaf step ::
        climbInputs (hash (siblingPair leaf step).1 (siblingPair leaf step).2) rest

/-- The slot a path leads to: its flags are the binary digits, lowest first. -/
def position : List (Bool × α) → Nat
  | [] => 0
  | step :: rest => step.1.toNat + 2 * position rest

/-- Every pair hashed in the tree lies in the set. -/
def Within (asked : Set (α × α)) : Nat → (Nat → α) → Prop
  | 0, _ => True
  | depth + 1, slots =>
      (∀ i < 2 ^ depth, (slots (2 * i), slots (2 * i + 1)) ∈ asked) ∧
        Within asked depth (parents hash slots)

theorem position_lt (path : List (Bool × α)) : position path < 2 ^ path.length := by
  induction path with
  | nil => exact Nat.one_pos
  | cons step rest ih =>
      have hbit : step.1.toNat ≤ 1 := Bool.toNat_le step.1
      simp only [position, List.length_cons, Nat.pow_succ]
      omega

/-- Writing one slot changes exactly its parent on the level above. -/
theorem parents_update (slots : Nat → α) (slot : Nat) (leaf : α) :
    parents hash (Function.update slots slot leaf) =
      Function.update (parents hash slots) (slot / 2)
        (if slot % 2 = 1 then hash (slots (slot - 1)) leaf else hash leaf (slots (slot + 1))) := by
  funext i
  unfold parents
  by_cases hi : i = slot / 2
  · subst hi
    rw [Function.update_self]
    split
    case isTrue hodd =>
      have hright : 2 * (slot / 2) + 1 = slot := by omega
      have hleft : 2 * (slot / 2) = slot - 1 := by omega
      rw [hright, hleft, Function.update_self, Function.update_of_ne (by omega)]
    case isFalse heven =>
      have hleft : 2 * (slot / 2) = slot := by omega
      rw [hleft, Function.update_self, Function.update_of_ne (by omega)]
  · rw [Function.update_of_ne hi, Function.update_of_ne (by omega),
      Function.update_of_ne (by omega)]

section CollisionFree

variable {hash} {asked : Set (α × α)}
variable (hfree : Set.InjOn (fun pair : α × α => hash pair.1 pair.2) asked)

include hfree

/-- The node a path step recomputes is the parent of the honest pair only if
the leaf and the sibling are the honest ones. -/
theorem siblingPair_eq {slots : Nat → α} {node : α} {step : Bool × α} {i : Nat}
    (hasked : siblingPair node step ∈ asked)
    (htree : (slots (2 * i), slots (2 * i + 1)) ∈ asked)
    (h : hash (siblingPair node step).1 (siblingPair node step).2 = parents hash slots i) :
    siblingPair node step = (slots (2 * i), slots (2 * i + 1)) :=
  hfree hasked htree h

/-- Membership is sound: a path that recomputes the root starts at the leaf
that the tree holds in the slot the path names. -/
theorem climb_sound {slots : Nat → α} {leaf : α} {path : List (Bool × α)}
    (hwithin : Within hash asked path.length slots)
    (hasked : ∀ pair ∈ climbInputs hash leaf path, pair ∈ asked)
    (h : climb hash leaf path = root hash path.length slots) :
    leaf = slots (position path) := by
  induction path generalizing slots leaf with
  | nil => exact h
  | cons step rest ih =>
      obtain ⟨hlevel, habove⟩ := hwithin
      have hpair := hasked _ List.mem_cons_self
      have hnode := ih habove (fun pair hmem => hasked pair (List.mem_cons_of_mem _ hmem)) h
      have hhonest := siblingPair_eq hfree hpair (hlevel _ (position_lt rest)) hnode
      unfold siblingPair at hhonest
      simp only [position]
      cases hside : step.1 with
      | true =>
          simp only [hside, ↓reduceIte, Prod.mk.injEq] at hhonest
          rw [hhonest.2, Bool.toNat_true, Nat.add_comm]
      | false =>
          simp only [hside, Bool.false_eq_true, ↓reduceIte, Prod.mk.injEq] at hhonest
          rw [hhonest.1, Bool.toNat_false, Nat.zero_add]

/-- Insertion is exact: a path that recomputes the root of a tree from the leaf
in its slot recomputes, from any other leaf, the root of the tree with that
slot overwritten, and hashes nothing outside the set doing so. -/
theorem climb_update {slots : Nat → α} {old new : α} {path : List (Bool × α)}
    (hwithin : Within hash asked path.length slots)
    (hold : ∀ pair ∈ climbInputs hash old path, pair ∈ asked)
    (hnew : ∀ pair ∈ climbInputs hash new path, pair ∈ asked)
    (h : climb hash old path = root hash path.length slots) :
    climb hash new path =
        root hash path.length (Function.update slots (position path) new) ∧
      Within hash asked path.length (Function.update slots (position path) new) := by
  induction path generalizing slots old new with
  | nil => exact ⟨(Function.update_self (f := slots) 0 new).symm, trivial⟩
  | cons step rest ih =>
      obtain ⟨hlevel, habove⟩ := hwithin
      have hpair := hold _ List.mem_cons_self
      have holdRest := fun pair hmem => hold pair (List.mem_cons_of_mem _ hmem)
      have hnewRest := fun pair hmem => hnew pair (List.mem_cons_of_mem _ hmem)
      have hnode := climb_sound hfree habove holdRest h
      have hhonest := siblingPair_eq hfree hpair (hlevel _ (position_lt rest)) hnode
      obtain ⟨hroot, hinside⟩ := ih habove holdRest hnewRest h
      -- the overwritten parent is the node the path recomputes from the new leaf
      have hparent : parents hash (Function.update slots (position (step :: rest)) new) =
          Function.update (parents hash slots) (position rest)
            (hash (siblingPair new step).1 (siblingPair new step).2) := by
        rw [parents_update]
        unfold siblingPair at hhonest ⊢
        cases hside : step.1 with
        | true =>
            simp only [hside, ↓reduceIte, Prod.mk.injEq] at hhonest
            have hslot : position (step :: rest) = 2 * position rest + 1 := by
              simp [position, hside, Nat.add_comm]
            simp only [hslot, ↓reduceIte, hhonest.1]
            rw [show (2 * position rest + 1) / 2 = position rest by omega,
              if_pos (by omega : (2 * position rest + 1) % 2 = 1), Nat.add_sub_cancel]
        | false =>
            simp only [hside, Bool.false_eq_true, ↓reduceIte, Prod.mk.injEq] at hhonest
            have hslot : position (step :: rest) = 2 * position rest := by
              simp [position, hside]
            simp only [hslot, Bool.false_eq_true, ↓reduceIte, hhonest.2]
            rw [Nat.mul_div_cancel_left _ (by decide : 0 < 2),
              if_neg (by omega : ¬ (2 * position rest) % 2 = 1)]
      refine ⟨?_, ?_, ?_⟩
      · change climb hash _ rest = root hash rest.length (parents hash _)
        rw [hparent]
        exact hroot
      · -- the pair under the overwritten parent is hashed by the new path
        intro i hi
        by_cases heq : i = position rest
        · have hpairNew := hnew _ List.mem_cons_self
          subst heq
          unfold siblingPair at hpairNew hhonest
          cases hside : step.1 with
          | true =>
              simp only [hside, ↓reduceIte, Prod.mk.injEq] at hpairNew hhonest
              have hslot : position (step :: rest) = 2 * position rest + 1 := by
                simp [position, hside, Nat.add_comm]
              rw [hslot, Function.update_self, Function.update_of_ne (by omega), ← hhonest.1]
              exact hpairNew
          | false =>
              simp only [hside, Bool.false_eq_true, ↓reduceIte, Prod.mk.injEq] at hpairNew hhonest
              have hslot : position (step :: rest) = 2 * position rest := by
                simp [position, hside]
              rw [hslot, Function.update_self, Function.update_of_ne (by omega), ← hhonest.2]
              exact hpairNew
        · have hbit : step.1.toNat ≤ 1 := Bool.toNat_le step.1
          have hslot : position (step :: rest) = step.1.toNat + 2 * position rest := rfl
          rw [Function.update_of_ne (by omega), Function.update_of_ne (by omega)]
          exact hlevel i hi
      · rw [hparent]
        exact hinside

end CollisionFree

/-! ## Trees filled from the left -/

/-- The slots of a list of leaves, padded with the empty leaf. -/
def filled (empty : α) (leaves : List α) : Nat → α :=
  fun i => leaves.getD i empty

theorem filled_append (empty : α) (leaves : List α) (leaf : α) :
    filled empty (leaves ++ [leaf]) =
      Function.update (filled empty leaves) leaves.length leaf := by
  funext i
  unfold filled
  rcases Nat.lt_trichotomy i leaves.length with hlt | heq | hgt
  · rw [Function.update_of_ne (by omega), List.getD_append _ _ _ _ hlt]
  · subst heq
    rw [Function.update_self, List.getD_append_right _ _ _ _ (Nat.le_refl _), Nat.sub_self]
    rfl
  · have hbeyond : [leaf].length ≤ i - leaves.length := by
      rw [List.length_singleton]
      omega
    rw [Function.update_of_ne (by omega), List.getD_append_right _ _ _ _ (by omega),
      List.getD_eq_default _ _ hbeyond, List.getD_eq_default _ _ (by omega)]

/-- Overwrite consecutive slots. -/
def writeFrom (slots : Nat → α) : Nat → List α → Nat → α
  | _, [] => slots
  | index, leaf :: rest => writeFrom (Function.update slots index leaf) (index + 1) rest

/-- Appending leaves writes the slots after the last one. -/
theorem filled_append_all (empty : α) (leaves new : List α) :
    filled empty (leaves ++ new) = writeFrom (filled empty leaves) leaves.length new := by
  induction new generalizing leaves with
  | nil => rw [List.append_nil, writeFrom]
  | cons leaf rest ih =>
      have hstep := ih (leaves ++ [leaf])
      rw [List.append_assoc, List.singleton_append, filled_append, List.length_append,
        List.length_singleton] at hstep
      rw [hstep, writeFrom]

/-- A slot holds what it held or one of the leaves written. -/
theorem writeFrom_eq_or_mem (slots : Nat → α) (index : Nat) (leaves : List α) (slot : Nat) :
    writeFrom slots index leaves slot = slots slot ∨ writeFrom slots index leaves slot ∈ leaves := by
  induction leaves generalizing slots index with
  | nil => exact .inl rfl
  | cons leaf rest ih =>
      rw [writeFrom]
      rcases ih (Function.update slots index leaf) (index + 1) with hsame | hwritten
      · rw [hsame]
        by_cases heq : slot = index
        · subst heq
          exact .inr (by simp)
        · exact .inl (Function.update_of_ne heq _ _)
      · exact .inr (List.mem_cons_of_mem _ hwritten)

theorem filled_nil (empty : α) : filled empty ([] : List α) = fun _ => empty := rfl

/-! ## Roots of short lists

The root of a tree filled from the left, computed level by level from its
leaves alone: what lies to the right of them is the empty subtree. -/

/-- The root of the empty subtree of each height. -/
def emptySubtree (empty : α) : Nat → α
  | 0 => empty
  | height + 1 => hash (emptySubtree empty height) (emptySubtree empty height)

/-- The level above a list of nodes, the last one paired with padding. -/
def pairUp (padding : α) : List α → List α
  | [] => []
  | [last] => [hash last padding]
  | left :: right :: rest => hash left right :: pairUp padding rest

def listRoot : Nat → α → List α → α
  | 0, padding, nodes => nodes.headD padding
  | depth + 1, padding, nodes => listRoot depth (hash padding padding) (pairUp hash padding nodes)

theorem parents_filled (padding : α) (nodes : List α) :
    parents hash (filled padding nodes) = filled (hash padding padding) (pairUp hash padding nodes) := by
  funext i
  induction nodes using pairUp.induct generalizing i with
  | case1 => simp [parents, filled, pairUp]
  | case2 last =>
      cases i with
      | zero => simp [parents, filled, pairUp]
      | succ i =>
          have hright : 2 * (i + 1) = 2 * i + 1 + 1 := by omega
          simp [parents, filled, pairUp, hright]
  | case3 left right rest ih =>
      cases i with
      | zero => simp [parents, filled, pairUp]
      | succ i =>
          have hrest := ih i
          have hright : 2 * (i + 1) = 2 * i + 1 + 1 := by omega
          simpa [parents, filled, pairUp, hright] using hrest

theorem root_filled (depth : Nat) (padding : α) (nodes : List α) :
    root hash depth (filled padding nodes) = listRoot hash depth padding nodes := by
  induction depth generalizing padding nodes with
  | zero => cases nodes <;> rfl
  | succ depth ih =>
      rw [root, parents_filled, ih]
      rfl

theorem emptySubtree_hash (empty : α) (height : Nat) :
    emptySubtree hash (hash empty empty) height = emptySubtree hash empty (height + 1) := by
  induction height with
  | zero => rfl
  | succ height ih => exact congrArg₂ hash ih ih

theorem root_empty (empty : α) (depth : Nat) :
    root hash depth (fun _ => empty) = emptySubtree hash empty depth := by
  induction depth generalizing empty with
  | zero => rfl
  | succ depth ih => exact (ih (hash empty empty)).trans (emptySubtree_hash hash empty depth)

/-- In an empty tree only equal neighbours are hashed, one pair a level. -/
theorem within_empty {asked : Set (α × α)} {empty : α} {depth : Nat}
    (h : ∀ height < depth, (emptySubtree hash empty height, emptySubtree hash empty height) ∈ asked) :
    Within hash asked depth fun _ => empty := by
  induction depth generalizing empty with
  | zero => trivial
  | succ depth ih =>
      refine ⟨fun _ _ => h 0 (Nat.succ_pos _), ih fun height hheight => ?_⟩
      rw [emptySubtree_hash]
      exact h (height + 1) (Nat.succ_lt_succ hheight)

end StxShield.Library.MerkleTree
