import Mathlib.Algebra.Ring.Nat
import Mathlib.Data.List.Basic
import Mathlib.Tactic.Cases

/-!
# Binary Merkle trees of arbitrary width

The tree over a list of nodes pairs neighbours level by level; the last node of
an odd level is carried up unchanged.  Its paths name no sibling on the levels
where a node is carried, so a verifier that knows only the position and the
width has to skip those levels without being told.
-/

namespace StxShield.Library.BinaryMerkle

variable {α : Type} (hash : α → α → α)

/-! ## Trees -/

/-- The level above: pairs are hashed, an odd last node is carried up. -/
def nextLevel : List α → List α
  | [] => []
  | [last] => [last]
  | left :: right :: rest => hash left right :: nextLevel rest

theorem length_nextLevel (level : List α) :
    (nextLevel hash level).length = (level.length + 1) / 2 := by
  induction level using nextLevel.induct with
  | case1 => simp [nextLevel]
  | case2 last => simp [nextLevel]
  | case3 left right rest ih =>
      simp only [nextLevel, List.length_cons, ih]
      omega

theorem length_nextLevel_lt (left right : α) (rest : List α) :
    (nextLevel hash (left :: right :: rest)).length < (left :: right :: rest).length := by
  simp only [length_nextLevel, List.length_cons]
  omega

/-- The root of the tree over a level; there is none over an empty one. -/
def root : List α → Option α
  | [] => none
  | [node] => some node
  | left :: right :: rest => root (nextLevel hash (left :: right :: rest))
termination_by level => level.length
decreasing_by exact length_nextLevel_lt hash left right rest

/-- The other node of the pair that `index` is in. -/
def siblingIndex (index : Nat) : Nat :=
  if index % 2 = 0 then index + 1 else index - 1

/-- The siblings from a node up to the root; a carried node has none. -/
def siblings : List α → Nat → List α
  | [], _ => []
  | [_], _ => []
  | left :: right :: rest, index =>
      ((left :: right :: rest)[siblingIndex index]?).toList ++
        siblings (nextLevel hash (left :: right :: rest)) (index / 2)
termination_by level => level.length
decreasing_by exact length_nextLevel_lt hash left right rest

/-- Every node of the tree over a level. -/
def nodes : List α → List α
  | [] => []
  | [node] => [node]
  | left :: right :: rest =>
      (left :: right :: rest) ++ nodes (nextLevel hash (left :: right :: rest))
termination_by level => level.length
decreasing_by exact length_nextLevel_lt hash left right rest

/-- The pairs hashed on one level. -/
def pairs : List α → List (α × α)
  | left :: right :: rest => (left, right) :: pairs rest
  | _ => []

/-- Every pair hashed in the tree. -/
def treePairs : List α → List (α × α)
  | [] => []
  | [_] => []
  | left :: right :: rest =>
      pairs (left :: right :: rest) ++ treePairs (nextLevel hash (left :: right :: rest))
termination_by level => level.length
decreasing_by exact length_nextLevel_lt hash left right rest

/-! ## Verification -/

/-- The pair hashed at one step: the running node is on the right at an odd
position, and as the last node of its level. -/
def stepPair (node : α) (position width : Nat) (sibling : α) : α × α :=
  if position % 2 = 1 ∨ position + 1 = width then (sibling, node) else (node, sibling)

/-- The root recomputed from a node, its position and width, and a path. -/
def climb (node : α) (position width : Nat) : List α → α
  | [] => node
  | sibling :: rest =>
      climb
        (hash (stepPair node position width sibling).1 (stepPair node position width sibling).2)
        (position / 2) ((width - 1) / 2 + 1) rest

/-- The pairs a recomputation hashes. -/
def climbPairs (node : α) (position width : Nat) : List α → List (α × α)
  | [] => []
  | sibling :: rest =>
      stepPair node position width sibling ::
        climbPairs
          (hash (stepPair node position width sibling).1 (stepPair node position width sibling).2)
          (position / 2) ((width - 1) / 2 + 1) rest

/-! ## Completeness -/

/-- What is in a place of the next level. -/
theorem getElem?_nextLevel (level : List α) (index : Nat) :
    (nextLevel hash level)[index]? =
      match level[2 * index]?, level[2 * index + 1]? with
      | some left, some right => some (hash left right)
      | some last, none => some last
      | none, _ => none := by
  induction level using nextLevel.induct generalizing index with
  | case1 => simp [nextLevel]
  | case2 last =>
      cases index with
      | zero => simp [nextLevel]
      | succ index =>
          have hpast : 2 * (index + 1) = (2 * index + 1) + 1 := by omega
          simp [nextLevel, hpast]
  | case3 left right rest ih =>
      cases index with
      | zero => simp [nextLevel]
      | succ index =>
          have hpast : 2 * (index + 1) = 2 * index + 1 + 1 := by omega
          simp [nextLevel, hpast, ih index]

/-- The verifier's position and width are those of the level, or both it and the
node it follows are last on their levels. -/
def Agrees (position width index count : Nat) : Prop :=
  (position = index ∧ width = count) ∨ (position + 1 = width ∧ index + 1 = count)

/-- They still agree one level up, whether or not a step was taken. -/
theorem Agrees.up {position width index count : Nat} (h : Agrees position width index count)
    (hindex : index < count) :
    Agrees (position / 2) ((width - 1) / 2 + 1) (index / 2) ((count + 1) / 2) := by
  unfold Agrees at h ⊢
  omega

/-- A carried node is the last one, and nothing changes for the verifier. -/
theorem Agrees.carried {position width index count : Nat} (h : Agrees position width index count)
    (hindex : index < count) (hcarried : count ≤ siblingIndex index) :
    Agrees position width (index / 2) ((count + 1) / 2) := by
  unfold Agrees at h ⊢
  unfold siblingIndex at hcarried
  split at hcarried <;> omega

/-- With a sibling the verifier hashes the pair that the tree does. -/
theorem Agrees.stepPair_eq {level : List α} {position width index : Nat} {node sibling : α}
    (h : Agrees position width index level.length) (hnode : level[index]? = some node)
    (hsibling : level[siblingIndex index]? = some sibling) :
    (nextLevel hash level)[index / 2]? =
      some (hash (stepPair node position width sibling).1
        (stepPair node position width sibling).2) := by
  have hindex : index < level.length := (List.getElem?_eq_some_iff.mp hnode).1
  have hbound : siblingIndex index < level.length := (List.getElem?_eq_some_iff.mp hsibling).1
  rw [getElem?_nextLevel]
  unfold siblingIndex at hsibling hbound
  unfold Agrees at h
  split at hsibling
  case isTrue heven =>
    -- on the left: the node is not the last one
    rw [if_pos heven] at hbound
    have hleft : 2 * (index / 2) = index := by omega
    have hside : ¬ (position % 2 = 1 ∨ position + 1 = width) := by omega
    rw [hleft, hnode, hsibling, stepPair, if_neg hside]
  case isFalse hodd =>
    have hleft : 2 * (index / 2) = index - 1 := by omega
    have hright : index - 1 + 1 = index := by omega
    have hside : position % 2 = 1 ∨ position + 1 = width := by omega
    rw [hleft, hright, hnode, hsibling, stepPair, if_pos hside]

theorem climb_siblings_of_agrees (level : List α) {position width index : Nat} {node : α}
    (h : Agrees position width index level.length) (hnode : level[index]? = some node) :
    some (climb hash node position width (siblings hash level index)) = root hash level := by
  induction level, index using siblings.induct hash generalizing position width node with
  | case1 index => simp at hnode
  | case2 last index =>
      have hzero : index = 0 := by
        have hlt := (List.getElem?_eq_some_iff.mp hnode).1
        simpa using hlt
      subst hzero
      simp only [siblings, climb, root]
      exact hnode.symm
  | case3 left right rest index ih =>
      have hindex := (List.getElem?_eq_some_iff.mp hnode).1
      rw [siblings, root]
      cases hsibling : (left :: right :: rest)[siblingIndex index]? with
      | some sibling =>
          rw [Option.toList_some, List.singleton_append, climb]
          refine ih ?_ (h.stepPair_eq hash hnode hsibling)
          rw [length_nextLevel]
          exact h.up hindex
      | none =>
          have hcarried := List.getElem?_eq_none_iff.mp hsibling
          rw [Option.toList_none, List.nil_append]
          refine ih ?_ ?_
          · rw [length_nextLevel]
            exact h.carried hindex hcarried
          · rw [getElem?_nextLevel]
            unfold siblingIndex at hsibling hcarried
            have hplace : 2 * (index / 2) = index := by
              split at hcarried <;> omega
            have heven : index % 2 = 0 := by omega
            rw [if_pos heven] at hsibling
            rw [hplace, hnode, hsibling]

/-- Completeness: a node and its path lead to the root. -/
theorem climb_siblings {level : List α} {index : Nat} {node : α}
    (hnode : level[index]? = some node) :
    some (climb hash node index level.length (siblings hash level index)) = root hash level :=
  climb_siblings_of_agrees hash level (.inl ⟨rfl, rfl⟩) hnode

/-- A path is no longer than the number of halvings. -/
theorem length_siblings_le (level : List α) (index depth : Nat) (h : level.length ≤ 2 ^ depth) :
    (siblings hash level index).length ≤ depth := by
  induction level, index using siblings.induct hash generalizing depth with
  | case1 index => simp [siblings]
  | case2 last index => simp [siblings]
  | case3 left right rest index ih =>
      cases depth with
      | zero => simp at h
      | succ depth =>
          have habove := ih depth (by
            rw [length_nextLevel]
            rw [Nat.pow_succ] at h
            omega)
          have hone : ((left :: right :: rest)[siblingIndex index]?).toList.length ≤ 1 := by
            cases (left :: right :: rest)[siblingIndex index]? <;> simp
          rw [siblings, List.length_append]
          omega

/-! ## Soundness -/

/-- A node of the next level is hashed from a pair or carried. -/
theorem mem_nextLevel {level : List α} {node : α} (h : node ∈ nextLevel hash level) :
    node ∈ level ∨ ∃ pair ∈ pairs level, node = hash pair.1 pair.2 := by
  induction level using nextLevel.induct with
  | case1 => cases h
  | case2 last => exact .inl h
  | case3 left right rest ih =>
      rcases List.mem_cons.mp h with rfl | hrest
      · exact .inr ⟨(left, right), List.mem_cons_self, rfl⟩
      · rcases ih hrest with hold | ⟨pair, hpair, rfl⟩
        · exact .inl (List.mem_cons_of_mem _ (List.mem_cons_of_mem _ hold))
        · exact .inr ⟨pair, List.mem_cons_of_mem _ hpair, rfl⟩

theorem mem_of_mem_pairs {level : List α} {pair : α × α} (h : pair ∈ pairs level) :
    pair.1 ∈ level ∧ pair.2 ∈ level := by
  induction level using pairs.induct with
  | case1 left right rest ih =>
      rcases List.mem_cons.mp h with rfl | hrest
      · exact ⟨List.mem_cons_self, List.mem_cons_of_mem _ List.mem_cons_self⟩
      · obtain ⟨hfst, hsnd⟩ := ih hrest
        exact ⟨List.mem_cons_of_mem _ (List.mem_cons_of_mem _ hfst),
          List.mem_cons_of_mem _ (List.mem_cons_of_mem _ hsnd)⟩
  | case2 level hshort => simp [pairs] at h

/-- A node of the tree is one of the list, or hashed from a pair of the tree. -/
theorem mem_nodes {level : List α} {node : α} (h : node ∈ nodes hash level) :
    node ∈ level ∨ ∃ pair ∈ treePairs hash level, node = hash pair.1 pair.2 := by
  induction level using nodes.induct hash with
  | case1 => simp [nodes] at h
  | case2 last => exact .inl (by simpa [nodes] using h)
  | case3 left right rest ih =>
      rw [nodes] at h
      rw [treePairs]
      rcases List.mem_append.mp h with hlevel | habove
      · exact .inl hlevel
      · rcases ih habove with hnext | ⟨pair, hpair, rfl⟩
        · rcases mem_nextLevel hash hnext with hlevel | ⟨pair, hpair, rfl⟩
          · exact .inl hlevel
          · exact .inr ⟨pair, List.mem_append_left _ hpair, rfl⟩
        · exact .inr ⟨pair, List.mem_append_right _ hpair, rfl⟩

/-- Both parts of a pair of the tree are nodes of the tree. -/
theorem mem_nodes_of_treePairs {level : List α} {pair : α × α}
    (h : pair ∈ treePairs hash level) :
    pair.1 ∈ nodes hash level ∧ pair.2 ∈ nodes hash level := by
  induction level using treePairs.induct hash with
  | case1 => simp [treePairs] at h
  | case2 last => simp [treePairs] at h
  | case3 left right rest ih =>
      rw [treePairs] at h
      rw [nodes]
      rcases List.mem_append.mp h with hlevel | habove
      · obtain ⟨hfst, hsnd⟩ := mem_of_mem_pairs hlevel
        exact ⟨List.mem_append_left _ hfst, List.mem_append_left _ hsnd⟩
      · obtain ⟨hfst, hsnd⟩ := ih habove
        exact ⟨List.mem_append_right _ hfst, List.mem_append_right _ hsnd⟩

theorem root_mem_nodes {level : List α} {top : α} (h : root hash level = some top) :
    top ∈ nodes hash level := by
  induction level using root.induct hash with
  | case1 => simp [root] at h
  | case2 node =>
      rw [root, Option.some.injEq] at h
      simp [nodes, h]
  | case3 left right rest ih =>
      rw [root] at h
      rw [nodes]
      exact List.mem_append_right _ (ih h)

/-- Soundness: if no step hashes to a node of the list, and a step that hashes
to what a pair of the tree hashes to hashes that pair, then a path that ends in
the tree starts in it. -/
theorem mem_nodes_of_climb {level : List α} {node : α} {position width : Nat} {path : List α}
    (hlist : ∀ step ∈ climbPairs hash node position width path, hash step.1 step.2 ∉ level)
    (hfree : ∀ step ∈ climbPairs hash node position width path,
      ∀ pair ∈ treePairs hash level, hash step.1 step.2 = hash pair.1 pair.2 → step = pair)
    (h : climb hash node position width path ∈ nodes hash level) : node ∈ nodes hash level := by
  induction path generalizing node position width with
  | nil => exact h
  | cons sibling rest ih =>
      have hparent := ih (fun step hstep => hlist step (List.mem_cons_of_mem _ hstep))
        (fun step hstep => hfree step (List.mem_cons_of_mem _ hstep)) h
      rcases mem_nodes hash hparent with hlevel | ⟨pair, hpair, heq⟩
      · exact absurd hlevel (hlist _ List.mem_cons_self)
      · have hstep := hfree _ List.mem_cons_self pair hpair heq
        obtain ⟨hfst, hsnd⟩ := mem_nodes_of_treePairs hash hpair
        rw [← hstep] at hfst hsnd
        unfold stepPair at hfst hsnd
        split at hfst
        · rwa [if_pos ‹_›] at hsnd
        · exact hfst

end StxShield.Library.BinaryMerkle
