import Mathlib.Algebra.Order.BigOperators.Group.List
import Mathlib.Data.List.Perm.Subperm
import Mathlib.Data.List.Sort

/-!
# Greedy selection

Items are taken in order until their weights reach a target.  If no item is heavier than
one before it and none has a negative weight, no smaller selection reaches the target.
-/

namespace StxShield.Library.Selection

section Totals

variable {α M : Type} [AddCommMonoid M] {weight : α → M}

/-- What a list of items weighs. -/
def total (weight : α → M) (items : List α) : M := (items.map weight).sum

@[simp]
theorem total_nil : total weight [] = 0 := rfl

@[simp]
theorem total_cons (item : α) (items : List α) :
    total weight (item :: items) = weight item + total weight items := by
  simp [total]

theorem total_perm {items other : List α} (h : items.Perm other) :
    total weight items = total weight other :=
  (h.map weight).sum_eq

variable {β : Type} {weight' : β → M} {R : α → β → Prop} {items : List α} {others : List β}

/-- Items that are matched weigh the same. -/
theorem total_eq_of_forall₂ (h : List.Forall₂ R items others)
    (hweight : ∀ item other, R item other → weight item = weight' other) :
    total weight items = total weight' others := by
  induction h with
  | nil => rfl
  | cons hmatched _ ih => rw [total_cons, total_cons, ih, hweight _ _ hmatched]

/-- Items that can each be matched can be matched together. -/
theorem exists_forall₂ (h : ∀ item ∈ items, ∃ other, R item other) :
    ∃ others, List.Forall₂ R items others := by
  induction items with
  | nil => exact ⟨[], .nil⟩
  | cons item rest ih =>
      obtain ⟨other, hother⟩ := h item List.mem_cons_self
      obtain ⟨others, hothers⟩ := ih fun item hmem => h item (List.mem_cons_of_mem _ hmem)
      exact ⟨other :: others, .cons hother hothers⟩

end Totals

variable {α M : Type} [AddCommMonoid M] [LinearOrder M]

/-- The items taken, and what they weigh on top of `gathered`. -/
def gather (weight : α → M) (target : M) : List α → M → List α × M
  | [], gathered => ([], gathered)
  | item :: rest, gathered =>
      if target ≤ gathered then ([], gathered)
      else
        let more := gather weight target rest (gathered + weight item)
        (item :: more.1, more.2)

variable {weight : α → M}

/-- The loop takes a prefix: it stops short only at the target, and no earlier one
reaches it. -/
theorem gather_prefix (weight : α → M) (target : M) (items : List α) (gathered : M) :
    ∃ count ≤ items.length, (gather weight target items gathered).1 = items.take count ∧
      (gather weight target items gathered).2 = gathered + total weight (items.take count) ∧
      (count < items.length → target ≤ gathered + total weight (items.take count)) ∧
      ∀ fewer < count, gathered + total weight (items.take fewer) < target := by
  induction items generalizing gathered with
  | nil => exact ⟨0, le_rfl, rfl, by simp [gather], fun h => absurd h (by simp), by simp⟩
  | cons item rest ih =>
      unfold gather
      by_cases hreached : target ≤ gathered
      · rw [if_pos hreached]
        exact ⟨0, Nat.zero_le _, rfl, by simp, fun _ => by simpa using hreached, by simp⟩
      · rw [if_neg hreached]
        obtain ⟨count, hcount, htaken, htotal, hstop, hearlier⟩ := ih (gathered + weight item)
        refine ⟨count + 1, Nat.succ_le_succ hcount, ?_, ?_, fun hlt => ?_, fun fewer hfewer => ?_⟩
        · rw [List.take_succ_cons, ← htaken]
        · show (gather weight target rest (gathered + weight item)).2 = _
          rw [htotal, List.take_succ_cons, total_cons, add_assoc]
        · rw [List.take_succ_cons, total_cons, ← add_assoc]
          exact hstop (Nat.lt_of_succ_lt_succ hlt)
        · cases fewer with
          | zero => simpa using hreached
          | succ fewer =>
              rw [List.take_succ_cons, total_cons, ← add_assoc]
              exact hearlier fewer (Nat.lt_of_succ_lt_succ hfewer)

/-- No item is heavier than one before it, and none weighs less than nothing. -/
structure Descending (weight : α → M) (items : List α) : Prop where
  sorted : items.Pairwise fun a b => weight b ≤ weight a
  nonneg : ∀ item ∈ items, 0 ≤ weight item

namespace Descending

variable {item : α} {items : List α}

theorem tail (h : Descending weight (item :: items)) : Descending weight items where
  sorted := h.sorted.of_cons
  nonneg _ hmem := h.nonneg _ (List.mem_cons_of_mem _ hmem)

theorem head (h : Descending weight (item :: items)) :
    0 ≤ weight item ∧ ∀ other ∈ items, weight other ≤ weight item :=
  ⟨h.nonneg item List.mem_cons_self, (List.pairwise_cons.mp h.sorted).1⟩

variable [IsOrderedAddMonoid M]

/-- A heavier item in front weighs no less than the one it displaces. -/
theorem total_take_le_cons (h : Descending weight (item :: items)) (count : Nat) :
    total weight (items.take count) ≤ total weight ((item :: items).take count) := by
  induction items generalizing count item with
  | nil =>
      cases count with
      | zero => simp
      | succ count => simpa using h.head.1
  | cons next rest ih =>
      cases count with
      | zero => simp
      | succ count =>
          have hnext : weight next ≤ weight item := h.head.2 next List.mem_cons_self
          rw [List.take_succ_cons, List.take_succ_cons, total_cons, total_cons]
          exact add_le_add hnext (ih h.tail count)

/-- Of all sublists of a length the first items weigh the most. -/
theorem total_le_take {sub : List α} (hsub : sub.Sublist items) (h : Descending weight items) :
    total weight sub ≤ total weight (items.take sub.length) := by
  induction hsub with
  | slnil => simp
  | cons item hsub ih => exact (ih h.tail).trans (h.total_take_le_cons _)
  | cons_cons item hsub ih =>
      rw [List.length_cons, List.take_succ_cons, total_cons, total_cons]
      exact add_le_add_right (ih h.tail) _

/-- The first items weigh the most among all choices of a number of items. -/
theorem total_le_of_subperm {sub : List α} (hsub : sub.Subperm items)
    (h : Descending weight items) :
    total weight sub ≤ total weight (items.take sub.length) := by
  obtain ⟨ordered, hperm, hsublist⟩ := hsub
  rw [← total_perm hperm, ← hperm.length_eq]
  exact h.total_le_take hsublist

theorem total_take_le (h : Descending weight items) (count : Nat) :
    total weight (items.take count) ≤ total weight items := by
  induction items generalizing count with
  | nil => simp
  | cons item items ih =>
      cases count with
      | zero =>
          rw [List.take_zero, total_nil, total_cons]
          have hrest := ih h.tail 0
          rw [List.take_zero, total_nil] at hrest
          exact add_nonneg h.head.1 hrest
      | succ count =>
          rw [List.take_succ_cons, total_cons, total_cons]
          exact add_le_add_right (ih h.tail count) _

/-- The loop falls short of the target exactly when all items together do. -/
theorem gather_lt_iff (h : Descending weight items) (target : M) :
    (gather weight target items 0).2 < target ↔ total weight items < target := by
  obtain ⟨count, hcount, -, htotal, hstop, -⟩ := gather_prefix weight target items 0
  rw [htotal, zero_add]
  constructor
  · intro hshort
    have hall : count = items.length := by
      by_contra hne
      have hreached := hstop (Nat.lt_of_le_of_ne hcount hne)
      rw [zero_add] at hreached
      exact absurd hreached (not_le.mpr hshort)
    rwa [hall, List.take_length] at hshort
  · exact (h.total_take_le count).trans_lt

/-- No choice of fewer items reaches the target. -/
theorem gather_minimal (h : Descending weight items) {target : M} {sub : List α}
    (hsub : sub.Subperm items) (hcovers : target ≤ total weight sub) :
    (gather weight target items 0).1.length ≤ sub.length := by
  obtain ⟨count, hcount, htaken, -, -, hearlier⟩ := gather_prefix weight target items 0
  rw [htaken, List.length_take, Nat.min_eq_left hcount]
  by_contra hfewer
  have hshort := hearlier sub.length (Nat.not_le.mp hfewer)
  rw [zero_add] at hshort
  exact absurd (hcovers.trans (h.total_le_of_subperm hsub)) (not_le.mpr hshort)

end Descending

end StxShield.Library.Selection
