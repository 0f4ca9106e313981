import Mathlib.Data.List.Sort
import Mathlib.Data.List.TakeWhile

/-!
# Stable rankings

Items are sorted by falling keys, and items of one key stay in their order.  The place of
an item is then the number of those that go before it.
-/

namespace StxShield.Library.Ranking

variable {α K : Type} [LinearOrder K] (key : α → K)

def ranked (items : List α) : List α := items.insertionSort fun a b => key b ≤ key a

/-- How many go before an item that stands between these. -/
def rank (front : List α) (item : α) (back : List α) : Nat :=
  front.countP (fun other => key item ≤ key other) + back.countP fun other => key item < key other

variable {key}

theorem ranked_pairwise (items : List α) :
    (ranked key items).Pairwise fun a b => key b ≤ key a := by
  have htotal : Std.Total fun a b : α => key b ≤ key a := ⟨fun a b => le_total (key b) (key a)⟩
  have htrans : IsTrans α fun a b => key b ≤ key a := ⟨fun _ _ _ hab hbc => le_trans hbc hab⟩
  exact List.pairwise_insertionSort _ items

/-- Of sorted items those with greater keys come first. -/
theorem not_lt_of_mem_dropWhile {items : List α} (hsorted : items.Pairwise fun a b => key b ≤ key a)
    (bound : K) : ∀ other ∈ items.dropWhile (fun other => bound < key other),
      ¬ bound < key other := by
  induction items with
  | nil => exact fun other hmem => absurd hmem List.not_mem_nil
  | cons first rest ih =>
      obtain ⟨hfirst, hrest⟩ := List.pairwise_cons.mp hsorted
      rw [List.dropWhile_cons]
      split
      case isTrue => exact ih hrest
      case isFalse hbelow =>
        have hle : ¬ bound < key first := of_decide_eq_false (Bool.eq_false_iff.mpr hbelow)
        intro other hmem
        rcases List.mem_cons.mp hmem with rfl | hlater
        · exact hle
        · exact fun hlt => hle (lt_of_lt_of_le hlt (hfirst other hlater))

theorem length_takeWhile {items : List α} (hsorted : items.Pairwise fun a b => key b ≤ key a)
    (bound : K) : (items.takeWhile fun other => bound < key other).length =
      items.countP fun other => bound < key other := by
  induction items with
  | nil => rfl
  | cons first rest ih =>
      obtain ⟨hfirst, hrest⟩ := List.pairwise_cons.mp hsorted
      rw [List.takeWhile_cons, List.countP_cons]
      split
      case isTrue => rw [List.length_cons, ih hrest]
      case isFalse hbelow =>
        have hle : ¬ bound < key first := of_decide_eq_false (Bool.eq_false_iff.mpr hbelow)
        have hnone : rest.countP (fun other => bound < key other) = 0 := by
          rw [List.countP_eq_zero]
          exact fun other hmem hlt => hle (lt_of_lt_of_le (of_decide_eq_true hlt) (hfirst other hmem))
        rw [hnone]
        rfl

theorem ranked_cons (item : α) (items : List α) :
    ranked key (item :: items) =
      (ranked key items).takeWhile (fun other => key item < key other) ++
        item :: (ranked key items).dropWhile fun other => key item < key other := by
  have hnot : (fun other => decide (¬ key other ≤ key item)) =
      fun other => decide (key item < key other) := by
    funext other
    exact decide_eq_decide.mpr not_le
  unfold ranked
  rw [List.insertionSort_cons_eq_take_drop, hnot]

theorem countP_ranked (p : α → Bool) (items : List α) :
    (ranked key items).countP p = items.countP p :=
  (List.perm_insertionSort _ items).countP_eq p

/-- Where an item is after another one has been sorted in. -/
theorem getElem?_ranked_cons {items : List α} {place : Nat} {item : α} (first : α)
    (h : (ranked key items)[place]? = some item) :
    (ranked key (first :: items))[place + if key item ≤ key first then 1 else 0]? = some item := by
  have hsplit := List.takeWhile_append_dropWhile (p := fun other => key first < key other)
    (l := ranked key items)
  rw [ranked_cons]
  generalize hgreater : (ranked key items).takeWhile (fun other => key first < key other) = greater
    at hsplit ⊢
  generalize hothers : (ranked key items).dropWhile (fun other => key first < key other) = others
    at hsplit ⊢
  rw [← hsplit] at h
  by_cases hplace : place < greater.length
  · rw [List.getElem?_append_left hplace] at h
    have hmem : item ∈ (ranked key items).takeWhile fun other => key first < key other := by
      rw [hgreater]
      exact List.mem_of_getElem? h
    have habove : ¬ key item ≤ key first := by
      have hlt := List.mem_takeWhile_imp hmem
      exact not_le.mpr (of_decide_eq_true hlt)
    rw [if_neg habove, Nat.add_zero, List.getElem?_append_left hplace, h]
  · rw [List.getElem?_append_right (Nat.le_of_not_lt hplace)] at h
    have hmem : item ∈ (ranked key items).dropWhile fun other => key first < key other := by
      rw [hothers]
      exact List.mem_of_getElem? h
    have hbelow : key item ≤ key first :=
      not_lt.mp (not_lt_of_mem_dropWhile (ranked_pairwise items) (key first) item hmem)
    have hshift : place + 1 - greater.length = place - greater.length + 1 := by omega
    rw [if_pos hbelow, List.getElem?_append_right (by omega), hshift, List.getElem?_cons_succ, h]

/-- The place of every item of a list in the ranking. -/
theorem getElem?_ranked (front : List α) (item : α) (back : List α) :
    (ranked key (front ++ item :: back))[rank key front item back]? = some item := by
  induction front with
  | nil =>
      have hplace : rank key [] item back =
          ((ranked key back).takeWhile fun other => key item < key other).length := by
        rw [length_takeWhile (ranked_pairwise back), countP_ranked]
        exact Nat.zero_add _
      rw [List.nil_append, ranked_cons, hplace, List.getElem?_append_right le_rfl, Nat.sub_self]
      rfl
  | cons first rest ih =>
      have hstep : rank key (first :: rest) item back =
          rank key rest item back + if key item ≤ key first then 1 else 0 := by
        unfold rank
        rw [List.countP_cons]
        simp only [decide_eq_true_eq]
        omega
      rw [List.cons_append, hstep]
      exact getElem?_ranked_cons first ih

/-- An item of which there is only one is among the first if few go before it. -/
theorem mem_take_ranked {front : List α} {item : α} {back : List α} {count : Nat}
    (honly : (front ++ item :: back).Nodup) :
    item ∈ (ranked key (front ++ item :: back)).take count ↔ rank key front item back < count := by
  have hplace : (ranked key (front ++ item :: back))[rank key front item back]? = some item :=
    getElem?_ranked front item back
  have hnodup : (ranked key (front ++ item :: back)).Nodup :=
    (List.perm_insertionSort _ _).nodup_iff.mpr honly
  constructor
  · intro hmem
    obtain ⟨place, hother⟩ := List.mem_iff_getElem?.mp hmem
    rw [List.getElem?_take] at hother
    split at hother
    case isTrue hlt =>
      have hbound := (List.getElem?_eq_some_iff.mp hplace).1
      have hsame := (List.getElem?_inj hbound hnodup).mp (hplace.trans hother.symm)
      rwa [hsame]
    case isFalse => cases hother
  · intro hlt
    refine List.mem_iff_getElem?.mpr ⟨rank key front item back, ?_⟩
    rw [List.getElem?_take, if_pos hlt, hplace]

theorem countP_le (bound : K) (items : List α) :
    items.countP (fun other => bound ≤ key other) =
      items.countP (fun other => bound < key other) +
        items.countP fun other => bound = key other := by
  induction items with
  | nil => rfl
  | cons first rest ih =>
      rw [List.countP_cons, List.countP_cons, List.countP_cons, ih]
      rcases lt_trichotomy bound (key first) with hlt | heq | hgt
      · simp only [hlt, hlt.le, hlt.ne, decide_true, decide_false, if_true]
        simp only [Bool.false_eq_true, if_false]
        omega
      · simp only [heq, le_refl, lt_irrefl, decide_true, decide_false, if_true]
        simp only [Bool.false_eq_true, if_false]
        omega
      · simp only [hgt.not_ge, hgt.not_gt, hgt.ne', decide_false]
        simp only [Bool.false_eq_true, if_false]
        omega

/-- The items with greater keys go before, and those of the same key that stand before. -/
theorem rank_eq (front : List α) (item : α) (back : List α) :
    rank key front item back =
      (front ++ item :: back).countP (fun other => key item < key other) +
        front.countP fun other => key item = key other := by
  unfold rank
  rw [countP_le, List.countP_append, List.countP_cons_of_neg (by simp)]
  omega

end StxShield.Library.Ranking
