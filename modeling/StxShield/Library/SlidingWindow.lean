import Mathlib.Algebra.Order.Group.Defs
import Mathlib.Data.List.Basic

/-!
# Sliding windows

A limiter that keeps the times it counted, and drops those that have left the window
when it looks, counts the same as one that keeps every time it ever admitted.
-/

namespace StxShield.Library

variable {T : Type} [AddCommGroup T] [LinearOrder T] {length now : T} {limit : Nat}
  {admitted kept : List T}

/-- The times in the window that ends now. -/
def recent (length now : T) (times : List T) : List T :=
  times.filter fun time => now - length < time

theorem recent_append (times times' : List T) :
    recent length now (times ++ times') = recent length now times ++ recent length now times' :=
  List.filter_append times times'

/-- Times that are all in one window of the length. -/
def InOneWindow (length : T) (inside : T → Prop) : Prop :=
  ∀ time time', inside time → inside time' → time' - length < time

/-- The kept times stand for all the admitted ones. -/
structure Remembers (length : T) (limit : Nat) (admitted kept : List T) : Prop where
  /-- Whoever looks after the last admission finds the same. -/
  agrees : ∀ now, (∀ time ∈ admitted, time ≤ now) →
    recent length now kept = recent length now admitted
  /-- No window holds too many. -/
  bounded : ∀ (inside : T → Prop) [DecidablePred inside], InOneWindow length inside →
    admitted.countP (fun time => inside time) ≤ limit

theorem Remembers.nil : Remembers length limit ([] : List T) [] where
  agrees _ _ := rfl
  bounded _ _ _ := Nat.zero_le limit

/-! ## Time goes on -/

variable [IsOrderedAddMonoid T]

/-- What has left the window does not come back. -/
theorem recent_recent {later : T} (hlater : now ≤ later) (times : List T) :
    recent length later (recent length now times) = recent length later times := by
  unfold recent
  rw [List.filter_filter]
  refine List.filter_congr fun time _ => ?_
  have hshift : now - length ≤ later - length := sub_le_sub_right hlater length
  simp only [Bool.and_eq_decide, decide_eq_true_eq, decide_eq_decide]
  exact ⟨And.left, fun hrecent => ⟨hrecent, hshift.trans_lt hrecent⟩⟩

theorem inOneWindow_from_start (length start : T) :
    InOneWindow length fun time => start ≤ time ∧ time < start + length :=
  fun _ _ h h' => (sub_lt_iff_lt_add.mpr h'.2).trans_le h.1

theorem inOneWindow_to_end (length start : T) :
    InOneWindow length fun time => start < time ∧ time ≤ start + length :=
  fun _ _ h h' => (sub_le_iff_le_add.mpr h'.2).trans_lt h.1

namespace Remembers

/-- One more time is admitted while the window is not full. -/
theorem append (h : Remembers length limit admitted kept) (hclock : ∀ time ∈ admitted, time ≤ now)
    (hroom : (recent length now kept).length < limit) :
    Remembers length limit (admitted ++ [now]) (recent length now kept ++ [now]) where
  agrees later hlater := by
    have hnow : now ≤ later := hlater now (by simp)
    have hearlier : ∀ time ∈ admitted, time ≤ later := fun time hmem => (hclock time hmem).trans hnow
    rw [recent_append, recent_append, recent_recent hnow, h.agrees later hearlier]
  bounded inside _ hinside := by
    rw [List.countP_append, List.countP_singleton]
    by_cases hnow : inside now
    · -- Whatever shares a window with this time is still counted.
      have hcounted : admitted.countP (fun time => inside time) ≤
          (recent length now admitted).length := by
        rw [recent, ← List.countP_eq_length_filter]
        refine List.countP_mono_left fun time _ htime => ?_
        exact decide_eq_true (hinside time now (of_decide_eq_true htime) hnow)
      rw [← h.agrees now hclock] at hcounted
      rw [if_pos (decide_eq_true hnow)]
      omega
    · rw [if_neg (by simpa using hnow)]
      exact h.bounded inside hinside

/-- When the window is full, as many times as the limit are in it. -/
theorem count_of_full (h : Remembers length limit admitted kept)
    (hclock : ∀ time ∈ admitted, time ≤ now) (hfull : limit ≤ (recent length now kept).length) :
    admitted.countP (fun time => now - length < time ∧ time ≤ now) = limit := by
  have hwindow : InOneWindow length fun time => now - length < time ∧ time ≤ now := by
    simpa only [sub_add_cancel] using inOneWindow_to_end length (now - length)
  refine Nat.le_antisymm (h.bounded _ hwindow) (hfull.trans ?_)
  rw [h.agrees now hclock, recent, ← List.countP_eq_length_filter]
  refine List.countP_mono_left fun time hmem htime => ?_
  exact decide_eq_true ⟨of_decide_eq_true htime, hclock time hmem⟩

end Remembers

end StxShield.Library
