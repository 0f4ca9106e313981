import Mathlib.Algebra.BigOperators.Group.List.Basic
import Mathlib.Algebra.Ring.Nat
import Mathlib.Data.List.Basic

/-!
# Jobs chained by promises

A job that is chained to the one before it begins when that is settled, be it fulfilled or
rejected.
-/

namespace StxShield.Library

/-! ## Promises -/

inductive PromiseState where
  | pending
  | fulfilled
  | rejected
  deriving DecidableEq

namespace PromiseState

/-- `promise.catch(() => undefined)` -/
def caught : PromiseState → PromiseState
  | .pending => .pending
  | .fulfilled => .fulfilled
  | .rejected => .fulfilled

/-- `promise.then(fn, fn)` calls `fn`. -/
def CallsBack (promise : PromiseState) : Prop := promise ≠ .pending

instance (promise : PromiseState) : Decidable promise.CallsBack :=
  inferInstanceAs (Decidable (promise ≠ .pending))

theorem caught_callsBack {promise : PromiseState} :
    promise.caught.CallsBack ↔ promise ≠ .pending := by
  cases promise with
  | pending => exact Iff.rfl
  | fulfilled => exact Iff.rfl
  | rejected =>
      constructor
      · intro _ h
        cases h
      · intro _ h
        cases h

end PromiseState

/-! ## Jobs in turn -/

section InTurn

variable {J : Type} {begun settled : J → Prop} {jobs : List J} {job other next : J} {i j : Nat}

/-- No job has begun before the ones ahead of it are settled. -/
def InTurn (begun settled : J → Prop) (jobs : List J) : Prop :=
  jobs.Pairwise fun first second => begun second → settled first

namespace InTurn

theorem before (h : InTurn begun settled jobs) (hi : jobs[i]? = some job) (hbegun : begun job)
    (hlt : j < i) (hj : jobs[j]? = some other) : settled other := by
  obtain ⟨hilt, rfl⟩ := List.getElem?_eq_some_iff.mp hi
  obtain ⟨hjlt, rfl⟩ := List.getElem?_eq_some_iff.mp hj
  exact List.pairwise_iff_getElem.mp h j i hjlt hilt hlt hbegun

theorem after (h : InTurn begun settled jobs) (hi : jobs[i]? = some job) (hopen : ¬ settled job)
    (hlt : i < j) (hj : jobs[j]? = some other) : ¬ begun other :=
  fun hbegun => hopen (h.before hj hbegun hlt hi)

/-- Only one job is under way. -/
theorem unique (h : InTurn begun settled jobs) (hi : jobs[i]? = some job)
    (hj : jobs[j]? = some other) (hibegun : begun job) (hiopen : ¬ settled job)
    (hjbegun : begun other) (hjopen : ¬ settled other) : i = j := by
  rcases Nat.lt_trichotomy i j with hlt | heq | hgt
  · exact absurd hjbegun (h.after hi hiopen hlt hj)
  · exact heq
  · exact absurd hibegun (h.after hj hjopen hgt hi)

theorem nil : InTurn begun settled [] := List.Pairwise.nil

/-- A job that has not begun comes last. -/
theorem concat (h : InTurn begun settled jobs) (hwaiting : ¬ begun job) :
    InTurn begun settled (jobs ++ [job]) := by
  refine List.pairwise_append.mpr ⟨h, List.pairwise_singleton _ _, fun first _ second hsecond => ?_⟩
  obtain rfl := List.mem_singleton.mp hsecond
  exact fun hbegun => absurd hbegun hwaiting

/-- A job whose turn it is may get on. -/
theorem set (h : InTurn begun settled jobs) (hi : jobs[i]? = some job) (hopen : ¬ settled job)
    (hturn : ∀ j, j < i → ∀ other, jobs[j]? = some other → settled other) (next : J) :
    InTurn begun settled (jobs.set i next) := by
  refine List.pairwise_iff_getElem.mpr fun a b ha hb hlt => ?_
  rw [List.length_set] at ha hb
  simp only [List.getElem_set]
  by_cases hsecond : i = b
  · rw [if_pos hsecond, if_neg (by omega)]
    exact fun _ => hturn a (by omega) _ (List.getElem?_eq_getElem ha)
  · rw [if_neg hsecond]
    intro hbegun
    by_cases hfirst : i = a
    · subst hfirst
      exact absurd hbegun (h.after hi hopen hlt (List.getElem?_eq_getElem hb))
    · rw [if_neg hfirst]
      exact List.pairwise_iff_getElem.mp h a b ha hb hlt hbegun

/-- A job may begin once the one before it is settled. -/
theorem turn_of_previous (h : InTurn begun settled jobs) (hsettled : ∀ job, settled job → begun job)
    (hprevious : ∀ k, i = k + 1 → ∃ previous, jobs[k]? = some previous ∧ settled previous) :
    ∀ j, j < i → ∀ other, jobs[j]? = some other → settled other := by
  intro j hlt other hj
  cases i with
  | zero => exact absurd hlt (Nat.not_lt_zero j)
  | succ k =>
      obtain ⟨previous, hk, hdone⟩ := hprevious k rfl
      rcases Nat.lt_or_eq_of_le (Nat.le_of_lt_succ hlt) with hbefore | rfl
      · exact h.before hk (hsettled _ hdone) hbefore hj
      · obtain rfl := Option.some.inj (hk.symm.trans hj)
        exact hdone

end InTurn

/-- Unless all jobs are settled it is the turn of one of them. -/
theorem exists_turn (h : ∃ job ∈ jobs, ¬ settled job) :
    ∃ (i : Nat) (job : J), jobs[i]? = some job ∧ ¬ settled job ∧
      ∀ j, j < i → ∀ other, jobs[j]? = some other → settled other := by
  induction jobs with
  | nil =>
      obtain ⟨job, hmem, -⟩ := h
      exact absurd hmem List.not_mem_nil
  | cons first rest ih =>
      by_cases hfirst : settled first
      · have hrest : ∃ job ∈ rest, ¬ settled job := by
          obtain ⟨job, hmem, hopen⟩ := h
          rcases List.mem_cons.mp hmem with rfl | hmem
          · exact absurd hfirst hopen
          · exact ⟨job, hmem, hopen⟩
        obtain ⟨i, job, hi, hopen, hturn⟩ := ih hrest
        refine ⟨i + 1, job, hi, hopen, fun j hlt other hj => ?_⟩
        cases j with
        | zero =>
            obtain rfl := Option.some.inj hj
            exact hfirst
        | succ j => exact hturn j (Nat.lt_of_succ_lt_succ hlt) other hj
      · exact ⟨0, first, rfl, hfirst, fun j hlt => absurd hlt (Nat.not_lt_zero j)⟩

/-- A job that gets on leaves less to do. -/
theorem sum_rank_set_lt (rank : J → Nat) (hi : jobs[i]? = some job) (hlt : rank next < rank job) :
    ((jobs.set i next).map rank).sum < (jobs.map rank).sum := by
  induction jobs generalizing i with
  | nil => cases hi
  | cons first rest ih =>
      cases i with
      | zero =>
          obtain rfl := Option.some.inj hi
          simp only [List.set_cons_zero, List.map_cons, List.sum_cons]
          omega
      | succ i =>
          have hrest := ih hi
          simp only [List.set_cons_succ, List.map_cons, List.sum_cons]
          omega

end InTurn

end StxShield.Library
