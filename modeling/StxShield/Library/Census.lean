import Mathlib.Algebra.Order.BigOperators.Group.Finset
import Mathlib.Algebra.Order.Ring.Nat
import Mathlib.Algebra.BigOperators.Group.Finset.Piecewise
import Mathlib.Data.Fintype.Basic
import Mathlib.Logic.Relation
import StxShield.Library.Execution

/-!
# Entities in states, counted by state

A census keeps entities under keys, each in one state of a finite machine, and
counters beside them: one for each state and one for all entities.  Entities
enter in an initial state and move as the machine admits; each event adjusts
the counters of the states it names.  The counters are then the populations,
and no entity leaves or moves otherwise.
-/

namespace StxShield.Library

variable {K V S : Type} [DecidableEq K] [DecidableEq S]

/-! ## Populations -/

/-- One for the state, nothing for the others. -/
def indicator (here state : S) : Nat := if here = state then 1 else 0

/-- How many entries of a map are in a state. -/
def population (stateOf : V → S) (map : DataMap K V) (state : S) : Nat :=
  map.entries.countP fun entry => stateOf entry.2 = state

variable {stateOf : V → S} {map : DataMap K V} {key : K} {old new : V}

omit [DecidableEq S] in
/-- An entry can be brought to the front. -/
theorem perm_cons_kerase {entries : List (Sigma fun _ : K => V)}
    (h : entries.dlookup key = some old) : entries.Perm (⟨key, old⟩ :: entries.kerase key) := by
  induction entries with
  | nil => cases h
  | cons entry rest ih =>
      by_cases heq : key = entry.1
      · obtain ⟨first, value⟩ := entry
        cases heq
        rw [List.dlookup_cons_eq, Option.some.injEq] at h
        rw [h, List.kerase_cons_eq rfl]
      · rw [List.dlookup_cons_ne _ _ heq] at h
        rw [List.kerase_cons_ne heq]
        exact ((ih h).cons entry).trans (.swap _ _ _)

/-- A new entry is one more in its state. -/
theorem population_enter (hnew : map.lookup key = none) (state : S) :
    population stateOf (map.insert key new) state =
      population stateOf map state + indicator (stateOf new) state := by
  have hkey : key ∉ map := AList.lookup_eq_none.mp hnew
  unfold population
  rw [AList.entries_insert_of_notMem hkey, List.countP_cons]
  simp [indicator]

/-- A replaced entry is one less in its old state and one more in its new one. -/
theorem population_move (hold : map.lookup key = some old) (state : S) :
    population stateOf (map.insert key new) state + indicator (stateOf old) state =
      population stateOf map state + indicator (stateOf new) state := by
  unfold population
  rw [AList.entries_insert, (perm_cons_kerase hold).countP_eq,
    List.countP_cons, List.countP_cons]
  simp [indicator, Nat.add_right_comm]

/-- Where an entry is, the population is not empty. -/
theorem population_pos (hold : map.lookup key = some old) :
    0 < population stateOf map (stateOf old) := by
  unfold population
  rw [(perm_cons_kerase hold).countP_eq, List.countP_cons]
  simp

/-! ## Registers -/

/-- The entries, the counters of the states and the counter of all entries. -/
structure Register (K V S : Type) where
  entries : DataMap K V
  counter : S → Nat
  total : Nat

/-- The rules of a register: its initial state, the moves between states, what a
move may change of an entry, and the number of entries it has no room for. -/
structure Rules (V S : Type) where
  stateOf : V → S
  initial : S
  admits : S → S → Prop
  same : V → V → Prop
  limit : Nat

variable {rules : Rules V S} {r r' : Register K V S}

/-- An entity enters, or one moves. -/
inductive Register.Step (rules : Rules V S) : Register K V S → Register K V S → Prop where
  | enter {r : Register K V S} {key : K} {value : V} {counter : S → Nat}
      (hnew : r.entries.lookup key = none) (hstate : rules.stateOf value = rules.initial)
      (hcounter : ∀ state, counter state = r.counter state + indicator rules.initial state)
      (hroom : r.total + 1 < rules.limit) :
      Step rules r ⟨r.entries.insert key value, counter, r.total + 1⟩
  | move {r : Register K V S} {key : K} {old new : V} {counter : S → Nat}
      (hold : r.entries.lookup key = some old)
      (hadmits : rules.admits (rules.stateOf old) (rules.stateOf new)) (hsame : rules.same old new)
      (hcounter : ∀ state, counter state + indicator (rules.stateOf old) state =
        r.counter state + indicator (rules.stateOf new) state) :
      Step rules r ⟨r.entries.insert key new, counter, r.total⟩

abbrev Register.Steps (rules : Rules V S) : Register K V S → Register K V S → Prop :=
  Relation.ReflTransGen (Register.Step rules)

/-- Every counter is the population of its state, and the total is that of all. -/
structure Register.Counted [Fintype S] (rules : Rules V S) (r : Register K V S) : Prop where
  counter : ∀ state, r.counter state = population rules.stateOf r.entries state
  total : r.total = ∑ state, r.counter state
  room : r.total < rules.limit

theorem sum_indicator [Fintype S] (here : S) : ∑ state, indicator here state = 1 := by
  simp [indicator, Finset.sum_ite_eq]

namespace Register.Counted

variable [Fintype S]

/-- Either event keeps the counters right. -/
theorem step (h : r.Counted rules) (hstep : r.Step rules r') : r'.Counted rules := by
  cases hstep with
  | enter hnew hstate hcounter hroom =>
      refine ⟨fun state => ?_, ?_, hroom⟩
      · refine (hcounter state).trans ?_
        rw [h.counter, population_enter hnew, hstate]
      · simp only [hcounter, Finset.sum_add_distrib, sum_indicator, ← h.total]
  | @move key old new counter hold hadmits hsame hcounter =>
      refine ⟨fun state => ?_, ?_, h.room⟩
      · have hmove : population rules.stateOf (r.entries.insert key new) state +
            indicator (rules.stateOf old) state =
              population rules.stateOf r.entries state + indicator (rules.stateOf new) state :=
          population_move hold state
        have hbefore := h.counter state
        have hchange := hcounter state
        simp only
        omega
      · have hsum := Finset.sum_congr rfl fun state (_ : state ∈ Finset.univ) => hcounter state
        simp only [Finset.sum_add_distrib, sum_indicator, ← h.total] at hsum
        exact (Nat.add_right_cancel hsum).symm

theorem run (h : r.Counted rules) (hsteps : r.Steps rules r') : r'.Counted rules := by
  induction hsteps with
  | refl => exact h
  | tail _ hstep ih => exact ih.step hstep

/-- An entity's state is counted. -/
theorem counter_pos (h : r.Counted rules) (hold : r.entries.lookup key = some old) :
    0 < r.counter (rules.stateOf old) := by
  rw [h.counter]
  exact population_pos hold

omit [DecidableEq K] in
/-- No two counters exceed the total. -/
theorem counters_le (h : r.Counted rules) {first second : S} (hne : first ≠ second) :
    r.counter first + r.counter second ≤ r.total := by
  rw [h.total, ← Finset.sum_pair hne]
  exact Finset.sum_le_sum_of_subset (Finset.subset_univ _)

end Register.Counted

/-! ## What becomes of an entity -/

/-- The entity is still there, and what happened to it are moves. -/
theorem Register.Step.persists (hrefl : ∀ value, rules.same value value)
    (hstep : r.Step rules r') (hold : r.entries.lookup key = some old) :
    ∃ new, r'.entries.lookup key = some new ∧ rules.same old new ∧
      Relation.ReflTransGen rules.admits (rules.stateOf old) (rules.stateOf new) := by
  cases hstep with
  | @enter other value counter hnew =>
      have hne : key ≠ other := by
        rintro rfl
        rw [hnew] at hold
        cases hold
      exact ⟨old, (AList.lookup_insert_ne hne).trans hold, hrefl old, .refl⟩
  | @move other before after counter hother hadmits hsame =>
      by_cases heq : key = other
      · subst heq
        obtain rfl := Option.some.inj (hold.symm.trans hother)
        exact ⟨after, AList.lookup_insert _, hsame, .single hadmits⟩
      · exact ⟨old, (AList.lookup_insert_ne heq).trans hold, hrefl old, .refl⟩

theorem Register.Steps.persists (hrefl : ∀ value, rules.same value value)
    (htrans : ∀ {first second third}, rules.same first second → rules.same second third →
      rules.same first third)
    (hsteps : r.Steps rules r') (hold : r.entries.lookup key = some old) :
    ∃ new, r'.entries.lookup key = some new ∧ rules.same old new ∧
      Relation.ReflTransGen rules.admits (rules.stateOf old) (rules.stateOf new) := by
  induction hsteps with
  | refl => exact ⟨old, hold, hrefl old, .refl⟩
  | tail _ hstep ih =>
      obtain ⟨mid, hmid, hsame, hmoves⟩ := ih
      obtain ⟨new, hnew, hsame', hmoves'⟩ := hstep.persists hrefl hmid
      exact ⟨new, hnew, htrans hsame hsame', hmoves.trans hmoves'⟩

omit [DecidableEq K] [DecidableEq S] in
/-- From a state without moves nothing leads elsewhere. -/
theorem terminal_of_moves {state later : S} (hterminal : ∀ next, ¬ rules.admits state next)
    (h : Relation.ReflTransGen rules.admits state later) : later = state := by
  induction h with
  | refl => rfl
  | tail _ hmove ih => exact absurd (ih ▸ hmove) (hterminal _)

end StxShield.Library
