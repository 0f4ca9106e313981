import Mathlib.Data.List.Nodup

/-!
# Maps that remember an order

A map of the language keeps its entries in the order in which their keys were first
set: a key that is set again keeps its place.
-/

namespace StxShield.Library

/-- Entries with different keys, oldest first. -/
structure OrderedMap (K V : Type) where
  entries : List (K × V)
  nodup : (entries.map Prod.fst).Nodup

namespace OrderedMap

variable {K V : Type}

def empty : OrderedMap K V where
  entries := []
  nodup := List.nodup_nil

def values (map : OrderedMap K V) : List V := map.entries.map Prod.snd

/-- Values that are changed where they stand. -/
def mapValues (f : V → V) (map : OrderedMap K V) : OrderedMap K V where
  entries := map.entries.map fun entry => (entry.1, f entry.2)
  nodup := by
    rw [List.map_map]
    exact map.nodup

theorem mem_mapValues {f : V → V} {map : OrderedMap K V} {entry : K × V} :
    entry ∈ (map.mapValues f).entries ↔ ∃ old, (entry.1, old) ∈ map.entries ∧ f old = entry.2 := by
  simp only [mapValues, List.mem_map]
  constructor
  · rintro ⟨old, hold, rfl⟩
    exact ⟨old.2, hold, rfl⟩
  · rintro ⟨old, hold, hvalue⟩
    exact ⟨(entry.1, old), hold, by rw [hvalue]⟩

variable [DecidableEq K]

def get? (map : OrderedMap K V) (key : K) : Option V :=
  (map.entries.find? fun entry => entry.1 = key).map Prod.snd

theorem map_replace (entries : List (K × V)) (key : K) (value : V) :
    (entries.map fun entry => if entry.1 = key then (key, value) else entry).map Prod.fst =
      entries.map Prod.fst := by
  rw [List.map_map]
  apply List.map_congr_left
  intro entry _
  by_cases h : entry.1 = key
  · simp [h]
  · simp [h]

def set (map : OrderedMap K V) (key : K) (value : V) : OrderedMap K V :=
  if h : key ∈ map.entries.map Prod.fst then
    { entries := map.entries.map fun entry => if entry.1 = key then (key, value) else entry
      nodup := by
        rw [map_replace]
        exact map.nodup }
  else
    { entries := map.entries ++ [(key, value)]
      nodup := by
        rw [List.map_append]
        exact map.nodup.append (List.nodup_singleton key) (List.disjoint_singleton.mpr h) }

variable {map : OrderedMap K V} {key : K} {value : V} {entry : K × V}

/-- The entries after a key is set. -/
theorem mem_set :
    entry ∈ (map.set key value).entries ↔
      entry = (key, value) ∨ entry.1 ≠ key ∧ entry ∈ map.entries := by
  unfold set
  split
  case isTrue h =>
    simp only [List.mem_map]
    constructor
    · rintro ⟨old, hold, rfl⟩
      by_cases hkey : old.1 = key
      · rw [if_pos hkey]
        exact .inl rfl
      · rw [if_neg hkey]
        exact .inr ⟨hkey, hold⟩
    · rintro (rfl | ⟨hkey, hold⟩)
      · obtain ⟨old, hold, rfl⟩ := List.mem_map.mp h
        exact ⟨old, hold, if_pos rfl⟩
      · exact ⟨entry, hold, if_neg hkey⟩
  case isFalse h =>
    rw [List.mem_append, List.mem_singleton]
    constructor
    · rintro (hold | rfl)
      · refine .inr ⟨?_, hold⟩
        rintro rfl
        exact h (List.mem_map_of_mem hold)
      · exact .inl rfl
    · rintro (rfl | ⟨-, hold⟩)
      · exact .inr rfl
      · exact .inl hold

omit [DecidableEq K] in
/-- A key has one value. -/
theorem value_unique {other : V} (h : (key, value) ∈ map.entries) (hother : (key, other) ∈ map.entries) :
    value = other := by
  have hinjective := List.inj_on_of_nodup_map map.nodup h hother rfl
  exact (Prod.mk.inj hinjective).2

theorem get?_eq_some : map.get? key = some value ↔ (key, value) ∈ map.entries := by
  unfold get?
  rw [Option.map_eq_some_iff]
  constructor
  · rintro ⟨found, hfound, rfl⟩
    have hkey : found.1 = key := by simpa using List.find?_some hfound
    rw [← hkey]
    exact List.mem_of_find?_eq_some hfound
  · intro h
    cases hfound : map.entries.find? fun entry => entry.1 = key with
    | none => exact absurd (decide_eq_true rfl) (List.find?_eq_none.mp hfound (key, value) h)
    | some found =>
        refine ⟨found, rfl, ?_⟩
        have hkey : found.1 = key := by simpa using List.find?_some hfound
        have hmem : (key, found.2) ∈ map.entries := hkey ▸ List.mem_of_find?_eq_some hfound
        exact value_unique hmem h

end OrderedMap

end StxShield.Library
