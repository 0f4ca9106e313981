import StxShield.Library.Execution

/-!
# Maps with a counter beside them

A map that is written under new keys only, or under a key that is then erased, has a
counter that goes up and down with it.  What is never overwritten is there for ever.
-/

namespace StxShield.Library.DataMap

variable {K V : Type} [DecidableEq K] {map map' map'' : DataMap K V} {key : K} {value : V}

/-! ## Sizes -/

/-- The number of entries. -/
def size (map : DataMap K V) : Nat := map.keys.length

theorem size_insert_new (value : V) (h : map.lookup key = none) :
    size (map.insert key value) = size map + 1 := by
  unfold size
  rw [keys_insert_new value h, List.length_cons]

theorem size_erase (h : (map.lookup key).isSome = true) :
    size (map.erase key) + 1 = size map := by
  have hkey : key ∈ map.keys := AList.mem_keys.mp (AList.lookup_isSome.mp h)
  unfold size
  rw [AList.keys_erase, List.length_erase_of_mem hkey]
  exact Nat.sub_add_cancel (List.length_pos_of_mem hkey)

/-! ## Entries that stay -/

/-- Every entry is still there, and may have changed in some respects. -/
def Extends (same : V → V → Prop) (map map' : DataMap K V) : Prop :=
  ∀ key value, map.lookup key = some value →
    ∃ value', map'.lookup key = some value' ∧ same value value'

namespace Extends

variable {same : V → V → Prop}

theorem refl (hrefl : ∀ value, same value value) (map : DataMap K V) : Extends same map map :=
  fun _ value h => ⟨value, h, hrefl value⟩

theorem trans (htrans : ∀ {first second third}, same first second → same second third →
    same first third) (h : Extends same map map') (h' : Extends same map' map'') :
    Extends same map map'' := by
  intro key value hlookup
  obtain ⟨value', hlookup', hsame⟩ := h key value hlookup
  obtain ⟨value'', hlookup'', hsame'⟩ := h' key value' hlookup'
  exact ⟨value'', hlookup'', htrans hsame hsame'⟩

theorem insert_new (hrefl : ∀ value, same value value) (hnew : map.lookup key = none) :
    Extends same map (map.insert key value) := by
  intro other found hlookup
  have hne : other ≠ key := by
    rintro rfl
    rw [hnew] at hlookup
    cases hlookup
  exact ⟨found, (AList.lookup_insert_ne hne).trans hlookup, hrefl found⟩

theorem insert_same (hrefl : ∀ value, same value value) {old : V}
    (hold : map.lookup key = some old) (hsame : same old value) :
    Extends same map (map.insert key value) := by
  intro other found hlookup
  by_cases heq : other = key
  · subst heq
    obtain rfl := Option.some.inj (hold.symm.trans hlookup)
    exact ⟨value, AList.lookup_insert _, hsame⟩
  · exact ⟨found, (AList.lookup_insert_ne heq).trans hlookup, hrefl found⟩

/-- What never changes is found again. -/
theorem lookup (h : Extends Eq map map') (hlookup : map.lookup key = some value) :
    map'.lookup key = some value := by
  obtain ⟨value', hlookup', rfl⟩ := h key value hlookup
  exact hlookup'

end Extends

end StxShield.Library.DataMap
