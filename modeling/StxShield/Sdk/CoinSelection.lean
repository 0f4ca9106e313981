import StxShield.Sdk.NoteScanner

/-!
# Coin selection

`select` sorts the unspent notes, largest first, and takes them until they cover the
amount.  The comparator is no order on notes of equal amounts, but it never puts a note
before a larger one.
-/

namespace StxShield.Sdk.NoteScanner

open Library

/-! ## Sorting -/

theorem compare_nonpos {a b : OwnedNote} : compare a b ≤ 0 ↔ b.amount ≤ a.amount := by
  unfold compare
  split
  case isTrue h => exact ⟨fun hle => absurd hle (by decide), fun hle => absurd hle (by omega)⟩
  case isFalse h => exact ⟨fun _ => by omega, fun _ => by decide⟩

theorem Sorts.descending {sort : List OwnedNote → List OwnedNote} (hsort : Sorts sort)
    {notes : List OwnedNote} (hnonneg : ∀ note ∈ notes, 0 ≤ note.amount) :
    Selection.Descending (fun note => note.amount) (sort notes) where
  sorted := (hsort.ordered notes).imp compare_nonpos.mp
  nonneg note hmem := hnonneg note ((hsort.perm notes).mem_iff.mp hmem)

/-! ## Selecting -/

/-- Selection fails exactly when all unspent notes together are worth less than the
amount.  Otherwise it gives different unspent notes that cover the amount, and no choice
of fewer notes does.  This holds however the engine orders notes of one amount. -/
theorem select_covers_minimal {sort : List OwnedNote → List OwnedNote} (hsort : Sorts sort)
    (scanner : NoteScanner) (amount : Int) (hnonneg : ∀ note ∈ scanner.notes, 0 ≤ note.amount) :
    ((∃ message, scanner.select sort amount = .error message) ↔ scanner.balance < amount) ∧
      ∀ chosen, scanner.select sort amount = .ok chosen →
        chosen.Subperm scanner.notes ∧
          amount ≤ Selection.total (fun note => note.amount) chosen ∧
          ∀ other : List OwnedNote, other.Subperm scanner.notes →
            amount ≤ Selection.total (fun note => note.amount) other →
              chosen.length ≤ other.length := by
  have hperm := hsort.perm scanner.notes
  have hdescending := hsort.descending hnonneg
  have hbalance : Selection.total (fun note => note.amount) (sort scanner.notes) =
      scanner.balance := Selection.total_perm hperm
  have hshort := hdescending.gather_lt_iff amount
  rw [hbalance] at hshort
  obtain ⟨count, -, htaken, htotal, -, -⟩ :=
    Selection.gather_prefix (fun note : OwnedNote => note.amount) amount (sort scanner.notes) 0
  rw [Int.zero_add, ← htaken] at htotal
  unfold select
  simp only
  by_cases h : (Selection.gather (fun note : OwnedNote => note.amount) amount
      (sort scanner.notes) 0).2 < amount
  · rw [if_pos h]
    constructor
    · exact ⟨fun _ => hshort.mp h, fun _ => ⟨_, rfl⟩⟩
    · intro chosen hchosen
      cases hchosen
  · rw [if_neg h]
    constructor
    · constructor
      · rintro ⟨message, herror⟩
        cases herror
      · exact fun hless => absurd (hshort.mpr hless) h
    · intro chosen hchosen
      obtain rfl := Except.ok.inj hchosen
      refine ⟨?_, ?_, fun other hother hcovers => ?_⟩
      · rw [htaken]
        exact (List.take_sublist _ _).subperm.trans hperm.subperm
      · rw [← htotal]
        exact Int.not_lt.mp h
      · exact hdescending.gather_minimal (hother.trans hperm.symm.subperm) hcovers

namespace Sample

def note (amount : Int) : OwnedNote where
  version := notePayloadVersion
  amount := amount
  blinding := 1
  ownerSk := 1
  nonce := 1
  commitment := []
  treePosition := .ofNat 0
  assetId := none
  leafIndex := 0
  spent := false

/-- Three notes, two of them of one amount. -/
def wallet : NoteScanner where
  tree := CommitmentTree.empty
  owned := ((OrderedMap.empty.set (hex [1]) (note 2)).set (hex [2]) (note 3)).set (hex [3]) (note 3)
  nextIndex := 3

def sort (notes : List OwnedNote) : List OwnedNote :=
  notes.insertionSort fun a b => compare a b ≤ 0

/-- Insertion is one way to sort: the comparator relates all notes, and is transitive as
far as it does. -/
theorem sort_sorts : Sorts sort where
  perm notes := List.perm_insertionSort _ notes
  ordered notes := by
    have htotal : Std.Total fun a b : OwnedNote => compare a b ≤ 0 := by
      refine ⟨fun a b => ?_⟩
      rw [compare_nonpos, compare_nonpos]
      exact Int.le_total b.amount a.amount
    have htrans : IsTrans OwnedNote fun a b => compare a b ≤ 0 := by
      refine ⟨fun a b c hab hbc => ?_⟩
      rw [compare_nonpos] at hab hbc ⊢
      exact Int.le_trans hbc hab
    exact List.pairwise_insertionSort _ notes

end Sample

/-- Six units are covered by the two larger notes. -/
theorem select_covers_minimal_wallet :
    Sample.wallet.select Sample.sort 6 = .ok [Sample.note 3, Sample.note 3] ∧
      ∀ other : List OwnedNote, other.Subperm Sample.wallet.notes →
        6 ≤ Selection.total (fun note => note.amount) other → 2 ≤ other.length := by
  have hselected : Sample.wallet.select Sample.sort 6 = .ok [Sample.note 3, Sample.note 3] := rfl
  have hnonneg : ∀ note ∈ Sample.wallet.notes, 0 ≤ note.amount := by decide +kernel
  obtain ⟨-, -, hminimal⟩ :=
    (select_covers_minimal Sample.sort_sorts Sample.wallet 6 hnonneg).2 _ hselected
  exact ⟨hselected, hminimal⟩

end StxShield.Sdk.NoteScanner
