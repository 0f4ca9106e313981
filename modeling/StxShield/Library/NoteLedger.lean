import Mathlib.Algebra.BigOperators.Group.List.Basic
import Mathlib.Algebra.Ring.Nat
import Mathlib.Data.List.Nodup
import Mathlib.Data.List.Perm.Subperm

/-!
# Ledgers of notes and nullifiers

Notes are appended to a ledger and spent by publishing a tag that nullifies
them.  A note stays in the ledger; whether it is spent can only be told by
whoever can match tags with notes, so the unspent value is an abstract
quantity.  It changes by what is appended and what is spent, if every tag
nullifies at most one note of the ledger and every note has at most one tag.
-/

namespace StxShield.Library.NoteLedger

variable {Note Tag : Type} (nullifies : Tag → Note → Prop)

def Spent (published : List Tag) (note : Note) : Prop := ∃ tag ∈ published, nullifies tag note

open Classical in
/-- The notes no published tag nullifies. -/
noncomputable def unspent (published : List Tag) (notes : List Note) : List Note :=
  notes.filter fun note => ¬ Spent nullifies published note

/-- The value of the unspent notes. -/
noncomputable def total (weight : Note → Nat) (published : List Tag) (notes : List Note) : Nat :=
  ((unspent nullifies published notes).map weight).sum

variable {nullifies} {weight : Note → Nat} {published : List Tag} {notes : List Note}

theorem total_nil : total nullifies weight published [] = 0 := rfl

theorem total_cons_of_spent {note : Note} (h : Spent nullifies published note) :
    total nullifies weight published (note :: notes) = total nullifies weight published notes := by
  simp [total, unspent, h]

theorem total_cons_of_not_spent {note : Note} (h : ¬ Spent nullifies published note) :
    total nullifies weight published (note :: notes) =
      weight note + total nullifies weight published notes := by
  simp [total, unspent, h]

theorem total_append {new : List Note} (h : ∀ note ∈ new, ¬ Spent nullifies published note) :
    total nullifies weight published (notes ++ new) =
      total nullifies weight published notes + (new.map weight).sum := by
  have hnew : unspent nullifies published new = new := by
    unfold unspent
    exact List.filter_eq_self.mpr fun note hnote => by simpa using h note hnote
  have hsplit : unspent nullifies published (notes ++ new) =
      unspent nullifies published notes ++ new := by
    unfold unspent at hnew ⊢
    rw [List.filter_append, hnew]
  rw [total, total, hsplit, List.map_append, List.sum_append]

theorem spent_publish_iff {tag : Tag} {note : Note} (h : ¬ nullifies tag note) :
    Spent nullifies (published ++ [tag]) note ↔ Spent nullifies published note := by
  constructor
  · rintro ⟨other, hother, hnull⟩
    rcases List.mem_append.mp hother with hpublished | hnew
    · exact ⟨other, hpublished, hnull⟩
    · exact absurd (List.mem_singleton.mp hnew ▸ hnull) h
  · rintro ⟨other, hother, hnull⟩
    exact ⟨other, List.mem_append_left _ hother, hnull⟩

/-- A tag changes nothing for notes it has nothing to do with. -/
theorem total_publish_of_not_nullifies {tag : Tag} (h : ∀ note ∈ notes, ¬ nullifies tag note) :
    total nullifies weight (published ++ [tag]) notes =
      total nullifies weight published notes := by
  have hsame : unspent nullifies (published ++ [tag]) notes = unspent nullifies published notes := by
    unfold unspent
    exact List.filter_congr fun note hnote =>
      decide_eq_decide.mpr (not_congr (spent_publish_iff (h note hnote)))
  rw [total, total, hsame]

/-- Publishing a fresh tag of one note takes that note's value away. -/
theorem total_publish {tag : Tag} {note : Note} (hnodup : notes.Nodup)
    (hnote : ∀ other ∈ notes, nullifies tag other → other = note)
    (htag : ∀ tag', nullifies tag' note → tag' = tag)
    (hmem : note ∈ notes) (hnullifies : nullifies tag note) (hfresh : tag ∉ published) :
    total nullifies weight (published ++ [tag]) notes + weight note =
      total nullifies weight published notes := by
  induction notes with
  | nil => cases hmem
  | cons head rest ih =>
      have hrestNodup := hnodup.of_cons
      have hhead : head ∉ rest := (List.nodup_cons.mp hnodup).1
      by_cases heq : head = note
      · subst heq
        have hspent : Spent nullifies (published ++ [tag]) head :=
          ⟨tag, List.mem_append_right _ List.mem_cons_self, hnullifies⟩
        have hunspent : ¬ Spent nullifies published head := by
          rintro ⟨tag', hpublished, hother⟩
          exact hfresh (htag tag' hother ▸ hpublished)
        have hrest : ∀ other ∈ rest, ¬ nullifies tag other := fun other hother hnull =>
          hhead (hnote other (List.mem_cons_of_mem _ hother) hnull ▸ hother)
        rw [total_cons_of_spent hspent, total_cons_of_not_spent hunspent,
          total_publish_of_not_nullifies hrest, Nat.add_comm]
      · have hrest := ih hrestNodup
          (fun other hother => hnote other (List.mem_cons_of_mem _ hother))
          (List.mem_of_ne_of_mem (Ne.symm heq) hmem)
        have hother : ¬ nullifies tag head := fun hnull =>
          heq (hnote head List.mem_cons_self hnull)
        have hsame : Spent nullifies (published ++ [tag]) head ↔ Spent nullifies published head :=
          spent_publish_iff hother
        by_cases hspent : Spent nullifies published head
        · rw [total_cons_of_spent hspent, total_cons_of_spent (hsame.mpr hspent), hrest]
        · rw [total_cons_of_not_spent hspent, total_cons_of_not_spent (mt hsame.mp hspent),
            Nat.add_assoc, hrest]

/-- Any number of spends, one after the other. -/
theorem total_publish_all {spends : List (Note × Tag)} (hnodup : notes.Nodup)
    (hnote : ∀ spend ∈ spends, ∀ other ∈ notes, nullifies spend.2 other → other = spend.1)
    (htag : ∀ spend ∈ spends, ∀ tag, nullifies tag spend.1 → tag = spend.2)
    (hmem : ∀ spend ∈ spends, spend.1 ∈ notes)
    (hnullifies : ∀ spend ∈ spends, nullifies spend.2 spend.1)
    (hfresh : ∀ spend ∈ spends, spend.2 ∉ published) (hdistinct : (spends.map Prod.snd).Nodup) :
    total nullifies weight (published ++ spends.map Prod.snd) notes +
        (spends.map fun spend => weight spend.1).sum =
      total nullifies weight published notes := by
  induction spends generalizing published with
  | nil => simp
  | cons spend rest ih =>
      obtain ⟨hhead, hrest⟩ := List.nodup_cons.mp hdistinct
      have hfirst : total nullifies weight (published ++ [spend.2]) notes + weight spend.1 =
          total nullifies weight published notes :=
        total_publish hnodup (hnote spend List.mem_cons_self) (htag spend List.mem_cons_self)
          (hmem spend List.mem_cons_self) (hnullifies spend List.mem_cons_self)
          (hfresh spend List.mem_cons_self)
      have hothers : total nullifies weight (published ++ [spend.2] ++ rest.map Prod.snd) notes +
            (rest.map fun spend => weight spend.1).sum =
          total nullifies weight (published ++ [spend.2]) notes := ih
        (fun other hother => hnote other (List.mem_cons_of_mem _ hother))
        (fun other hother => htag other (List.mem_cons_of_mem _ hother))
        (fun other hother => hmem other (List.mem_cons_of_mem _ hother))
        (fun other hother => hnullifies other (List.mem_cons_of_mem _ hother))
        (fun other hother => by
          have hpublished := hfresh other (List.mem_cons_of_mem _ hother)
          have hne : other.2 ≠ spend.2 := fun heq =>
            hhead (heq ▸ List.mem_map_of_mem (f := Prod.snd) hother)
          simp [hpublished, hne])
        hrest
      rw [List.append_assoc, List.singleton_append] at hothers
      rw [List.map_cons, List.map_cons, List.sum_cons]
      omega

/-- Distinct tags, each of a note of the ledger, are no more than the notes. -/
theorem length_le_of_tags {tags : List Tag} (hdistinct : tags.Nodup)
    (htags : ∀ tag ∈ tags, ∃ note ∈ notes, nullifies tag note)
    (hunique : ∀ note ∈ notes, ∀ tag tag', nullifies tag note → nullifies tag' note → tag = tag') :
    tags.length ≤ notes.length := by
  choose noteOf hmem hnullifies using htags
  let chosen : List Note := tags.attach.map fun tag => noteOf tag.1 tag.2
  have hnodup : chosen.Nodup := by
    refine (List.nodup_attach.mpr hdistinct).map_on fun tag _ tag' _ hsame => Subtype.ext ?_
    exact hunique _ (hmem tag.1 tag.2) tag.1 tag'.1 (hnullifies tag.1 tag.2)
      (hsame ▸ hnullifies tag'.1 tag'.2)
  have hsubset : chosen ⊆ notes := by
    intro note hnote
    obtain ⟨tag, -, rfl⟩ := List.mem_map.mp hnote
    exact hmem tag.1 tag.2
  have hle : chosen.length ≤ notes.length := (List.subperm_of_subset hnodup hsubset).length_le
  simpa [chosen] using hle

end StxShield.Library.NoteLedger
