import StxShield.Sdk.Client

/-!
# The note store

The store keeps one note for each spelling of a commitment, in the order in which they
were first added, and never forgets that a note was spent.
-/

namespace StxShield.Sdk.Client

/-- The spellings under which notes are kept. -/
def spellings (client : Client) : List String := client.store.map ShieldNote.commitment

/-- Notes that are added one after another. -/
def addAll (client : Client) (notes : List ShieldNote) : Client := notes.foldl add client

def unspent (client : Client) : List ShieldNote := client.store.filter fun note => ¬ note.spent

variable {client : Client} {note stored : ShieldNote} {commitment : String}

/-- The note that is kept when this one is added. -/
def merged (client : Client) (note : ShieldNote) : ShieldNote :=
  { note with
    spent := note.spent ||
      (client.store.find? fun stored => stored.commitment = note.commitment).elim false
        ShieldNote.spent }

theorem known_iff :
    (client.store.find? fun stored => stored.commitment = note.commitment).isSome ↔
      note.commitment ∈ client.spellings := by
  rw [List.find?_isSome, spellings, List.mem_map]
  constructor
  · rintro ⟨stored, hmem, hsame⟩
    exact ⟨stored, hmem, of_decide_eq_true hsame⟩
  · rintro ⟨stored, hmem, hsame⟩
    exact ⟨stored, hmem, decide_eq_true hsame⟩

theorem add_store :
    (client.add note).store =
      if note.commitment ∈ client.spellings then
        client.store.map fun stored =>
          if stored.commitment = note.commitment then client.merged note else stored
      else client.store ++ [client.merged note] := by
  unfold add
  simp only [known_iff]
  rfl

/-- The notes after one is added. -/
theorem mem_add :
    stored ∈ (client.add note).store ↔
      stored = client.merged note ∨
        stored ∈ client.store ∧ stored.commitment ≠ note.commitment := by
  rw [add_store]
  split
  case isTrue hknown =>
    rw [List.mem_map]
    constructor
    · rintro ⟨old, hold, rfl⟩
      by_cases hsame : old.commitment = note.commitment
      · rw [if_pos hsame]
        exact .inl rfl
      · rw [if_neg hsame]
        exact .inr ⟨hold, hsame⟩
    · rintro (rfl | ⟨hold, hother⟩)
      · obtain ⟨old, hold, hsame⟩ := List.mem_map.mp hknown
        exact ⟨old, hold, if_pos hsame⟩
      · exact ⟨stored, hold, if_neg hother⟩
  case isFalse hnew =>
    rw [List.mem_append, List.mem_singleton]
    constructor
    · rintro (hold | rfl)
      · exact .inr ⟨hold, fun hsame => hnew (hsame ▸ List.mem_map_of_mem hold)⟩
      · exact .inl rfl
    · rintro (rfl | ⟨hold, -⟩)
      · exact .inr rfl
      · exact .inl hold

/-- What a spelling is mapped to, after a note is added. -/
theorem map_add {α : Type} (f : String → α) :
    ((client.add note).store.map fun stored => f stored.commitment) =
      if note.commitment ∈ client.spellings then
        client.store.map fun stored => f stored.commitment
      else (client.store.map fun stored => f stored.commitment) ++ [f note.commitment] := by
  rw [add_store]
  split
  case isTrue =>
    rw [List.map_map]
    apply List.map_congr_left
    intro stored _
    by_cases hsame : stored.commitment = note.commitment
    · simp [hsame, merged]
    · simp [hsame]
  case isFalse =>
    rw [List.map_append]
    rfl

theorem mem_spellings_add :
    commitment ∈ (client.add note).spellings ↔
      commitment ∈ client.spellings ∨ note.commitment = commitment := by
  unfold spellings
  rw [map_add fun text => text]
  split
  case isTrue hknown =>
    constructor
    · exact .inl
    · rintro (hold | rfl)
      · exact hold
      · exact hknown
  case isFalse => rw [List.mem_append, List.mem_singleton, eq_comm (b := note.commitment)]

theorem mem_spellings_addAll {notes : List ShieldNote} :
    commitment ∈ (client.addAll notes).spellings ↔
      commitment ∈ client.spellings ∨ ∃ note ∈ notes, note.commitment = commitment := by
  induction notes generalizing client with
  | nil => simp [addAll]
  | cons note rest ih =>
      have hstep : client.addAll (note :: rest) = (client.add note).addAll rest := rfl
      rw [hstep, ih, mem_spellings_add]
      simp only [List.mem_cons, exists_eq_or_imp, or_assoc]

/-- Notes that are in the store were there or have been added, but for whether they are
spent. -/
theorem mem_addAll {notes : List ShieldNote} (h : stored ∈ (client.addAll notes).store) :
    stored ∈ client.store ∨ ∃ note ∈ notes, stored = { note with spent := stored.spent } := by
  induction notes generalizing client with
  | nil => exact .inl h
  | cons note rest ih =>
      rcases ih h with hadded | ⟨other, hmem, hother⟩
      · rcases mem_add.mp hadded with rfl | ⟨hold, -⟩
        · exact .inr ⟨note, List.mem_cons_self, rfl⟩
        · exact .inl hold
      · exact .inr ⟨other, List.mem_cons_of_mem _ hmem, hother⟩

/-! ## One spelling for each commitment -/

/-- No two notes have the same bytes for their commitments. -/
def Distinct (client : Client) : Prop :=
  (client.store.map fun stored => hexToBytes stored.commitment).Nodup

/-- Notes in the store with the bytes of this commitment spell it the same way. -/
def Agrees (client : Client) (commitment : String) : Prop :=
  ∀ stored ∈ client.store, hexToBytes stored.commitment = hexToBytes commitment →
    stored.commitment = commitment

theorem Distinct.eq (h : client.Distinct) (hnote : note ∈ client.store)
    (hstored : stored ∈ client.store)
    (hsame : hexToBytes note.commitment = hexToBytes stored.commitment) : note = stored :=
  List.inj_on_of_nodup_map h hnote hstored hsame

theorem Distinct.add (h : client.Distinct) (hagrees : client.Agrees note.commitment) :
    (client.add note).Distinct := by
  unfold Distinct
  rw [map_add]
  split
  case isTrue => exact h
  case isFalse hnew =>
    refine List.Nodup.append h (List.nodup_singleton _) (List.disjoint_singleton.mpr fun hmem => ?_)
    obtain ⟨stored, hstored, hsame⟩ := List.mem_map.mp hmem
    exact hnew (hagrees stored hstored hsame ▸ List.mem_map_of_mem hstored)

/-- Notes that spell their commitments as the store does, and as each other do. -/
def AgreesAll (client : Client) (notes : List ShieldNote) : Prop :=
  ∀ note ∈ notes, client.Agrees note.commitment ∧
    ∀ other ∈ notes, hexToBytes other.commitment = hexToBytes note.commitment →
      other.commitment = note.commitment

theorem AgreesAll.tail {notes : List ShieldNote} (h : client.AgreesAll (note :: notes)) :
    (client.add note).AgreesAll notes := by
  intro later hlater
  have hagrees := h later (List.mem_cons_of_mem _ hlater)
  refine ⟨fun stored hstored hsame => ?_, fun other hother =>
    hagrees.2 other (List.mem_cons_of_mem _ hother)⟩
  rcases mem_add.mp hstored with rfl | ⟨hold, -⟩
  · exact hagrees.2 note List.mem_cons_self hsame
  · exact hagrees.1 stored hold hsame

theorem Distinct.addAll {notes : List ShieldNote} (h : client.Distinct)
    (hagrees : client.AgreesAll notes) : (client.addAll notes).Distinct := by
  induction notes generalizing client with
  | nil => exact h
  | cons note rest ih => exact ih (h.add (hagrees note List.mem_cons_self).1) hagrees.tail

/-- A note that is spent stays so. -/
theorem Distinct.spent_add (h : client.Distinct) (note : ShieldNote) (hstored : stored ∈ client.store)
    (hspent : stored.spent = true) :
    ∃ kept ∈ (client.add note).store, kept.commitment = stored.commitment ∧ kept.spent = true := by
  by_cases hsame : stored.commitment = note.commitment
  · refine ⟨client.merged note, mem_add.mpr (.inl rfl), hsame.symm, ?_⟩
    have hknown := known_iff.mpr (List.mem_map.mpr ⟨stored, hstored, hsame⟩)
    obtain ⟨found, hfound⟩ := Option.isSome_iff_exists.mp hknown
    have hfoundSame : found.commitment = note.commitment :=
      by simpa using List.find?_some hfound
    obtain rfl := h.eq (List.mem_of_find?_eq_some hfound) hstored
      (congrArg hexToBytes (hfoundSame.trans hsame.symm))
    simp only [merged, hfound, Option.elim_some, hspent, Bool.or_true]
  · exact ⟨stored, mem_add.mpr (.inr ⟨hstored, hsame⟩), rfl, hspent⟩

end StxShield.Sdk.Client
