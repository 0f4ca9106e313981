import StxShield.Api.Completeness

/-!
# The notes table

Three writers share the rows of the notes table: pool events, registry events and the owners
of notes.  The indexer never writes the owner's columns.
-/

namespace StxShield.BlockIndexer

open Library

/-! ## Rows -/

inductive NoteStatus where
  | pending
  | confirmed
  deriving DecidableEq

/-- A row with the columns of the owner. -/
structure StoredNote extends NoteRow where
  status : NoteStatus
  wallet : Option String
  ciphertext : Option String
  spent : Bool
  deriving DecidableEq

/-- Rows by commitment, which is unique. -/
abbrev NoteTable : Type := DataMap String StoredNote

/-- What a pool event makes of the row, and what a registry event. -/
def confirmed (row : NoteRow) : Option StoredNote → StoredNote
  | some stored => { stored with toNoteRow := row, status := .confirmed }
  | none =>
      { toNoteRow := row, status := .confirmed, wallet := none, ciphertext := none, spent := false }

def leafFilled (txid : String) (leafIndex : Option Int) : Option StoredNote → StoredNote
  | some stored => { stored with leafIndex := leafIndex, status := .confirmed }
  | none =>
      { root := none, txid := txid, leafIndex := leafIndex, type := "note", assetId := none,
        status := .confirmed, wallet := none, ciphertext := none, spent := false }

/-- What the registration of an owner makes of it. -/
def owned (wallet ciphertext : String) : Option StoredNote → StoredNote
  | some stored => { stored with wallet := some wallet, ciphertext := some ciphertext }
  | none =>
      { root := some "", txid := "", leafIndex := none, type := "shield", assetId := none,
        status := .pending, wallet := some wallet, ciphertext := some ciphertext, spent := false }

namespace NoteTable

variable (table : NoteTable)

def write (commitment : String) (row : Option StoredNote → StoredNote) : NoteTable :=
  table.insert commitment (row (table.lookup commitment))

/-- `insertNote`, with `onConflictDoUpdate`. -/
def insertNote (commitment : String) (row : NoteRow) : NoteTable :=
  table.write commitment (confirmed row)

def upsertCommitmentLeaf (commitment txid : String) (leafIndex : Option Int) : NoteTable :=
  table.write commitment (leafFilled txid leafIndex)

def registerWalletNote (wallet commitment ciphertext : String) : NoteTable :=
  table.write commitment (owned wallet ciphertext)

variable {table} {commitment other : String} {row : Option StoredNote → StoredNote}

theorem lookup_write :
    (table.write commitment row).lookup other =
      if other = commitment then some (row (table.lookup other)) else table.lookup other := by
  unfold write
  rw [DataMap.lookup_insert_eq]
  split
  case isTrue h => rw [h]
  case isFalse => rfl

end NoteTable

/-! ## Writes of the indexer -/

/-- A write to the whole row. -/
def NoteWrite.stored (table : NoteTable) : NoteWrite → NoteTable
  | .output commitment row => table.insertNote commitment row
  | .leaf commitment txid leafIndex => table.upsertCommitmentLeaf commitment txid leafIndex

/-! ## The indexer's columns -/

/-- The rows without the owner's columns. -/
def NoteTable.Shows (table : NoteTable) (notes : DataMap String NoteRow) : Prop :=
  ∀ commitment, notes.lookup commitment = (table.lookup commitment).map StoredNote.toNoteRow

section Shows

variable {table : NoteTable} {notes : DataMap String NoteRow}

theorem NoteTable.Shows.write (h : table.Shows notes) {commitment : String} {row : NoteRow}
    {stored : Option StoredNote → StoredNote}
    (hrow : (stored (table.lookup commitment)).toNoteRow = row) :
    (table.write commitment stored).Shows (notes.insert commitment row) := by
  intro other
  rw [NoteTable.lookup_write, DataMap.lookup_insert_eq]
  split
  case isTrue hsame =>
    rw [hsame, Option.map_some, hrow]
  case isFalse => exact h other

theorem NoteTable.Shows.stored (h : table.Shows notes) (write : NoteWrite) :
    (write.stored table).Shows (write.indexed notes) := by
  cases write with
  | output commitment row =>
      refine h.write ?_
      cases table.lookup commitment with
      | none => rfl
      | some stored => rfl
  | leaf commitment txid leafIndex =>
      refine h.write ?_
      rw [h commitment]
      cases table.lookup commitment with
      | none => rfl
      | some stored => rfl

/-- The whole rows are written as the indexer's columns are. -/
theorem NoteTable.Shows.handleEvent {ev : DecodedEvent} {txid : String} {store : Store}
    (h : table.Shows store.notes) :
    ((noteWrites ev txid).foldl NoteWrite.stored table).Shows
      (handleEvent ev txid store).2.notes := by
  rw [notes_handleEvent]
  generalize noteWrites ev txid = writes, store.notes = notes at h ⊢
  induction writes generalizing table notes with
  | nil => exact h
  | cons write rest ih => exact ih _ (h.stored write)

/-- A registration of an owner that is not the first write leaves the indexer's columns alone. -/
theorem NoteTable.Shows.registerWalletNote (h : table.Shows notes)
    {wallet commitment ciphertext : String} (hknown : (notes.lookup commitment).isSome = true) :
    (table.registerWalletNote wallet commitment ciphertext).Shows notes := by
  intro other
  unfold NoteTable.registerWalletNote
  rw [NoteTable.lookup_write]
  split
  case isTrue hsame =>
    subst hsame
    rw [h other] at hknown ⊢
    cases hlookup : table.lookup other with
    | none =>
        rw [hlookup] at hknown
        cases hknown
    | some stored => rfl
  case isFalse => exact h other

end Shows

end StxShield.BlockIndexer
