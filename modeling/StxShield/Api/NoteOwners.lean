import StxShield.Api.NoteTable
import StxShield.Relayer.Requests

/-!
# Owners of notes

An authenticated wallet registers notes and marks them spent.  A mark is for rows of its own;
a registration takes any row over.
-/

namespace StxShield.BlockIndexer

open Library Relay RootPublisher

/-! ## Requests of a wallet -/

inductive MeRequest where
  /-- `POST /me/notes` -/
  | register (commitment ciphertext : String)
  /-- `POST /me/notes/:commitment/spent` -/
  | markSpent (commitment : String)
  deriving DecidableEq

structure MeReply where
  status : Nat
  /-- `indexed` of a registration, `updated` of a mark. -/
  found : Option Bool
  deriving DecidableEq

/-- `length` of a string, in UTF-16 units. -/
def utf16Length (text : String) : Nat :=
  (text.toList.map fun c => if 0xFFFF < c.toNat then 2 else 1).sum

/-- `registerBody` -/
def isRegisterBody (commitment ciphertext : String) : Bool :=
  isBytes32 commitment && 1 ≤ utf16Length ciphertext && utf16Length ciphertext ≤ 8192

/-- `commitment.startsWith("0x") ? commitment.slice(2) : commitment` -/
def bare (commitment : String) : String :=
  if hasHexMark commitment then String.ofList (commitment.toList.drop 2) else commitment

/-- Up to 64 hexadecimal digits, marked or not. -/
def isCommitmentParam (commitment : String) : Bool :=
  let digits := (bare commitment).toList
  1 ≤ digits.length && digits.length ≤ 64 && digits.all isHexDigit

namespace NoteTable

variable (table : NoteTable)

/-- The row is registered for the wallet. -/
def HeldBy (wallet commitment : String) : Prop :=
  ∃ row ∈ table.lookup commitment, row.wallet = some wallet

instance (wallet commitment : String) : Decidable (table.HeldBy wallet commitment) :=
  inferInstanceAs (Decidable (∃ row ∈ table.lookup commitment, row.wallet = some wallet))

def spentBy (wallet : String) (row : StoredNote) : StoredNote :=
  if row.wallet = some wallet then { row with spent := true } else row

def markRow (wallet commitment : String) : NoteTable :=
  match table.lookup commitment with
  | some row => table.insert commitment (spentBy wallet row)
  | none => table

/-- Both spellings are matched, for rows of the wallet. -/
def markWalletNoteSpent (wallet commitment : String) : NoteTable :=
  (table.markRow wallet (bare commitment)).markRow wallet ("0x" ++ bare commitment)

/-- A request of an authenticated wallet. -/
def serve (wallet : String) : MeRequest → NoteTable × MeReply
  | .register commitment ciphertext =>
      if isRegisterBody commitment ciphertext then
        let updated := (table.lookup commitment).isSome
        (table.registerWalletNote wallet commitment ciphertext,
          { status := if updated then 200 else 202, found := some updated })
      else (table, { status := 400, found := none })
  | .markSpent commitment =>
      if isCommitmentParam commitment then
        (table.markWalletNoteSpent wallet commitment,
          { status := 200
            found := some (decide (table.HeldBy wallet (bare commitment) ∨
              table.HeldBy wallet ("0x" ++ bare commitment))) })
      else (table, { status := 400, found := none })

/-- Requests of wallets, one after the other. -/
def serveAll (table : NoteTable) (requests : List (String × MeRequest)) : NoteTable :=
  requests.foldl (fun table request => (table.serve request.1 request.2).1) table

end NoteTable

/-- The request is taken as a registration of the commitment. -/
def MeRequest.Registers (request : MeRequest) (commitment : String) : Prop :=
  ∃ ciphertext, request = .register commitment ciphertext ∧
    isRegisterBody commitment ciphertext = true

/-- Every row that the wallet has registered keeps the owner's columns. -/
def RowsKept (wallet : String) (before after : NoteTable) : Prop :=
  ∀ commitment row, before.lookup commitment = some row → row.wallet = some wallet →
    ∃ kept, after.lookup commitment = some kept ∧ kept.wallet = row.wallet ∧
      kept.ciphertext = row.ciphertext ∧ kept.spent = row.spent

/-! ## One request -/

section Requests

variable {table later : NoteTable} {wallet other commitment : String} {request : MeRequest}

theorem NoteTable.lookup_markRow {key : String} :
    (table.markRow other key).lookup commitment =
      if commitment = key then (table.lookup commitment).map (spentBy other)
      else table.lookup commitment := by
  unfold markRow
  cases hrow : table.lookup key with
  | none =>
      dsimp only
      split
      case isTrue h =>
        rw [h, hrow]
        rfl
      case isFalse => rfl
  | some row =>
      dsimp only
      rw [DataMap.lookup_insert_eq]
      split
      case isTrue h =>
        rw [h, hrow]
        rfl
      case isFalse => rfl

theorem NoteTable.spentBy_wallet (row : StoredNote) : (spentBy other row).wallet = row.wallet := by
  unfold spentBy
  split
  · rfl
  · rfl

/-- A mark leaves the wallet of each row alone, and the rows of other wallets. -/
theorem NoteTable.markRow_row {key : String} {row : StoredNote}
    (h : (table.markRow other key).lookup commitment = some row) :
    ∃ old, table.lookup commitment = some old ∧ row.wallet = old.wallet ∧
      (old.wallet ≠ some other → row = old) := by
  rw [lookup_markRow] at h
  split at h
  · obtain ⟨old, hold, rfl⟩ := Option.map_eq_some_iff.mp h
    exact ⟨old, hold, spentBy_wallet old, fun hne => if_neg hne⟩
  · exact ⟨row, h, rfl, fun _ => rfl⟩

theorem RowsKept.refl (wallet : String) (table : NoteTable) : RowsKept wallet table table :=
  fun _ row hrow _ => ⟨row, hrow, rfl, rfl, rfl⟩

theorem RowsKept.trans {last : NoteTable} (h : RowsKept wallet table later)
    (h' : RowsKept wallet later last) : RowsKept wallet table last := by
  intro commitment row hrow hwallet
  obtain ⟨kept, hkept, hsame, hciphertext, hspent⟩ := h commitment row hrow hwallet
  obtain ⟨final, hfinal, hsame', hciphertext', hspent'⟩ :=
    h' commitment kept hkept (hsame.trans hwallet)
  exact ⟨final, hfinal, hsame'.trans hsame, hciphertext'.trans hciphertext, hspent'.trans hspent⟩

theorem RowsKept.heldBy (h : RowsKept wallet table later) (hheld : table.HeldBy wallet commitment) :
    later.HeldBy wallet commitment := by
  obtain ⟨row, hrow, hwallet⟩ := hheld
  obtain ⟨kept, hkept, hsame, -⟩ := h commitment row hrow hwallet
  exact ⟨kept, hkept, hsame.trans hwallet⟩

theorem RowsKept.markRow (hother : other ≠ wallet) (key : String) :
    RowsKept wallet table (table.markRow other key) := by
  intro commitment row hrow hwallet
  refine ⟨row, ?_, rfl, rfl, rfl⟩
  rw [NoteTable.lookup_markRow, hrow]
  split
  · have hne : row.wallet ≠ some other := by
      rw [hwallet]
      exact fun heq => hother (Option.some.inj heq).symm
    exact congrArg some (if_neg hne)
  · rfl

theorem NoteTable.HeldBy.of_markRow {key : String}
    (h : (table.markRow other key).HeldBy wallet commitment) : table.HeldBy wallet commitment := by
  obtain ⟨row, hrow, hwallet⟩ := h
  obtain ⟨old, hold, hsame, -⟩ := NoteTable.markRow_row hrow
  exact ⟨old, hold, hsame.symm.trans hwallet⟩

/-- No other wallet registers a row for this one. -/
theorem NoteTable.HeldBy.of_serve (hother : other ≠ wallet)
    (h : (table.serve other request).1.HeldBy wallet commitment) :
    table.HeldBy wallet commitment := by
  cases request with
  | register written ciphertext =>
      simp only [serve] at h
      split at h
      · obtain ⟨row, hrow, hwallet⟩ := h
        rw [registerWalletNote, Option.mem_def, lookup_write] at hrow
        split at hrow
        · obtain rfl := Option.some.inj hrow
          cases hold : table.lookup commitment with
          | none =>
              rw [hold] at hwallet
              exact absurd (Option.some.inj hwallet) hother
          | some old =>
              rw [hold] at hwallet
              exact absurd (Option.some.inj hwallet) hother
        · exact ⟨row, hrow, hwallet⟩
      · exact h
  | markSpent written =>
      simp only [serve] at h
      split at h
      · exact h.of_markRow.of_markRow
      · exact h

/-- A registration by another wallet takes the row. -/
theorem NoteTable.not_heldBy_of_registers (hother : other ≠ wallet)
    (hregisters : request.Registers commitment) :
    ¬ (table.serve other request).1.HeldBy wallet commitment := by
  obtain ⟨ciphertext, rfl, hbody⟩ := hregisters
  simp only [serve, hbody, if_true]
  rintro ⟨row, hrow, hwallet⟩
  rw [registerWalletNote, Option.mem_def, lookup_write, if_pos rfl] at hrow
  obtain rfl := Option.some.inj hrow
  cases hold : table.lookup commitment with
  | none =>
      rw [hold] at hwallet
      exact hother (Option.some.inj hwallet)
  | some old =>
      rw [hold] at hwallet
      exact hother (Option.some.inj hwallet)

/-- A request of another wallet that registers no row of this one keeps its rows. -/
theorem RowsKept.serve (hother : other ≠ wallet)
    (hregisters : ∀ commitment, request.Registers commitment →
      ¬ table.HeldBy wallet commitment) :
    RowsKept wallet table (table.serve other request).1 := by
  cases request with
  | register written ciphertext =>
      simp only [NoteTable.serve]
      split
      case isTrue hbody =>
        intro commitment row hrow hwallet
        refine ⟨row, ?_, rfl, rfl, rfl⟩
        rw [NoteTable.registerWalletNote, NoteTable.lookup_write]
        split
        case isTrue hsame =>
          subst hsame
          exact absurd ⟨row, hrow, hwallet⟩ (hregisters commitment ⟨ciphertext, rfl, hbody⟩)
        case isFalse => exact hrow
      case isFalse => exact RowsKept.refl wallet table
  | markSpent written =>
      simp only [NoteTable.serve]
      split
      · exact (RowsKept.markRow hother _).trans (RowsKept.markRow hother _)
      · exact RowsKept.refl wallet table

end Requests

/-! ## Any requests of other wallets -/

theorem NoteTable.HeldBy.of_serveAll {wallet commitment : String}
    {requests : List (String × MeRequest)} (hothers : ∀ request ∈ requests, request.1 ≠ wallet)
    {table : NoteTable} (h : (table.serveAll requests).HeldBy wallet commitment) :
    table.HeldBy wallet commitment := by
  induction requests generalizing table with
  | nil => exact h
  | cons request rest ih =>
      exact (ih (fun later hlater => hothers later (List.mem_cons_of_mem _ hlater)) h).of_serve
        (hothers request List.mem_cons_self)

theorem RowsKept.serveAll {wallet : String} {requests : List (String × MeRequest)}
    (hothers : ∀ request ∈ requests, request.1 ≠ wallet) {table : NoteTable}
    (hregisters : ∀ request ∈ requests, ∀ commitment, request.2.Registers commitment →
      ¬ table.HeldBy wallet commitment) :
    RowsKept wallet table (table.serveAll requests) := by
  induction requests generalizing table with
  | nil => exact RowsKept.refl wallet table
  | cons request rest ih =>
      have hother := hothers request List.mem_cons_self
      refine (RowsKept.serve hother (hregisters request List.mem_cons_self)).trans
        (ih (fun later hlater => hothers later (List.mem_cons_of_mem _ hlater)) ?_)
      intro later hlater commitment hcommitment hheld
      exact hregisters later (List.mem_cons_of_mem _ hlater) commitment hcommitment
        (hheld.of_serve hother)

/-- Requests of other wallets keep a wallet's rows exactly if none of them registers a
commitment that the wallet has registered. -/
theorem wallet_rows_kept_iff (table : NoteTable) (wallet : String)
    (requests : List (String × MeRequest)) (hothers : ∀ request ∈ requests, request.1 ≠ wallet) :
    RowsKept wallet table (table.serveAll requests) ↔
      ∀ request ∈ requests, ∀ commitment, request.2.Registers commitment →
        ¬ table.HeldBy wallet commitment := by
  constructor
  · intro hkept request hrequest commitment hregisters hheld
    obtain ⟨before, after, rfl⟩ := List.append_of_mem hrequest
    have hlast := hkept.heldBy hheld
    unfold NoteTable.serveAll at hlast
    rw [List.foldl_append, List.foldl_cons] at hlast
    have hafter : ∀ later ∈ after, later.1 ≠ wallet := fun later hlater =>
      hothers later (List.mem_append_right _ (List.mem_cons_of_mem _ hlater))
    exact NoteTable.not_heldBy_of_registers (hothers request hrequest) hregisters
      (NoteTable.HeldBy.of_serveAll hafter hlast)
  · exact RowsKept.serveAll hothers

namespace Sample

/-- A commitment as it is registered. -/
def noteName : String := String.ofList ('0' :: 'x' :: List.replicate 64 'a')

def ownedTable : NoteTable := NoteTable.registerWalletNote ∅ "owner" noteName "ciphertext"

end Sample

/-- Marks of another wallet change nothing. -/
theorem wallet_rows_kept_marked :
    RowsKept "owner" Sample.ownedTable
      (Sample.ownedTable.serveAll [("other", .markSpent Sample.noteName)]) := by
  refine (wallet_rows_kept_iff Sample.ownedTable "owner" [("other", .markSpent Sample.noteName)]
    ?_).mpr ?_
  · intro request hrequest
    rw [List.mem_singleton.mp hrequest]
    decide
  · intro request hrequest commitment hregisters
    rw [List.mem_singleton.mp hrequest] at hregisters
    obtain ⟨ciphertext, heq, -⟩ := hregisters
    cases heq

/-- Any wallet replaces the ciphertext of another's note. -/
theorem wallet_row_replaced :
    ¬ ∀ (table : NoteTable) (wallet : String) (requests : List (String × MeRequest)),
      (∀ request ∈ requests, request.1 ≠ wallet) →
        RowsKept wallet table (table.serveAll requests) := by
  intro halways
  have hkept := halways Sample.ownedTable "owner" [("other", .register Sample.noteName "junk")]
    (by
      intro request hrequest
      rw [List.mem_singleton.mp hrequest]
      decide)
  have hheld : Sample.ownedTable.HeldBy "owner" Sample.noteName := by decide +kernel
  have hlost : ¬ (Sample.ownedTable.serveAll
      [("other", .register Sample.noteName "junk")]).HeldBy "owner" Sample.noteName := by
    decide +kernel
  exact hlost (hkept.heldBy hheld)

end StxShield.BlockIndexer
