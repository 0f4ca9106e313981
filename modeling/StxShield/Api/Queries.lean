import StxShield.Library.Ranking
import StxShield.Sdk.DiscoveredNotes

/-!
# The encrypted feed

The client asks for a thousand records of the feed; the route that answers takes no limit
above two hundred, and the query starts from the notes registered last.
-/

namespace StxShield.Api

open Library JavaScript Sdk

/-! ## The table of notes -/

structure NoteRow where
  commitment : String
  ciphertext : Option String
  root : Option String
  txid : String
  spent : Bool
  createdAt : Nat
  deriving DecidableEq

/-- There is one row for each commitment. -/
structure NoteTable where
  rows : List NoteRow
  unique : (rows.map NoteRow.commitment).Nodup

def clampLimit (v : Value) (default max : Nat) : Nat :=
  match v.toNumber with
  | .finite n => if n ≤ 0 then default else min ⌊n⌋.toNat max
  | _ => default

def clampOffset (v : Value) : Nat :=
  match v.toNumber with
  | .finite n => if n < 0 then 0 else ⌊n⌋.toNat
  | _ => 0

/-- Rows with a ciphertext. -/
def NoteTable.encrypted (table : NoteTable) : List NoteRow :=
  table.rows.filter fun row => row.ciphertext.isSome

/-- Rows of one time come in the order of the table. -/
def getEncryptedNotes (limit offset : Nat) (table : NoteTable) : List NoteRow :=
  ((Ranking.ranked NoteRow.createdAt table.encrypted).drop offset).take limit

/-- The route `/notes/encrypted`. -/
def encryptedFeed (limit offset : Value) (table : NoteTable) : List NoteRow :=
  getEncryptedNotes (clampLimit limit 50 200) (clampOffset offset) table

def NoteRow.record (row : NoteRow) : EncryptedNoteRecord where
  commitment := row.commitment
  ciphertext := row.ciphertext
  root := row.root.getD ""
  txid := row.txid
  spent := row.spent

/-- `ApiProvider.getEncryptedNotes` -/
def requestEncryptedNotes (limit offset : Nat) (table : NoteTable) : List EncryptedNoteRecord :=
  (encryptedFeed (.string (String.ofList (textOf 10 limit)))
    (.string (String.ofList (textOf 10 offset))) table).map NoteRow.record

/-- What `getNotes` asks for. -/
def requestedFeed (table : NoteTable) : List EncryptedNoteRecord :=
  requestEncryptedNotes 1000 0 table

/-! ## What is in view -/

/-- How many rows of the feed go before this one: those registered later, and those of the
same time that stand before it. -/
def NoteTable.newer (table : NoteTable) (row : NoteRow) : Nat :=
  table.encrypted.countP (fun other => row.createdAt < other.createdAt) +
    (table.encrypted.takeWhile fun other => other ≠ row).countP
      fun other => row.createdAt = other.createdAt

/-- The records have a row's ciphertext with its commitment. -/
def InView (records : List EncryptedNoteRecord) (row : NoteRow) : Prop :=
  ∃ r ∈ records, r.commitment = row.commitment ∧ r.ciphertext = row.ciphertext

/-- A row whose ciphertext is decrypted to a payload that opens the row's commitment. -/
def Incoming (E : Ciphers) (K : Packages) (viewing : Bytes) (owner : OwnerKey)
    (assets : List AssetInfo) (row : NoteRow) : Prop :=
  ∃ payload, Passes E K viewing owner assets row.record payload

variable {table : NoteTable} {row : NoteRow}

theorem requestedFeed_eq (table : NoteTable) :
    requestedFeed table =
      ((Ranking.ranked NoteRow.createdAt table.encrypted).take 200).map NoteRow.record := by
  have hlimit : clampLimit (.string (String.ofList (textOf 10 (1000 : Nat)))) 50 200 = 200 := by
    decide +kernel
  have hoffset : clampOffset (.string (String.ofList (textOf 10 (0 : Nat)))) = 0 := by
    decide +kernel
  unfold requestedFeed requestEncryptedNotes encryptedFeed
  rw [hlimit, hoffset]
  rfl

theorem NoteTable.nodup_encrypted (table : NoteTable) : table.encrypted.Nodup :=
  table.unique.of_map.filter _

theorem NoteTable.eq_of_commitment {other : NoteRow} (hrow : row ∈ table.rows)
    (hother : other ∈ table.rows) (h : other.commitment = row.commitment) : other = row :=
  List.inj_on_of_nodup_map table.unique hother hrow h

/-- The place of a row in the feed. -/
theorem NoteTable.mem_take_iff (hrow : row ∈ table.encrypted) (count : Nat) :
    row ∈ (Ranking.ranked NoteRow.createdAt table.encrypted).take count ↔
      table.newer row < count := by
  obtain ⟨front, back, hsplit⟩ := List.append_of_mem hrow
  have hnodup := table.nodup_encrypted
  rw [hsplit] at hnodup
  have hfront : row ∉ front := fun hmem =>
    List.disjoint_of_nodup_append hnodup hmem List.mem_cons_self
  have hbefore : (front ++ row :: back).takeWhile (fun other => other ≠ row) = front := by
    have hother : ∀ other ∈ front, decide (other ≠ row) = true := by
      intro other hmem
      apply decide_eq_true
      rintro rfl
      exact hfront hmem
    rw [List.takeWhile_append_of_pos hother, List.takeWhile_cons_of_neg (by simp), List.append_nil]
  unfold NoteTable.newer
  rw [hsplit, hbefore, Ranking.mem_take_ranked hnodup, Ranking.rank_eq]

/-- A row is in view through the feed if it is one of the last two hundred. -/
theorem inView_requestedFeed (hrow : row ∈ table.encrypted) :
    InView (requestedFeed table) row ↔ table.newer row < 200 := by
  rw [requestedFeed_eq, ← NoteTable.mem_take_iff hrow]
  constructor
  · rintro ⟨r, hr, hcommitment, -⟩
    obtain ⟨other, hother, rfl⟩ := List.mem_map.mp hr
    have hmem : other ∈ table.encrypted :=
      (List.mem_insertionSort _).mp (List.mem_of_mem_take hother)
    have hsame : other = row :=
      table.eq_of_commitment (List.mem_of_mem_filter hrow) (List.mem_of_mem_filter hmem) hcommitment
    rwa [hsame] at hother
  · intro hmem
    exact ⟨row.record, List.mem_map_of_mem hmem, rfl, rfl⟩

theorem inView_append {records others : List EncryptedNoteRecord} :
    InView (records ++ others) row ↔ InView records row ∨ InView others row := by
  unfold InView
  simp only [List.mem_append, or_and_right, exists_or]

section Wallets

variable {E : Ciphers} {K : Packages} {viewing : Bytes} {owner : OwnerKey}
  {assets : List AssetInfo}

theorem Incoming.encrypted (h : Incoming E K viewing owner assets row) (hrow : row ∈ table.rows) :
    row ∈ table.encrypted := by
  obtain ⟨payload, asset, assetField, hpasses⟩ := h
  have hopened := hpasses.opened
  refine List.mem_filter.mpr ⟨hrow, ?_⟩
  cases hciphertext : row.ciphertext with
  | some ciphertext => rfl
  | none =>
      unfold openRecord NoteRow.record at hopened
      simp only [hciphertext] at hopened
      cases hopened

end Wallets

/-- What a wallet works from has all its incoming notes exactly if each of them is one of
the two hundred that were registered last, or in the wallet's own vault. -/
theorem discovery_complete_iff (E : Ciphers) (K : Packages) (viewing : Bytes) (owner : OwnerKey)
    (assets : List AssetInfo) (table : NoteTable) (vaultRecords : List EncryptedNoteRecord) :
    (∀ row ∈ table.rows, Incoming E K viewing owner assets row →
      InView (requestedFeed table ++ vaultRecords) row) ↔
    ∀ row ∈ table.rows, Incoming E K viewing owner assets row →
      table.newer row < 200 ∨ InView vaultRecords row := by
  constructor
  · intro h row hrow hincoming
    rcases inView_append.mp (h row hrow hincoming) with hfeed | hvault
    · exact .inl ((inView_requestedFeed (hincoming.encrypted hrow)).mp hfeed)
    · exact .inr hvault
  · intro h row hrow hincoming
    rcases h row hrow hincoming with hnewer | hvault
    · exact inView_append.mpr (.inl ((inView_requestedFeed (hincoming.encrypted hrow)).mpr hnewer))
    · exact inView_append.mpr (.inr hvault)

namespace Sample

/-- The wallet's row, and two hundred that were registered after it. -/
def incomingRow : NoteRow where
  commitment := (Sdk.Sample.record Sdk.Sample.honestPayload).commitment
  ciphertext := (Sdk.Sample.record Sdk.Sample.honestPayload).ciphertext
  root := none
  txid := ""
  spent := false
  createdAt := 0

def laterRow (time : Nat) : NoteRow where
  commitment := String.ofList (List.replicate time 'x')
  ciphertext := some "00"
  root := none
  txid := ""
  spent := false
  createdAt := time + 1

theorem incomingRow_commitment :
    incomingRow.commitment = toHex32 (commitmentOf Sdk.Sample.offline 5 3 0 7 none) := rfl

def grown : NoteTable where
  rows := incomingRow :: (List.range 200).map laterRow
  unique := by
    have hother : ∀ time, (laterRow time).commitment ≠ incomingRow.commitment := by
      intro time hsame
      have hzero : '0' ∈ (laterRow time).commitment.toList := by
        rw [hsame, incomingRow_commitment, toHex32, String.toList_ofList]
        exact List.mem_cons_self
      rw [laterRow, String.toList_ofList] at hzero
      exact absurd (List.eq_of_mem_replicate hzero) (by decide)
    have hlater : ((List.range 200).map fun time => (laterRow time).commitment).Nodup := by
      refine List.nodup_range.map fun time time' hsame => ?_
      have hlength := congrArg (fun text => text.toList.length) hsame
      simpa [laterRow] using hlength
    rw [List.map_cons, List.map_map, List.nodup_cons]
    refine ⟨fun hmem => ?_, hlater⟩
    obtain ⟨time, -, hsame⟩ := List.mem_map.mp hmem
    exact hother time hsame

theorem incomingRow_incoming :
    Incoming Sdk.Sample.transparent Sdk.Sample.offline Sdk.Sample.viewing Sdk.Sample.ownerKey []
      incomingRow := by
  obtain ⟨hopened, hsupported, hfield, hcommitment⟩ :=
    Sdk.Sample.record_passes [] Sdk.Sample.honestPayload_valid rfl rfl rfl
  exact ⟨Sdk.Sample.honestPayload, none, none, hopened, hsupported, hfield, hcommitment⟩

end Sample

/-- After two hundred other registrations a note is out of view. -/
theorem incoming_note_hidden :
    ¬ ∀ (E : Ciphers) (K : Packages) (viewing : Bytes) (owner : OwnerKey)
      (assets : List AssetInfo) (table : NoteTable) (vaultRecords : List EncryptedNoteRecord),
      ∀ row ∈ table.rows, Incoming E K viewing owner assets row →
        InView (requestedFeed table ++ vaultRecords) row := by
  intro halways
  have hview := halways _ _ _ _ [] Sample.grown [] Sample.incomingRow List.mem_cons_self
    Sample.incomingRow_incoming
  have hencrypted : Sample.incomingRow ∈ Sample.grown.encrypted :=
    Sample.incomingRow_incoming.encrypted List.mem_cons_self
  rw [List.append_nil, inView_requestedFeed hencrypted] at hview
  have hlater : 200 ≤ Sample.grown.encrypted.countP
      fun other => Sample.incomingRow.createdAt < other.createdAt := by
    decide +kernel
  have hnewer : 200 ≤ Sample.grown.newer Sample.incomingRow :=
    hlater.trans (Nat.le_add_right _ _)
  omega

end StxShield.Api
