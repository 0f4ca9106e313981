import StxShield.Api.BlockIndexer

/-!
# What an event writes

The handlers write some rows for an event, and may record its transaction after them.  The
list of the rows is known beforehand; the first that does not fit its table is where the
handlers stop.
-/

namespace StxShield.BlockIndexer

open Library

/-! ## Writes -/

/-- A row that an event gives. -/
inductive TableWrite where
  | root (root : String) (row : RootRow)
  | note (commitment : String) (row : NoteRow)
  | leaf (commitment txid : String) (leafIndex : Option Int)
  | aggregation (domainId aggregationId : Int) (row : AggregationRow)

namespace TableWrite

def fits : TableWrite → Bool
  | .root _ row => row.fits
  | .note _ row => row.fits
  | .leaf _ _ leafIndex => leafIndex.all int4
  | .aggregation domainId aggregationId row => row.fits domainId aggregationId

/-- The tables with the row, where it fits. -/
def written (store : Store) : TableWrite → Store
  | .root newRoot row => { store with roots := insertIfAbsent store.roots newRoot row }
  | .note commitment row => { store with notes := store.notes.insert commitment row }
  | .leaf commitment txid leafIndex =>
      { store with
        notes := store.notes.insert commitment
          (leafRow txid leafIndex (store.notes.lookup commitment)) }
  | .aggregation domainId aggregationId row =>
      { store with
        aggregations := insertIfAbsent store.aggregations (domainId, aggregationId) row }

end TableWrite

def writeAll : List TableWrite → Async Store Unit
  | [] => pure ()
  | write :: rest => do
      statement write.fits fun store => write.written store
      writeAll rest

/-- What is done for an event before its transaction is recorded, and what is recorded. -/
structure EventProgram where
  before : List TableWrite
  records : Option (TransactionRow × Option Int)

def EventProgram.run (program : EventProgram) (txid : String) : Async Store Unit := do
  writeAll program.before
  match program.records with
  | some (row, feeMicro) => recordTransaction txid row feeMicro
  | none => pure ()

/-! ## The program of an event -/

section Programs

variable (ev : DecodedEvent) (txid : String)

def rootWrites : List TableWrite :=
  match asHex (ev.fields "new-root") with
  | some newRoot =>
      [.root newRoot
        { height := asInt (ev.fields "height"), txid := some txid, aggregationId := none }]
  | none => []

def outputWrites (commitmentField leafField type : String) (assetId : Option Int) :
    List TableWrite :=
  match asHex (ev.fields commitmentField), asHex (ev.fields "new-root") with
  | some commitment, some newRoot =>
      [.note commitment
        { root := some newRoot, txid := txid, leafIndex := asInt (ev.fields leafField),
          type := type, assetId := assetId }]
  | _, _ => []

def outputRootWrites (commitmentField : String) : List TableWrite :=
  match asHex (ev.fields commitmentField) with
  | some _ => rootWrites ev txid
  | none => []

def outputProgram (commitmentField type : String) (assetId feeMicro : Option Int) :
    EventProgram where
  before := outputRootWrites ev txid commitmentField ++
    outputWrites ev txid commitmentField "leaf-index" type assetId
  records := some (operationRow ev type assetId, feeMicro)

/-- As `handleNoteEvent`. -/
def noteProgram : Option EventProgram :=
  let fee := asBig (ev.fields "fee")
  let assetId := asInt (ev.fields "asset-id")
  match ev.event with
  | "shielded" => some (outputProgram ev txid "commitment" "shield" none fee)
  | "transferred" => some (outputProgram ev txid "new-commitment" "transfer" none fee)
  | "note-split" =>
      some
        { before := rootWrites ev txid ++
            (outputWrites ev txid "commitment-1" "leaf-1" "split" none ++
              outputWrites ev txid "commitment-2" "leaf-2" "split" none)
          records := some (operationRow ev "split" none, fee) }
  | "note-merge" => some (outputProgram ev txid "commitment" "merge" none fee)
  | "withdrawn" => some { before := [], records := some (operationRow ev "withdraw" none, fee) }
  | "sip10-shielded" => some (outputProgram ev txid "commitment" "shield" assetId none)
  | "sip10-transferred" => some (outputProgram ev txid "new-commitment" "transfer" assetId none)
  | "sip10-split" =>
      some
        { before := rootWrites ev txid
          records := some (operationRow ev "split" assetId, none) }
  | "sip10-merged" => some (outputProgram ev txid "commitment" "merge" assetId none)
  | "sip10-withdrawn" =>
      some { before := [], records := some (operationRow ev "withdraw" assetId, none) }
  | _ => none

/-- As `handleCommitmentEvent`. -/
def commitmentProgram : Option EventProgram :=
  if ev.event = "commitment-registered" then
    some
      { before :=
          match asHex (ev.fields "commitment") with
          | some commitment => [.leaf commitment txid (asInt (ev.fields "index"))]
          | none => []
        records := none }
  else none

/-- As `handleAggregationEvent`. -/
def aggregationProgram : EventProgram :=
  if ev.event = "aggregation-posted" then
    match asBig (ev.fields "aggregation-id"), asInt (ev.fields "domain-id"),
      asHex (ev.fields "root"), asInt (ev.fields "leaf-count") with
    | some aggregationId, some domainId, some root, some leafCount =>
        let height := asInt (ev.fields "height")
        { before :=
            [.aggregation domainId aggregationId
              { root := root, leafCount := leafCount, height := height, txid := txid },
             .root root
              { height := height, txid := some txid, aggregationId := some aggregationId }]
          records := some
            ({ type := "aggregation", height := height, aggregationId := some aggregationId,
               assetId := none }, none) }
    | _, _, _, _ => { before := [], records := none }
  else { before := [], records := none }

/-- What the first handler whose event it is does. -/
def handlerProgram : EventProgram :=
  ((noteProgram ev txid).or (commitmentProgram ev txid)).getD (aggregationProgram ev txid)

/-- As `handleEvent`. -/
def eventProgram : EventProgram where
  before := rootWrites ev txid ++ (handlerProgram ev txid).before
  records := (handlerProgram ev txid).records

end Programs

section Handlers

variable {ev : DecodedEvent} {txid : String}

theorem writeAll_append (first second : List TableWrite) :
    writeAll (first ++ second) = (do writeAll first; writeAll second) := by
  induction first with
  | nil => rfl
  | cons write rest ih =>
      rw [List.cons_append, writeAll, writeAll, ih, bind_assoc]

theorem writeAll_singleton (write : TableWrite) :
    writeAll [write] = statement write.fits fun store => write.written store :=
  bind_pure _

theorem handleRootFromEvent_eq : handleRootFromEvent ev txid = writeAll (rootWrites ev txid) := by
  unfold handleRootFromEvent rootWrites
  cases asHex (ev.fields "new-root") with
  | none => rfl
  | some newRoot =>
      dsimp only
      rw [writeAll_singleton]
      rfl

theorem insertOutputRoot_eq {field : String} :
    insertOutputRoot ev txid field = writeAll (outputRootWrites ev txid field) := by
  unfold insertOutputRoot outputRootWrites
  cases asHex (ev.fields field) with
  | none => rfl
  | some commitment => exact handleRootFromEvent_eq

theorem insertOutput_eq {field leafField type : String} {assetId : Option Int} :
    insertOutput ev txid field leafField type assetId =
      writeAll (outputWrites ev txid field leafField type assetId) := by
  unfold insertOutput outputWrites
  cases asHex (ev.fields field) with
  | none => rfl
  | some commitment =>
      cases asHex (ev.fields "new-root") with
      | none => rfl
      | some newRoot =>
          dsimp only
          rw [writeAll_singleton]
          rfl

theorem handleOutput_eq {field type : String} {assetId fee : Option Int} :
    handleOutput ev txid field type assetId fee =
      (do (outputProgram ev txid field type assetId fee).run txid; pure true) := by
  unfold handleOutput EventProgram.run outputProgram
  simp only [insertOutputRoot_eq, insertOutput_eq, writeAll_append, bind_assoc]

theorem handleNoteEvent_eq :
    handleNoteEvent ev txid =
      (noteProgram ev txid).elim (pure false) fun program =>
        program.run txid >>= fun _ => pure true := by
  unfold noteProgram
  dsimp only
  split
  case h_3 hevent =>
    simp only [handleNoteEvent, hevent, Option.elim_some, EventProgram.run, writeAll_append,
      handleRootFromEvent_eq, insertOutput_eq, bind_assoc]
  case h_5 hevent =>
    simp only [handleNoteEvent, hevent, Option.elim_some, EventProgram.run, writeAll, pure_bind]
  case h_8 hevent =>
    simp only [handleNoteEvent, hevent, Option.elim_some, EventProgram.run,
      handleRootFromEvent_eq, bind_assoc]
  case h_10 hevent =>
    simp only [handleNoteEvent, hevent, Option.elim_some, EventProgram.run, writeAll, pure_bind]
  case h_11 => simp_all only [handleNoteEvent, Option.elim_none]
  all_goals
    rename_i hevent
    simp only [handleNoteEvent, hevent, Option.elim_some, handleOutput_eq]

theorem handleCommitmentEvent_eq :
    handleCommitmentEvent ev txid =
      (commitmentProgram ev txid).elim (pure false) fun program =>
        program.run txid >>= fun _ => pure true := by
  unfold handleCommitmentEvent commitmentProgram
  split
  case isTrue =>
    cases asHex (ev.fields "commitment") with
    | none => rfl
    | some commitment =>
        simp only [Option.elim_some, EventProgram.run, writeAll_singleton, bind_assoc, pure_bind]
        rfl
  case isFalse => rfl

theorem handleAggregationEvent_eq :
    handleAggregationEvent ev txid = (aggregationProgram ev txid).run txid := by
  unfold handleAggregationEvent aggregationProgram
  split
  case isTrue =>
    cases asBig (ev.fields "aggregation-id") with
    | none => rfl
    | some aggregationId =>
        cases asInt (ev.fields "domain-id") with
        | none => rfl
        | some domainId =>
            cases asHex (ev.fields "root") with
            | none => rfl
            | some root =>
                cases asInt (ev.fields "leaf-count") with
                | none => rfl
                | some leafCount =>
                    simp only [EventProgram.run, writeAll, bind_assoc, pure_bind]
                    rfl
  case isFalse => rfl

/-- The handlers run the program of the event. -/
theorem handleEvent_eq : handleEvent ev txid = (eventProgram ev txid).run txid := by
  have hroot : (eventProgram ev txid).run txid =
      (do handleRootFromEvent ev txid; (handlerProgram ev txid).run txid) := by
    unfold EventProgram.run eventProgram
    rw [writeAll_append, handleRootFromEvent_eq, bind_assoc]
  rw [hroot]
  unfold handleEvent handlerProgram
  rw [handleNoteEvent_eq, handleCommitmentEvent_eq, handleAggregationEvent_eq]
  congr 1
  funext _
  cases noteProgram ev txid with
  | some program =>
      simp only [Option.elim_some, bind_assoc, pure_bind, if_true, Option.some_or,
        Option.getD_some]
      exact bind_pure _
  | none =>
      cases commitmentProgram ev txid with
      | some program =>
          simp only [Option.elim_some, Option.elim_none, bind_assoc, pure_bind, if_true,
            Bool.false_eq_true, if_false, Option.none_or, Option.getD_some]
          exact bind_pure _
      | none =>
          simp only [Option.elim_none, pure_bind, Bool.false_eq_true, if_false, Option.none_or,
            Option.getD_none]

end Handlers
/-! ## Where the handlers stop -/

/-- What `recordTransaction` leaves where nothing is rejected. -/
def Store.recorded (txid : String) (row : TransactionRow) (feeMicro : Option Int)
    (store : Store) : Store :=
  if store.transactions.lookup txid = none ∧ 0 < feeMicro.getD 0 then
    (store.withTransaction txid row).withFee (feeMicro.getD 0)
  else store.withTransaction txid row

namespace EventProgram

/-- All values fit their columns, but for the total of the fees. -/
structure Fits (program : EventProgram) : Prop where
  before : ∀ write ∈ program.before, write.fits = true
  records : ∀ record ∈ program.records, record.1.fits = true

/-- What the recording of the transaction may add to the total. -/
def fee (program : EventProgram) : Int :=
  program.records.elim 0 fun record => max 0 (record.2.getD 0)

/-- The tables after all of the program. -/
def complete (program : EventProgram) (txid : String) (store : Store) : Store :=
  let written := program.before.foldl TableWrite.written store
  program.records.elim written fun record => written.recorded txid record.1 record.2

end EventProgram

section Endings

variable {store : Store} {txid : String} {row : TransactionRow} {feeMicro : Option Int}
  {program : EventProgram}

theorem statement_of_fits {fits : Bool} {write : Store → Store} (h : fits = true) :
    statement fits write store = (.returned (), write store) := by
  rw [h]
  rfl

theorem statement_of_rejected {fits : Bool} {write : Store → Store} (h : fits = false) :
    statement fits write store = (.thrown "out of range", store) := by
  rw [h]
  rfl

/-- The rows before the first that does not fit are written. -/
theorem writeAll_snd (writes : List TableWrite) (store : Store) :
    (writeAll writes store).2 = (writes.takeWhile TableWrite.fits).foldl TableWrite.written store := by
  induction writes generalizing store with
  | nil => rfl
  | cons write rest ih =>
      rw [writeAll, Async.bind_apply]
      cases hfits : write.fits with
      | true =>
          rw [statement_of_fits rfl, List.takeWhile_cons_of_pos hfits, List.foldl_cons]
          exact ih _
      | false =>
          rw [statement_of_rejected rfl, List.takeWhile_cons_of_neg (by simp [hfits])]
          rfl

theorem writeAll_of_fits {writes : List TableWrite} (h : ∀ write ∈ writes, write.fits = true)
    (store : Store) :
    writeAll writes store = (.returned (), writes.foldl TableWrite.written store) := by
  induction writes generalizing store with
  | nil => rfl
  | cons write rest ih =>
      rw [writeAll, Async.bind_of_returned (statement_of_fits (h write List.mem_cons_self))]
      exact ih (fun later hlater => h later (List.mem_cons_of_mem _ hlater)) _

/-- A sequence of writes that returns has written all rows. -/
theorem fits_of_writeAll_returned {writes : List TableWrite} {store after : Store}
    (h : writeAll writes store = (.returned (), after)) :
    ∀ write ∈ writes, write.fits = true := by
  induction writes generalizing store with
  | nil => exact fun _ hmem => absurd hmem List.not_mem_nil
  | cons write rest ih =>
      obtain ⟨_, mid, hfirst, hrest⟩ := Async.bind_returned.mp h
      intro later hlater
      obtain rfl | hlater := List.mem_cons.mp hlater
      · by_contra hrejected
        rw [statement_of_rejected (Bool.not_eq_true _ ▸ hrejected)] at hfirst
        cases hfirst
      · exact ih hrest later hlater

theorem recordTransaction_of_fits (hrow : row.fits = true) (hfees : 0 ≤ store.totalFees)
    (hroom : store.totalFees + max 0 (feeMicro.getD 0) < 2 ^ 63) :
    recordTransaction txid row feeMicro store =
      (.returned (), store.recorded txid row feeMicro) := by
  unfold recordTransaction Store.recorded
  rw [Async.get_bind, Async.bind_of_returned (statement_of_fits hrow)]
  by_cases hfee : store.transactions.lookup txid = none ∧ 0 < feeMicro.getD 0
  · rw [if_pos hfee, if_pos hfee, statement_of_fits]
    simp only [int8, decide_eq_true_eq]
    omega
  · rw [if_neg hfee, if_neg hfee]
    rfl

theorem fits_of_recordTransaction_returned {after : Store}
    (h : recordTransaction txid row feeMicro store = (.returned (), after)) : row.fits = true := by
  unfold recordTransaction at h
  rw [Async.get_bind] at h
  obtain ⟨_, mid, hinsert, -⟩ := Async.bind_returned.mp h
  by_contra hrejected
  rw [statement_of_rejected (Bool.not_eq_true _ ▸ hrejected)] at hinsert
  cases hinsert

/-- A program that returns has written everything. -/
theorem fits_of_run_returned {after : Store} (h : program.run txid store = (.returned (), after)) :
    program.Fits := by
  obtain ⟨_, mid, hwrites, hrecords⟩ := Async.bind_returned.mp h
  refine ⟨fits_of_writeAll_returned hwrites, fun record hrecord => ?_⟩
  rw [Option.mem_def.mp hrecord] at hrecords
  exact fits_of_recordTransaction_returned hrecords

@[simp]
theorem totalFees_written (write : TableWrite) : (write.written store).totalFees = store.totalFees := by
  cases write <;> rfl

@[simp]
theorem totalFees_writtenAll (writes : List TableWrite) :
    (writes.foldl TableWrite.written store).totalFees = store.totalFees := by
  induction writes generalizing store with
  | nil => rfl
  | cons write rest ih => rw [List.foldl_cons, ih, totalFees_written]

theorem totalFees_recorded (txid : String) (row : TransactionRow) (feeMicro : Option Int)
    (store : Store) :
    store.totalFees ≤ (store.recorded txid row feeMicro).totalFees ∧
      (store.recorded txid row feeMicro).totalFees ≤
        store.totalFees + max 0 (feeMicro.getD 0) := by
  unfold Store.recorded
  split
  · simp only [Store.withFee, Store.withTransaction]
    omega
  · simp only [Store.withTransaction]
    omega

theorem EventProgram.Fits.run (h : program.Fits) (hfees : 0 ≤ store.totalFees)
    (hroom : store.totalFees + program.fee < 2 ^ 63) :
    program.run txid store = (.returned (), program.complete txid store) := by
  unfold EventProgram.run EventProgram.complete
  rw [Async.bind_of_returned (writeAll_of_fits h.before store)]
  unfold EventProgram.fee at hroom
  cases hrecords : program.records with
  | none => rfl
  | some record =>
      rw [hrecords] at hroom
      refine recordTransaction_of_fits (h.records record hrecords) ?_ ?_
      · rwa [totalFees_writtenAll]
      · rwa [totalFees_writtenAll]

theorem EventProgram.totalFees_complete :
    store.totalFees ≤ (program.complete txid store).totalFees ∧
      (program.complete txid store).totalFees ≤ store.totalFees + program.fee := by
  unfold EventProgram.complete EventProgram.fee
  cases program.records with
  | none => simp
  | some record =>
      have hrecorded := totalFees_recorded txid record.1 record.2
        (program.before.foldl TableWrite.written store)
      rwa [totalFees_writtenAll] at hrecorded

end Endings

/-! ## What a program stays within -/

section Within

variable {R : Store → Store → Prop} {program : EventProgram} {txid : String}
  (hrefl : ∀ store, R store store)
include hrefl

theorem statement_within {fits : Bool} {write : Store → Store} (h : ∀ store, R store (write store)) :
    Async.Within R (statement fits write) := by
  intro store
  cases fits with
  | true => exact h store
  | false => exact hrefl store

variable (htrans : ∀ {store store' store''}, R store store' → R store' store'' → R store store'')
include htrans

theorem writeAll_within {writes : List TableWrite}
    (h : ∀ write ∈ writes, ∀ store, R store (write.written store)) :
    Async.Within R (writeAll writes) := by
  induction writes with
  | nil => exact hrefl
  | cons write rest ih =>
      exact Async.within_bind htrans (statement_within hrefl (h write List.mem_cons_self))
        fun _ => ih fun later hlater => h later (List.mem_cons_of_mem _ hlater)

theorem recordTransaction_within {row : TransactionRow} {feeMicro : Option Int}
    (htransaction : ∀ store, R store (store.withTransaction txid row))
    (hfee : ∀ feeMicro store, 0 < feeMicro → R store (store.withFee feeMicro)) :
    Async.Within R (recordTransaction txid row feeMicro) := by
  refine Async.within_bind htrans (Async.within_get hrefl) fun store => ?_
  refine Async.within_bind htrans (statement_within hrefl htransaction) fun _ => ?_
  split_ifs with hpaid
  · exact statement_within hrefl fun later => hfee _ later hpaid.2
  · exact hrefl

/-- However a program ends, it stays within what its writes and the recording stay within. -/
theorem EventProgram.run_within (hbefore : ∀ write ∈ program.before, ∀ store,
      R store (write.written store))
    (htransaction : ∀ row store, R store (store.withTransaction txid row))
    (hfee : ∀ feeMicro store, 0 < feeMicro → R store (store.withFee feeMicro)) :
    Async.Within R (program.run txid) := by
  refine Async.within_bind htrans (writeAll_within hrefl htrans hbefore) fun _ => ?_
  cases program.records with
  | none => exact hrefl
  | some record => exact recordTransaction_within hrefl htrans (htransaction _) hfee

end Within

/-- What the recording leaves alone is as the rows before it leave it. -/
theorem EventProgram.run_snd {τ : Type} (view : Store → τ) (program : EventProgram)
    (txid : String) (htransaction : ∀ row store, view (store.withTransaction txid row) = view store)
    (hfee : ∀ feeMicro store, view (store.withFee feeMicro) = view store) (store : Store) :
    view (program.run txid store).2 =
      view ((program.before.takeWhile TableWrite.fits).foldl TableWrite.written store) := by
  rw [← writeAll_snd]
  refine Async.bind_snd_of_keeps (fun _ => ?_) store
  cases program.records with
  | none => exact Async.keeps_pure ()
  | some record =>
      exact recordTransaction_within (R := fun store later => view later = view store)
        (fun _ => rfl) (fun h h' => h'.trans h) (htransaction _)
        fun feeMicro later _ => hfee feeMicro later

/-! ## Fees -/

/-- The operations whose fee is in STX. -/
def nativeOperations : List String :=
  ["shielded", "transferred", "note-split", "note-merge", "withdrawn"]

/-- The fee that a native operation has paid. -/
def DecodedEvent.nativeFee (ev : DecodedEvent) : Int :=
  if ev.event ∈ nativeOperations then max 0 ((asBig (ev.fields "fee")).getD 0) else 0

theorem DecodedEvent.nativeFee_nonneg (ev : DecodedEvent) : 0 ≤ ev.nativeFee := by
  unfold DecodedEvent.nativeFee
  split
  · exact Int.le_max_left _ _
  · exact Int.le_refl 0

/-- An event that records no transaction has no native fee, and one that does records it. -/
theorem fee_eventProgram (ev : DecodedEvent) (txid : String) :
    (eventProgram ev txid).fee = ev.nativeFee := by
  unfold EventProgram.fee eventProgram handlerProgram noteProgram
  dsimp only
  split
  case h_11 h₁ h₂ h₃ h₄ h₅ h₆ h₇ h₈ h₉ h₁₀ =>
    have hnative : ev.nativeFee = 0 := by
      simp_all [DecodedEvent.nativeFee, nativeOperations]
    rw [hnative]
    unfold commitmentProgram aggregationProgram
    split
    · rfl
    · split
      · dsimp only
        split <;> rfl
      · rfl
  all_goals
    rename_i hevent
    simp [DecodedEvent.nativeFee, nativeOperations, hevent, outputProgram]

/-! ## The commitments of an event -/

/-- A write to the notes. -/
inductive NoteWrite where
  | output (commitment : String) (row : NoteRow)
  | leaf (commitment txid : String) (leafIndex : Option Int)
  deriving DecidableEq

def TableWrite.toNote : TableWrite → Option NoteWrite
  | .note commitment row => some (.output commitment row)
  | .leaf commitment txid leafIndex => some (.leaf commitment txid leafIndex)
  | _ => none

/-- The writes of an event to the notes table, up to a row that is rejected. -/
def noteWrites (ev : DecodedEvent) (txid : String) : List NoteWrite :=
  ((eventProgram ev txid).before.takeWhile TableWrite.fits).filterMap TableWrite.toNote

/-- A write without the owner's columns. -/
def NoteWrite.indexed (notes : DataMap String NoteRow) : NoteWrite → DataMap String NoteRow
  | .output commitment row => notes.insert commitment row
  | .leaf commitment txid leafIndex =>
      notes.insert commitment (leafRow txid leafIndex (notes.lookup commitment))

/-- Where an event names commitments, and the places of their leaves. -/
def leafFields : String → List (String × String)
  | "shielded" | "note-merge" | "sip10-shielded" | "sip10-merged" => [("commitment", "leaf-index")]
  | "transferred" | "sip10-transferred" => [("new-commitment", "leaf-index")]
  | "note-split" => [("commitment-1", "leaf-1"), ("commitment-2", "leaf-2")]
  | "commitment-registered" => [("commitment", "index")]
  | _ => []

/-- A row written for a commitment that an event names has the place it names. -/
def DecodedEvent.Names (ev : DecodedEvent) (commitment : String) (leafIndex : Option Int) : Prop :=
  ∃ pair ∈ leafFields ev.event,
    asHex (ev.fields pair.1) = some commitment ∧ asInt (ev.fields pair.2) = leafIndex

section Notes

variable {ev : DecodedEvent} {txid : String} {store : Store}

theorem notes_writtenAll (writes : List TableWrite) (store : Store) :
    (writes.foldl TableWrite.written store).notes =
      (writes.filterMap TableWrite.toNote).foldl NoteWrite.indexed store.notes := by
  induction writes generalizing store with
  | nil => rfl
  | cons write rest ih =>
      rw [List.foldl_cons, ih]
      cases write <;> rfl

/-- The writes of an event are what its handlers do to the notes. -/
theorem notes_handleEvent :
    (handleEvent ev txid store).2.notes =
      (noteWrites ev txid).foldl NoteWrite.indexed store.notes := by
  rw [handleEvent_eq]
  have hnotes := (eventProgram ev txid).run_snd Store.notes txid (fun _ _ => rfl) (fun _ _ => rfl)
    store
  rw [hnotes, notes_writtenAll]
  rfl

/-- Writes of an event that puts notes out. -/
def PutOutAs (ev : DecodedEvent) (txid type : String) (assetId : Option Int)
    (writes : List NoteWrite) : Prop :=
  ev.event ≠ "commitment-registered" ∧ ∀ write ∈ writes,
    ∃ pair ∈ leafFields ev.event, ∃ commitment, asHex (ev.fields pair.1) = some commitment ∧
      write = .output commitment
        { root := asHex (ev.fields "new-root"), txid := txid,
          leafIndex := asInt (ev.fields pair.2), type := type, assetId := assetId }

@[simp]
theorem notes_rootWrites : (rootWrites ev txid).filterMap TableWrite.toNote = [] := by
  unfold rootWrites
  cases asHex (ev.fields "new-root") with
  | none => rfl
  | some newRoot => rfl

@[simp]
theorem notes_outputRootWrites {field : String} :
    (outputRootWrites ev txid field).filterMap TableWrite.toNote = [] := by
  unfold outputRootWrites
  cases asHex (ev.fields field) with
  | none => rfl
  | some commitment => exact notes_rootWrites

theorem mem_outputWrites {field leafField type : String} {assetId : Option Int} {write : NoteWrite}
    (h : write ∈ (outputWrites ev txid field leafField type assetId).filterMap TableWrite.toNote) :
    ∃ commitment, asHex (ev.fields field) = some commitment ∧
      write = .output commitment
        { root := asHex (ev.fields "new-root"), txid := txid,
          leafIndex := asInt (ev.fields leafField), type := type, assetId := assetId } := by
  unfold outputWrites at h
  split at h
  case h_1 commitment newRoot hcommitment hroot =>
    rw [hroot]
    exact ⟨commitment, hcommitment, List.mem_singleton.mp h⟩
  case h_2 => cases h

theorem putOutAs_outputProgram {name field type : String} {assetId fee : Option Int}
    (hevent : ev.event = name) (hname : name ≠ "commitment-registered")
    (hfields : leafFields name = [(field, "leaf-index")]) :
    PutOutAs ev txid type assetId
      ((outputProgram ev txid field type assetId fee).before.filterMap TableWrite.toNote) := by
  refine ⟨hevent ▸ hname, fun write hwrite => ?_⟩
  rw [outputProgram, List.filterMap_append, notes_outputRootWrites, List.nil_append] at hwrite
  obtain ⟨commitment, hcommitment, hwrite⟩ := mem_outputWrites hwrite
  refine ⟨(field, "leaf-index"), ?_, commitment, hcommitment, hwrite⟩
  rw [hevent, hfields]
  exact List.mem_cons_self

theorem putOutAs_nil (hevent : ev.event ≠ "commitment-registered") : PutOutAs ev txid "" none [] :=
  ⟨hevent, fun _ hwrite => absurd hwrite List.not_mem_nil⟩

/-- A note event's writes are rows of notes it puts out. -/
theorem putOutAs_noteProgram {program : EventProgram} (h : noteProgram ev txid = some program) :
    ∃ type assetId, PutOutAs ev txid type assetId (program.before.filterMap TableWrite.toNote) := by
  unfold noteProgram at h
  dsimp only at h
  split at h
  case h_1 hevent => cases h; exact ⟨_, _, putOutAs_outputProgram hevent (by decide) rfl⟩
  case h_2 hevent => cases h; exact ⟨_, _, putOutAs_outputProgram hevent (by decide) rfl⟩
  case h_3 hevent =>
    cases h
    refine ⟨"split", none, by rw [hevent]; decide, fun write hwrite => ?_⟩
    rw [List.filterMap_append, notes_rootWrites, List.nil_append, List.filterMap_append] at hwrite
    rw [hevent]
    rcases List.mem_append.mp hwrite with hfirst | hsecond
    · obtain ⟨commitment, hcommitment, hform⟩ := mem_outputWrites hfirst
      exact ⟨("commitment-1", "leaf-1"), List.mem_cons_self, commitment, hcommitment, hform⟩
    · obtain ⟨commitment, hcommitment, hform⟩ := mem_outputWrites hsecond
      exact ⟨("commitment-2", "leaf-2"), List.mem_cons_of_mem _ List.mem_cons_self, commitment,
        hcommitment, hform⟩
  case h_4 hevent => cases h; exact ⟨_, _, putOutAs_outputProgram hevent (by decide) rfl⟩
  case h_5 hevent => cases h; exact ⟨"", none, putOutAs_nil (by rw [hevent]; decide)⟩
  case h_6 hevent => cases h; exact ⟨_, _, putOutAs_outputProgram hevent (by decide) rfl⟩
  case h_7 hevent => cases h; exact ⟨_, _, putOutAs_outputProgram hevent (by decide) rfl⟩
  case h_8 hevent =>
    cases h
    rw [notes_rootWrites]
    exact ⟨"", none, putOutAs_nil (by rw [hevent]; decide)⟩
  case h_9 hevent => cases h; exact ⟨_, _, putOutAs_outputProgram hevent (by decide) rfl⟩
  case h_10 hevent => cases h; exact ⟨"", none, putOutAs_nil (by rw [hevent]; decide)⟩
  case h_11 => cases h

theorem noteProgram_registered (hevent : ev.event = "commitment-registered") :
    noteProgram ev txid = none := by
  simp [noteProgram, hevent]

theorem notes_aggregationProgram :
    (aggregationProgram ev txid).before.filterMap TableWrite.toNote = [] := by
  unfold aggregationProgram
  split
  · split <;> rfl
  · rfl

/-- The writes of an event are rows of notes it puts out, or a place of the registry's. -/
theorem noteWrites_form (ev : DecodedEvent) (txid : String) :
    (∃ type assetId, PutOutAs ev txid type assetId (noteWrites ev txid)) ∨
      (ev.event = "commitment-registered" ∧ ∀ write ∈ noteWrites ev txid,
        ∃ commitment, asHex (ev.fields "commitment") = some commitment ∧
          write = .leaf commitment txid (asInt (ev.fields "index"))) := by
  have hplanned : noteWrites ev txid ⊆
      (handlerProgram ev txid).before.filterMap TableWrite.toNote := by
    have hsublist : List.Sublist (noteWrites ev txid)
        ((eventProgram ev txid).before.filterMap TableWrite.toNote) :=
      (List.takeWhile_sublist _).filterMap _
    rw [eventProgram, List.filterMap_append, notes_rootWrites, List.nil_append] at hsublist
    exact hsublist.subset
  by_cases hevent : ev.event = "commitment-registered"
  · right
    refine ⟨hevent, fun write hwrite => ?_⟩
    have hwrite := hplanned hwrite
    rw [handlerProgram, noteProgram_registered hevent, commitmentProgram, if_pos hevent] at hwrite
    simp only [Option.none_or, Option.getD_some] at hwrite
    cases hcommitment : asHex (ev.fields "commitment") with
    | none =>
        rw [hcommitment] at hwrite
        cases hwrite
    | some commitment =>
        rw [hcommitment] at hwrite
        exact ⟨commitment, rfl, List.mem_singleton.mp hwrite⟩
  · left
    rw [handlerProgram] at hplanned
    cases hnote : noteProgram ev txid with
    | some program =>
        rw [hnote] at hplanned
        obtain ⟨type, assetId, hother, hform⟩ := putOutAs_noteProgram hnote
        exact ⟨type, assetId, hother, fun write hwrite => hform write (hplanned hwrite)⟩
    | none =>
        rw [hnote, commitmentProgram, if_neg hevent] at hplanned
        simp only [Option.none_or, Option.getD_none, notes_aggregationProgram] at hplanned
        exact ⟨"", none, hevent, fun write hwrite => absurd (hplanned hwrite) List.not_mem_nil⟩

variable {commitment : String} {row row' : NoteRow}

/-- An event puts a commitment out as one row. -/
theorem output_unique (h : .output commitment row ∈ noteWrites ev txid)
    (h' : .output commitment row' ∈ noteWrites ev txid) (hleaf : row.leafIndex = row'.leafIndex) :
    row = row' := by
  rcases noteWrites_form ev txid with ⟨type, assetId, -, hform⟩ | ⟨-, hform⟩
  · obtain ⟨pair, -, _, -, hrow⟩ := hform _ h
    obtain ⟨pair', -, _, -, hrow'⟩ := hform _ h'
    obtain ⟨-, rfl⟩ := NoteWrite.output.inj hrow
    obtain ⟨-, rfl⟩ := NoteWrite.output.inj hrow'
    exact congrArg (fun leafIndex : Option Int =>
      NoteRow.mk (asHex (ev.fields "new-root")) txid leafIndex type assetId) hleaf
  · obtain ⟨_, -, hwrite⟩ := hform _ h
    cases hwrite

theorem names_of_output (h : .output commitment row ∈ noteWrites ev txid) :
    ev.Names commitment row.leafIndex ∧ ev.event ≠ "commitment-registered" := by
  rcases noteWrites_form ev txid with ⟨type, assetId, hevent, hform⟩ | ⟨-, hform⟩
  · obtain ⟨pair, hpair, _, hcommitment, hrow⟩ := hform _ h
    obtain ⟨rfl, rfl⟩ := NoteWrite.output.inj hrow
    exact ⟨⟨pair, hpair, hcommitment, rfl⟩, hevent⟩
  · obtain ⟨_, -, hwrite⟩ := hform _ h
    cases hwrite

theorem names_of_leaf {written : String} {leafIndex : Option Int}
    (h : .leaf commitment written leafIndex ∈ noteWrites ev txid) :
    ev.Names commitment leafIndex ∧ ev.event = "commitment-registered" ∧ written = txid := by
  rcases noteWrites_form ev txid with ⟨type, assetId, -, hform⟩ | ⟨hevent, hform⟩
  · obtain ⟨_, -, _, -, hwrite⟩ := hform _ h
    cases hwrite
  · obtain ⟨_, hcommitment, hwrite⟩ := hform _ h
    obtain ⟨rfl, rfl, rfl⟩ := NoteWrite.leaf.inj hwrite
    refine ⟨⟨("commitment", "index"), ?_, hcommitment, rfl⟩, hevent, rfl⟩
    rw [hevent]
    exact List.mem_cons_self

theorem leafIndex_leafRow (stored : Option NoteRow) (leafIndex : Option Int) :
    (leafRow txid leafIndex stored).leafIndex = leafIndex := by
  cases stored <;> rfl

/-- What holds on with each row that an event may write holds after the event. -/
theorem handleEvent_keeps {P : DataMap String NoteRow → Prop}
    (hwrites : ∀ notes commitment row, ev.Names commitment row.leafIndex → P notes →
      P (notes.insert commitment row))
    (h : P store.notes) : P (handleEvent ev txid store).2.notes := by
  rw [notes_handleEvent]
  refine List.foldlRecOn _ _ h fun notes hnotes write hwrite => ?_
  cases write with
  | output commitment row => exact hwrites _ _ _ (names_of_output hwrite).1 hnotes
  | leaf commitment written leafIndex =>
      refine hwrites _ _ _ ?_ hnotes
      rw [leafIndex_leafRow]
      exact (names_of_leaf hwrite).1

end Notes

end StxShield.BlockIndexer
