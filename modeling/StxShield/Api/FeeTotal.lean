import Mathlib.Algebra.BigOperators.Fin
import Mathlib.Algebra.Order.BigOperators.Group.Finset
import StxShield.Api.Scanning

/-!
# The fee total

The fees of the native operations are summed as their transactions are recorded.  An event is
processed in several statements, the process may stop between any two of them, and what was
processed may be processed again.
-/

namespace StxShield.BlockIndexer

open Library

/-! ## Statements -/

def applyAll (statements : List (Store → Store)) (store : Store) : Store :=
  statements.foldl (fun store statement => statement store) store

/-- The statements of `recordTransaction`: the second one if the first has inserted a row, and
there is a fee. -/
def recordStatements (txid : String) (row : TransactionRow) (feeMicro : Option Int)
    (store : Store) : List (Store → Store) :=
  Store.withTransaction txid row ::
    if store.transactions.lookup txid = none ∧ 0 < feeMicro.getD 0 then
      [Store.withFee (feeMicro.getD 0)]
    else []

/-- The rows that are written before the transaction is recorded. -/
def EventProgram.rowStatements (program : EventProgram) : List (Store → Store) :=
  program.before.map fun write store => write.written store

def EventProgram.statements (program : EventProgram) (txid : String) (store : Store) :
    List (Store → Store) :=
  program.rowStatements ++
    match program.records with
    | some (row, feeMicro) =>
        recordStatements txid row feeMicro (applyAll program.rowStatements store)
    | none => []

section Statements

variable {ev : DecodedEvent} {txid : String} {store : Store} {program : EventProgram}

theorem applyAll_append (first second : List (Store → Store)) :
    applyAll (first ++ second) store = applyAll second (applyAll first store) :=
  List.foldl_append

theorem applyAll_written (writes : List TableWrite) (store : Store) :
    applyAll (writes.map fun write store => write.written store) store =
      writes.foldl TableWrite.written store :=
  List.foldl_map

theorem applyAll_recordStatements {row : TransactionRow} {feeMicro : Option Int} :
    applyAll (recordStatements txid row feeMicro store) store =
      store.recorded txid row feeMicro := by
  unfold recordStatements Store.recorded
  split_ifs <;> rfl

/-- A recording stops after some of its statements: at a row that is rejected, or at a total
that does not fit. -/
theorem recordTransaction_stops (txid : String) (row : TransactionRow) (feeMicro : Option Int)
    (store : Store) :
    ∃ count, (recordTransaction txid row feeMicro store).2 =
      applyAll ((recordStatements txid row feeMicro store).take count) store := by
  unfold recordTransaction recordStatements
  rw [Async.get_bind, Async.bind_apply]
  cases hrow : row.fits with
  | false =>
      rw [statement_of_rejected rfl]
      exact ⟨0, rfl⟩
  | true =>
      rw [statement_of_fits rfl]
      dsimp only
      split_ifs with hfee
      · cases htotal : int8 (store.totalFees + feeMicro.getD 0) with
        | false =>
            rw [statement_of_rejected rfl]
            exact ⟨1, rfl⟩
        | true =>
            rw [statement_of_fits rfl]
            exact ⟨2, rfl⟩
      · exact ⟨1, rfl⟩

/-- The handlers of an event go through its statements, to the end or to one that is
rejected. -/
theorem handleEvent_stops :
    ∃ count, (handleEvent ev txid store).2 =
      applyAll (((eventProgram ev txid).statements txid store).take count) store := by
  rw [handleEvent_eq]
  generalize eventProgram ev txid = program
  unfold EventProgram.run EventProgram.statements EventProgram.rowStatements
  by_cases hfits : ∀ write ∈ program.before, write.fits = true
  · rw [Async.bind_of_returned (writeAll_of_fits hfits store)]
    cases program.records with
    | none =>
        refine ⟨program.before.length, ?_⟩
        rw [List.append_nil, List.take_of_length_le (by simp), applyAll_written]
        rfl
    | some record =>
        obtain ⟨count, hcount⟩ := recordTransaction_stops txid record.1 record.2
          (program.before.foldl TableWrite.written store)
        refine ⟨program.before.length + count, ?_⟩
        dsimp only
        rw [List.take_append, List.length_map, Nat.add_sub_cancel_left,
          List.take_of_length_le (by simp), applyAll_append, applyAll_written, hcount]
  · have hstops : ∀ value, (writeAll program.before store).1 ≠ .returned value :=
      fun _ hreturned => hfits (fits_of_writeAll_returned (Prod.ext hreturned rfl))
    have hprefix : program.before.takeWhile TableWrite.fits <+: program.before :=
      List.takeWhile_prefix _
    refine ⟨(program.before.takeWhile TableWrite.fits).length, ?_⟩
    rw [(Async.bind_of_stopped hstops).2, writeAll_snd, List.take_append_of_le_length, ← List.map_take,
      ← List.prefix_iff_eq_take.mp hprefix, applyAll_written]
    rw [List.length_map]
    exact hprefix.length_le

/-- All of them together are what the handlers do when nothing is rejected. -/
theorem handleEvent_completes (hfits : (eventProgram ev txid).Fits) (hfees : 0 ≤ store.totalFees)
    (hroom : store.totalFees + ev.nativeFee < 2 ^ 63) :
    handleEvent ev txid store =
      (.returned (), applyAll ((eventProgram ev txid).statements txid store) store) := by
  rw [← fee_eventProgram ev txid] at hroom
  rw [handleEvent_eq, hfits.run hfees hroom]
  unfold EventProgram.statements EventProgram.complete EventProgram.rowStatements
  rw [applyAll_append, applyAll_written]
  cases (eventProgram ev txid).records with
  | none => rfl
  | some record =>
      dsimp only
      rw [applyAll_recordStatements]
      rfl

end Statements

/-! ## The ledger -/

/-- The transactions and the total. -/
def Store.ledger (store : Store) : DataMap String TransactionRow × Int :=
  (store.transactions, store.totalFees)

/-- Statements that leave the ledger alone. -/
def KeepLedger (statements : List (Store → Store)) : Prop :=
  ∀ statement ∈ statements, ∀ store, (statement store).ledger = store.ledger

section Ledger

variable {store : Store} {statements : List (Store → Store)}

theorem KeepLedger.applyAll (h : KeepLedger statements) :
    (applyAll statements store).ledger = store.ledger := by
  induction statements generalizing store with
  | nil => rfl
  | cons statement rest ih =>
      have hrest : KeepLedger rest := fun other hother => h other (List.mem_cons_of_mem _ hother)
      exact (ih hrest).trans (h statement List.mem_cons_self store)

theorem KeepLedger.take (h : KeepLedger statements) (count : Nat) :
    KeepLedger (statements.take count) :=
  fun statement hmem => h statement (List.mem_of_mem_take hmem)

theorem EventProgram.length_rowStatements (program : EventProgram) :
    program.rowStatements.length = program.before.length :=
  List.length_map _

/-- Only the recording of a transaction changes the ledger. -/
theorem EventProgram.keepLedger (program : EventProgram) : KeepLedger program.rowStatements := by
  intro statement hstatement store
  obtain ⟨write, -, rfl⟩ := List.mem_map.mp hstatement
  cases write <;> rfl

end Ledger

/-! ## Runs -/

/-- An entry of the history is processed, once more perhaps, until the process stops. -/
structure Processing (history : List LogEntry) where
  position : Fin history.length
  /-- After how many statements, if not at the end. -/
  stop : Option Nat

section Runs

variable {history : List LogEntry}

namespace Processing

variable (processing : Processing history)

def entry : LogEntry := history.get processing.position

def statements (store : Store) : List (Store → Store) :=
  processing.entry.program.statements processing.entry.txId store

def performed (store : Store) : List (Store → Store) :=
  match processing.stop with
  | none => processing.statements store
  | some count => (processing.statements store).take count

def execute (store : Store) : Store := applyAll (processing.performed store) store

/-- No statement is left. -/
def Completes (store : Store) : Prop :=
  ∀ count ∈ processing.stop, (processing.statements store).length ≤ count

/-- The insertion of the transaction is reached. -/
def Records : Prop :=
  processing.entry.program.records.isSome = true ∧
    ∀ count ∈ processing.stop, processing.entry.program.before.length < count

/-- The process does not stop at the insertion. -/
def Finishes : Prop :=
  ∀ count ∈ processing.stop, processing.entry.program.before.length + 1 < count

instance (store : Store) : Decidable (processing.Completes store) :=
  inferInstanceAs (Decidable (∀ count ∈ processing.stop,
    (processing.statements store).length ≤ count))

instance : Decidable processing.Records :=
  inferInstanceAs (Decidable (processing.entry.program.records.isSome = true ∧
    ∀ count ∈ processing.stop, processing.entry.program.before.length < count))

instance : Decidable processing.Finishes :=
  inferInstanceAs (Decidable (∀ count ∈ processing.stop,
    processing.entry.program.before.length + 1 < count))

end Processing

/-- The tables, and the entries whose events have been processed to completion. -/
structure Progress (history : List LogEntry) where
  store : Store
  completed : Finset (Fin history.length)

def Progress.process (progress : Progress history) (processing : Processing history) :
    Progress history where
  store := processing.execute progress.store
  completed :=
    if processing.Completes progress.store then insert processing.position progress.completed
    else progress.completed

def processed (run : List (Processing history)) : Progress history :=
  run.foldl Progress.process { store := .empty, completed := ∅ }

/-- The first processing of a run to record a transaction. -/
def firstRecording (run : List (Processing history)) (txid : String) :
    Option (Processing history) :=
  run.find? fun processing => processing.Records ∧ processing.entry.txId = txid

/-- The entry's event was the first to record its transaction, and went on to the fee. -/
def Counted (run : List (Processing history)) (position : Fin history.length) : Prop :=
  ∃ first ∈ firstRecording run (history.get position).txId,
    first.position = position ∧ first.Finishes

instance (run : List (Processing history)) (position : Fin history.length) :
    Decidable (Counted run position) :=
  inferInstanceAs (Decidable (∃ first ∈ firstRecording run (history.get position).txId,
    first.position = position ∧ first.Finishes))

/-! ## One processing -/

section Step

variable {processing : Processing history} {store : Store}

theorem LogEntry.nativeFee_eq (entry : LogEntry) :
    entry.nativeFee = entry.program.records.elim 0 fun record => max 0 (record.2.getD 0) :=
  entry.fee_program.symm

theorem length_recordStatements {txid : String} {row : TransactionRow} {fee : Option Int} :
    (recordStatements txid row fee store).length ≤ 2 := by
  unfold recordStatements
  split <;> simp

theorem withTransaction_congr {txid : String} {row : TransactionRow} {store store' : Store}
    (h : store.ledger = store'.ledger) :
    (store.withTransaction txid row).ledger = (store'.withTransaction txid row).ledger := by
  obtain ⟨htransactions, hfees⟩ := Prod.mk.inj h
  simp only [Store.withTransaction, Store.ledger, htransactions, hfees]

theorem recorded_congr {txid : String} {row : TransactionRow} {fee : Option Int}
    {store store' : Store} (h : store.ledger = store'.ledger) :
    (store.recorded txid row fee).ledger = (store'.recorded txid row fee).ledger := by
  obtain ⟨htransactions, hfees⟩ := Prod.mk.inj h
  unfold Store.recorded
  rw [htransactions]
  split_ifs
  · simp only [Store.withFee, Store.withTransaction, Store.ledger, htransactions, hfees]
  · exact withTransaction_congr h

/-- What a processing does to the ledger: nothing, the insertion alone, or all of the
recording. -/
theorem Processing.execute_cases (processing : Processing history) (store : Store) :
    (¬ processing.Records ∧ (processing.execute store).ledger = store.ledger) ∨
      ∃ row fee, processing.entry.program.records = some (row, fee) ∧ processing.Records ∧
        ((¬ processing.Finishes ∧ (processing.execute store).ledger =
            (store.withTransaction processing.entry.txId row).ledger) ∨
          (processing.Finishes ∧ (processing.execute store).ledger =
            (store.recorded processing.entry.txId row fee).ledger)) := by
  have hkeep := processing.entry.program.keepLedger
  unfold Processing.execute Processing.performed Processing.statements EventProgram.statements
    Processing.Records Processing.Finishes
  simp only [← EventProgram.length_rowStatements]
  generalize processing.entry.txId = txid
  generalize processing.entry.program = program at hkeep
  have hbefore : (applyAll program.rowStatements store).ledger = store.ledger := hkeep.applyAll
  cases hrecords : program.records with
  | none =>
      left
      refine ⟨by simp, ?_⟩
      cases processing.stop with
      | none => simpa using hbefore
      | some count => simpa using (hkeep.take count).applyAll
  | some record =>
      obtain ⟨row, fee⟩ := record
      cases processing.stop with
      | none =>
          right
          refine ⟨row, fee, rfl, by simp, .inr ⟨by simp, ?_⟩⟩
          dsimp only
          rw [applyAll_append, applyAll_recordStatements]
          exact recorded_congr hbefore
      | some count =>
          simp only [Option.isSome_some, true_and, Option.mem_def, Option.some.injEq,
            forall_eq']
          rw [List.take_append]
          by_cases hreached : program.rowStatements.length < count
          · right
            refine ⟨row, fee, rfl, hreached, ?_⟩
            rw [List.take_of_length_le hreached.le, applyAll_append]
            by_cases hfinishes : program.rowStatements.length + 1 < count
            · right
              refine ⟨hfinishes, ?_⟩
              rw [List.take_of_length_le, applyAll_recordStatements]
              · exact recorded_congr hbefore
              · have hlength : (recordStatements txid row fee
                    (applyAll program.rowStatements store)).length ≤ 2 := length_recordStatements
                omega
            · left
              refine ⟨hfinishes, ?_⟩
              have hone : count - program.rowStatements.length = 1 := by omega
              rw [hone]
              exact withTransaction_congr hbefore
          · left
            refine ⟨hreached, ?_⟩
            rw [Nat.sub_eq_zero_of_le (Nat.not_lt.mp hreached), List.take_zero, List.append_nil]
            exact (hkeep.take count).applyAll

theorem lookup_insertIfAbsent_isSome {transactions : DataMap String TransactionRow}
    {txid other : String} {row : TransactionRow} :
    ((insertIfAbsent transactions txid row).lookup other).isSome = true ↔
      (transactions.lookup other).isSome = true ∨ txid = other := by
  unfold insertIfAbsent DataMap.insertNew?
  cases hlookup : transactions.lookup txid with
  | some found =>
      rw [if_neg (by simp), Option.getD_none]
      constructor
      · exact .inl
      · rintro (hsome | rfl)
        · exact hsome
        · rw [hlookup]
          rfl
  | none =>
      simp only [Option.isNone_none, if_true, Option.getD_some]
      rw [DataMap.lookup_insert_eq]
      split
      case isTrue h => simp [h]
      case isFalse h => simp [Ne.symm h]

theorem ledger_recorded {txid : String} {row : TransactionRow} {fee : Option Int} :
    (store.recorded txid row fee).ledger =
      (insertIfAbsent store.transactions txid row,
        store.totalFees +
          if store.transactions.lookup txid = none then max 0 (fee.getD 0) else 0) := by
  unfold Store.recorded
  by_cases hnew : store.transactions.lookup txid = none
  · by_cases hfee : 0 < fee.getD 0
    · rw [if_pos ⟨hnew, hfee⟩, if_pos hnew, max_eq_right hfee.le]
      rfl
    · rw [if_neg fun h => hfee h.2, if_pos hnew, max_eq_left (Int.not_lt.mp hfee), add_zero]
      rfl
  · rw [if_neg fun h => hnew h.1, if_neg hnew, add_zero]
    rfl

/-- A transaction is recorded once it has been, or is now. -/
theorem Processing.recorded_execute (txid : String) :
    ((processing.execute store).transactions.lookup txid).isSome = true ↔
      (store.transactions.lookup txid).isSome = true ∨
        processing.Records ∧ processing.entry.txId = txid := by
  obtain ⟨hnot, hledger⟩ | ⟨row, fee, -, hrecords, ⟨-, hledger⟩ | ⟨-, hledger⟩⟩ :=
    processing.execute_cases store
  · rw [(Prod.mk.inj hledger).1]
    simp [hnot]
  · rw [(Prod.mk.inj hledger).1]
    simp [Store.withTransaction, lookup_insertIfAbsent_isSome, hrecords]
  · rw [ledger_recorded] at hledger
    rw [(Prod.mk.inj hledger).1]
    simp [lookup_insertIfAbsent_isSome, hrecords]

/-- The fee is added by the processing that records the transaction first, if it finishes. -/
theorem Processing.fees_execute :
    (processing.execute store).totalFees =
      store.totalFees +
        if processing.Records ∧ processing.Finishes ∧
          store.transactions.lookup processing.entry.txId = none then processing.entry.nativeFee
        else 0 := by
  obtain ⟨hnot, hledger⟩ | ⟨row, fee, hrecord, hrecords, ⟨hstops, hledger⟩ | ⟨hfinishes, hledger⟩⟩ :=
    processing.execute_cases store
  · rw [(Prod.mk.inj hledger).2]
    simp [hnot]
  · rw [(Prod.mk.inj hledger).2]
    simp [Store.withTransaction, hstops]
  · rw [ledger_recorded] at hledger
    have hfee : processing.entry.nativeFee = max 0 (fee.getD 0) := by
      rw [processing.entry.nativeFee_eq, hrecord]
      rfl
    rw [(Prod.mk.inj hledger).2, hfee]
    simp [hrecords, hfinishes]

theorem Processing.completes_of_finishes (h : processing.Finishes) :
    processing.Completes store := by
  intro count hcount
  have hlength : (processing.statements store).length ≤
      processing.entry.program.before.length + 2 := by
    unfold Processing.statements EventProgram.statements
    rw [List.length_append, EventProgram.length_rowStatements]
    cases processing.entry.program.records with
    | none => simp
    | some record => exact Nat.add_le_add_left length_recordStatements _
  exact hlength.trans (h count hcount)

end Step

/-! ## Whole runs -/

section Processed

variable {run : List (Processing history)} {processing : Processing history}
  {position : Fin history.length}

theorem processed_concat :
    processed (run ++ [processing]) = (processed run).process processing := by
  unfold processed
  rw [List.foldl_append]
  rfl

theorem firstRecording_concat {txid : String} :
    firstRecording (run ++ [processing]) txid =
      (firstRecording run txid).or
        (if processing.Records ∧ processing.entry.txId = txid then some processing else none) := by
  unfold firstRecording
  rw [List.find?_append]
  congr 1
  by_cases h : processing.Records ∧ processing.entry.txId = txid
  · simp [h]
  · rw [if_neg h, List.find?_singleton, if_neg]
    simpa using h

/-- The recorded transactions. -/
theorem recorded_processed (run : List (Processing history)) (txid : String) :
    ((processed run).store.transactions.lookup txid).isSome = true ↔
      (firstRecording run txid).isSome = true := by
  induction run using List.reverseRecOn with
  | nil => simp [processed, firstRecording, Store.empty]
  | append_singleton run processing ih =>
      rw [processed_concat, firstRecording_concat]
      have hstep : ((processing.execute (processed run).store).transactions.lookup
          txid).isSome = true ↔
            ((processed run).store.transactions.lookup txid).isSome = true ∨
              processing.Records ∧ processing.entry.txId = txid :=
        processing.recorded_execute txid
      rw [ih] at hstep
      rw [Option.isSome_or, Bool.or_eq_true]
      refine hstep.trans (or_congr Iff.rfl ?_)
      by_cases h : processing.Records ∧ processing.entry.txId = txid
      · simp [h]
      · simp [h]

/-- One more processing counts its own fee, if it is the first to record the transaction and
finishes. -/
theorem counted_concat :
    Counted (run ++ [processing]) position ↔
      Counted run position ∨
        (processing.Records ∧ processing.Finishes ∧
          firstRecording run processing.entry.txId = none) ∧ processing.position = position := by
  unfold Counted
  rw [firstRecording_concat]
  cases hfirst : firstRecording run (history.get position).txId with
  | some first =>
      simp only [Option.some_or, Option.mem_def, Option.some.injEq, exists_eq_left']
      constructor
      · exact .inl
      · rintro (hcounted | ⟨⟨-, -, hnone⟩, rfl⟩)
        · exact hcounted
        · exact absurd (hnone.symm.trans hfirst) (by simp)
  | none =>
      simp only [Option.none_or, Option.mem_def, reduceCtorEq, false_and, exists_false, false_or]
      constructor
      · rintro ⟨first, hsome, rfl, hfinishes⟩
        split at hsome
        case isTrue hrecords =>
          cases hsome
          exact ⟨⟨hrecords.1, hfinishes, hfirst⟩, rfl⟩
        case isFalse => cases hsome
      · rintro ⟨⟨hrecords, hfinishes, -⟩, rfl⟩
        exact ⟨processing, if_pos ⟨hrecords, rfl⟩, rfl, hfinishes⟩

/-- The total is the sum of the fees that were counted. -/
theorem total_processed (run : List (Processing history)) :
    (processed run).store.totalFees =
      ∑ position with Counted run position, (history.get position).nativeFee := by
  induction run using List.reverseRecOn with
  | nil => simp [processed, Counted, firstRecording, Store.empty]
  | append_singleton run processing ih =>
      have hfresh : (processed run).store.transactions.lookup processing.entry.txId = none ↔
          firstRecording run processing.entry.txId = none := by
        have hrecorded := recorded_processed run processing.entry.txId
        rw [← Option.not_isSome_iff_eq_none, ← Option.not_isSome_iff_eq_none]
        exact not_congr hrecorded
      have hexecute : (processed (run ++ [processing])).store =
          processing.execute (processed run).store := by
        rw [processed_concat]
        rfl
      rw [hexecute, processing.fees_execute, ih]
      simp only [hfresh]
      by_cases hcounts : processing.Records ∧ processing.Finishes ∧
          firstRecording run processing.entry.txId = none
      · have hnew : processing.position ∉
            (Finset.univ.filter fun position => Counted run position) := by
          rw [Finset.mem_filter]
          rintro ⟨-, first, hfirst, -⟩
          exact absurd (hcounts.2.2.symm.trans hfirst) (by simp)
        have hset : (Finset.univ.filter fun position =>
            Counted (run ++ [processing]) position) =
            insert processing.position (Finset.univ.filter fun position => Counted run position) := by
          ext position
          simp [counted_concat, hcounts, or_comm, eq_comm]
        rw [if_pos hcounts, hset, Finset.sum_insert hnew, add_comm]
        rfl
      · rw [if_neg hcounts, add_zero]
        refine Finset.sum_congr ?_ fun _ _ => rfl
        ext position
        simp [counted_concat, hcounts]

/-- What was counted has been processed to completion. -/
theorem completed_of_counted (h : Counted run position) :
    position ∈ (processed run).completed := by
  induction run using List.reverseRecOn with
  | nil =>
      obtain ⟨first, hfirst, -⟩ := h
      cases hfirst
  | append_singleton run processing ih =>
      rw [processed_concat]
      unfold Progress.process
      dsimp only
      obtain hcounted | ⟨⟨-, hfinishes, -⟩, rfl⟩ := counted_concat.mp h
      · split
        · exact Finset.mem_insert_of_mem (ih hcounted)
        · exact ih hcounted
      · rw [if_pos (processing.completes_of_finishes hfinishes)]
        exact Finset.mem_insert_self _ _

end Processed

/-- The total is that of all operations that were processed to completion exactly if each of
them with a fee was the first to record its transaction, and was not stopped then. -/
theorem fee_total_exact_iff (run : List (Processing history)) :
    (processed run).store.totalFees =
        ∑ position ∈ (processed run).completed, (history.get position).nativeFee ↔
      ∀ position ∈ (processed run).completed, 0 < (history.get position).nativeFee →
        Counted run position := by
  have hsubset : (Finset.univ.filter fun position => Counted run position) ⊆
      (processed run).completed := by
    intro position hposition
    exact completed_of_counted (Finset.mem_filter.mp hposition).2
  rw [total_processed, ← Finset.sum_sdiff hsubset, right_eq_add,
    Finset.sum_eq_zero_iff_of_nonneg fun position _ => (history.get position).nativeFee_nonneg]
  constructor
  · intro hzero position hcompleted hfee
    by_contra hnot
    have hmem : position ∈ (processed run).completed \
        (Finset.univ.filter fun position => Counted run position) := by
      simp [hcompleted, hnot]
    exact hfee.ne' (hzero position hmem)
  · intro hcounted position hmem
    simp only [Finset.mem_sdiff, Finset.mem_filter, Finset.mem_univ, true_and] at hmem
    by_contra hfee
    exact hmem.2 (hcounted position hmem.1
      (lt_of_le_of_ne (history.get position).nativeFee_nonneg (Ne.symm hfee)))

end Runs

namespace Sample

/-- A deposit with a fee of ten. -/
def deposit (commitment root : String) (leafIndex : Int) : LogEntry where
  txId := "deposits"
  height := 101
  value := some (some
    { event := "shielded"
      fields := fun field =>
        if field = "commitment" then .text commitment
        else if field = "new-root" then .text root
        else if field = "leaf-index" then .int leafIndex
        else if field = "fee" then .int 10
        else if field = "height" then .int 101
        else .null })

/-- Two deposits of one transaction. -/
def deposits : List LogEntry := [deposit "first" "one" 0, deposit "second" "two" 1]

def firstDeposit : Fin deposits.length := ⟨0, Nat.zero_lt_two⟩

def secondDeposit : Fin deposits.length := ⟨1, Nat.one_lt_two⟩

def bothProcessed : List (Processing deposits) :=
  [{ position := firstDeposit, stop := none }, { position := secondDeposit, stop := none }]

/-- The process stops after the transaction is inserted, and the event is processed again. -/
def resumed : List (Processing deposits) :=
  [{ position := firstDeposit, stop := some 4 }, { position := firstDeposit, stop := none }]

end Sample

/-- The fee of a transaction's second operation is not counted. -/
theorem second_fee_lost :
    ¬ ∀ (history : List LogEntry) (run : List (Processing history)),
      (processed run).store.totalFees =
        ∑ position ∈ (processed run).completed, (history.get position).nativeFee := by
  intro h
  have hsum := h Sample.deposits Sample.bothProcessed
  revert hsum
  decide +kernel

/-- Nor is one that the process stopped before. -/
example :
    (processed Sample.resumed).store.totalFees = 0 ∧
      ∑ position ∈ (processed Sample.resumed).completed,
        (Sample.deposits.get position).nativeFee = 10 := by
  decide +kernel

end StxShield.BlockIndexer
