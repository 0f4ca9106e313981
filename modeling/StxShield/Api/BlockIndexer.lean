import Mathlib.Algebra.Order.Ring.Int
import Mathlib.Data.List.AList
import StxShield.Library.Async
import StxShield.Library.Execution

/-!
# The block indexer

The API follows the chain by reading the print events of six contracts, newest
first and page by page, and hands each to the handlers that fill its tables.  A
value that its column does not hold is rejected by the database, and ends the
scan of the contract.  One cursor, shared by all contracts, says how far the
indexer has got.
-/

namespace StxShield.BlockIndexer

open Library

/-! ## Decoded events -/

inductive Field where
  | text (value : String)
  | int (value : Int)
  | bool (value : Bool)
  | null
  deriving DecidableEq

/-- A print tuple; a field it does not have is `null`. -/
structure DecodedEvent where
  event : String
  fields : String → Field

/-- Every use tests the text for truth, so an empty one counts as none. -/
def asHex : Field → Option String
  | .text value => if value = "" then none else some value
  | _ => none

def asInt : Field → Option Int
  | .int value => some value
  | _ => none

def asBig : Field → Option Int
  | .int value => some value
  | _ => none

/-! ## Tables -/

/-- `integer` and `bigint` columns. -/
def int4 (value : Int) : Bool := -2 ^ 31 ≤ value ∧ value < 2 ^ 31

def int8 (value : Int) : Bool := -2 ^ 63 ≤ value ∧ value < 2 ^ 63

structure NoteRow where
  root : Option String
  txid : String
  leafIndex : Option Int
  type : String
  assetId : Option Int
  deriving DecidableEq

structure RootRow where
  height : Option Int
  txid : Option String
  aggregationId : Option Int
  deriving DecidableEq

structure AggregationRow where
  root : String
  leafCount : Int
  height : Option Int
  txid : String
  deriving DecidableEq

structure TransactionRow where
  type : String
  height : Option Int
  aggregationId : Option Int
  assetId : Option Int
  deriving DecidableEq

/-! A null fits every column of these rows. -/

def NoteRow.fits (row : NoteRow) : Bool := row.leafIndex.all int4 && row.assetId.all int4

def RootRow.fits (row : RootRow) : Bool := row.height.all int4 && row.aggregationId.all int8

def AggregationRow.fits (domainId aggregationId : Int) (row : AggregationRow) : Bool :=
  int4 domainId && int8 aggregationId && int4 row.leafCount && row.height.all int4

def TransactionRow.fits (row : TransactionRow) : Bool :=
  row.height.all int4 && row.aggregationId.all int8 && row.assetId.all int4

structure Store where
  notes : DataMap String NoteRow
  roots : DataMap String RootRow
  aggregations : DataMap (Int × Int) AggregationRow
  transactions : DataMap String TransactionRow
  totalFees : Int

def Store.empty : Store where
  notes := ∅
  roots := ∅
  aggregations := ∅
  transactions := ∅
  totalFees := 0

/-- `onConflictDoNothing` -/
def insertIfAbsent {K V : Type} [DecidableEq K] (table : DataMap K V) (key : K) (row : V) :
    DataMap K V :=
  (table.insertNew? key row).getD table

/-! ## Statements -/

/-- A statement throws if a value does not fit its column, also where it would find
the row there already. -/
def statement (fits : Bool) (write : Store → Store) : Async Store Unit := do
  Async.throwIf (fits = false) "out of range"
  Async.modify write

def upsertRoot (root : String) (row : RootRow) : Async Store Unit :=
  statement row.fits fun store => { store with roots := insertIfAbsent store.roots root row }

/-- The commitment is on chain: whatever was known of it is overwritten. -/
def insertNote (commitment : String) (row : NoteRow) : Async Store Unit :=
  statement row.fits fun store => { store with notes := store.notes.insert commitment row }

/-- What a commitment's row is when the registry's event has been told. -/
def leafRow (txid : String) (leafIndex : Option Int) : Option NoteRow → NoteRow
  | some row => { row with leafIndex := leafIndex }
  | none =>
      { root := none, txid := txid, leafIndex := leafIndex, type := "note", assetId := none }

/-- Fills in the leaf index and leaves the rest of the row alone. -/
def upsertCommitmentLeaf (commitment txid : String) (leafIndex : Option Int) :
    Async Store Unit :=
  statement (leafIndex.all int4) fun store =>
    { store with
      notes := store.notes.insert commitment
        (leafRow txid leafIndex (store.notes.lookup commitment)) }

def Store.withTransaction (txid : String) (row : TransactionRow) (store : Store) : Store :=
  { store with transactions := insertIfAbsent store.transactions txid row }

def Store.withFee (feeMicro : Int) (store : Store) : Store :=
  { store with totalFees := store.totalFees + feeMicro }

/-- A transaction is recorded once, and its fee counted then; the total is a
`bigint` too. -/
def recordTransaction (txid : String) (row : TransactionRow) (feeMicro : Option Int) :
    Async Store Unit := do
  let store ← Async.get
  statement row.fits (Store.withTransaction txid row)
  if store.transactions.lookup txid = none ∧ 0 < feeMicro.getD 0 then
    statement (int8 (store.totalFees + feeMicro.getD 0)) (Store.withFee (feeMicro.getD 0))
  else pure ()

def upsertAggregation (domainId aggregationId : Int) (row : AggregationRow) : Async Store Unit :=
  statement (row.fits domainId aggregationId) fun store =>
    { store with aggregations := insertIfAbsent store.aggregations (domainId, aggregationId) row }

/-! ## Handlers -/

def handleRootFromEvent (ev : DecodedEvent) (txid : String) : Async Store Unit :=
  match asHex (ev.fields "new-root") with
  | some newRoot =>
      upsertRoot newRoot
        { height := asInt (ev.fields "height"), txid := some txid, aggregationId := none }
  | none => pure ()

section Handlers

variable (ev : DecodedEvent) (txid : String)

/-- An output note of an operation, if the event names it and the root. -/
def insertOutput (commitmentField leafField type : String) (assetId : Option Int) :
    Async Store Unit :=
  match asHex (ev.fields commitmentField), asHex (ev.fields "new-root") with
  | some commitment, some newRoot =>
      insertNote commitment
        { root := some newRoot, txid := txid, leafIndex := asInt (ev.fields leafField),
          type := type, assetId := assetId }
  | _, _ => pure ()

/-- The root that comes with an output note. -/
def insertOutputRoot (commitmentField : String) : Async Store Unit :=
  match asHex (ev.fields commitmentField) with
  | some _ => handleRootFromEvent ev txid
  | none => pure ()

/-- The row of an operation's transaction. -/
def operationRow (type : String) (assetId : Option Int) : TransactionRow where
  type := type
  height := asInt (ev.fields "height")
  aggregationId := none
  assetId := assetId

/-- An operation with one output. -/
def handleOutput (commitmentField type : String) (assetId feeMicro : Option Int) :
    Async Store Bool := do
  insertOutputRoot ev txid commitmentField
  insertOutput ev txid commitmentField "leaf-index" type assetId
  recordTransaction txid (operationRow ev type assetId) feeMicro
  pure true

/-- Whether it is a note event.  The fee of a SIP-10 operation is in units of its
token and not counted; the outputs of a SIP-10 split come with the registry's own
events. -/
def handleNoteEvent : Async Store Bool :=
  let fee := asBig (ev.fields "fee")
  let assetId := asInt (ev.fields "asset-id")
  match ev.event with
  | "shielded" => handleOutput ev txid "commitment" "shield" none fee
  | "transferred" => handleOutput ev txid "new-commitment" "transfer" none fee
  | "note-split" => do
      handleRootFromEvent ev txid
      insertOutput ev txid "commitment-1" "leaf-1" "split" none
      insertOutput ev txid "commitment-2" "leaf-2" "split" none
      recordTransaction txid (operationRow ev "split" none) fee
      pure true
  | "note-merge" => handleOutput ev txid "commitment" "merge" none fee
  | "withdrawn" => do
      recordTransaction txid (operationRow ev "withdraw" none) fee
      pure true
  | "sip10-shielded" => handleOutput ev txid "commitment" "shield" assetId none
  | "sip10-transferred" => handleOutput ev txid "new-commitment" "transfer" assetId none
  | "sip10-split" => do
      handleRootFromEvent ev txid
      recordTransaction txid (operationRow ev "split" assetId) none
      pure true
  | "sip10-merged" => handleOutput ev txid "commitment" "merge" assetId none
  | "sip10-withdrawn" => do
      recordTransaction txid (operationRow ev "withdraw" assetId) none
      pure true
  | _ => pure false

/-- The registry's event, which every leaf of the tree comes with. -/
def handleCommitmentEvent : Async Store Bool :=
  if ev.event = "commitment-registered" then
    match asHex (ev.fields "commitment") with
    | some commitment => do
        upsertCommitmentLeaf commitment txid (asInt (ev.fields "index"))
        pure true
    | none => pure true
  else pure false

/-- What is not posted with an aggregation is passed over, the marker of a verified
proof included. -/
def handleAggregationEvent : Async Store Unit :=
  if ev.event = "aggregation-posted" then
    match asBig (ev.fields "aggregation-id"), asInt (ev.fields "domain-id"),
      asHex (ev.fields "root"), asInt (ev.fields "leaf-count") with
    | some aggregationId, some domainId, some root, some leafCount => do
        let height := asInt (ev.fields "height")
        upsertAggregation domainId aggregationId
          { root := root, leafCount := leafCount, height := height, txid := txid }
        upsertRoot root
          { height := height, txid := some txid, aggregationId := some aggregationId }
        recordTransaction txid
          { type := "aggregation", height := height, aggregationId := some aggregationId,
            assetId := none }
          none
    | _, _, _, _ => pure ()
  else pure ()

/-- Note, commitment, then aggregation handler: the first whose event it is. -/
def handleEvent : Async Store Unit := do
  handleRootFromEvent ev txid
  let isNote ← handleNoteEvent ev txid
  if isNote then pure ()
  else do
    let isCommitment ← handleCommitmentEvent ev txid
    if isCommitment then pure () else handleAggregationEvent ev txid

end Handlers

/-! ## The chain -/

/-- The contracts whose events are indexed. -/
inductive ContractId where
  | privacyPool
  | splitMerge
  | zkVerifier
  | sip10Pool
  | sip10ZkVerifier
  | privacyRegistry
  deriving DecidableEq

def contracts : List ContractId :=
  [.privacyPool, .splitMerge, .zkVerifier, .sip10Pool, .sip10ZkVerifier, .privacyRegistry]

/-- An entry of a contract's log.  `value` is there for print events; `none`
inside it is a value that does not decode to an event. -/
structure LogEntry where
  txId : String
  height : Int
  value : Option (Option DecodedEvent)

def LogEntry.decoded (entry : LogEntry) : Option DecodedEvent := entry.value.join

/-- The height an event says it was printed at. -/
def LogEntry.printedHeight (entry : LogEntry) : Option Int :=
  entry.decoded.bind fun ev => asInt (ev.fields "height")

/-- The events with one output note. -/
def outputEvents : List String :=
  ["shielded", "transferred", "note-merge", "sip10-shielded", "sip10-transferred", "sip10-merged"]

/-- The leaf indices that the contracts print with commitments. -/
structure DecodedEvent.Indexed (ev : DecodedEvent) : Prop where
  output : ev.event ∈ outputEvents → (asInt (ev.fields "leaf-index")).isSome
  split : ev.event = "note-split" →
    (asInt (ev.fields "leaf-1")).isSome ∧ (asInt (ev.fields "leaf-2")).isSome
  registered : ev.event = "commitment-registered" → (asInt (ev.fields "index")).isSome

/-- The chain at some time: the entries of all contracts' logs, newest first.  Events
say the height of their block, and the place of each leaf. -/
structure Chain where
  tip : Int
  entries : List (ContractId × LogEntry)
  sorted : entries.Pairwise fun newer older => older.2.height ≤ newer.2.height
  printed : ∀ sent ∈ entries, ∀ height, sent.2.printedHeight = some height →
    height = sent.2.height
  indexed : ∀ sent ∈ entries, ∀ ev, sent.2.decoded = some ev → ev.Indexed

/-- The log of a contract. -/
def Chain.log (chain : Chain) (contract : ContractId) : List LogEntry :=
  (chain.entries.filter fun sent => sent.1 = contract).map Prod.snd

/-- A later chain: new entries are above what the tip was. -/
structure Chain.Grows (earlier later : Chain) : Prop where
  entries : ∃ new, later.entries = new ++ earlier.entries ∧
    ∀ sent ∈ new, earlier.tip < sent.2.height

/-! ## Scanning -/

/-- `PAGE` -/
def pageSize : Nat := 50

def maxPages : Nat := 40

def overlap : Int := 3

/-- A page of a log as the node serves it, entries without a value included. -/
def rawPage (log : List LogEntry) (page : Nat) : List LogEntry :=
  (log.drop (page * pageSize)).take pageSize

def getContractEvents (log : List LogEntry) (page : Nat) : List LogEntry :=
  (rawPage log page).filter fun entry => entry.value.isSome

/-- The tables, the cursor once it has been stored, and the entries whose events the
handlers have been through. -/
structure Indexer where
  store : Store
  lastHeight : Option Int
  dispatched : List (ContractId × LogEntry)

def dispatch (contract : ContractId) (entry : LogEntry) : Async Indexer Unit := do
  Async.zoom Indexer.store (fun store indexer => { indexer with store := store })
    (match entry.decoded with
      | some ev => handleEvent ev entry.txId
      | none => pure ())
  Async.modify fun indexer =>
    { indexer with dispatched := (contract, entry) :: indexer.dispatched }

/-- The events of a page, one after the other. -/
def dispatchAll (contract : ContractId) : List LogEntry → Async Indexer Unit
  | [] => pure ()
  | entry :: rest => do
      dispatch contract entry
      dispatchAll contract rest

/-- The least and the greatest of the heights printed, if there is one. -/
def pageMin (events : List LogEntry) : Option Int := (events.filterMap LogEntry.printedHeight).min?

def pageMax (sinceHeight : Int) (events : List LogEntry) : Int :=
  (events.filterMap LogEntry.printedHeight).foldl max sinceHeight

/-- Scan from `page` on with `pages` to go; `fetch` answers with the log as it is
at the time.  A fetch that fails, or a handler that throws, leaves what was written,
and no height. -/
def scanPages (contract : ContractId) (fetch : Nat → Option (List LogEntry)) (sinceHeight : Int) :
    (pages page : Nat) → (maxHeight : Int) → Indexer → Indexer × Option Int
  | 0, _, maxHeight, indexer => (indexer, some maxHeight)
  | pages + 1, page, maxHeight, indexer =>
      match fetch page with
      | none => (indexer, none)
      | some log =>
          let events := getContractEvents log page
          if events = [] then (indexer, some maxHeight)
          else
            match dispatchAll contract events indexer with
            | (.returned _, scanned) =>
                let seen := pageMax maxHeight events
                if ∃ least ∈ pageMin events, least ≤ sinceHeight then (scanned, some seen)
                else if events.length < pageSize then (scanned, some seen)
                else scanPages contract fetch sinceHeight pages (page + 1) seen scanned
            | (_, stopped) => (stopped, none)

def scanContract (contract : ContractId) (fetch : Nat → Option (List LogEntry))
    (sinceHeight : Int) (indexer : Indexer) : Indexer × Option Int :=
  scanPages contract fetch sinceHeight maxPages 0 sinceHeight indexer

/-- How one scan goes: when the tip and each page are fetched, if they can be,
and whether the statistics and the cursor can be written. -/
structure Scan where
  tipAt : Option Nat
  fetchAt : ContractId → Nat → Option Nat
  refreshes : Bool

variable (timeline : Nat → Chain) (startHeight : Nat)

def fetched (scan : Scan) (contract : ContractId) (page : Nat) : Option (List LogEntry) :=
  (scan.fetchAt contract page).map fun time => (timeline time).log contract

def getCursor (indexer : Indexer) : Int := indexer.lastHeight.getD startHeight

/-- One contract of a scan; an error is logged and passed over. -/
def scanNext (scan : Scan) (sinceHeight : Int) (progress : Indexer × Int) (contract : ContractId) :
    Indexer × Int :=
  let (indexer, seen) :=
    scanContract contract (fetched timeline scan contract) sinceHeight progress.1
  (indexer, max progress.2 (seen.getD progress.2))

def scanOnce (indexer : Indexer) (scan : Scan) : Indexer :=
  match scan.tipAt with
  | none => indexer
  | some tipTime =>
      let cursor := getCursor startHeight indexer
      let since := max 0 (cursor - overlap)
      let (scanned, processedTo) := contracts.foldl (scanNext timeline scan since) (indexer, cursor)
      if scan.refreshes then
        let newCursor := max cursor (min processedTo (timeline tipTime).tip)
        { scanned with lastHeight := some newCursor }
      else scanned

/-- An empty database. -/
def launched : Indexer := { store := .empty, lastHeight := none, dispatched := [] }

def scanAll (indexer : Indexer) (scans : List Scan) : Indexer :=
  scans.foldl (scanOnce timeline startHeight) indexer

end StxShield.BlockIndexer
