import Mathlib.Algebra.Order.BigOperators.Group.List
import StxShield.Api.EventProgram

/-!
# What a scan shows

A contract's pages are read until one of them says to stop.  As long as all values fit
their columns, a scan hands over everything that it is shown; a value that does not
fit ends the scan of its contract, and what was written before it stays.
-/

namespace StxShield.BlockIndexer

open Library

/-! ## Entries -/

/-- The program of an entry of a contract's log; one without an event has none. -/
def LogEntry.program (entry : LogEntry) : EventProgram :=
  entry.decoded.elim { before := [], records := none } fun ev => eventProgram ev entry.txId

def LogEntry.nativeFee (entry : LogEntry) : Int := entry.decoded.elim 0 DecodedEvent.nativeFee

/-- All that the handlers write for the entry fits its column, but for the fees' total. -/
def LogEntry.Fits (entry : LogEntry) : Prop := entry.program.Fits

/-- The event of the entry is handled, with nothing rejected. -/
def handle (indexer : Indexer) (sent : ContractId × LogEntry) : Indexer where
  store := sent.2.program.complete sent.2.txId indexer.store
  lastHeight := indexer.lastHeight
  dispatched := sent :: indexer.dispatched

/-- What is sent to the handlers can be written, the fees together included. -/
structure Writable (store : Store) (sents : List (ContractId × LogEntry)) : Prop where
  fits : ∀ sent ∈ sents, sent.2.Fits
  room : store.totalFees + (sents.map fun sent => sent.2.nativeFee).sum < 2 ^ 63

section Entries

variable {entry : LogEntry} {contract : ContractId} {indexer : Indexer} {store : Store}
  {sents sents' : List (ContractId × LogEntry)}

theorem LogEntry.nativeFee_nonneg (entry : LogEntry) : 0 ≤ entry.nativeFee := by
  unfold LogEntry.nativeFee
  cases entry.decoded with
  | none => exact le_rfl
  | some ev => exact ev.nativeFee_nonneg

theorem LogEntry.fee_program (entry : LogEntry) : entry.program.fee = entry.nativeFee := by
  unfold LogEntry.nativeFee LogEntry.program
  cases entry.decoded with
  | none => rfl
  | some ev => exact fee_eventProgram ev entry.txId

theorem dispatch_eq (contract : ContractId) (entry : LogEntry) :
    dispatch contract entry = (do
      Async.zoom Indexer.store (fun store indexer => { indexer with store := store })
        (entry.program.run entry.txId)
      Async.modify fun indexer =>
        { indexer with dispatched := (contract, entry) :: indexer.dispatched }) := by
  unfold dispatch LogEntry.program
  cases entry.decoded with
  | none => rfl
  | some ev => simp only [handleEvent_eq, Option.elim_some]

theorem dispatch_of_fits (hfits : entry.Fits) (hfees : 0 ≤ indexer.store.totalFees)
    (hroom : indexer.store.totalFees + entry.nativeFee < 2 ^ 63) :
    dispatch contract entry indexer = (.returned (), handle indexer (contract, entry)) := by
  rw [← entry.fee_program] at hroom
  rw [dispatch_eq, Async.bind_apply, Async.zoom, hfits.run hfees hroom]
  rfl

theorem run_program {ev : DecodedEvent} (h : entry.decoded = some ev) :
    entry.program.run entry.txId = handleEvent ev entry.txId := by
  rw [LogEntry.program, h, handleEvent_eq]
  rfl

/-- However the handlers end, what they have written stays; the event counts as dispatched
when they return. -/
theorem dispatch_snd (contract : ContractId) (entry : LogEntry) (indexer : Indexer) :
    (dispatch contract entry indexer).2 =
      { store := (entry.program.run entry.txId indexer.store).2
        lastHeight := indexer.lastHeight
        dispatched :=
          if (entry.program.run entry.txId indexer.store).1 = .returned () then
            (contract, entry) :: indexer.dispatched
          else indexer.dispatched } := by
  rw [dispatch_eq, Async.bind_apply, Async.zoom]
  generalize entry.program.run entry.txId indexer.store = ending
  obtain ⟨ending, store⟩ := ending
  cases ending with
  | returned _ => rfl
  | thrown message => rfl
  | crashed => rfl

theorem mem_dispatch {sent : ContractId × LogEntry} (h : sent ∈ indexer.dispatched) :
    sent ∈ (dispatch contract entry indexer).2.dispatched := by
  rw [dispatch_snd]
  dsimp only
  split_ifs
  · exact List.mem_cons_of_mem _ h
  · exact h

theorem totalFees_handle (indexer : Indexer) (sent : ContractId × LogEntry) :
    indexer.store.totalFees ≤ (handle indexer sent).store.totalFees ∧
      (handle indexer sent).store.totalFees ≤ indexer.store.totalFees + sent.2.nativeFee := by
  rw [← sent.2.fee_program]
  exact EventProgram.totalFees_complete

/-- What has been handled has added its fees at most. -/
theorem totalFees_handleAll (sents : List (ContractId × LogEntry)) (indexer : Indexer) :
    indexer.store.totalFees ≤ (sents.foldl handle indexer).store.totalFees ∧
      (sents.foldl handle indexer).store.totalFees ≤
        indexer.store.totalFees + (sents.map fun sent => sent.2.nativeFee).sum := by
  induction sents generalizing indexer with
  | nil => simp
  | cons sent rest ih =>
      obtain ⟨hlow, hhigh⟩ := ih (handle indexer sent)
      obtain ⟨hfirst, hfirst'⟩ := totalFees_handle indexer sent
      rw [List.foldl_cons, List.map_cons, List.sum_cons]
      omega

theorem nativeFees_nonneg (sents : List (ContractId × LogEntry)) :
    0 ≤ (sents.map fun sent => sent.2.nativeFee).sum := by
  apply List.sum_nonneg
  intro fee hfee
  obtain ⟨sent, -, rfl⟩ := List.mem_map.mp hfee
  exact sent.2.nativeFee_nonneg

theorem Writable.left (h : Writable store (sents ++ sents')) : Writable store sents where
  fits sent hsent := h.fits sent (List.mem_append_left _ hsent)
  room := by
    have hroom := h.room
    have hrest := nativeFees_nonneg sents'
    rw [List.map_append, List.sum_append] at hroom
    omega

/-- After the first part has been handled the rest can still be written. -/
theorem Writable.right (h : Writable indexer.store (sents ++ sents')) :
    Writable (sents.foldl handle indexer).store sents' where
  fits sent hsent := h.fits sent (List.mem_append_right _ hsent)
  room := by
    have hroom := h.room
    obtain ⟨-, hhandled⟩ := totalFees_handleAll sents indexer
    rw [List.map_append, List.sum_append] at hroom
    omega

theorem dispatchAll_of_writable {events : List LogEntry} (hfees : 0 ≤ indexer.store.totalFees)
    (h : Writable indexer.store (events.map (contract, ·))) :
    dispatchAll contract events indexer =
      (.returned (), (events.map (contract, ·)).foldl handle indexer) := by
  induction events generalizing indexer with
  | nil => rfl
  | cons entry rest ih =>
      have hparts : Writable indexer.store ([(contract, entry)] ++ rest.map (contract, ·)) := h
      have hfirst := hparts.left
      have hroom := hfirst.room
      rw [List.map_singleton, List.sum_singleton] at hroom
      obtain ⟨hgrown, -⟩ := totalFees_handle indexer (contract, entry)
      rw [dispatchAll, Async.bind_of_returned
        (dispatch_of_fits (hfirst.fits _ List.mem_cons_self) hfees hroom)]
      exact ih (hfees.trans hgrown) hparts.right

theorem dispatched_handleAll (sents : List (ContractId × LogEntry)) (indexer : Indexer) :
    (sents.foldl handle indexer).dispatched = sents.reverse ++ indexer.dispatched := by
  induction sents generalizing indexer with
  | nil => rfl
  | cons sent rest ih =>
      rw [List.foldl_cons, ih]
      simp [handle]

/-- An event that has been handled did fit. -/
theorem fits_of_dispatch_returned {after : Indexer}
    (h : dispatch contract entry indexer = (.returned (), after)) :
    entry.Fits ∧ (contract, entry) ∈ after.dispatched := by
  rw [dispatch_eq] at h
  obtain ⟨_, mid, hrun, hrecord⟩ := Async.bind_returned.mp h
  cases hrecord
  refine ⟨?_, List.mem_cons_self⟩
  have hreturned : (entry.program.run entry.txId indexer.store).1 = .returned () :=
    (Prod.mk.inj hrun).1
  exact fits_of_run_returned (Prod.ext hreturned rfl)

end Entries

/-! ## Pages -/

/-- What the pages from `page` on show, with `pages` to go. -/
def shown (contract : ContractId) (fetch : Nat → Option (List LogEntry)) (sinceHeight : Int) :
    (pages page : Nat) → List (ContractId × LogEntry)
  | 0, _ => []
  | pages + 1, page =>
      match fetch page with
      | none => []
      | some log =>
          let events := getContractEvents log page
          if events = [] then []
          else if (∃ least ∈ pageMin events, least ≤ sinceHeight) ∨ events.length < pageSize then
            events.map (contract, ·)
          else events.map (contract, ·) ++ shown contract fetch sinceHeight pages (page + 1)

section Pages

variable {contract : ContractId} {fetch : Nat → Option (List LogEntry)} {sinceHeight : Int}
  {indexer : Indexer}

theorem mem_shown_fetched {pages page : Nat} {sent : ContractId × LogEntry}
    (h : sent ∈ shown contract fetch sinceHeight pages page) :
    sent.1 = contract ∧ ∃ page log, fetch page = some log ∧ sent.2 ∈ log := by
  induction pages generalizing page with
  | zero => cases h
  | succ pages ih =>
      unfold shown at h
      cases hfetch : fetch page with
      | none =>
          rw [hfetch] at h
          cases h
      | some log =>
          have hevents (hsent : sent ∈ (getContractEvents log page).map (contract, ·)) :
              sent.1 = contract ∧ ∃ page log, fetch page = some log ∧ sent.2 ∈ log := by
            obtain ⟨entry, hentry, rfl⟩ := List.mem_map.mp hsent
            have hpage : entry ∈ rawPage log page := List.mem_of_mem_filter hentry
            exact ⟨rfl, page, log, hfetch, List.mem_of_mem_drop (List.mem_of_mem_take hpage)⟩
          simp only [hfetch] at h
          split_ifs at h
          · cases h
          · exact hevents h
          · rcases List.mem_append.mp h with hfirst | hrest
            · exact hevents hfirst
            · exact ih hrest

/-- What can be written is handled. -/
theorem scanPages_of_writable (pages page : Nat) (maxHeight : Int) (indexer : Indexer)
    (hfees : 0 ≤ indexer.store.totalFees)
    (h : Writable indexer.store (shown contract fetch sinceHeight pages page)) :
    (scanPages contract fetch sinceHeight pages page maxHeight indexer).1 =
      (shown contract fetch sinceHeight pages page).foldl handle indexer := by
  induction pages generalizing page maxHeight indexer with
  | zero => rfl
  | succ pages ih =>
      unfold shown at h ⊢
      unfold scanPages
      cases hfetch : fetch page with
      | none => rfl
      | some log =>
          simp only [hfetch] at h ⊢
          by_cases hempty : getContractEvents log page = []
          · rw [if_pos hempty, if_pos hempty]
            rfl
          rw [if_neg hempty] at h ⊢
          rw [if_neg hempty]
          by_cases hstops : (∃ least ∈ pageMin (getContractEvents log page), least ≤ sinceHeight) ∨
              (getContractEvents log page).length < pageSize
          · rw [if_pos hstops] at h ⊢
            rw [dispatchAll_of_writable hfees h]
            rcases hstops with hold | hshort
            · simp only [if_pos hold]
            · simp only [if_pos hshort, ite_self]
          · rw [if_neg hstops] at h ⊢
            rw [dispatchAll_of_writable hfees h.left, List.foldl_append]
            obtain ⟨hhigh, hfull⟩ := not_or.mp hstops
            simp only [if_neg hhigh, if_neg hfull]
            exact ih _ _ _ (hfees.trans (totalFees_handleAll _ _).1) h.right

/-- What the dispatch of each entry preserves, the pages preserve. -/
theorem dispatchAll_keeps {I : Indexer → Prop} {events : List LogEntry}
    (hdispatch : ∀ entry ∈ events, ∀ indexer, I indexer → I (dispatch contract entry indexer).2)
    (h : I indexer) : I (dispatchAll contract events indexer).2 := by
  have hwithin : Async.Within (fun before after => I before → I after)
      (dispatchAll contract events) := by
    clear h
    induction events with
    | nil => exact fun _ hsame => hsame
    | cons entry rest ih =>
        exact Async.within_bind (fun hfirst hrest hbefore => hrest (hfirst hbefore))
          (hdispatch entry List.mem_cons_self)
          fun _ => ih fun later hlater => hdispatch later (List.mem_cons_of_mem _ hlater)
  exact hwithin indexer h

theorem scanPages_keeps {I : Indexer → Prop}
    (hdispatch : ∀ page log, fetch page = some log → ∀ entry ∈ log, ∀ indexer,
      I indexer → I (dispatch contract entry indexer).2)
    (pages page : Nat) (maxHeight : Int) (indexer : Indexer) (h : I indexer) :
    I (scanPages contract fetch sinceHeight pages page maxHeight indexer).1 := by
  induction pages generalizing page maxHeight indexer with
  | zero => exact h
  | succ pages ih =>
      unfold scanPages
      cases hfetch : fetch page with
      | none => exact h
      | some log =>
          have hscanned : I (dispatchAll contract (getContractEvents log page) indexer).2 := by
            refine dispatchAll_keeps (fun entry hentry => ?_) h
            have hpage : entry ∈ rawPage log page := List.mem_of_mem_filter hentry
            exact hdispatch page log hfetch entry
              (List.mem_of_mem_drop (List.mem_of_mem_take hpage))
          by_cases hempty : getContractEvents log page = []
          · simp only [if_pos hempty]
            exact h
          simp only [if_neg hempty]
          cases hdispatched : dispatchAll contract (getContractEvents log page) indexer with
          | mk ending scanned =>
              rw [hdispatched] at hscanned
              cases ending with
              | returned _ =>
                  dsimp only
                  split_ifs
                  · exact hscanned
                  · exact hscanned
                  · exact ih _ _ _ hscanned
              | thrown message => exact hscanned
              | crashed => exact hscanned

end Pages

/-! ## Logs -/

section Logs

variable {chain : Chain} {contract : ContractId} {entry : LogEntry}

theorem Chain.mem_log : entry ∈ chain.log contract ↔ (contract, entry) ∈ chain.entries := by
  simp [Chain.log]

theorem Chain.log_sorted (chain : Chain) (contract : ContractId) :
    (chain.log contract).Pairwise fun newer older => older.height ≤ newer.height :=
  List.pairwise_map.mpr (chain.sorted.sublist List.filter_sublist)

theorem Chain.log_printed (h : entry ∈ chain.log contract) {height : Int}
    (hprinted : entry.printedHeight = some height) : height = entry.height :=
  chain.printed _ (Chain.mem_log.mp h) height hprinted

theorem Chain.log_indexed (h : entry ∈ chain.log contract) {ev : DecodedEvent}
    (hdecoded : entry.decoded = some ev) : ev.Indexed :=
  chain.indexed _ (Chain.mem_log.mp h) ev hdecoded

/-- Each log grows at its front. -/
theorem Chain.Grows.log {later : Chain} (h : chain.Grows later) (contract : ContractId) :
    ∃ new, later.log contract = new ++ chain.log contract ∧
      ∀ entry ∈ new, chain.tip < entry.height := by
  obtain ⟨new, hentries, habove⟩ := h.entries
  refine ⟨(new.filter fun sent => sent.1 = contract).map Prod.snd, ?_, fun entry hentry => ?_⟩
  · unfold Chain.log
    rw [hentries, List.filter_append, List.map_append]
  · obtain ⟨sent, hsent, rfl⟩ := List.mem_map.mp hentry
    exact habove sent (List.mem_of_mem_filter hsent)

end Logs

/-! ## Scans -/

/-- The height down to which a scan reads. -/
def sinceHeight (startHeight : Nat) (indexer : Indexer) : Int :=
  max 0 (getCursor startHeight indexer - overlap)

/-- What a scan shows of some contracts, one after the other. -/
def shownBy (timeline : Nat → Chain) (scan : Scan) (since : Int) (remaining : List ContractId) :
    List (ContractId × LogEntry) :=
  remaining.flatMap fun contract =>
    shown contract (fetched timeline scan contract) since maxPages 0

section Scans

variable {timeline : Nat → Chain} {startHeight : Nat} {scan : Scan} {indexer : Indexer}
  {contract : ContractId} {entry : LogEntry}

theorem fetched_eq_some {page : Nat} {log : List LogEntry} :
    fetched timeline scan contract page = some log ↔
      ∃ time, scan.fetchAt contract page = some time ∧ (timeline time).log contract = log :=
  Option.map_eq_some_iff

/-- What a scan shows is on the chain. -/
theorem mem_shownBy_entries {since : Int} {remaining : List ContractId}
    {sent : ContractId × LogEntry} (h : sent ∈ shownBy timeline scan since remaining) :
    ∃ time, sent ∈ (timeline time).entries := by
  obtain ⟨contract, -, hsent⟩ := List.mem_flatMap.mp h
  obtain ⟨rfl, page, log, hfetch, hentry⟩ := mem_shown_fetched hsent
  obtain ⟨time, -, rfl⟩ := fetched_eq_some.mp hfetch
  exact ⟨time, Chain.mem_log.mp hentry⟩

theorem scanNext_fst {since : Int} {progress : Indexer × Int} :
    (scanNext timeline scan since progress contract).1 =
      (scanContract contract (fetched timeline scan contract) since progress.1).1 := rfl

theorem foldl_scanNext_of_writable {since : Int} (remaining : List ContractId)
    (progress : Indexer × Int) (hfees : 0 ≤ progress.1.store.totalFees)
    (h : Writable progress.1.store (shownBy timeline scan since remaining)) :
    (remaining.foldl (scanNext timeline scan since) progress).1 =
      (shownBy timeline scan since remaining).foldl handle progress.1 := by
  induction remaining generalizing progress with
  | nil => rfl
  | cons contract rest ih =>
      rw [shownBy, List.flatMap_cons] at h ⊢
      have hfirst : (scanNext timeline scan since progress contract).1 =
          (shown contract (fetched timeline scan contract) since maxPages 0).foldl handle
            progress.1 :=
        scanPages_of_writable _ _ _ _ hfees h.left
      have hrest := h.right
      rw [List.foldl_cons, List.foldl_append, ← hfirst]
      rw [← hfirst] at hrest
      refine ih _ ?_ hrest
      rw [hfirst]
      exact hfees.trans (totalFees_handleAll _ _).1

/-- When everything can be written, a scan handles what it shows. -/
theorem scanOnce_of_writable (htip : scan.tipAt.isSome) (hfees : 0 ≤ indexer.store.totalFees)
    (h : Writable indexer.store
      (shownBy timeline scan (sinceHeight startHeight indexer) contracts)) :
    ∃ last, scanOnce timeline startHeight indexer scan =
      { (shownBy timeline scan (sinceHeight startHeight indexer) contracts).foldl handle indexer with
        lastHeight := last } := by
  obtain ⟨tipTime, htip⟩ := Option.isSome_iff_exists.mp htip
  have hscanned := foldl_scanNext_of_writable contracts
    (indexer, getCursor startHeight indexer) hfees h
  unfold BlockIndexer.scanOnce
  rw [htip]
  unfold sinceHeight at hscanned ⊢
  rw [← hscanned]
  dsimp only
  split_ifs
  · exact ⟨_, rfl⟩
  · exact ⟨_, rfl⟩

/-- What dispatching the chain's entries preserves a whole scan preserves. -/
theorem foldl_scanNext_keeps {I : Indexer → Prop}
    (hdispatch : ∀ contract time, ∀ entry ∈ (timeline time).log contract, ∀ indexer,
      I indexer → I (dispatch contract entry indexer).2)
    {since : Int} (remaining : List ContractId) (progress : Indexer × Int) (h : I progress.1) :
    I (remaining.foldl (scanNext timeline scan since) progress).1 := by
  induction remaining generalizing progress with
  | nil => exact h
  | cons contract rest ih =>
      refine ih _ ?_
      rw [scanNext_fst]
      refine scanPages_keeps (fun page log hfetch => ?_) _ _ _ _ h
      obtain ⟨time, -, rfl⟩ := fetched_eq_some.mp hfetch
      exact hdispatch contract time

theorem foldl_scanNext_mono {since : Int} (remaining : List ContractId)
    (progress : Indexer × Int) :
    progress.1.dispatched ⊆
      (remaining.foldl (scanNext timeline scan since) progress).1.dispatched :=
  fun sent hsent => foldl_scanNext_keeps (I := fun later => sent ∈ later.dispatched)
    (fun _ _ _ _ _ hmem => mem_dispatch hmem) _ _ hsent

/-- Scanning does not move the cursor. -/
theorem foldl_scanNext_lastHeight {since : Int} (remaining : List ContractId)
    (progress : Indexer × Int) :
    (remaining.foldl (scanNext timeline scan since) progress).1.lastHeight =
      progress.1.lastHeight :=
  foldl_scanNext_keeps (I := fun later => later.lastHeight = progress.1.lastHeight)
    (fun _ _ _ _ _ hsame => by rwa [dispatch_snd]) _ _ rfl

/-- What dispatching the chain's entries preserves, wherever the cursor is, scans preserve. -/
theorem scanOnce_keeps {I : Indexer → Prop}
    (hcursor : ∀ indexer last, I indexer → I { indexer with lastHeight := last })
    (hdispatch : ∀ contract time, ∀ entry ∈ (timeline time).log contract, ∀ indexer,
      I indexer → I (dispatch contract entry indexer).2)
    (h : I indexer) : I (scanOnce timeline startHeight indexer scan) := by
  unfold BlockIndexer.scanOnce
  cases scan.tipAt with
  | none => exact h
  | some tipTime =>
      have hscanned : I (contracts.foldl
          (scanNext timeline scan (max 0 (getCursor startHeight indexer - overlap)))
          (indexer, getCursor startHeight indexer)).1 :=
        foldl_scanNext_keeps hdispatch _ _ h
      simp only
      split
      · exact hcursor _ _ hscanned
      · exact hscanned

theorem scanAll_keeps {I : Indexer → Prop}
    (hcursor : ∀ indexer last, I indexer → I { indexer with lastHeight := last })
    (hdispatch : ∀ contract time, ∀ entry ∈ (timeline time).log contract, ∀ indexer,
      I indexer → I (dispatch contract entry indexer).2)
    {scans : List Scan} (h : I indexer) : I (scanAll timeline startHeight indexer scans) := by
  induction scans generalizing indexer with
  | nil => exact h
  | cons scan rest ih => exact ih (scanOnce_keeps hcursor hdispatch h)

/-- Every scan of a run, with the indexer as it is before. -/
def Throughout (timeline : Nat → Chain) (startHeight : Nat) (P : Indexer → Scan → Prop) :
    Indexer → List Scan → Prop
  | _, [] => True
  | indexer, scan :: rest =>
      P indexer scan ∧
        Throughout timeline startHeight P (scanOnce timeline startHeight indexer scan) rest

/-- Only positive fees are ever added. -/
theorem totalFees_scanOnce (h : 0 ≤ indexer.store.totalFees) :
    0 ≤ (scanOnce timeline startHeight indexer scan).store.totalFees := by
  refine scanOnce_keeps (I := fun later => 0 ≤ later.store.totalFees) (fun _ _ hmid => hmid) ?_ h
  intro contract time entry _ indexer hmid
  rw [dispatch_snd]
  refine EventProgram.run_within (R := fun store later => 0 ≤ store.totalFees → 0 ≤ later.totalFees)
    (fun _ hsame => hsame) (fun hfirst hrest hbefore => hrest (hfirst hbefore))
    (fun write _ store hstore => ?_) (fun _ _ hstore => hstore)
    (fun feeMicro store hpaid hstore => ?_) _ hmid
  · rwa [totalFees_written]
  · exact Int.add_nonneg hstore hpaid.le

end Scans

end StxShield.BlockIndexer
