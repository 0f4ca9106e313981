import Mathlib.Data.List.TakeWhile
import StxShield.Api.Scanning

/-!
# What the indexer has seen

Below the cursor nothing is missing as long as every scan reads back to where the
last one stopped.  It need not: a contract whose fetch fails does not hold the
cursor back, and a page with an entry that is no event, or the limit on pages,
ends a scan early.
-/

namespace StxShield.BlockIndexer

open Library

/-! ## The tree -/

/-- A commitment has a leaf in the stored tree. -/
def InTree (notes : DataMap String NoteRow) (commitment : String) : Prop :=
  ∃ row, notes.lookup commitment = some row ∧ row.leafIndex.isSome

section Tree

variable {store store' : Store} {ev : DecodedEvent} {txid : String}

theorem inTree_insert {notes : DataMap String NoteRow} {commitment : String} {row : NoteRow}
    (hrow : row.leafIndex.isSome) : InTree (notes.insert commitment row) commitment :=
  ⟨row, AList.lookup_insert _, hrow⟩

theorem InTree.insert {notes : DataMap String NoteRow} {commitment other : String} {row : NoteRow}
    (h : InTree notes other) (hrow : row.leafIndex.isSome) :
    InTree (notes.insert commitment row) other := by
  by_cases hsame : other = commitment
  · subst hsame
    exact inTree_insert hrow
  · obtain ⟨found, hfound, hleaf⟩ := h
    exact ⟨found, (AList.lookup_insert_ne hsame).trans hfound, hleaf⟩

theorem DecodedEvent.Indexed.names (h : ev.Indexed) {commitment : String} {leafIndex : Option Int}
    (hnames : ev.Names commitment leafIndex) : leafIndex.isSome := by
  obtain ⟨pair, hpair, -, rfl⟩ := hnames
  have houtput {field : String} (hevent : ev.event ∈ outputEvents)
      (hmem : pair ∈ [(field, "leaf-index")]) : (asInt (ev.fields pair.2)).isSome := by
    obtain rfl := List.mem_singleton.mp hmem
    exact h.output hevent
  unfold leafFields at hpair
  split at hpair
  case h_1 hevent => exact houtput (by rw [hevent]; decide) hpair
  case h_2 hevent => exact houtput (by rw [hevent]; decide) hpair
  case h_3 hevent => exact houtput (by rw [hevent]; decide) hpair
  case h_4 hevent => exact houtput (by rw [hevent]; decide) hpair
  case h_5 hevent => exact houtput (by rw [hevent]; decide) hpair
  case h_6 hevent => exact houtput (by rw [hevent]; decide) hpair
  case h_7 hevent =>
    obtain ⟨hfirst, hsecond⟩ := h.split hevent
    rcases List.mem_cons.mp hpair with rfl | hlast
    · exact hfirst
    · obtain rfl := List.mem_singleton.mp hlast
      exact hsecond
  case h_8 hevent =>
    obtain rfl := List.mem_singleton.mp hpair
    exact h.registered hevent
  case h_9 => cases hpair

/-- No leaf is lost. -/
theorem InTree.handleEvent {commitment : String} (h : InTree store.notes commitment)
    (hindexed : ev.Indexed) : InTree (handleEvent ev txid store).2.notes commitment :=
  handleEvent_keeps (P := fun notes => InTree notes commitment)
    (fun _ _ _ hnames hleaf => hleaf.insert (hindexed.names hnames)) h

theorem noteWrites_registered (hfits : (eventProgram ev txid).Fits)
    (hevent : ev.event = "commitment-registered") {commitment : String}
    (hcommitment : asHex (ev.fields "commitment") = some commitment) :
    noteWrites ev txid = [.leaf commitment txid (asInt (ev.fields "index"))] := by
  rw [noteWrites, List.takeWhile_eq_self_iff.mpr hfits.before, eventProgram, handlerProgram,
    noteProgram_registered hevent, commitmentProgram, if_pos hevent, Option.none_or,
    Option.getD_some, hcommitment, List.filterMap_append, notes_rootWrites]
  rfl

/-- The registry's event puts its commitment in the tree. -/
theorem inTree_handleEvent (hindexed : ev.Indexed)
    (hreturned : handleEvent ev txid store = (.returned (), store'))
    (hevent : ev.event = "commitment-registered") {commitment : String}
    (hcommitment : asHex (ev.fields "commitment") = some commitment) :
    InTree store'.notes commitment := by
  have hfits : (eventProgram ev txid).Fits := by
    rw [handleEvent_eq] at hreturned
    exact fits_of_run_returned hreturned
  have hnotes : (handleEvent ev txid store).2.notes =
      (noteWrites ev txid).foldl NoteWrite.indexed store.notes := notes_handleEvent
  rw [hreturned, noteWrites_registered hfits hevent hcommitment] at hnotes
  rw [hnotes]
  refine inTree_insert ?_
  rw [leafIndex_leafRow]
  exact hindexed.registered hevent

end Tree

/-! ## Scanning one contract -/

section Scanning

variable {contract : ContractId} {fetch : Nat → Option (List LogEntry)} {sinceHeight : Int}
  {entry : LogEntry} {indexer : Indexer}

/-- Successive fetches see the log grow at its front. -/
structure Paging (fetch : Nat → Option (List LogEntry)) : Prop where
  suffix : ∀ page log log', fetch page = some log → fetch (page + 1) = some log' → log <:+ log'
  sorted : ∀ page log, fetch page = some log →
    log.Pairwise fun newer older => older.height ≤ newer.height
  printed : ∀ page log, fetch page = some log → ∀ entry ∈ log, ∀ height,
    entry.printedHeight = some height → height = entry.height

/-- The fetches up to a page succeed, every entry of these pages is an event, and
the last page is short or has an event at or below the height. -/
structure Reaches (fetch : Nat → Option (List LogEntry)) (sinceHeight : Int) (last : Nat) : Prop where
  within : last < maxPages
  fetches : ∀ page ≤ last, ∃ log, fetch page = some log ∧
    ∀ entry ∈ rawPage log page, entry.value.isSome
  stops : ∀ log, fetch last = some log → (rawPage log last).length < pageSize ∨
    ∃ entry ∈ rawPage log last, ∃ height, entry.printedHeight = some height ∧ height ≤ sinceHeight

theorem pageMin_eq_some {events : List LogEntry} {least : Int} (h : least ∈ pageMin events) :
    ∃ event ∈ events, event.printedHeight = some least := by
  have hmem := List.min?_mem h
  exact List.mem_filterMap.mp hmem

/-- An entry that a page does not have is further down the log. -/
theorem mem_drop_succ {log : List LogEntry} {page : Nat}
    (hrest : entry ∈ log.drop (page * pageSize)) (hpage : entry ∉ rawPage log page) :
    entry ∈ log.drop ((page + 1) * pageSize) := by
  rw [← List.take_append_drop pageSize (log.drop (page * pageSize))] at hrest
  rcases List.mem_append.mp hrest with htake | hdrop
  · exact absurd htake hpage
  · rwa [List.drop_drop, ← Nat.succ_mul] at hdrop

theorem length_rawPage_of_mem_drop {log : List LogEntry} {page : Nat}
    (h : entry ∈ log.drop ((page + 1) * pageSize)) : (rawPage log page).length = pageSize := by
  have hlength := List.length_pos_of_mem h
  rw [List.length_drop, Nat.succ_mul] at hlength
  rw [rawPage, List.length_take, List.length_drop]
  omega

/-- Nothing below a page is higher than what is on it. -/
theorem height_le_of_mem_rawPage {log : List LogEntry} {page : Nat} {event : LogEntry}
    (hsorted : log.Pairwise fun newer older => older.height ≤ newer.height)
    (hevent : event ∈ rawPage log page) (hentry : entry ∈ log.drop ((page + 1) * pageSize)) :
    entry.height ≤ event.height := by
  have hdropped := hsorted.sublist (List.drop_sublist (page * pageSize) log)
  rw [← List.take_append_drop pageSize (log.drop (page * pageSize))] at hdropped
  have hbelow : entry ∈ (log.drop (page * pageSize)).drop pageSize := by
    rwa [List.drop_drop, ← Nat.succ_mul]
  exact (List.pairwise_append.mp hdropped).2.2 event hevent entry hbelow

/-- By induction on the pages to go: an entry above the height is on the page, or is
further down and the scan goes on. -/
theorem mem_shown (hpaging : Paging fetch) {last : Nat}
    (hreaches : Reaches fetch sinceHeight last) (habove : sinceHeight < entry.height)
    (pages page : Nat) (hlast : last < page + pages) (hpage : page ≤ last)
    (hunread : ∀ log, fetch page = some log → entry ∈ log.drop (page * pageSize)) :
    (contract, entry) ∈ shown contract fetch sinceHeight pages page := by
  induction pages generalizing page with
  | zero => omega
  | succ pages ih =>
      obtain ⟨log, hfetch, hvalues⟩ := hreaches.fetches page hpage
      have hevents : getContractEvents log page = rawPage log page := List.filter_eq_self.mpr hvalues
      have hrest := hunread log hfetch
      unfold shown
      simp only [hfetch, hevents]
      by_cases hread : entry ∈ rawPage log page
      · have hshown : (contract, entry) ∈ (rawPage log page).map (contract, ·) :=
          List.mem_map.mpr ⟨entry, hread, rfl⟩
        rw [if_neg (List.ne_nil_of_mem hread)]
        split_ifs
        · exact hshown
        · exact List.mem_append_left _ hshown
      · have hbelow := mem_drop_succ hrest hread
        have hfull := length_rawPage_of_mem_drop hbelow
        have hnonempty : rawPage log page ≠ [] := by
          intro hempty
          rw [hempty] at hfull
          cases hfull
        have hhigh : ¬ ∃ least ∈ pageMin (rawPage log page), least ≤ sinceHeight := by
          rintro ⟨least, hleast, hle⟩
          obtain ⟨event, hevent, hprinted⟩ := pageMin_eq_some hleast
          have hheight := hpaging.printed page log hfetch event
            (List.mem_of_mem_drop (List.mem_of_mem_take hevent)) least hprinted
          have hunder := height_le_of_mem_rawPage (hpaging.sorted page log hfetch) hevent hbelow
          omega
        have hon : ¬ ((∃ least ∈ pageMin (rawPage log page), least ≤ sinceHeight) ∨
            (rawPage log page).length < pageSize) := not_or.mpr ⟨hhigh, by omega⟩
        rw [if_neg hnonempty, if_neg hon]
        have hmore : page ≠ last := by
          rintro rfl
          rcases hreaches.stops log hfetch with hshort | ⟨event, hevent, height, hprinted, hle⟩
          · omega
          · have hheight := hpaging.printed page log hfetch event
              (List.mem_of_mem_drop (List.mem_of_mem_take hevent)) height hprinted
            have hunder := height_le_of_mem_rawPage (hpaging.sorted page log hfetch) hevent hbelow
            omega
        refine List.mem_append_right _ (ih (page + 1) (by omega) (by omega) fun log' hfetch' => ?_)
        obtain ⟨new, rfl⟩ := hpaging.suffix page log log' hfetch hfetch'
        rw [List.drop_append]
        refine List.mem_append_right _ ?_
        exact List.drop_subset_drop_left log (Nat.sub_le _ _) hbelow

theorem mem_shown_of_mem_first (hpaging : Paging fetch) {last : Nat}
    (hreaches : Reaches fetch sinceHeight last) (habove : sinceHeight < entry.height)
    (hentry : ∀ log, fetch 0 = some log → entry ∈ log) :
    (contract, entry) ∈ shown contract fetch sinceHeight maxPages 0 := by
  refine mem_shown hpaging hreaches habove _ _ ?_ (Nat.zero_le _) fun log hfetch => ?_
  · rw [Nat.zero_add]
    exact hreaches.within
  · rw [Nat.zero_mul, List.drop_zero]
    exact hentry log hfetch

/-- The first page is not answered, or has an event that does not fit. -/
def Stuck (fetch : Nat → Option (List LogEntry)) : Prop :=
  ∀ log, fetch 0 = some log → ∃ entry ∈ getContractEvents log 0, ¬ entry.Fits

theorem fits_of_dispatchAll_returned {events : List LogEntry} {after : Indexer}
    (h : dispatchAll contract events indexer = (.returned (), after)) :
    ∀ entry ∈ events, entry.Fits := by
  induction events generalizing indexer with
  | nil => exact fun _ hmem => absurd hmem List.not_mem_nil
  | cons first rest ih =>
      obtain ⟨_, mid, hfirst, hrest⟩ := Async.bind_returned.mp h
      intro entry hentry
      obtain rfl | hlater := List.mem_cons.mp hentry
      · exact (fits_of_dispatch_returned hfirst).1
      · exact ih hrest entry hlater

/-- A scan that is stuck says no height. -/
theorem scanContract_stuck (h : Stuck fetch) :
    (scanContract contract fetch sinceHeight indexer).2 = none := by
  unfold scanContract
  rw [maxPages, scanPages]
  cases hfetch : fetch 0 with
  | none => rfl
  | some log =>
      obtain ⟨entry, hentry, hrejected⟩ := h log hfetch
      simp only [if_neg (List.ne_nil_of_mem hentry)]
      cases hdispatched : dispatchAll contract (getContractEvents log 0) indexer with
      | mk ending after =>
          cases ending with
          | returned _ =>
              exact absurd (fits_of_dispatchAll_returned hdispatched entry hentry) hrejected
          | thrown message => rfl
          | crashed => rfl

end Scanning

/-! ## Scanning all contracts -/

section Scans

variable {timeline : Nat → Chain} {startHeight : Nat} {scan : Scan} {indexer : Indexer}
  {contract : ContractId} {entry : LogEntry}

/-- The chain grows. -/
def Growing (timeline : Nat → Chain) : Prop :=
  ∀ earlier later, earlier ≤ later → (timeline earlier).Grows (timeline later)

/-- The tip is fetched first, then each contract's pages in turn. -/
structure Scan.InOrder (scan : Scan) : Prop where
  afterTip : ∀ tipTime contract time, scan.tipAt = some tipTime →
    scan.fetchAt contract 0 = some time → tipTime ≤ time
  pages : ∀ contract page time time', scan.fetchAt contract page = some time →
    scan.fetchAt contract (page + 1) = some time' → time ≤ time'

theorem fetched_paging (hgrowing : Growing timeline) (horder : scan.InOrder)
    (contract : ContractId) : Paging (fetched timeline scan contract) where
  suffix page log log' hfetch hfetch' := by
    obtain ⟨time, htime, rfl⟩ := fetched_eq_some.mp hfetch
    obtain ⟨time', htime', rfl⟩ := fetched_eq_some.mp hfetch'
    obtain ⟨new, hnew, -⟩ :=
      (hgrowing time time' (horder.pages contract page time time' htime htime')).log contract
    exact ⟨new, hnew.symm⟩
  sorted page log hfetch := by
    obtain ⟨time, -, rfl⟩ := fetched_eq_some.mp hfetch
    exact (timeline time).log_sorted contract
  printed page log hfetch entry hentry height := by
    obtain ⟨time, -, rfl⟩ := fetched_eq_some.mp hfetch
    exact Chain.log_printed hentry

/-- What is at or below the tip at a time is there at every later time, and was
there at every earlier time that has it at all. -/
theorem mem_log_of_le_tip (hgrowing : Growing timeline) {time tipTime : Nat}
    (hentry : entry ∈ (timeline time).log contract)
    (htip : entry.height ≤ (timeline tipTime).tip) :
    entry ∈ (timeline tipTime).log contract := by
  rcases Nat.le_total time tipTime with hle | hle
  · obtain ⟨new, hnew, -⟩ := (hgrowing time tipTime hle).log contract
    rw [hnew]
    exact List.mem_append_right _ hentry
  · obtain ⟨new, hnew, habove⟩ := (hgrowing tipTime time hle).log contract
    rw [hnew] at hentry
    rcases List.mem_append.mp hentry with hadded | hold
    · have hhigher := habove entry hadded
      omega
    · exact hold

/-- What is above the height and in the log by the first fetch is shown. -/
theorem mem_shownBy {since : Int} {last : Nat}
    (hpaging : Paging (fetched timeline scan contract))
    (hreaches : Reaches (fetched timeline scan contract) since last)
    (habove : since < entry.height)
    (hentry : ∀ log, fetched timeline scan contract 0 = some log → entry ∈ log) :
    (contract, entry) ∈ shownBy timeline scan since contracts :=
  List.mem_flatMap.mpr ⟨contract, by cases contract <;> decide,
    mem_shown_of_mem_first hpaging hreaches habove hentry⟩

/-- If every contract is stuck, no height is said. -/
theorem foldl_scanNext_stuck {since : Int} {remaining : List ContractId}
    (h : ∀ contract ∈ remaining, Stuck (fetched timeline scan contract))
    (progress : Indexer × Int) :
    (remaining.foldl (scanNext timeline scan since) progress).2 = progress.2 := by
  induction remaining generalizing progress with
  | nil => rfl
  | cons first rest ih =>
      have hnext : (scanNext timeline scan since progress first).2 = progress.2 := by
        simp [scanNext, scanContract_stuck (h first List.mem_cons_self)]
      rw [List.foldl_cons, ih fun contract hcontract => h contract (List.mem_cons_of_mem _ hcontract),
        hnext]

/-! ## Runs -/

/-- Everything printed up to the cursor has been dispatched. -/
def Complete (timeline : Nat → Chain) (startHeight : Nat) (indexer : Indexer) : Prop :=
  ∀ time contract entry, entry ∈ (timeline time).log contract → entry.value.isSome →
    startHeight < entry.height → entry.height ≤ getCursor startHeight indexer →
    (contract, entry) ∈ indexer.dispatched

/-- A scan that is to move the cursor reads every contract back to where the last
one stopped, and what it shows can be written; or it is stuck with every contract. -/
def ReadsBack (timeline : Nat → Chain) (startHeight : Nat) (indexer : Indexer) (scan : Scan) :
    Prop :=
  scan.tipAt.isSome → scan.refreshes →
    ((∀ contract, ∃ last,
        Reaches (fetched timeline scan contract) (sinceHeight startHeight indexer) last) ∧
      Writable indexer.store
        (shownBy timeline scan (sinceHeight startHeight indexer) contracts)) ∨
    ∀ contract, Stuck (fetched timeline scan contract)

/-- Every scan of a run does. -/
def ReadBack (timeline : Nat → Chain) (startHeight : Nat) : Indexer → List Scan → Prop :=
  Throughout timeline startHeight (ReadsBack timeline startHeight)

theorem Complete.scanOnce (hgrowing : Growing timeline) (horder : scan.InOrder)
    (hfees : 0 ≤ indexer.store.totalFees) (h : Complete timeline startHeight indexer)
    (hreads : ReadsBack timeline startHeight indexer scan) :
    Complete timeline startHeight (scanOnce timeline startHeight indexer scan) := by
  unfold BlockIndexer.scanOnce
  cases htip : scan.tipAt with
  | none => exact h
  | some tipTime =>
      intro time contract entry hentry hvalue hstart hcursor
      simp only at hcursor ⊢
      split at hcursor
      case isFalse hrefreshes =>
        rw [if_neg hrefreshes]
        refine foldl_scanNext_mono _ _ (h time contract entry hentry hvalue hstart ?_)
        rwa [getCursor, foldl_scanNext_lastHeight] at hcursor
      case isTrue hrefreshes =>
        rw [if_pos hrefreshes]
        by_cases hold : entry.height ≤ getCursor startHeight indexer
        · exact foldl_scanNext_mono _ _ (h time contract entry hentry hvalue hstart hold)
        · rcases hreads (by rw [htip]; rfl) hrefreshes with ⟨hreaches, hwritable⟩ | hstuck
          · obtain ⟨last, hlast⟩ := hreaches contract
            have hbelow : entry.height ≤ (timeline tipTime).tip := by
              have hmoved : entry.height ≤ max (getCursor startHeight indexer) _ := hcursor
              omega
            have habove : sinceHeight startHeight indexer < entry.height := by
              unfold sinceHeight overlap
              omega
            have hshown : (contract, entry) ∈
                shownBy timeline scan (sinceHeight startHeight indexer) contracts := by
              refine mem_shownBy (fetched_paging hgrowing horder contract) hlast habove
                fun log hfetch => ?_
              obtain ⟨pageTime, hpage, rfl⟩ := fetched_eq_some.mp hfetch
              have hafter := horder.afterTip tipTime contract pageTime htip hpage
              obtain ⟨new, hnew, -⟩ := (hgrowing tipTime pageTime hafter).log contract
              rw [hnew]
              exact List.mem_append_right _ (mem_log_of_le_tip hgrowing hentry hbelow)
            have hscanned := foldl_scanNext_of_writable contracts
              (indexer, getCursor startHeight indexer) hfees hwritable
            unfold sinceHeight at hscanned hshown
            rw [hscanned, dispatched_handleAll]
            exact List.mem_append_left _ (List.mem_reverse.mpr hshown)
          · rw [getCursor, Option.getD_some, foldl_scanNext_stuck fun contract _ => hstuck contract]
              at hcursor
            omega

/-- Every commitment registered in a dispatched event has a leaf. -/
def TreeHas (indexer : Indexer) : Prop :=
  ∀ sent ∈ indexer.dispatched, ∀ ev, sent.2.decoded = some ev →
    ev.event = "commitment-registered" →
    ∀ commitment, asHex (ev.fields "commitment") = some commitment →
      InTree indexer.store.notes commitment

theorem TreeHas.dispatch (h : TreeHas indexer)
    (hindexed : ∀ ev, entry.decoded = some ev → ev.Indexed) :
    TreeHas (dispatch contract entry indexer).2 := by
  have hold : ∀ sent ∈ indexer.dispatched, ∀ ev, sent.2.decoded = some ev →
      ev.event = "commitment-registered" →
      ∀ commitment, asHex (ev.fields "commitment") = some commitment →
        InTree (entry.program.run entry.txId indexer.store).2.notes commitment := by
    intro sent hsent ev hdecoded hevent commitment hcommitment
    have hleaf := h sent hsent ev hdecoded hevent commitment hcommitment
    cases hentry : entry.decoded with
    | none =>
        rw [LogEntry.program, hentry]
        exact hleaf
    | some other =>
        rw [run_program hentry]
        exact hleaf.handleEvent (hindexed other hentry)
  intro sent hsent ev hdecoded hevent commitment hcommitment
  rw [dispatch_snd] at hsent ⊢
  dsimp only at hsent ⊢
  split_ifs at hsent with hreturned
  · rcases List.mem_cons.mp hsent with rfl | hsent
    · rw [run_program hdecoded] at hreturned ⊢
      exact inTree_handleEvent (hindexed ev hdecoded) (Prod.ext hreturned rfl) hevent hcommitment
    · exact hold sent hsent ev hdecoded hevent commitment hcommitment
  · exact hold sent hsent ev hdecoded hevent commitment hcommitment

theorem TreeHas.scanAll {scans : List Scan} (h : TreeHas indexer) :
    TreeHas (scanAll timeline startHeight indexer scans) :=
  scanAll_keeps (fun _ _ hmid => hmid)
    (fun _ _ _ hentry _ hmid => hmid.dispatch fun _ => Chain.log_indexed hentry) h

theorem complete_launched (timeline : Nat → Chain) (startHeight : Nat) :
    Complete timeline startHeight launched := by
  intro time contract entry _ _ habove hbelow
  have hcursor : entry.height ≤ startHeight := hbelow
  omega

theorem treeHas_launched : TreeHas launched := fun _ hsent => absurd hsent List.not_mem_nil

/-- By induction on the scans. -/
theorem Complete.scanAll (hgrowing : Growing timeline) {scans : List Scan}
    (horder : ∀ scan ∈ scans, scan.InOrder) (hfees : 0 ≤ indexer.store.totalFees)
    (h : Complete timeline startHeight indexer)
    (hreads : ReadBack timeline startHeight indexer scans) :
    Complete timeline startHeight (scanAll timeline startHeight indexer scans) := by
  induction scans generalizing indexer with
  | nil => exact h
  | cons scan rest ih =>
      obtain ⟨hfirst, hrest⟩ := hreads
      exact ih (fun later hlater => horder later (List.mem_cons_of_mem _ hlater))
        (totalFees_scanOnce hfees) (h.scanOnce hgrowing (horder scan List.mem_cons_self) hfees hfirst)
        hrest

/-- In every run whose scans read back, nothing at or below the cursor is missing:
every event has been dispatched, and every registered commitment has a leaf. -/
theorem indexer_complete (hgrowing : Growing timeline) {scans : List Scan}
    (horder : ∀ scan ∈ scans, scan.InOrder)
    (hreads : ReadBack timeline startHeight launched scans) {time : Nat} {contract : ContractId}
    {entry : LogEntry} (hentry : entry ∈ (timeline time).log contract)
    (hvalue : entry.value.isSome) (habove : startHeight < entry.height)
    (hbelow : entry.height ≤
      getCursor startHeight (scanAll timeline startHeight launched scans)) :
    (contract, entry) ∈ (scanAll timeline startHeight launched scans).dispatched ∧
      ∀ ev, entry.decoded = some ev → ev.event = "commitment-registered" →
        ∀ commitment, asHex (ev.fields "commitment") = some commitment →
          InTree (scanAll timeline startHeight launched scans).store.notes commitment := by
  have hdispatched := (complete_launched timeline startHeight).scanAll hgrowing horder le_rfl hreads
    time contract entry hentry hvalue habove hbelow
  exact ⟨hdispatched, fun ev hdecoded =>
    treeHas_launched.scanAll (contract, entry) hdispatched ev hdecoded⟩

end Scans

namespace Sample

def commitmentText (n : Nat) : String := String.ofList [Char.ofNat (48 + n)]

/-- The registry registers a commitment in block 101. -/
def registered (n : Nat) : LogEntry where
  txId := "registration"
  height := 101
  value := some (some
    { event := "commitment-registered"
      fields := fun field =>
        if field = "commitment" then .text (commitmentText n)
        else if field = "index" then .int n
        else if field = "height" then .int 101
        else .null })

/-- The pool switches a function on or off in block 110. -/
def switched : LogEntry where
  txId := "switch"
  height := 110
  value := some (some
    { event := "shield-switch"
      fields := fun field => if field = "height" then .int 110 else .null })

/-- A page and one more commitment in one block, and an event some blocks later. -/
def entries : List (ContractId × LogEntry) :=
  (.privacyPool, switched) :: (List.range 51).map fun n => (.privacyRegistry, registered n)

theorem entries_cases {sent : ContractId × LogEntry} (h : sent ∈ entries) :
    (∃ n < 51, sent.2 = registered n) ∨ sent.2 = switched := by
  obtain rfl | hrest := List.mem_cons.mp h
  · exact .inr rfl
  · obtain ⟨n, hn, rfl⟩ := List.mem_map.mp hrest
    exact .inl ⟨n, List.mem_range.mp hn, rfl⟩

theorem registered_indexed (n : Nat) : ∀ ev, (registered n).decoded = some ev → ev.Indexed := by
  rintro ev ⟨⟩
  constructor
  · intro hevent
    simp [outputEvents] at hevent
  · intro hevent
    simp at hevent
  · intro _
    rfl

theorem switched_indexed : ∀ ev, switched.decoded = some ev → ev.Indexed := by
  rintro ev ⟨⟩
  constructor
  · intro hevent
    simp [outputEvents] at hevent
  · intro hevent
    simp at hevent
  · intro hevent
    simp at hevent

def chain : Chain where
  tip := 110
  entries := entries
  sorted := by
    refine List.pairwise_cons.mpr ⟨fun sent hsent => ?_, List.pairwise_map.mpr ?_⟩
    · obtain ⟨n, -, rfl⟩ := List.mem_map.mp hsent
      exact (by decide : (101 : Int) ≤ 110)
    · exact List.pairwise_lt_range.imp fun _ => Int.le_refl _
  printed sent hsent height hprinted := by
    rcases entries_cases hsent with ⟨n, -, hentry⟩ | hentry
    · rw [hentry] at hprinted ⊢
      exact (Option.some.inj hprinted).symm
    · rw [hentry] at hprinted ⊢
      exact (Option.some.inj hprinted).symm
  indexed sent hsent := by
    rcases entries_cases hsent with ⟨n, -, hentry⟩ | hentry
    · rw [hentry]
      exact registered_indexed n
    · rw [hentry]
      exact switched_indexed

theorem registered_fits {n : Nat} (h : n < 51) : (registered n).Fits := by
  have hbefore : ∀ n < 51, ∀ write ∈ (registered n).program.before, write.fits = true := by
    decide +kernel
  exact ⟨hbefore n h, fun _ hrecord => by cases hrecord⟩

theorem switched_fits : switched.Fits :=
  ⟨by decide, fun _ hrecord => by cases hrecord⟩

/-- Nothing happens on the chain while it is scanned. -/
def timeline (_ : Nat) : Chain := chain

theorem growing : Growing timeline := fun _ _ _ => ⟨[], rfl, fun _ h => by cases h⟩

/-- A scan in which everything is fetched, but for some contracts. -/
def scanBut (failing : ContractId → Bool) : Scan where
  tipAt := some 0
  fetchAt contract _ := if failing contract then none else some 0
  refreshes := true

theorem scanBut_inOrder (failing : ContractId → Bool) : (scanBut failing).InOrder where
  afterTip tipTime contract time htip _ := by
    obtain rfl := Option.some.inj htip
    exact Nat.zero_le _
  pages contract page time time' htime htime' := by
    have hsame : (scanBut failing).fetchAt contract (page + 1) = some time := htime
    exact Nat.le_of_eq (Option.some.inj (hsame.symm.trans htime'))

/-- No contract fails. -/
def clean : Scan := scanBut fun _ => false

/-- The registry's fetch fails. -/
def partly : Scan := scanBut fun contract => contract = .privacyRegistry

theorem clean_reaches (contract : ContractId) {since : Int} :
    ∃ last, Reaches (fetched timeline clean contract) since last := by
  have hlength : ((chain.log contract).drop (1 * pageSize)).length < pageSize := by
    cases contract <;> decide +kernel
  refine ⟨1, by decide, fun page _ => ⟨chain.log contract, rfl, fun entry hentry => ?_⟩, ?_⟩
  · have hmem : entry ∈ chain.log contract := List.mem_of_mem_drop (List.mem_of_mem_take hentry)
    rcases entries_cases (Chain.mem_log.mp hmem) with ⟨n, -, rfl⟩ | rfl
    · rfl
    · rfl
  · intro fetchedLog hfetch
    obtain rfl := Option.some.inj hfetch
    exact .inl (Nat.lt_of_le_of_lt (List.length_take_le' _ _) hlength)

/-- The events carry no fees, and their values are small. -/
theorem clean_writable {store : Store} (hfees : store.totalFees < 2 ^ 63) {since : Int} :
    Writable store (shownBy timeline clean since contracts) := by
  have hentry {sent : ContractId × LogEntry} (h : sent ∈ shownBy timeline clean since contracts) :
      (∃ n < 51, sent.2 = registered n) ∨ sent.2 = switched := by
    obtain ⟨time, hsent⟩ := mem_shownBy_entries h
    exact entries_cases hsent
  refine ⟨fun sent hsent => ?_, ?_⟩
  · rcases hentry hsent with ⟨n, hn, hsame⟩ | hsame
    · rw [hsame]
      exact registered_fits hn
    · rw [hsame]
      exact switched_fits
  · rw [List.sum_eq_zero, add_zero]
    · exact hfees
    · intro fee hfee
      obtain ⟨sent, hsent, rfl⟩ := List.mem_map.mp hfee
      rcases hentry hsent with ⟨n, -, hsame⟩ | hsame
      · rw [hsame]
        rfl
      · rw [hsame]
        rfl

/-- Two scans, of which the first may fail to fetch some contract. -/
def scansAfter (first : Scan) : Indexer := scanAll timeline 0 launched [first, clean]

end Sample

/-- When nothing fails the oldest commitment, on the registry's second page, has
a leaf. -/
theorem indexer_complete_clean :
    (0 : Int) < (Sample.registered 50).height ∧
      InTree (Sample.scansAfter Sample.clean).store.notes (Sample.commitmentText 50) := by
  have hreads : ReadBack Sample.timeline 0 launched [Sample.clean, Sample.clean] :=
    ⟨fun _ _ => .inl ⟨fun contract => Sample.clean_reaches contract,
        Sample.clean_writable (by decide)⟩,
      fun _ _ => .inl ⟨fun contract => Sample.clean_reaches contract,
        Sample.clean_writable (by decide +kernel)⟩, trivial⟩
  have horder : ∀ scan ∈ [Sample.clean, Sample.clean], scan.InOrder := by
    intro scan hscan
    simp only [List.mem_cons, List.not_mem_nil, or_false, or_self] at hscan
    rw [hscan]
    exact Sample.scanBut_inOrder _
  have hentry : Sample.registered 50 ∈ (Sample.timeline 0).log .privacyRegistry :=
    Chain.mem_log.mpr (List.mem_cons_of_mem _ (List.mem_map.mpr ⟨50, by decide, rfl⟩))
  have hcursor : (Sample.registered 50).height ≤
      getCursor 0 (scanAll Sample.timeline 0 launched [Sample.clean, Sample.clean]) := by
    decide +kernel
  have habove : ((0 : Nat) : Int) < (Sample.registered 50).height := by decide
  obtain ⟨-, htree⟩ :=
    indexer_complete Sample.growing horder hreads hentry rfl habove hcursor
  refine ⟨habove, ?_⟩
  unfold Sample.scansAfter
  exact htree _ rfl rfl _ rfl

/-- When the registry's fetch fails once, the other contracts move the cursor on,
and the next scan does not look back as far. -/
theorem commitment_missing :
    Growing Sample.timeline ∧ (∀ scan ∈ [Sample.partly, Sample.clean], scan.InOrder) ∧
      Sample.registered 50 ∈ (Sample.timeline 0).log .privacyRegistry ∧
      (0 : Int) < (Sample.registered 50).height ∧
      (Sample.registered 50).height ≤ getCursor 0 (Sample.scansAfter Sample.partly) ∧
      ¬ InTree (Sample.scansAfter Sample.partly).store.notes (Sample.commitmentText 50) := by
  have hmissing : (Sample.scansAfter Sample.partly).store.notes.lookup
      (Sample.commitmentText 50) = none := by decide +kernel
  have hentry : Sample.registered 50 ∈ (Sample.timeline 0).log .privacyRegistry :=
    Chain.mem_log.mpr (List.mem_cons_of_mem _ (List.mem_map.mpr ⟨50, by decide, rfl⟩))
  refine ⟨Sample.growing, fun scan hscan => ?_, hentry, by decide, by decide +kernel,
    fun ⟨row, hrow, _⟩ => ?_⟩
  · simp only [List.mem_cons, List.not_mem_nil, or_false] at hscan
    rcases hscan with rfl | rfl
    · exact Sample.scanBut_inOrder _
    · exact Sample.scanBut_inOrder _
  · rw [hmissing] at hrow
    cases hrow

end StxShield.BlockIndexer
