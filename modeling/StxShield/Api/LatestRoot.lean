import Mathlib.Data.List.Dedup
import StxShield.Api.Completeness

/-!
# The latest root

The roots of the commitment tree and those of aggregations are rows of one table, and the
latest is the one created last.  Rows are created as the events that tell a root are
dispatched: contract by contract, and newest first.  On the chain the events of all
contracts have one order.
-/

namespace StxShield.BlockIndexer

open Library

/-! ## Queries -/

/-- The rows in the order of `desc(createdAt)`: a row stays where it was created. -/
def getRoots (store : Store) (limit offset : Nat) : List (String × RootRow) :=
  ((store.roots.entries.map fun row => (row.1, row.2)).drop offset).take limit

def getLatestRoot (store : Store) : Option (String × RootRow) := (getRoots store 1 0).head?

theorem getLatestRoot_eq_head? (store : Store) :
    (getLatestRoot store).map Prod.fst = store.roots.keys.head? := by
  have hkeys : store.roots.keys = store.roots.entries.map Sigma.fst := rfl
  unfold getLatestRoot getRoots
  rw [hkeys]
  cases store.roots.entries with
  | nil => rfl
  | cons row rest => rfl

/-! ## Roots that events tell -/

/-- The root of the tree after an operation. -/
def DecodedEvent.treeRoot (ev : DecodedEvent) : Option String := asHex (ev.fields "new-root")

/-- The root of an aggregation that was posted. -/
def DecodedEvent.aggregationRoot (ev : DecodedEvent) : Option String :=
  if ev.event = "aggregation-posted" then
    match asBig (ev.fields "aggregation-id"), asInt (ev.fields "domain-id"),
      asHex (ev.fields "root"), asInt (ev.fields "leaf-count") with
    | some _, some _, some root, some _ => some root
    | _, _, _, _ => none
  else none

def LogEntry.treeRoot (entry : LogEntry) : Option String :=
  entry.decoded.bind DecodedEvent.treeRoot

/-- The entry tells a root, of the tree or of an aggregation. -/
def LogEntry.Tells (entry : LogEntry) (root : String) : Prop :=
  entry.treeRoot = some root ∨ entry.decoded.bind DecodedEvent.aggregationRoot = some root

/-! ## What the table keeps -/

def TableWrite.toRoot : TableWrite → Option String
  | .root newRoot _ => some newRoot
  | _ => none

/-- The roots that the handlers insert for an entry. -/
def LogEntry.roots (entry : LogEntry) : List String :=
  entry.program.before.filterMap TableWrite.toRoot

/-- The roots that have been told, latest first. -/
def toldRoots (dispatched : List (ContractId × LogEntry)) : List String :=
  dispatched.flatMap fun sent => sent.2.roots.reverse

section Events

variable {ev : DecodedEvent} {txid root : String} {store : Store} {entry : LogEntry}

theorem roots_rootWrites : (rootWrites ev txid).filterMap TableWrite.toRoot = ev.treeRoot.toList := by
  unfold rootWrites DecodedEvent.treeRoot
  cases asHex (ev.fields "new-root") with
  | none => rfl
  | some newRoot => rfl

theorem roots_outputWrites {field leafField type : String} {assetId : Option Int} :
    (outputWrites ev txid field leafField type assetId).filterMap TableWrite.toRoot = [] := by
  unfold outputWrites
  split <;> rfl

theorem roots_outputProgram {field type : String} {assetId fee : Option Int}
    (h : root ∈ (outputProgram ev txid field type assetId fee).before.filterMap TableWrite.toRoot) :
    ev.treeRoot = some root := by
  rw [outputProgram, List.filterMap_append, roots_outputWrites, List.append_nil] at h
  unfold outputRootWrites at h
  cases hcommitment : asHex (ev.fields field) with
  | none =>
      rw [hcommitment] at h
      cases h
  | some commitment =>
      rw [hcommitment] at h
      dsimp only at h
      rwa [roots_rootWrites, Option.mem_toList] at h

/-- A note event inserts no root but the tree's. -/
theorem roots_noteProgram {program : EventProgram} (hprogram : noteProgram ev txid = some program)
    (h : root ∈ program.before.filterMap TableWrite.toRoot) : ev.treeRoot = some root := by
  unfold noteProgram at hprogram
  dsimp only at hprogram
  split at hprogram
  case h_3 =>
    cases hprogram
    simp only [List.filterMap_append, roots_outputWrites, List.append_nil] at h
    rwa [roots_rootWrites, Option.mem_toList] at h
  case h_5 => cases hprogram; cases h
  case h_8 =>
    cases hprogram
    dsimp only at h
    rwa [roots_rootWrites, Option.mem_toList] at h
  case h_10 => cases hprogram; cases h
  case h_11 => cases hprogram
  all_goals
    cases hprogram
    exact roots_outputProgram h

theorem noteProgram_aggregation (hevent : ev.event = "aggregation-posted") :
    noteProgram ev txid = none := by
  simp [noteProgram, hevent]

theorem roots_aggregationProgram :
    (aggregationProgram ev txid).before.filterMap TableWrite.toRoot =
      ev.aggregationRoot.toList := by
  unfold aggregationProgram DecodedEvent.aggregationRoot
  split
  case isTrue =>
    cases asBig (ev.fields "aggregation-id") with
    | none => rfl
    | some aggregationId =>
        cases asInt (ev.fields "domain-id") with
        | none => rfl
        | some domainId =>
            cases asHex (ev.fields "root") with
            | none => rfl
            | some root =>
                cases asInt (ev.fields "leaf-count") with
                | none => rfl
                | some leafCount => rfl
  case isFalse => rfl

theorem roots_commitmentProgram {program : EventProgram}
    (hprogram : commitmentProgram ev txid = some program) :
    program.before.filterMap TableWrite.toRoot = [] := by
  unfold commitmentProgram at hprogram
  split at hprogram
  · cases hprogram
    dsimp only
    split <;> rfl
  · cases hprogram

/-- The handlers insert the roots that an event tells. -/
theorem mem_roots_eventProgram :
    root ∈ (eventProgram ev txid).before.filterMap TableWrite.toRoot ↔
      ev.treeRoot = some root ∨ ev.aggregationRoot = some root := by
  rw [eventProgram, List.filterMap_append, roots_rootWrites, List.mem_append, Option.mem_toList]
  constructor
  · rintro (htree | hhandled)
    · exact .inl htree
    · unfold handlerProgram at hhandled
      cases hnote : noteProgram ev txid with
      | some program =>
          rw [hnote] at hhandled
          exact .inl (roots_noteProgram hnote hhandled)
      | none =>
          rw [hnote, Option.none_or] at hhandled
          cases hcommitment : commitmentProgram ev txid with
          | some program =>
              rw [hcommitment, Option.getD_some, roots_commitmentProgram hcommitment] at hhandled
              cases hhandled
          | none =>
              rw [hcommitment, Option.getD_none, roots_aggregationProgram,
                Option.mem_toList] at hhandled
              exact .inr hhandled
  · rintro (htree | haggregation)
    · exact .inl htree
    · right
      have hevent : ev.event = "aggregation-posted" := by
        by_contra hother
        rw [DecodedEvent.aggregationRoot, if_neg hother] at haggregation
        cases haggregation
      have hcommitment : commitmentProgram ev txid = none := by
        simp [commitmentProgram, hevent]
      rw [handlerProgram, noteProgram_aggregation hevent, hcommitment, Option.none_or,
        Option.getD_none, roots_aggregationProgram, Option.mem_toList]
      exact haggregation

theorem LogEntry.mem_roots : root ∈ entry.roots ↔ entry.Tells root := by
  unfold LogEntry.roots LogEntry.program LogEntry.Tells LogEntry.treeRoot
  cases entry.decoded with
  | none => simp
  | some ev => exact mem_roots_eventProgram

theorem mem_toldRoots {dispatched : List (ContractId × LogEntry)} :
    root ∈ toldRoots dispatched ↔ ∃ sent ∈ dispatched, sent.2.Tells root := by
  simp [toldRoots, LogEntry.mem_roots]

theorem keys_insertIfAbsent {roots : DataMap String RootRow} {row : RootRow} :
    (insertIfAbsent roots root row).keys =
      if root ∈ roots.keys then roots.keys else root :: roots.keys := by
  unfold insertIfAbsent DataMap.insertNew?
  split
  case isTrue hnone =>
    rw [Option.isNone_iff_eq_none] at hnone
    rw [Option.getD_some, DataMap.keys_insert_new row hnone, if_neg]
    exact AList.lookup_eq_none.mp hnone
  case isFalse hsome =>
    rw [Option.isNone_iff_eq_none] at hsome
    rw [Option.getD_none, if_pos]
    by_contra hnot
    exact hsome (AList.lookup_eq_none.mpr hnot)

/-- A root that has been told before is not inserted again. -/
theorem keys_writtenAll (writes : List TableWrite) {told : List String}
    (h : store.roots.keys = told.dedup) :
    (writes.foldl TableWrite.written store).roots.keys =
      ((writes.filterMap TableWrite.toRoot).reverse ++ told).dedup := by
  induction writes generalizing store told with
  | nil => exact h
  | cons write rest ih =>
      rw [List.foldl_cons]
      cases write with
      | root newRoot row =>
          have hkeys : ((TableWrite.root newRoot row).written store).roots.keys =
              (newRoot :: told).dedup := by
            rw [TableWrite.written, keys_insertIfAbsent, h]
            by_cases hmem : newRoot ∈ told
            · rw [if_pos (List.mem_dedup.mpr hmem), List.dedup_cons_of_mem hmem]
            · rw [if_neg fun hdedup => hmem (List.mem_dedup.mp hdedup),
                List.dedup_cons_of_notMem hmem]
          have hroots : (TableWrite.root newRoot row :: rest).filterMap TableWrite.toRoot =
              newRoot :: rest.filterMap TableWrite.toRoot := rfl
          rw [ih hkeys, hroots, List.reverse_cons, List.append_assoc]
          rfl
      | note commitment row => exact ih h
      | leaf commitment txid leafIndex => exact ih h
      | aggregation domainId aggregationId row => exact ih h

end Events

/-! ## Runs -/

section Runs

variable {timeline : Nat → Chain} {startHeight : Nat} {scan : Scan} {indexer : Indexer}
  {chain : Chain} {root : String}

/-- The table has the roots that have been told, in the order of their first telling. -/
def RootsTold (indexer : Indexer) : Prop :=
  indexer.store.roots.keys = (toldRoots indexer.dispatched).dedup

theorem rootsTold_launched : RootsTold launched := rfl

theorem RootsTold.handle (h : RootsTold indexer) (sent : ContractId × LogEntry) :
    RootsTold (handle indexer sent) := by
  have hwritten := keys_writtenAll sent.2.program.before h
  unfold RootsTold toldRoots BlockIndexer.handle EventProgram.complete
  rw [List.flatMap_cons]
  cases hrecords : sent.2.program.records with
  | none => exact hwritten
  | some record =>
      have hroots : ((sent.2.program.before.foldl TableWrite.written indexer.store).recorded
          sent.2.txId record.1 record.2).roots =
            (sent.2.program.before.foldl TableWrite.written indexer.store).roots := by
        unfold Store.recorded
        split_ifs <;> rfl
      rw [Option.elim_some, hroots]
      exact hwritten

theorem RootsTold.handleAll (h : RootsTold indexer) (sents : List (ContractId × LogEntry)) :
    RootsTold (sents.foldl BlockIndexer.handle indexer) :=
  List.foldlRecOn sents _ h fun _ hmid sent _ => hmid.handle sent

/-- A root, and none told for the first time since. -/
def FirstToldLast (told : List String) (root : String) : Prop :=
  ∃ later earlier, told = later ++ root :: earlier ∧ root ∉ earlier ∧
    ∀ other ∈ later, other ∈ root :: earlier

theorem head?_dedup_eq_some_iff (told : List String) (root : String) :
    told.dedup.head? = some root ↔ FirstToldLast told root := by
  induction told with
  | nil =>
      constructor
      · intro h
        cases h
      · rintro ⟨later, earlier, htold, -⟩
        cases later <;> cases htold
  | cons first rest ih =>
      by_cases hmem : first ∈ rest
      · rw [List.dedup_cons_of_mem hmem, ih]
        constructor
        · rintro ⟨later, earlier, rfl, hnew, hlater⟩
          refine ⟨first :: later, earlier, rfl, hnew, ?_⟩
          rintro other (_ | ⟨_, hother⟩)
          · obtain hold | hold := List.mem_append.mp hmem
            · exact hlater first hold
            · exact hold
          · exact hlater other hother
        · rintro ⟨later, earlier, htold, hnew, hlater⟩
          cases later with
          | nil =>
              cases htold
              exact absurd hmem hnew
          | cons _ later =>
              cases htold
              exact ⟨later, earlier, rfl, hnew, fun other hother =>
                hlater other (List.mem_cons_of_mem _ hother)⟩
      · rw [List.dedup_cons_of_notMem hmem, List.head?_cons, Option.some.injEq]
        constructor
        · rintro rfl
          exact ⟨[], rest, rfl, hmem, fun _ hother => absurd hother List.not_mem_nil⟩
        · rintro ⟨later, earlier, htold, hnew, hlater⟩
          cases later with
          | nil =>
              cases htold
              rfl
          | cons _ later =>
              cases htold
              exact absurd (List.mem_append_right _ (hlater first List.mem_cons_self)) hmem

/-! ## The most recent update -/

/-- The root of the most recent update of the tree among some events of the chain. -/
def CurrentRoot (chain : Chain) (sents : List (ContractId × LogEntry)) (root : String) : Prop :=
  ∃ newer update older, chain.entries = newer ++ update :: older ∧ update ∈ sents ∧
    update.2.treeRoot = some root ∧ ∀ sent ∈ newer, sent ∈ sents → sent.2.treeRoot = none

/-- The latest root is that of the most recent update that has been dispatched. -/
def ShowsCurrentRoot (chain : Chain) (indexer : Indexer) : Prop :=
  ∀ root, CurrentRoot chain indexer.dispatched root →
    (getLatestRoot indexer.store).map Prod.fst = some root

/-- Everything is answered, and what is shown can be written. -/
structure WholeScan (timeline : Nat → Chain) (startHeight : Nat) (indexer : Indexer)
    (scan : Scan) : Prop where
  tip : scan.tipAt.isSome
  fetches : ∀ contract, ∀ page < maxPages, (scan.fetchAt contract page).isSome
  writable : Writable indexer.store
    (shownBy timeline scan (sinceHeight startHeight indexer) contracts)
  refreshes : scan.refreshes

/-- An event that the scan shows of these contracts tells the root. -/
def ShowsRoot (timeline : Nat → Chain) (startHeight : Nat) (indexer : Indexer) (scan : Scan)
    (shownContracts : List ContractId) (root : String) : Prop :=
  ∃ sent ∈ shownBy timeline scan (sinceHeight startHeight indexer) shownContracts, sent.2.Tells root

/-- The root has not been told before. -/
def NewRoot (indexer : Indexer) (root : String) : Prop :=
  ¬ ∃ sent ∈ indexer.dispatched, sent.2.Tells root

/-- The scan shows the root with a contract whose turn comes before those that show the
current one. -/
def ShownEarlier (timeline : Nat → Chain) (startHeight : Nat) (indexer : Indexer) (scan : Scan)
    (other root : String) : Prop :=
  ∃ earlier contract later, contracts = earlier ++ contract :: later ∧
    ShowsRoot timeline startHeight indexer scan [contract] other ∧
    ¬ ShowsRoot timeline startHeight indexer scan (earlier ++ [contract]) root

/-- Of what the scan shows, the most recent update is new, and other new roots come with
earlier contracts; or there is no new root, and the most recent update is the same. -/
def CurrentLast (chain : Chain) (timeline : Nat → Chain) (startHeight : Nat) (indexer : Indexer)
    (scan : Scan) : Prop :=
  ∀ root, CurrentRoot chain
      (shownBy timeline scan (sinceHeight startHeight indexer) contracts ++ indexer.dispatched)
      root →
    (NewRoot indexer root ∧
      ∀ other ≠ root, ShowsRoot timeline startHeight indexer scan contracts other →
        NewRoot indexer other → ShownEarlier timeline startHeight indexer scan other root) ∨
    (CurrentRoot chain indexer.dispatched root ∧
      ∀ other, ShowsRoot timeline startHeight indexer scan contracts other →
        ¬ NewRoot indexer other)

theorem CurrentRoot.congr {sents sents' : List (ContractId × LogEntry)}
    (h : CurrentRoot chain sents root) (hsame : ∀ sent, sent ∈ sents ↔ sent ∈ sents') :
    CurrentRoot chain sents' root := by
  obtain ⟨newer, update, older, hentries, hupdate, hroot, hnewer⟩ := h
  exact ⟨newer, update, older, hentries, (hsame update).mp hupdate, hroot,
    fun sent hsent hmem => hnewer sent hsent ((hsame sent).mpr hmem)⟩

/-- The current root has been told. -/
theorem CurrentRoot.told {sents : List (ContractId × LogEntry)} (h : CurrentRoot chain sents root) :
    ∃ sent ∈ sents, sent.2.Tells root := by
  obtain ⟨_, update, _, -, hupdate, hroot, -⟩ := h
  exact ⟨update, hupdate, .inl hroot⟩

theorem toldRoots_append (sents sents' : List (ContractId × LogEntry)) :
    toldRoots (sents ++ sents') = toldRoots sents ++ toldRoots sents' :=
  List.flatMap_append

theorem shownBy_append (timeline : Nat → Chain) (scan : Scan) (since : Int)
    (first second : List ContractId) :
    shownBy timeline scan since (first ++ second) =
      shownBy timeline scan since first ++ shownBy timeline scan since second :=
  List.flatMap_append

/-- A root is told last if the other new ones have been told before it was for the first
time. -/
theorem firstToldLast_append {told before : List String} (hroot : root ∈ told)
    (hnew : root ∉ before)
    (hothers : ∀ other ∈ told, other ≠ root → other ∉ before →
      ∃ later earlier, told = later ++ earlier ∧ other ∈ earlier ∧ root ∉ earlier) :
    FirstToldLast (told ++ before) root := by
  obtain ⟨earliest, rest, hreversed, hfirst⟩ :=
    List.eq_append_cons_of_mem (List.mem_reverse.mpr hroot)
  have htold : told = rest.reverse ++ root :: earliest.reverse := by
    rw [← List.reverse_reverse told, hreversed]
    simp
  refine ⟨rest.reverse, earliest.reverse ++ before, by simp [htold], ?_, fun other hother => ?_⟩
  · simp [hfirst, hnew]
  · by_cases hsame : other = root
    · exact hsame ▸ List.mem_cons_self
    refine List.mem_cons_of_mem _ (List.mem_append.mpr ?_)
    by_cases hbefore : other ∈ before
    · exact .inr hbefore
    left
    obtain ⟨later, earlier, hsplit, hmem, habsent⟩ :=
      hothers other (by simp [htold, List.mem_reverse.mp hother]) hsame hbefore
    rw [htold] at hsplit
    obtain ⟨middle, -, hearlier⟩ | ⟨middle, -, hearlier⟩ := List.append_eq_append_iff.mp hsplit
    · cases middle with
      | nil =>
          rw [List.nil_append] at hearlier
          exact absurd (hearlier ▸ List.mem_cons_self) habsent
      | cons first middle =>
          rw [(List.cons.inj hearlier).2]
          exact List.mem_append_right _ hmem
    · exact absurd (hearlier ▸ List.mem_append_right _ List.mem_cons_self) habsent

/-- What a whole scan tells comes after what was told before. -/
theorem toldRoots_handleAll (sents : List (ContractId × LogEntry)) (indexer : Indexer) :
    toldRoots (sents.foldl BlockIndexer.handle indexer).dispatched =
      toldRoots sents.reverse ++ toldRoots indexer.dispatched := by
  rw [dispatched_handleAll, toldRoots_append]

/-- A current root that is new has been told last. -/
theorem firstToldLast_of_shownEarlier
    (hcurrent : CurrentRoot chain
      (shownBy timeline scan (sinceHeight startHeight indexer) contracts ++ indexer.dispatched)
      root)
    (hnew : NewRoot indexer root)
    (hothers : ∀ other ≠ root, ShowsRoot timeline startHeight indexer scan contracts other →
      NewRoot indexer other → ShownEarlier timeline startHeight indexer scan other root) :
    FirstToldLast
      (toldRoots (shownBy timeline scan (sinceHeight startHeight indexer) contracts).reverse ++
        toldRoots indexer.dispatched) root := by
  have hshows {remaining : List ContractId} {other : String} :
      other ∈ toldRoots (shownBy timeline scan (sinceHeight startHeight indexer)
          remaining).reverse ↔ ShowsRoot timeline startHeight indexer scan remaining other := by
    simp [mem_toldRoots, ShowsRoot]
  refine firstToldLast_append ?_ (fun htold => hnew (mem_toldRoots.mp htold)) ?_
  · obtain ⟨sent, hsent, htells⟩ := hcurrent.told
    rcases List.mem_append.mp hsent with hshown | hbefore
    · exact hshows.mpr ⟨sent, hshown, htells⟩
    · exact absurd ⟨sent, hbefore, htells⟩ hnew
  · intro other hother hdifferent hunknown
    obtain ⟨earlier, contract, later, hcontracts, hshown, habsent⟩ :=
      hothers other hdifferent (hshows.mp hother) fun htold => hunknown (mem_toldRoots.mpr htold)
    refine ⟨toldRoots (shownBy timeline scan (sinceHeight startHeight indexer) later).reverse,
      toldRoots (shownBy timeline scan (sinceHeight startHeight indexer)
        (earlier ++ [contract])).reverse, ?_, ?_, fun hroot => habsent (hshows.mp hroot)⟩
    · rw [← toldRoots_append, ← List.reverse_append, ← shownBy_append, hcontracts,
        List.append_assoc]
      rfl
    · rw [shownBy_append, List.reverse_append, toldRoots_append]
      exact List.mem_append_left _ (hshows.mpr hshown)

/-- One whole scan whose current root comes last. -/
theorem ShowsCurrentRoot.scanOnce (hfees : 0 ≤ indexer.store.totalFees) (htold : RootsTold indexer)
    (h : ShowsCurrentRoot chain indexer) (hwhole : WholeScan timeline startHeight indexer scan)
    (hlast : CurrentLast chain timeline startHeight indexer scan) :
    RootsTold (scanOnce timeline startHeight indexer scan) ∧
      ShowsCurrentRoot chain (scanOnce timeline startHeight indexer scan) := by
  obtain ⟨last, hscan⟩ := scanOnce_of_writable hwhole.tip hfees hwhole.writable
  rw [hscan]
  have hafter := htold.handleAll
    (shownBy timeline scan (sinceHeight startHeight indexer) contracts)
  refine ⟨hafter, fun root hcurrent => ?_⟩
  have hcurrent : CurrentRoot chain
      (shownBy timeline scan (sinceHeight startHeight indexer) contracts ++ indexer.dispatched)
      root := by
    refine hcurrent.congr fun sent => ?_
    dsimp only
    rw [dispatched_handleAll, List.mem_append, List.mem_append, List.mem_reverse]
  have hkeys := hafter
  unfold RootsTold at hkeys
  rw [toldRoots_handleAll] at hkeys
  rw [getLatestRoot_eq_head?]
  dsimp only
  rw [hkeys]
  rcases hlast root hcurrent with ⟨hnew, hothers⟩ | ⟨hsame, hknown⟩
  · exact (head?_dedup_eq_some_iff _ _).mpr
      (firstToldLast_of_shownEarlier hcurrent hnew hothers)
  · have hsubset : toldRoots (shownBy timeline scan (sinceHeight startHeight indexer)
        contracts).reverse ⊆ toldRoots indexer.dispatched := by
      intro other hother
      obtain ⟨sent, hsent, htells⟩ := mem_toldRoots.mp hother
      exact mem_toldRoots.mpr
        (not_not.mp (hknown other ⟨sent, List.mem_reverse.mp hsent, htells⟩))
    rw [List.Subset.dedup_append_right hsubset]
    have hshown := h root hsame
    rwa [getLatestRoot_eq_head?, htold] at hshown

/-- By induction on the scans. -/
theorem ShowsCurrentRoot.scanAll {scans : List Scan} (hfees : 0 ≤ indexer.store.totalFees)
    (htold : RootsTold indexer) (h : ShowsCurrentRoot chain indexer)
    (hwhole : Throughout timeline startHeight (WholeScan timeline startHeight) indexer scans)
    (hlast : Throughout timeline startHeight (CurrentLast chain timeline startHeight) indexer
      scans) :
    ShowsCurrentRoot chain (scanAll timeline startHeight indexer scans) := by
  induction scans generalizing indexer with
  | nil => exact h
  | cons scan rest ih =>
      obtain ⟨hfirstWhole, hrestWhole⟩ := hwhole
      obtain ⟨hfirstLast, hrestLast⟩ := hlast
      obtain ⟨htold', hshows⟩ := h.scanOnce hfees htold hfirstWhole hfirstLast
      exact ih (totalFees_scanOnce hfees) htold' hshows hrestWhole hrestLast

theorem showsCurrentRoot_launched (chain : Chain) : ShowsCurrentRoot chain launched := by
  intro root hcurrent
  obtain ⟨_, hsent, -⟩ := hcurrent.told
  exact absurd hsent List.not_mem_nil

/-- In every run of whole scans of each of which the current root comes last, the latest root
is that of the most recent update. -/
theorem latest_root_current {scans : List Scan} {time : Nat}
    (hwhole : Throughout timeline startHeight (WholeScan timeline startHeight) launched scans)
    (hlast : Throughout timeline startHeight (CurrentLast (timeline time) timeline startHeight)
      launched scans) :
    ShowsCurrentRoot (timeline time) (scanAll timeline startHeight launched scans) :=
  (showsCurrentRoot_launched _).scanAll le_rfl rootsTold_launched hwhole hlast

end Runs

namespace Sample

/-- A split of `sip10-pool` leads to a root. -/
def splitInto (root : String) (height : Int) : LogEntry where
  txId := "split"
  height := height
  value := some (some
    { event := "sip10-split"
      fields := fun field =>
        if field = "new-root" then .text root
        else if field = "height" then .int height
        else .null })

def firstSplit : ContractId × LogEntry := (.sip10Pool, splitInto "one" 101)

def secondSplit : ContractId × LogEntry := (.sip10Pool, splitInto "two" 102)

theorem splitInto_indexed {root : String} {height : Int} :
    ∀ ev, (splitInto root height).decoded = some ev → ev.Indexed := by
  rintro ev ⟨⟩
  constructor
  · intro hevent
    simp [outputEvents] at hevent
  · intro hevent
    simp at hevent
  · intro hevent
    simp at hevent

def afterFirst : Chain where
  tip := 101
  entries := [firstSplit]
  sorted := List.pairwise_singleton _ _
  printed sent hsent height hprinted := by
    obtain rfl := List.mem_singleton.mp hsent
    exact (Option.some.inj hprinted).symm
  indexed sent hsent := by
    obtain rfl := List.mem_singleton.mp hsent
    exact splitInto_indexed

def afterBoth : Chain where
  tip := 102
  entries := [secondSplit, firstSplit]
  sorted := by simp [firstSplit, secondSplit, splitInto]
  printed sent hsent height hprinted := by
    obtain rfl | hrest := List.mem_cons.mp hsent
    · exact (Option.some.inj hprinted).symm
    · obtain rfl := List.mem_singleton.mp hrest
      exact (Option.some.inj hprinted).symm
  indexed sent hsent := by
    obtain rfl | hrest := List.mem_cons.mp hsent
    · exact splitInto_indexed
    · obtain rfl := List.mem_singleton.mp hrest
      exact splitInto_indexed

/-- Two splits, one block after the other. -/
def splitTimeline : Nat → Chain
  | 0 => afterFirst
  | _ + 1 => afterBoth

theorem splitTimeline_growing : Growing splitTimeline := by
  intro earlier later hle
  cases earlier with
  | succ earlier =>
      cases later with
      | zero => omega
      | succ later => exact ⟨[], rfl, fun _ hsent => absurd hsent List.not_mem_nil⟩
  | zero =>
      cases later with
      | zero => exact ⟨[], rfl, fun _ hsent => absurd hsent List.not_mem_nil⟩
      | succ later =>
          refine ⟨[secondSplit], rfl, fun sent hsent => ?_⟩
          obtain rfl := List.mem_singleton.mp hsent
          exact (by decide : (101 : Int) < 102)

/-- A scan that fetches everything at a time. -/
def wholeScan (time : Nat) : Scan where
  tipAt := some time
  fetchAt _ _ := some time
  refreshes := true

theorem wholeScan_inOrder (time : Nat) : (wholeScan time).InOrder where
  afterTip _ _ _ htip hpage :=
    Nat.le_of_eq ((Option.some.inj htip).symm.trans (Option.some.inj hpage))
  pages _ _ _ _ hpage hpage' :=
    Nat.le_of_eq ((Option.some.inj hpage).symm.trans (Option.some.inj hpage'))

def firstScanned : Indexer := scanOnce splitTimeline 0 launched (wholeScan 0)

theorem shown_first :
    shownBy splitTimeline (wholeScan 0) (sinceHeight 0 launched) contracts = [firstSplit] := rfl

theorem shown_second :
    shownBy splitTimeline (wholeScan 1) (sinceHeight 0 firstScanned) contracts =
      [secondSplit, firstSplit] := rfl

/-- One scan finds both. -/
theorem shown_both :
    shownBy splitTimeline (wholeScan 1) (sinceHeight 0 launched) contracts =
      [secondSplit, firstSplit] := rfl

theorem split_fits (sent : ContractId × LogEntry) (h : sent ∈ [secondSplit, firstSplit]) :
    sent.2.Fits := by
  obtain rfl | hrest := List.mem_cons.mp h
  · exact ⟨by decide +kernel, by decide +kernel⟩
  · obtain rfl := List.mem_singleton.mp hrest
    exact ⟨by decide +kernel, by decide +kernel⟩

theorem tells_iff {root other : String} (hroot : root ≠ "") {height : Int} :
    (splitInto root height).Tells other ↔ other = root := by
  simp [LogEntry.Tells, LogEntry.treeRoot, LogEntry.decoded, splitInto, DecodedEvent.treeRoot,
    DecodedEvent.aggregationRoot, asHex, hroot, eq_comm]

theorem firstSplit_tells {other : String} : firstSplit.2.Tells other ↔ other = "one" :=
  tells_iff (by decide)

theorem secondSplit_tells {other : String} : secondSplit.2.Tells other ↔ other = "two" :=
  tells_iff (by decide)

theorem wholeScan_whole {indexer : Indexer} {time : Nat}
    (hshown : shownBy splitTimeline (wholeScan time) (sinceHeight 0 indexer) contracts ⊆
      [secondSplit, firstSplit])
    (hfees : indexer.store.totalFees = 0) :
    WholeScan splitTimeline 0 indexer (wholeScan time) where
  tip := rfl
  fetches _ _ _ := rfl
  writable := by
    refine ⟨fun sent hsent => split_fits sent (hshown hsent), ?_⟩
    rw [hfees, List.sum_eq_zero]
    · decide
    · intro fee hfee
      obtain ⟨sent, hsent, rfl⟩ := List.mem_map.mp hfee
      obtain rfl | hrest := List.mem_cons.mp (hshown hsent)
      · rfl
      · obtain rfl := List.mem_singleton.mp hrest
        rfl
  refreshes := rfl

/-- The second split is the most recent update once it has been seen. -/
theorem current_second {sents : List (ContractId × LogEntry)} (hsecond : secondSplit ∈ sents) :
    CurrentRoot afterBoth sents "two" :=
  ⟨[], secondSplit, [firstSplit], rfl, hsecond, rfl,
    fun _ hsent => absurd hsent List.not_mem_nil⟩

theorem current_second_unique {sents : List (ContractId × LogEntry)} {root : String}
    (hsecond : secondSplit ∈ sents) (h : CurrentRoot afterBoth sents root) : root = "two" := by
  obtain ⟨newer, update, older, hentries, -, hroot, hnewer⟩ := h
  cases newer with
  | nil =>
      obtain ⟨rfl, -⟩ := List.cons.inj hentries
      exact (Option.some.inj hroot).symm
  | cons first newer =>
      obtain ⟨rfl, -⟩ := List.cons.inj hentries
      cases hnewer _ List.mem_cons_self hsecond

/-- The first scan sees one split. -/
theorem first_currentLast : CurrentLast afterBoth splitTimeline 0 launched (wholeScan 0) := by
  intro root hcurrent
  rw [shown_first] at hcurrent
  obtain ⟨sent, hsent, htells⟩ := hcurrent.told
  obtain rfl := List.mem_singleton.mp hsent
  obtain rfl := firstSplit_tells.mp htells
  refine .inl ⟨fun ⟨_, hmem, _⟩ => absurd hmem List.not_mem_nil, ?_⟩
  rintro other hother ⟨shown, hshown, htells⟩ -
  rw [shown_first] at hshown
  obtain rfl := List.mem_singleton.mp hshown
  exact absurd (firstSplit_tells.mp htells) hother

/-- The second one sees both, and the older was seen before. -/
theorem second_currentLast : CurrentLast afterBoth splitTimeline 0 firstScanned (wholeScan 1) := by
  have hdispatched : firstScanned.dispatched = [firstSplit] := rfl
  intro root hcurrent
  rw [shown_second] at hcurrent
  obtain rfl := current_second_unique List.mem_cons_self hcurrent
  refine .inl ⟨?_, ?_⟩
  · rintro ⟨sent, hsent, htells⟩
    rw [hdispatched] at hsent
    obtain rfl := List.mem_singleton.mp hsent
    exact absurd (firstSplit_tells.mp htells) (by decide)
  · rintro other hother ⟨sent, hsent, htells⟩ hnew
    rw [shown_second] at hsent
    obtain rfl | hrest := List.mem_cons.mp hsent
    · exact absurd (secondSplit_tells.mp htells) hother
    · obtain rfl := List.mem_singleton.mp hrest
      refine absurd ⟨firstSplit, ?_, htells⟩ hnew
      rw [hdispatched]
      exact List.mem_cons_self

end Sample

/-- When each of two scans finds one split, the second one's root is shown. -/
theorem latest_root_current_split :
    (getLatestRoot (scanAll Sample.splitTimeline 0 launched
      [Sample.wholeScan 0, Sample.wholeScan 1]).store).map Prod.fst = some "two" := by
  have hwhole : Throughout Sample.splitTimeline 0 (WholeScan Sample.splitTimeline 0) launched
      [Sample.wholeScan 0, Sample.wholeScan 1] := by
    refine ⟨Sample.wholeScan_whole ?_ rfl, Sample.wholeScan_whole ?_ rfl, trivial⟩
    · rw [Sample.shown_first]
      exact List.subset_cons_self _ _
    · exact List.Subset.refl _
  have hlast : Throughout Sample.splitTimeline 0
      (CurrentLast (Sample.splitTimeline 1) Sample.splitTimeline 0) launched
      [Sample.wholeScan 0, Sample.wholeScan 1] :=
    ⟨Sample.first_currentLast, Sample.second_currentLast, trivial⟩
  refine latest_root_current hwhole hlast "two" (Sample.current_second ?_)
  exact List.mem_cons_of_mem _ List.mem_cons_self

/-- Of two updates that one whole scan finds, the older is shown. -/
theorem older_root_shown :
    ¬ ∀ (timeline : Nat → Chain) (startHeight : Nat) (scans : List Scan) (time : Nat),
      Growing timeline → (∀ scan ∈ scans, scan.InOrder) →
      Throughout timeline startHeight (WholeScan timeline startHeight) launched scans →
        ShowsCurrentRoot (timeline time) (scanAll timeline startHeight launched scans) := by
  intro h
  have horder : ∀ scan ∈ [Sample.wholeScan 1], scan.InOrder := by
    intro scan hscan
    obtain rfl := List.mem_singleton.mp hscan
    exact Sample.wholeScan_inOrder 1
  have hwhole : Throughout Sample.splitTimeline 0 (WholeScan Sample.splitTimeline 0) launched
      [Sample.wholeScan 1] :=
    ⟨Sample.wholeScan_whole (Sample.shown_both ▸ List.Subset.refl _) rfl, trivial⟩
  have hshown := h Sample.splitTimeline 0 [Sample.wholeScan 1] 1 Sample.splitTimeline_growing horder
    hwhole "two" (Sample.current_second (List.mem_cons_of_mem _ List.mem_cons_self))
  revert hshown
  decide +kernel

end StxShield.BlockIndexer
