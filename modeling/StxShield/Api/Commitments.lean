import StxShield.Api.Completeness
import StxShield.Registry.Store
import StxShield.Sdk.DiscoveredNotes
import StxShield.Sdk.SyncedTree

/-!
# The list of commitments

The API lists the commitments that it has a leaf index for, by this index, and the client
rebuilds the tree of the chain from the list.  It does not look at the indices, so that a
commitment that is not in the list moves all later ones.
-/

namespace StxShield.BlockIndexer

open Library Circuit Async Sdk

/-! ## The list -/

structure CommitmentRow where
  commitment : String
  leafIndex : Int

/-- The rows with a leaf index, by the index. -/
def getAllCommitments (notes : DataMap String NoteRow) : List CommitmentRow :=
  let rows := notes.entries.filter fun entry => entry.2.leafIndex.isSome
  (rows.map fun entry =>
    { commitment := entry.1, leafIndex := entry.2.leafIndex.getD 0 }).insertionSort
      fun a b => a.leafIndex ≤ b.leafIndex

variable {notes : DataMap String NoteRow} {row : CommitmentRow}

theorem mem_getAllCommitments :
    row ∈ getAllCommitments notes ↔
      ∃ stored, notes.lookup row.commitment = some stored ∧
        stored.leafIndex = some row.leafIndex := by
  unfold getAllCommitments
  rw [List.mem_insertionSort, List.mem_map]
  constructor
  · rintro ⟨entry, hentry, rfl⟩
    obtain ⟨hmem, hindex⟩ := List.mem_filter.mp hentry
    refine ⟨entry.2, AList.mem_lookup_iff.mpr hmem, ?_⟩
    obtain ⟨leafIndex, hleaf⟩ := Option.isSome_iff_exists.mp hindex
    rw [hleaf]
    rfl
  · rintro ⟨stored, hstored, hindex⟩
    refine ⟨⟨row.commitment, stored⟩, List.mem_filter.mpr ⟨AList.mem_lookup_iff.mp hstored, ?_⟩, ?_⟩
    · rw [hindex]
      rfl
    · rw [hindex]
      rfl

theorem getAllCommitments_ascending (notes : DataMap String NoteRow) :
    (getAllCommitments notes).Pairwise fun a b => a.leafIndex ≤ b.leafIndex := by
  have htotal : Std.Total fun a b : CommitmentRow => a.leafIndex ≤ b.leafIndex :=
    ⟨fun a b => le_total a.leafIndex b.leafIndex⟩
  have htrans : IsTrans CommitmentRow fun a b => a.leafIndex ≤ b.leafIndex :=
    ⟨fun _ _ _ hab hbc => le_trans hab hbc⟩
  exact List.pairwise_insertionSort _ _

/-- There is one row for each commitment. -/
theorem getAllCommitments_nodup (notes : DataMap String NoteRow) :
    ((getAllCommitments notes).map CommitmentRow.commitment).Nodup := by
  have hperm : (getAllCommitments notes).Perm
      ((notes.entries.filter fun entry => entry.2.leafIndex.isSome).map fun entry =>
        { commitment := entry.1, leafIndex := entry.2.leafIndex.getD 0 }) :=
    List.perm_insertionSort _ _
  rw [(hperm.map CommitmentRow.commitment).nodup_iff, List.map_map]
  have hkeys : (notes.entries.map Sigma.fst).Nodup := notes.nodupKeys
  exact hkeys.sublist (List.filter_sublist.map Sigma.fst)

/-! ## Tables of a chain -/

/-- The chain has this commitment at this leaf index. -/
def AtLeaf (registry : PrivacyRegistry) (commitment : String) (leafIndex : Int) : Prop :=
  ∃ (place : Nat) (leaf : Buff32), leafIndex = place ∧ registry.leaves[place]? = some leaf ∧
    commitment = hexText leaf.bytes

/-- Every row with a leaf index is of a commitment that the chain has there. -/
def Indexed (registry : PrivacyRegistry) (notes : DataMap String NoteRow) : Prop :=
  ∀ commitment row leafIndex, notes.lookup commitment = some row →
    row.leafIndex = some leafIndex → AtLeaf registry commitment leafIndex

/-- A table that the indexer can leave: some of the chain's commitments have their leaf
index in it. -/
structure IndexedNotes (registry : PrivacyRegistry) where
  notes : DataMap String NoteRow
  indexed : Indexed registry notes

/-- The events of a chain name commitments by the places they have. -/
def Tells (registry : PrivacyRegistry) (ev : DecodedEvent) : Prop :=
  ∀ commitment leafIndex, ev.Names commitment (some leafIndex) →
    AtLeaf registry commitment leafIndex

section Indexer

variable {registry : PrivacyRegistry}

theorem Indexed.insert (h : Indexed registry notes) {commitment : String} {stored : NoteRow}
    (hstored : ∀ leafIndex, stored.leafIndex = some leafIndex →
      AtLeaf registry commitment leafIndex) :
    Indexed registry (notes.insert commitment stored) := by
  intro other found leafIndex hfound hindex
  by_cases hsame : other = commitment
  · subst hsame
    rw [AList.lookup_insert] at hfound
    obtain rfl := Option.some.inj hfound
    exact hstored leafIndex hindex
  · rw [AList.lookup_insert_ne hsame] at hfound
    exact h other found leafIndex hfound hindex

theorem Indexed.handleEvent {store : Store} {ev : DecodedEvent} {txid : String}
    (h : Indexed registry store.notes) (htells : Tells registry ev) :
    Indexed registry (handleEvent ev txid store).2.notes := by
  refine handleEvent_keeps (P := Indexed registry) ?_ h
  intro notes commitment stored hnames hnotes
  apply hnotes.insert
  intro leafIndex hindex
  rw [hindex] at hnames
  exact htells commitment leafIndex hnames

/-- Whatever scans have failed, the indices that there are are those of the chain. -/
theorem indexed_scanAll {timeline : Nat → Chain} (startHeight : Nat) (scans : List Scan)
    (htells : ∀ contract time, ∀ entry ∈ (timeline time).log contract, ∀ ev,
      entry.decoded = some ev → Tells registry ev) :
    Indexed registry (scanAll timeline startHeight launched scans).store.notes := by
  refine scanAll_keeps (I := fun indexer => Indexed registry indexer.store.notes)
    (fun _ _ h => h) ?_ (fun commitment row leafIndex hrow => by cases hrow)
  intro contract time entry hentry indexer h
  rw [dispatch_snd]
  cases hdecoded : entry.decoded with
  | none =>
      rw [LogEntry.program, hdecoded]
      exact h
  | some ev =>
      rw [run_program hdecoded]
      exact h.handleEvent (htells contract time entry hentry ev hdecoded)

end Indexer

/-! ## The client's tree -/

/-- What the client takes of the API's answer. -/
def commitmentsReply (notes : DataMap String NoteRow) : List String :=
  (getAllCommitments notes).map CommitmentRow.commitment

/-- The root was posted at some time. -/
def HadRoot (registry : PrivacyRegistry) (root : Bytes) : Prop :=
  ∃ posted ∈ registry.merkleRoots.keys, posted.bytes = root

/-- Each commitment of the answer is in the client's tree at its leaf index, and what is
shown to be in the tree is shown against a root that the chain has had. -/
structure Aligned (K : Packages) (registry : PrivacyRegistry) (notes : DataMap String NoteRow)
    (synced : Synced) : Prop where
  placed : ∀ row ∈ getAllCommitments notes, ∃ place : Nat, row.leafIndex = place ∧
    synced.commitmentIndex.lookup row.commitment = some place ∧
    ∃ proof, synced.tree.proof K.builtins place = .ok proof ∧ hexText proof.leaf = row.commitment
  rooted : ∀ note witness, membership K synced note = .ok witness →
    HadRoot registry (fieldToBytes32 witness.merkleRoot)

/-- The leaf indices in the table are those below some number, and the chain has had the
root of that many leaves. -/
def Gapless (B : Builtins) (registry : PrivacyRegistry) (notes : DataMap String NoteRow) : Prop :=
  ∃ count : Nat,
    (∀ place : Nat, (∃ commitment row, notes.lookup commitment = some row ∧
      row.leafIndex = some (place : Int)) ↔ place < count) ∧
    (0 < count → HadRoot registry
      (NoteScanner.rootOf B ((registry.leaves.take count).map Buff32.bytes)))

/-! ## Places in the list -/

section Places

variable {registry : PrivacyRegistry}

/-- The leaf of the chain at a place. -/
def leafAt (registry : PrivacyRegistry) (place : Nat) : Bytes :=
  (registry.leaves.getD place zeroHash).bytes

def places (notes : DataMap String NoteRow) : List Nat :=
  (getAllCommitments notes).map fun row => row.leafIndex.toNat

/-- The leaves that the list stands for. -/
def listedLeaves (registry : PrivacyRegistry) (notes : DataMap String NoteRow) : List Bytes :=
  (places notes).map (leafAt registry)

theorem Indexed.listed (h : Indexed registry notes) (hrow : row ∈ getAllCommitments notes) :
    row.leafIndex = row.leafIndex.toNat ∧ row.leafIndex.toNat < registry.leaves.length ∧
      row.commitment = hexText (leafAt registry row.leafIndex.toNat) := by
  obtain ⟨stored, hstored, hindex⟩ := mem_getAllCommitments.mp hrow
  obtain ⟨place, leaf, hplace, hleaf, hcommitment⟩ := h _ _ _ hstored hindex
  have htoNat : row.leafIndex.toNat = place := by omega
  obtain ⟨hlt, -⟩ := List.getElem?_eq_some_iff.mp hleaf
  rw [htoNat, leafAt, List.getD_eq_getElem?_getD, hleaf]
  exact ⟨hplace, hlt, hcommitment⟩

theorem Indexed.commitmentsReply (h : Indexed registry notes) :
    commitmentsReply notes = (listedLeaves registry notes).map hexText := by
  unfold BlockIndexer.commitmentsReply listedLeaves places
  rw [List.map_map, List.map_map]
  exact List.map_congr_left fun row hrow => (h.listed hrow).2.2

theorem Indexed.nodup (h : Indexed registry notes) : (listedLeaves registry notes).Nodup := by
  have hcommitments : (BlockIndexer.commitmentsReply notes).Nodup := getAllCommitments_nodup notes
  rw [h.commitmentsReply] at hcommitments
  exact hcommitments.of_map

/-- The places are ascending, without repetition. -/
theorem Indexed.places_ascending (h : Indexed registry notes) : (places notes).SortedLT := by
  have hle : (places notes).Pairwise (· ≤ ·) := by
    unfold places
    rw [List.pairwise_map]
    exact (getAllCommitments_ascending notes).imp fun hab => Int.toNat_le_toNat hab
  have hne : (places notes).Nodup := h.nodup.of_map
  exact (hle.imp₂ (fun _ _ hab hdiff => Nat.lt_of_le_of_ne hab hdiff) hne).sortedLT

theorem Indexed.length_le (h : Indexed registry notes) :
    (listedLeaves registry notes).length ≤ registry.leaves.length := by
  have hsubset : listedLeaves registry notes ⊆ registry.leaves.map Buff32.bytes := by
    intro leaf hleaf
    obtain ⟨place, hplace, rfl⟩ := List.mem_map.mp hleaf
    obtain ⟨row, hrow, rfl⟩ := List.mem_map.mp hplace
    obtain ⟨-, hlt, -⟩ := h.listed hrow
    rw [leafAt, List.getD_eq_getElem _ _ hlt]
    exact List.mem_map_of_mem (List.getElem_mem hlt)
  have hle := (h.nodup.subperm hsubset).length_le
  rwa [List.length_map] at hle

theorem Indexed.listed_at (h : Indexed registry notes) {index : Nat}
    (hrow : (getAllCommitments notes)[index]? = some row) :
    row.leafIndex = row.leafIndex.toNat ∧ (places notes)[index]? = some row.leafIndex.toNat ∧
      ∃ leaf, (listedLeaves registry notes)[index]? = some leaf ∧ row.commitment = hexText leaf := by
  obtain ⟨hindex, -, hcommitment⟩ := h.listed (List.mem_of_getElem? hrow)
  have hplace : (places notes)[index]? = some row.leafIndex.toNat := by
    rw [places, List.getElem?_map, hrow, Option.map_some]
  refine ⟨hindex, hplace, _, ?_, hcommitment⟩
  rw [listedLeaves, List.getElem?_map, hplace, Option.map_some]

theorem Indexed.mem_places (h : Indexed registry notes) {place : Nat} :
    place ∈ places notes ↔ ∃ commitment stored, notes.lookup commitment = some stored ∧
      stored.leafIndex = some (place : Int) := by
  constructor
  · intro hplace
    obtain ⟨listed, hlisted, rfl⟩ := List.mem_map.mp hplace
    obtain ⟨stored, hstored, hindex⟩ := mem_getAllCommitments.mp hlisted
    exact ⟨_, stored, hstored, hindex.trans (congrArg some (h.listed hlisted).1)⟩
  · rintro ⟨commitment, stored, hstored, hindex⟩
    exact List.mem_map.mpr
      ⟨⟨commitment, place⟩, mem_getAllCommitments.mpr ⟨stored, hstored, hindex⟩, rfl⟩

/-- Places without a gap are counted up. -/
theorem Indexed.places_eq_range (h : Indexed registry notes) {count : Nat} :
    (∀ place : Nat, (∃ commitment stored, notes.lookup commitment = some stored ∧
      stored.leafIndex = some (place : Int)) ↔ place < count) ↔ places notes = List.range count := by
  constructor
  · intro hbelow
    apply h.places_ascending.eq_of_mem_iff (List.sortedLT_range count)
    intro place
    rw [h.mem_places, hbelow, List.mem_range]
  · intro hplaces place
    rw [← h.mem_places, hplaces, List.mem_range]

/-- They are then those of the chain's first leaves. -/
theorem Indexed.listedLeaves_eq (h : Indexed registry notes) {count : Nat}
    (hplaces : places notes = List.range count) :
    listedLeaves registry notes = (registry.leaves.take count).map Buff32.bytes := by
  have hfits : count ≤ registry.leaves.length := by
    have hle := h.length_le
    rwa [listedLeaves, List.length_map, hplaces, List.length_range] at hle
  unfold listedLeaves
  rw [hplaces]
  apply List.ext_getElem
  · rw [List.length_map, List.length_range, List.length_map, List.length_take, Nat.min_eq_left hfits]
  · intro place hlt hlt'
    rw [List.length_map, List.length_range] at hlt
    have hleaf : place < registry.leaves.length := Nat.lt_of_lt_of_le hlt hfits
    simp only [List.getElem_map, List.getElem_range, List.getElem_take, leafAt,
      List.getD_eq_getElem _ _ hleaf]

end Places

/-! ## Alignment -/

section Alignment

variable {registry : PrivacyRegistry} {K : Packages} {synced : Synced}

/-- A commitment is at its leaf index if the list has no gap before it. -/
theorem placed_iff (h : Indexed registry notes)
    (hmirrors : Mirrors K synced (listedLeaves registry notes)) :
    (∀ row ∈ getAllCommitments notes, ∃ place : Nat, row.leafIndex = place ∧
      synced.commitmentIndex.lookup row.commitment = some place ∧
      ∃ proof, synced.tree.proof K.builtins place = .ok proof ∧
        hexText proof.leaf = row.commitment) ↔
    places notes = List.range (places notes).length := by
  constructor
  · intro hplaced
    apply List.ext_getElem
    · rw [List.length_range]
    · intro index hlt hlt'
      have hlisted : index < (getAllCommitments notes).length := by
        rwa [places, List.length_map] at hlt
      obtain ⟨hindex, hplace, leaf, hleaf, hcommitment⟩ :=
        h.listed_at (List.getElem?_eq_getElem hlisted)
      obtain ⟨place, hsame, hlookup, -⟩ := hplaced _ (List.getElem_mem hlisted)
      rw [hcommitment, hmirrors.indexed index leaf hleaf] at hlookup
      obtain rfl := Option.some.inj hlookup
      obtain ⟨_, hvalue⟩ := List.getElem?_eq_some_iff.mp hplace
      rw [hvalue, List.getElem_range]
      omega
  · intro hplaces listed hmem
    obtain ⟨index, hlisted⟩ := List.getElem?_of_mem hmem
    obtain ⟨hindex, hplace, leaf, hleaf, hcommitment⟩ := h.listed_at hlisted
    rw [hplaces] at hplace
    obtain ⟨hlt, hvalue⟩ := List.getElem?_eq_some_iff.mp hplace
    rw [List.getElem_range] at hvalue
    obtain ⟨proof, hproof, hproved⟩ := hmirrors.proof hleaf
    refine ⟨index, by omega, ?_, proof, hproof, ?_⟩
    · rw [hcommitment]
      exact hmirrors.indexed index leaf hleaf
    · rw [hproved, hcommitment]

/-- A note with nothing but its commitment. -/
def noteOf (commitment : String) : ShieldNote where
  commitment := commitment
  ciphertext := ""
  root := ""
  txid := ""
  amount := 0
  asset := none
  spent := false
  secret :=
    { ownerSk := 0, ownerPkX := 0, ownerPkY := 0, blinding := 0, leafIndex := none,
      assetId := none, assetField := none }

/-- With a commitment in the list there is something to show. -/
theorem rooted_iff (hmirrors : Mirrors K synced (listedLeaves registry notes)) :
    (∀ note witness, membership K synced note = .ok witness →
      HadRoot registry (fieldToBytes32 witness.merkleRoot)) ↔
    (0 < (listedLeaves registry notes).length →
      HadRoot registry (NoteScanner.rootOf K.builtins (listedLeaves registry notes))) := by
  constructor
  · intro hrooted hsome
    have hleaf := List.getElem?_eq_getElem hsome
    obtain ⟨witness, hwitness⟩ := hmirrors.exists_membership (noteOf _) hleaf rfl
    obtain ⟨-, hroot⟩ := hmirrors.membership_root hwitness
    rw [← hroot]
    exact hrooted _ witness hwitness
  · intro hhad note witness hwitness
    obtain ⟨hsome, hroot⟩ := hmirrors.membership_root hwitness
    rw [hroot]
    exact hhad hsome

theorem aligned_iff (h : Indexed registry notes)
    (hmirrors : Mirrors K synced (listedLeaves registry notes)) :
    Aligned K registry notes synced ↔ Gapless K.builtins registry notes := by
  have hlength : (listedLeaves registry notes).length = (places notes).length := List.length_map _
  constructor
  · intro haligned
    have hplaces := (placed_iff h hmirrors).mp haligned.placed
    refine ⟨(places notes).length, h.places_eq_range.mpr hplaces, ?_⟩
    rw [← hlength, ← h.listedLeaves_eq (hlength ▸ hplaces)]
    exact (rooted_iff hmirrors).mp haligned.rooted
  · rintro ⟨count, hbelow, hhad⟩
    have hplaces := h.places_eq_range.mp hbelow
    have hcount : (places notes).length = count := by rw [hplaces, List.length_range]
    refine ⟨(placed_iff h hmirrors).mpr (hcount.symm ▸ hplaces), (rooted_iff hmirrors).mpr ?_⟩
    rw [hlength, hcount, h.listedLeaves_eq hplaces]
    exact hhad

end Alignment

/-! ## Synchronising -/

section Runs

variable {K : Packages} {deployer : Principal} {requests : List PrivacyRegistry.Request}

/-- A list that the indexer leaves fits, and is taken in its order. -/
theorem syncTree_returns (table : IndexedNotes (PrivacyRegistry.runOf deployer requests).state)
    (replies : Replies) (client : Client) :
    ∃ synced, Mirrors K synced
        (listedLeaves (PrivacyRegistry.runOf deployer requests).state table.notes) ∧
      syncTree K { replies with commitments := .returned (commitmentsReply table.notes) } client =
        (.returned (), { client with synced := synced }) := by
  have hstore := PrivacyRegistry.StoreInvariant.run deployer requests
  have hcount : (PrivacyRegistry.runOf deployer requests).state.leaves.length ≤ maxLeaves := by
    unfold PrivacyRegistry.leaves
    rw [List.length_reverse, ← hstore.commitments]
    exact hstore.commitments_le.trans hstore.maxCommitments_le
  obtain ⟨synced, hsynced, hmirrors⟩ := mirrors_rebuilt (K := K) table.indexed.nodup
    (table.indexed.length_le.trans hcount)
  refine ⟨synced, hmirrors, syncTree_returned rfl ?_⟩
  rw [table.indexed.commitmentsReply, hsynced]

end Runs

/-- After the client has synchronised with a table that the indexer can leave, each
commitment is at its leaf index and what is shown is shown against a root of the chain
exactly if the leaf indices in the table have no gap and the chain has had the root of as
many leaves. -/
theorem synced_tree_aligned_iff (K : Packages) (deployer : Principal)
    (requests : List PrivacyRegistry.Request)
    (table : IndexedNotes (PrivacyRegistry.runOf deployer requests).state) (replies : Replies)
    (client : Client) :
    (∀ client',
      syncTree K { replies with commitments := .returned (commitmentsReply table.notes) } client =
        (.returned (), client') →
      Aligned K (PrivacyRegistry.runOf deployer requests).state table.notes client'.synced) ↔
    Gapless K.builtins (PrivacyRegistry.runOf deployer requests).state table.notes := by
  obtain ⟨synced, hmirrors, hsync⟩ := syncTree_returns table replies client
  rw [← aligned_iff table.indexed hmirrors, hsync]
  constructor
  · intro h
    exact h _ rfl
  · rintro haligned client' hclient
    obtain rfl := (Prod.mk.inj hclient).2
    exact haligned

namespace Sample

def registrar : Principal := .account 0

def firstLeaf : Buff32 := ⟨[1], by decide⟩

def secondLeaf : Buff32 := ⟨[2], by decide⟩

/-- The registry registers two commitments. -/
def registrations : List PrivacyRegistry.Request :=
  [(PrivacyRegistry.sentFrom registrar, .addAuthorizedCaller registrar),
    (PrivacyRegistry.sentFrom registrar, .registerCommitment firstLeaf 1),
    (PrivacyRegistry.sentFrom registrar, .registerCommitment secondLeaf 1)]

theorem registrations_leaves :
    (PrivacyRegistry.runOf registrar registrations).state.leaves = [firstLeaf, secondLeaf] := by
  decide +kernel

def secondRow : NoteRow where
  root := none
  txid := "registration"
  leafIndex := some 1
  type := "note"
  assetId := none

/-- Of the two the indexer has missed the first. -/
def missing : IndexedNotes (PrivacyRegistry.runOf registrar registrations).state where
  notes := (∅ : DataMap String NoteRow).insert (hexText secondLeaf.bytes) secondRow
  indexed := by
    refine Indexed.insert (fun commitment row leafIndex hrow => by cases hrow) ?_
    intro leafIndex hindex
    obtain rfl := Option.some.inj hindex
    exact ⟨1, secondLeaf, rfl, by rw [registrations_leaves]; rfl, rfl⟩

def online : Replies where
  assets := .crashed
  keys := .crashed
  connect := .crashed
  commitments := .crashed
  currentRoot := .crashed
  proof := .crashed
  meanwhile synced := synced
  inclusion := .crashed
  relayers := []
  broadcast := .crashed
  confirmation := .crashed
  consumed _ :=
    { setSpent := .crashed, register := fun _ => .accepted, markSpent := .crashed }
  registered _ := .accepted
  registered2 _ := .accepted
  put _ := true
  removed := (true, .crashed)
  blindingBytes n := ⟨bigEndian 31 n, bigEndian_length 31 _⟩
  nonceBytes n := ⟨bigEndian 31 n, bigEndian_length 31 _⟩

end Sample

/-- A commitment that the indexer has missed moves the next one to its place. -/
theorem synced_tree_shifted :
    ¬ ∀ (K : Packages) (deployer : Principal) (requests : List PrivacyRegistry.Request)
      (table : IndexedNotes (PrivacyRegistry.runOf deployer requests).state) (replies : Replies)
      (client client' : Client),
      syncTree K { replies with commitments := .returned (commitmentsReply table.notes) } client =
        (.returned (), client') →
      Aligned K (PrivacyRegistry.runOf deployer requests).state table.notes client'.synced := by
  intro halways
  obtain ⟨synced, hmirrors, hsync⟩ := syncTree_returns (K := Sdk.Sample.offline) Sample.missing
    Sample.online Sdk.Sample.fresh
  have haligned := halways _ _ _ Sample.missing Sample.online Sdk.Sample.fresh _ hsync
  obtain ⟨count, hbelow, -⟩ := (aligned_iff Sample.missing.indexed hmirrors).mp haligned
  have hsecond : 1 < count := (hbelow 1).mp ⟨_, Sample.secondRow, AList.lookup_insert _, rfl⟩
  obtain ⟨commitment, stored, hstored, hindex⟩ := (hbelow 0).mpr (by omega)
  have hnotes : Sample.missing.notes.lookup commitment = some stored := hstored
  by_cases hsame : commitment = hexText Sample.secondLeaf.bytes
  · subst hsame
    rw [Sample.missing, AList.lookup_insert] at hnotes
    obtain rfl := Option.some.inj hnotes
    cases hindex
  · rw [Sample.missing, AList.lookup_insert_ne hsame] at hnotes
    cases hnotes

end StxShield.BlockIndexer
