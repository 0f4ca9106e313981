import StxShield.Sdk.NoteDelivery
import StxShield.Sdk.NoteScanner
import StxShield.Sdk.ReferenceTree

/-!
# Overlapping calls of the scanner

Any number of calls of `sync` run on one scanner, each interrupted at its two awaits,
while the chain grows.  As long as no call enters notes that it asked for before another
call moved on, the scanner's tree is one that the chain has had.
-/

namespace StxShield.Sdk.NoteScanner

open Library Circuit Async

/-! ## The chain -/

/-- What an operation publishes of one note. -/
structure Publication where
  commitment : Bytes
  payload : Bytes

/-- Publications as the source serves them, from an index onward. -/
def publishedFrom : Nat → List Publication → List PublishedNote
  | _, [] => []
  | index, publication :: rest =>
      { commitment := publication.commitment, leafIndex := index, payload := publication.payload } ::
        publishedFrom (index + 1) rest

def commitments (published : List Publication) : List Bytes :=
  published.map Publication.commitment

/-! ## Runs -/

/-- Where a call of `sync` is. -/
inductive Phase where
  | fetching (fromIndex : Nat)
  | fetched (fromIndex : Nat) (notes : List PublishedNote)
  | refreshing (scanned found : Nat)
  | completed (scanned found : Nat)
  | failed

structure System where
  published : List Publication
  /-- The numbers of commitments that the chain has had between operations. -/
  heights : List Nat
  scanner : NoteScanner
  calls : List Phase

def start : System where
  published := []
  heights := [0]
  scanner := .new
  calls := []

inductive Event where
  /-- An operation adds its outputs; the registry takes no more than the tree has room for. -/
  | publish (outputs : List Publication)
  | begin
  /-- The source answers with the notes it has by now. -/
  | serve (call : Nat)
  | reject (call : Nat)
  /-- A call goes on with the notes it was given. -/
  | resume (call : Nat)
  /-- A call ends with the nullifiers it was given. -/
  | refresh (call : Nat) (onChain : List Bytes)

section Runs

variable (E : Ciphers) (B : Builtins) (viewing : Bytes) (nullifierFor : OwnedNote → Option Bytes)

/-- An event; one that does not apply changes nothing. -/
def step (s : System) : Event → System
  | .publish outputs =>
      if s.published.length + outputs.length ≤ maxLeaves then
        { s with
          published := s.published ++ outputs
          heights := (s.published.length + outputs.length) :: s.heights }
      else s
  | .begin => { s with calls := s.calls ++ [.fetching s.scanner.nextIndex] }
  | .serve call =>
      match s.calls[call]? with
      | some (.fetching fromIndex) =>
          let notes := publishedFrom fromIndex (s.published.drop fromIndex)
          { s with calls := s.calls.set call (.fetched fromIndex notes) }
      | _ => s
  | .reject call =>
      match s.calls[call]? with
      | some (.fetching _) => { s with calls := s.calls.set call .failed }
      | some (.refreshing _ _) => { s with calls := s.calls.set call .failed }
      | _ => s
  | .resume call =>
      match s.calls[call]? with
      | some (.fetched _ notes) =>
          let outcome := scanAll E B viewing notes 0 s.scanner
          let next := match outcome.1 with
            | .returned found => Phase.refreshing notes.length found
            | _ => .failed
          { s with scanner := outcome.2, calls := s.calls.set call next }
      | _ => s
  | .refresh call onChain =>
      match s.calls[call]? with
      | some (.refreshing scanned found) =>
          { s with
            scanner := s.scanner.refreshSpent nullifierFor onChain
            calls := s.calls.set call (.completed scanned found) }
      | _ => s

def run : System → List Event → System
  | s, [] => s
  | s, event :: rest => run (step E B viewing nullifierFor s event) rest

/-- A call that goes on with some notes asked for them from where the scanner now is. -/
def InTurn (s : System) : Event → Prop
  | .resume call =>
      ∀ fromIndex notes, s.calls[call]? = some (.fetched fromIndex notes) →
        notes = [] ∨ fromIndex = s.scanner.nextIndex
  | _ => True

def AllInTurn : System → List Event → Prop
  | _, [] => True
  | s, event :: rest => InTurn s event ∧ AllInTurn (step E B viewing nullifierFor s event) rest

end Runs

/-! ## One call -/

section Calls

variable (E : Ciphers) {B : Builtins} (viewing : Bytes) {scanner : NoteScanner}

/-- The scanner has entered these publications and no others. -/
structure Scanned (B : Builtins) (scanner : NoteScanner) (published : List Publication) : Prop where
  nextIndex : scanner.nextIndex = published.length
  tree : CommitmentTree.Holds B scanner.tree (commitments published)
  owned : ∀ entry ∈ scanner.owned.entries, ∃ publication,
    published[entry.2.leafIndex]? = some publication ∧ entry.1 = hex publication.commitment

theorem scanned_new : Scanned B .new [] where
  nextIndex := rfl
  tree := CommitmentTree.holds_empty
  owned _ hmem := absurd hmem List.not_mem_nil

variable {published : List Publication}

/-- One turn of the loop enters the next publication. -/
theorem Scanned.scan (h : Scanned B scanner published) (publication : Publication)
    (hroom : published.length < maxLeaves) :
    ∃ more after, NoteScanner.scan E B viewing
        { commitment := publication.commitment
          leafIndex := published.length
          payload := publication.payload } scanner = (.returned more, after) ∧
      Scanned B after (published ++ [publication]) := by
  have hcount : scanner.tree.count < maxLeaves := by
    rw [h.tree.count, commitments, List.length_map]
    exact hroom
  obtain ⟨grown, hinsert⟩ :=
    CommitmentTree.insert_ok (B := B) hcount publication.commitment
  obtain ⟨-, hgrown⟩ := h.tree.insert hinsert
  have htree : CommitmentTree.Holds B grown (commitments (published ++ [publication])) := by
    rw [commitments, List.map_append]
    exact hgrown
  have hlength : published.length + 1 = (published ++ [publication]).length := by
    rw [List.length_append, List.length_singleton]
  have hkept : ∀ entry ∈ scanner.owned.entries, ∃ other,
      (published ++ [publication])[entry.2.leafIndex]? = some other ∧
        entry.1 = hex other.commitment := by
    intro entry hmem
    obtain ⟨other, hother, hkey⟩ := h.owned entry hmem
    obtain ⟨hindex, -⟩ := List.getElem?_eq_some_iff.mp hother
    exact ⟨other, by rw [List.getElem?_append_left hindex, hother], hkey⟩
  unfold NoteScanner.scan
  simp only [get_bind, hinsert, ok_bind, modify_bind]
  generalize decrypt E viewing _ = decrypted
  cases decrypted with
  | none => exact ⟨0, _, rfl, hlength, htree, hkept⟩
  | some payload =>
      refine ⟨1, _, rfl, hlength, htree, fun entry hmem => ?_⟩
      rcases OrderedMap.mem_set.mp hmem with rfl | ⟨-, hold⟩
      · exact ⟨publication, List.getElem?_concat_length, rfl⟩
      · exact hkept entry hold

/-- The loop enters all the publications that follow. -/
theorem Scanned.scanAll (h : Scanned B scanner published) (rest : List Publication)
    (hroom : published.length + rest.length ≤ maxLeaves) (found : Nat) :
    ∃ more after,
      NoteScanner.scanAll E B viewing (publishedFrom published.length rest) found scanner =
        (.returned more, after) ∧ Scanned B after (published ++ rest) := by
  induction rest generalizing published scanner found with
  | nil => exact ⟨found, scanner, rfl, by rwa [List.append_nil]⟩
  | cons publication rest ih =>
      rw [List.length_cons] at hroom
      obtain ⟨more, mid, hscan, hmid⟩ :=
        h.scan E viewing publication (by omega)
      have hlength : (published ++ [publication]).length = published.length + 1 := by
        rw [List.length_append, List.length_singleton]
      obtain ⟨total, after, hrest, hafter⟩ := ih hmid (by omega) (found + more)
      rw [List.append_assoc, List.singleton_append] at hafter
      rw [hlength] at hrest
      refine ⟨total, after, ?_, hafter⟩
      unfold publishedFrom NoteScanner.scanAll
      rw [bind_of_returned hscan]
      exact hrest

/-- Marking notes spent changes nothing else of them. -/
theorem mem_refreshSpent {nullifierFor : OwnedNote → Option Bytes} {onChain : List Bytes}
    {entry : List Char × OwnedNote}
    (h : entry ∈ (scanner.refreshSpent nullifierFor onChain).owned.entries) :
    ∃ old, (entry.1, old) ∈ scanner.owned.entries ∧
      entry.2.toNotePayload = old.toNotePayload ∧ entry.2.leafIndex = old.leafIndex := by
  obtain ⟨old, hold, hnew⟩ := OrderedMap.mem_mapValues.mp h
  refine ⟨old, hold, ?_⟩
  rw [← hnew]
  split
  · split
    · exact ⟨rfl, rfl⟩
    · exact ⟨rfl, rfl⟩
  · exact ⟨rfl, rfl⟩

/-- Marking notes spent enters nothing. -/
theorem Scanned.refreshSpent (h : Scanned B scanner published)
    (nullifierFor : OwnedNote → Option Bytes) (onChain : List Bytes) :
    Scanned B (scanner.refreshSpent nullifierFor onChain) published where
  nextIndex := h.nextIndex
  tree := h.tree
  owned entry hmem := by
    obtain ⟨old, hold, -, hindex⟩ := mem_refreshSpent hmem
    obtain ⟨publication, hpublication, hkey⟩ := h.owned _ hold
    rw [← hindex] at hpublication
    exact ⟨publication, hpublication, hkey⟩

end Calls

/-! ## All calls -/

section Invariant

variable {E : Ciphers} {B : Builtins} {viewing : Bytes} {nullifierFor : OwnedNote → Option Bytes}
  {s : System}

/-- The notes a call was given are what the chain had, at some time, from its index on. -/
def Phase.Served (s : System) : Phase → Prop
  | .fetched fromIndex notes =>
      ∃ height ∈ s.heights,
        notes = publishedFrom fromIndex ((s.published.take height).drop fromIndex)
  | _ => True

structure Consistent (B : Builtins) (s : System) : Prop where
  height : s.published.length ∈ s.heights
  within : ∀ height ∈ s.heights, height ≤ s.published.length
  room : s.published.length ≤ maxLeaves
  scanned : ∃ height ∈ s.heights, Scanned B s.scanner (s.published.take height)
  served : ∀ phase ∈ s.calls, phase.Served s

theorem consistent_start : Consistent B start where
  height := List.mem_singleton.mpr rfl
  within _ hmem := Nat.le_of_eq (List.mem_singleton.mp hmem)
  room := Nat.zero_le _
  scanned := ⟨0, List.mem_singleton.mpr rfl, scanned_new⟩
  served _ hmem := absurd hmem List.not_mem_nil

/-- A call moves on; what the others were given stays what it was. -/
theorem Consistent.setCall (h : Consistent B s) (call : Nat) (phase : Phase)
    (hphase : phase.Served s) : Consistent B { s with calls := s.calls.set call phase } where
  height := h.height
  within := h.within
  room := h.room
  scanned := h.scanned
  served other hmem := by
    rcases List.mem_or_eq_of_mem_set hmem with hold | rfl
    · exact h.served other hold
    · exact hphase

theorem Consistent.setScanner (h : Consistent B s) {scanner : NoteScanner}
    (hscanned : ∃ height ∈ s.heights, Scanned B scanner (s.published.take height)) :
    Consistent B { s with scanner := scanner } where
  height := h.height
  within := h.within
  room := h.room
  scanned := hscanned
  served := h.served

theorem Consistent.publish (h : Consistent B s) {outputs : List Publication}
    (hroom : s.published.length + outputs.length ≤ maxLeaves) :
    Consistent B
      { s with
        published := s.published ++ outputs
        heights := (s.published.length + outputs.length) :: s.heights } where
  height := by rw [List.length_append]; exact List.mem_cons_self
  within height hmem := by
    rw [List.length_append]
    rcases List.mem_cons.mp hmem with rfl | hold
    · exact le_rfl
    · exact (h.within height hold).trans (Nat.le_add_right _ _)
  room := by rwa [List.length_append]
  scanned := by
    obtain ⟨height, hmem, hscanned⟩ := h.scanned
    refine ⟨height, List.mem_cons_of_mem _ hmem, ?_⟩
    rwa [List.take_append_of_le_length (h.within height hmem)]
  served phase hmem := by
    have hold := h.served phase hmem
    cases phase with
    | fetched fromIndex notes =>
        obtain ⟨height, hheight, hnotes⟩ := hold
        refine ⟨height, List.mem_cons_of_mem _ hheight, ?_⟩
        rwa [List.take_append_of_le_length (h.within height hheight)]
    | fetching fromIndex => trivial
    | refreshing scanned found => trivial
    | completed scanned found => trivial
    | failed => trivial

/-- A call whose turn it is takes the scanner to what the chain had when it was served. -/
theorem Consistent.resume (E : Ciphers) (viewing : Bytes) (h : Consistent B s)
    {fromIndex height : Nat} (hheight : height ∈ s.heights) {notes : List PublishedNote}
    (hnotes : notes = publishedFrom fromIndex ((s.published.take height).drop fromIndex))
    (hturn : notes = [] ∨ fromIndex = s.scanner.nextIndex) :
    ∃ found after, scanAll E B viewing notes 0 s.scanner = (.returned found, after) ∧
      ∃ height ∈ s.heights, Scanned B after (s.published.take height) := by
  obtain ⟨entered, hentered, hscanned⟩ := h.scanned
  have hlength : (s.published.take entered).length = entered := by
    rw [List.length_take, Nat.min_eq_left (h.within entered hentered)]
  by_cases hnone : notes = []
  · rw [hnone]
    exact ⟨0, s.scanner, rfl, entered, hentered, hscanned⟩
  · have hindex : fromIndex = entered := by
      rw [hturn.resolve_left hnone, hscanned.nextIndex, hlength]
    rw [hindex] at hnotes
    have hahead : entered < height := by
      by_contra hbehind
      refine hnone ?_
      have hshort : (s.published.take height).drop entered = [] := by
        rw [List.drop_eq_nil_iff, List.length_take]
        omega
      rw [hnotes, hshort]
      rfl
    have hsplit : s.published.take entered ++ (s.published.take height).drop entered =
        s.published.take height := by
      have htake : s.published.take entered = (s.published.take height).take entered := by
        rw [List.take_take, Nat.min_eq_left (Nat.le_of_lt hahead)]
      rw [htake, List.take_append_drop]
    have hroom : (s.published.take entered).length +
        ((s.published.take height).drop entered).length ≤ maxLeaves := by
      rw [← List.length_append, hsplit, List.length_take]
      exact (Nat.min_le_right _ _).trans h.room
    obtain ⟨found, after, hrun, hafter⟩ :=
      hscanned.scanAll E viewing _ hroom 0
    rw [hlength, ← hnotes] at hrun
    rw [hsplit] at hafter
    exact ⟨found, after, hrun, height, hheight, hafter⟩

/-- What one event preserves, if the call it is about is in its turn. -/
theorem Consistent.step (h : Consistent B s) {event : Event} (hturn : InTurn s event) :
    Consistent B (NoteScanner.step E B viewing nullifierFor s event) := by
  cases event with
  | publish outputs =>
      simp only [NoteScanner.step]
      split
      case isTrue hroom => exact h.publish hroom
      case isFalse => exact h
  | begin =>
      refine ⟨h.height, h.within, h.room, h.scanned, fun phase hmem => ?_⟩
      rcases List.mem_append.mp hmem with hold | hnew
      · exact h.served phase hold
      · rw [List.mem_singleton.mp hnew]
        trivial
  | serve call =>
      simp only [NoteScanner.step]
      split
      case h_1 fromIndex hcall =>
        exact h.setCall call (.fetched fromIndex _)
          ⟨_, h.height, by rw [List.take_length]⟩
      case h_2 => exact h
  | reject call =>
      simp only [NoteScanner.step]
      split
      case h_1 => exact h.setCall call _ trivial
      case h_2 => exact h.setCall call _ trivial
      case h_3 => exact h
  | resume call =>
      simp only [NoteScanner.step]
      split
      case h_1 fromIndex notes hcall =>
        obtain ⟨height, hheight, hnotes⟩ := h.served _ (List.mem_of_getElem? hcall)
        obtain ⟨found, after, hrun, hafter⟩ :=
          h.resume E viewing hheight hnotes (hturn fromIndex notes hcall)
        simp only [hrun]
        exact (h.setScanner hafter).setCall call _ trivial
      case h_2 => exact h
  | refresh call onChain =>
      simp only [NoteScanner.step]
      split
      case h_1 scanned found hcall =>
        obtain ⟨height, hheight, hscanned⟩ := h.scanned
        exact (h.setScanner ⟨height, hheight, hscanned.refreshSpent nullifierFor onChain⟩).setCall
          call _ trivial
      case h_2 => exact h

theorem Consistent.run {events : List Event} (h : Consistent B s)
    (hturns : AllInTurn E B viewing nullifierFor s events) :
    Consistent B (NoteScanner.run E B viewing nullifierFor s events) := by
  induction events generalizing s with
  | nil => exact h
  | cons event rest ih => exact ih (h.step hturns.1) hturns.2

end Invariant

/-! ## What the scanner offers -/

section Proofs

variable {B : Builtins} {scanner : NoteScanner} {published : List Publication}

theorem hex_injective {a b : Bytes} (h : hex a = hex b) : a = b := by
  have hread := congrArg JavaScript.hexPairs h
  rwa [hex, hex, JavaScript.hexPairs_bytesToHex, JavaScript.hexPairs_bytesToHex] at hread

/-- The root of the tree of some commitments. -/
def rootOf (B : Builtins) (leaves : List Bytes) : Bytes :=
  MerkleTree.root (CommitmentTree.hash B) treeDepth (MerkleTree.filled zero leaves)

/-- The tree has these commitments, each once and at its own index, and no others. -/
structure Enters (B : Builtins) (tree : CommitmentTree) (leaves : List Bytes) : Prop where
  count : tree.count = leaves.length
  leaf : ∀ index commitment, leaves[index]? = some commitment →
    CommitmentTree.nodeAt B tree.nodes 0 index = commitment
  root : tree.root B = rootOf B leaves

/-- A proof of a commitment, in its place, against a root. -/
structure Proves (B : Builtins) (leaves : List Bytes) (commitment : Bytes)
    (proof : CommitmentTree.MerkleProof) : Prop where
  leaf : proof.leaf = commitment
  index : leaves[proof.index]? = some commitment
  position : MerkleTree.position proof.path = proof.index
  root : proof.root = rootOf B leaves
  climbs : CommitmentTree.fold B proof.leaf proof.path = proof.root

theorem enters_of_holds {tree : CommitmentTree} {leaves : List Bytes}
    (h : CommitmentTree.Holds B tree leaves) : Enters B tree leaves where
  count := h.count
  leaf index commitment hcommitment := by
    rw [h.caches 0 (Nat.zero_le _)]
    show leaves.getD index zero = commitment
    rw [List.getD_eq_getElem?_getD, hcommitment, Option.getD_some]
  root := by
    show CommitmentTree.nodeAt B tree.nodes treeDepth 0 = _
    rw [h.caches treeDepth le_rfl, MerkleTree.level_root]
    rfl

/-- The proof of a leaf leads to the root. -/
theorem Scanned.proof (h : Scanned B scanner published) (hroom : published.length ≤ maxLeaves)
    {index : Nat} {publication : Publication} (hindex : published[index]? = some publication) :
    ∃ proof, scanner.tree.proof B index = .ok proof ∧ proof.index = index ∧
      Proves B (commitments published) publication.commitment proof := by
  have hcommitment : (commitments published)[index]? = some publication.commitment := by
    rw [commitments, List.getElem?_map, hindex, Option.map_some]
  obtain ⟨hlt, -⟩ := List.getElem?_eq_some_iff.mp hcommitment
  have hroomy : (commitments published).length ≤ maxLeaves := by
    rwa [commitments, List.length_map]
  have hslot : index < 2 ^ treeDepth := Nat.lt_of_lt_of_le hlt hroomy
  have henters := enters_of_holds h.tree
  have hleaf := henters.leaf index _ hcommitment
  have hfilled : MerkleTree.filled zero (commitments published) index = publication.commitment := by
    show (commitments published).getD index zero = _
    rw [List.getD_eq_getElem?_getD, hcommitment, Option.getD_some]
  have hpath : CommitmentTree.pathFrom B scanner.tree.nodes treeDepth 0 index =
      MerkleTree.pathFrom (CommitmentTree.nodeAt B scanner.tree.nodes) treeDepth 0 index :=
    CommitmentTree.pathFrom_eq treeDepth 0 index
  rw [h.tree.caches.pathFrom index] at hpath
  refine ⟨_, by rw [CommitmentTree.proof, if_neg (by rw [h.tree.count]; omega)], rfl, ?_⟩
  refine ⟨hleaf, hcommitment, ?_, henters.root, ?_⟩
  · rw [hpath, MerkleTree.position_pathFrom, Nat.mod_eq_of_lt hslot]
  · show MerkleTree.climb (CommitmentTree.hash B)
      (CommitmentTree.nodeAt B scanner.tree.nodes 0 index) _ = _
    rw [hleaf, hpath, ← hfilled, MerkleTree.climb_member hslot]
    exact henters.root.symm

end Proofs

/-- The tree has what the chain had at some time, and every note that the scanner takes
for its own has a proof against the root of then. -/
def Follows (B : Builtins) (s : System) : Prop :=
  ∃ height ∈ s.heights, height ≤ s.published.length ∧
    Enters B s.scanner.tree (commitments (s.published.take height)) ∧
    ∀ commitment, (s.scanner.owned.get? (hex commitment)).isSome →
      ∃ proof, s.scanner.proofFor B commitment = .ok proof ∧
        Proves B (commitments (s.published.take height)) commitment proof

namespace Sample

def publication : Publication where
  commitment := zero
  payload := []

/-- One call after another, while two notes are published. -/
def alternating : List Event :=
  [.publish [publication], .begin, .serve 0, .resume 0, .refresh 0 [], .publish [publication],
    .begin, .serve 1, .resume 1, .refresh 1 []]

/-- Two calls that ask for the same note before either enters it. -/
def overlapping : List Event :=
  [.publish [publication], .begin, .begin, .serve 0, .serve 1, .resume 0, .resume 1,
    .refresh 0 [], .refresh 1 []]

end Sample

theorem inTurn_of_fetched {s : System} {call fromIndex : Nat} {notes : List PublishedNote}
    (hcall : s.calls[call]? = some (.fetched fromIndex notes))
    (hindex : fromIndex = s.scanner.nextIndex) : InTurn s (.resume call) := by
  intro other given hgiven
  obtain ⟨rfl, rfl⟩ := Phase.fetched.inj (Option.some.inj (hcall.symm.trans hgiven))
  exact .inr hindex

end StxShield.Sdk.NoteScanner
