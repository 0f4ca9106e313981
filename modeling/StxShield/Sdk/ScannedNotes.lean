import StxShield.Sdk.ScannerRuns

/-!
# What the scanner takes for its own

Whoever knows a viewing key's public half can encrypt any payload to it, and the scanner
never compares a payload with the commitment it is published with.  The notes it lists
are worth what they say exactly when the payloads published to it open their commitments.
-/

namespace StxShield.Sdk.NoteScanner

open Library JavaScript Circuit Async

/-! ## Openings -/

/-- The asset a payload is about: native without a number, else a supported one. -/
def assetBound (assetOf : Number → Option Fr) : Option Number → Option (Option Fr)
  | none => some none
  | some id => (assetOf id).map some

/-- The amount, the blinding and the key of a payload's owner open a commitment to this
coin, as the circuits open it. -/
structure OpensTo (B : Builtins) (assetOf : Number → Option Fr) (commitment : Bytes)
    (p : NotePayload) (coin : Coin) : Prop where
  commitment : encode (coin.commitment B) = commitment
  asset : assetBound assetOf p.assetId = some coin.asset
  amount : (coin.amount : Int) = p.amount
  range : coin.amount < 2 ^ 64
  blinding : (coin.note.blinding.val : Int) = p.blinding
  owner : ∃ ownerSk : Fr, (ownerSk.val : Int) = p.ownerSk ∧
    B.fixedBaseScalarMul ownerSk = coin.ownerPk

def Opens (B : Builtins) (assetOf : Number → Option Fr) (commitment : Bytes) (p : NotePayload) :
    Prop :=
  ∃ coin, OpensTo B assetOf commitment p coin

section Payloads

variable (E : Ciphers) (B : Builtins) (viewing : Bytes) (assetOf : Number → Option Fr)

/-- What the viewing key makes of a publication. -/
def opened (publication : Publication) : Option NotePayload :=
  decrypt E viewing
    { commitment := publication.commitment, leafIndex := 0, payload := publication.payload }

/-- If the viewing key decrypts the payload, it opens the commitment. -/
def Honest (publication : Publication) : Prop :=
  ∀ payload, opened E viewing publication = some payload →
    Opens B assetOf publication.commitment payload

/-- Every note that an operation publishes is honest. -/
def Event.Honest : Event → Prop
  | .publish outputs => ∀ publication ∈ outputs, NoteScanner.Honest E B viewing assetOf publication
  | _ => True

/-- The notes listed open different commitments among the published ones, and the balance
is what these are worth. -/
def Worth (s : System) : Prop :=
  ∃ holdings : List (Bytes × Coin), (holdings.map Prod.fst).Nodup ∧
    (∀ holding ∈ holdings, holding.1 ∈ commitments s.published) ∧
    List.Forall₂ (fun holding note => OpensTo B assetOf holding.1 note.toNotePayload holding.2)
      holdings s.scanner.notes ∧
    s.scanner.balance = Selection.total (fun holding => (holding.2.amount : Int)) holdings

end Payloads

/-! ## Where the notes come from -/

section Origins

variable {E : Ciphers} {B : Builtins} {viewing : Bytes} {assetOf : Number → Option Fr}
  {nullifierFor : OwnedNote → Option Bytes} {s : System}

/-- An entry kept for a publication that the viewing key decrypts. -/
def Origin (E : Ciphers) (viewing : Bytes) (published : List Publication)
    (entry : List Char × OwnedNote) : Prop :=
  ∃ publication ∈ published, entry.1 = hex publication.commitment ∧
    opened E viewing publication = some entry.2.toNotePayload

/-- Notes as the source serves them. -/
def Source (published : List Publication) (note : PublishedNote) : Prop :=
  ∃ publication ∈ published, note.commitment = publication.commitment ∧
    note.payload = publication.payload

theorem source_of_mem {published rest : List Publication} (hrest : rest ⊆ published) {index : Nat}
    {note : PublishedNote} (h : note ∈ publishedFrom index rest) : Source published note := by
  induction rest generalizing index with
  | nil => cases h
  | cons publication rest ih =>
      rcases List.mem_cons.mp h with rfl | htail
      · exact ⟨publication, hrest List.mem_cons_self, rfl, rfl⟩
      · exact ih (List.subset_of_cons_subset hrest) htail

theorem scan_origin {published : List Publication} {note : PublishedNote}
    (hsource : Source published note) :
    Within (fun before after => ∀ entry ∈ after.owned.entries,
      entry ∈ before.owned.entries ∨ Origin E viewing published entry) (scan E B viewing note) := by
  obtain ⟨publication, hmem, hcommitment, hpayload⟩ := hsource
  have hopened : decrypt E viewing note = opened E viewing publication := by
    unfold opened decrypt
    rw [hpayload]
  intro before
  unfold scan
  rw [get_bind]
  cases hinsert : before.tree.insert B note.commitment with
  | error message => exact fun entry h => .inl h
  | ok grown =>
      simp only [ok_bind, modify_bind, hopened]
      cases hresult : opened E viewing publication with
      | none => exact fun entry h => .inl h
      | some payload =>
          intro entry h
          rcases OrderedMap.mem_set.mp h with rfl | ⟨-, hold⟩
          · exact .inr ⟨publication, hmem, congrArg hex hcommitment, hresult⟩
          · exact .inl hold

theorem scanAll_origin {published : List Publication} {notes : List PublishedNote}
    (hsource : ∀ note ∈ notes, Source published note) (found : Nat) :
    Within (fun before after => ∀ entry ∈ after.owned.entries,
      entry ∈ before.owned.entries ∨ Origin E viewing published entry)
      (scanAll E B viewing notes found) := by
  induction notes generalizing found with
  | nil => exact fun before entry h => .inl h
  | cons note rest ih =>
      refine within_bind ?_ (scan_origin (hsource note List.mem_cons_self)) fun more =>
        ih (fun other hmem => hsource other (List.mem_cons_of_mem _ hmem)) (found + more)
      intro first second third hfirst hsecond entry h
      rcases hsecond entry h with hold | hnew
      · exact hfirst entry hold
      · exact .inr hnew

/-- Every entry, and every note served, comes from a publication; these are honest. -/
structure Traced (E : Ciphers) (B : Builtins) (viewing : Bytes) (assetOf : Number → Option Fr)
    (s : System) : Prop where
  honest : ∀ publication ∈ s.published, Honest E B viewing assetOf publication
  owned : ∀ entry ∈ s.scanner.owned.entries, Origin E viewing s.published entry
  served : ∀ fromIndex notes, Phase.fetched fromIndex notes ∈ s.calls →
    ∀ note ∈ notes, Source s.published note

theorem traced_start : Traced E B viewing assetOf start where
  honest _ hmem := absurd hmem List.not_mem_nil
  owned _ hmem := absurd hmem List.not_mem_nil
  served _ _ hmem := absurd hmem List.not_mem_nil

theorem Traced.setCall (h : Traced E B viewing assetOf s) (call : Nat) (phase : Phase)
    (hphase : ∀ fromIndex notes, phase = .fetched fromIndex notes →
      ∀ note ∈ notes, Source s.published note) :
    Traced E B viewing assetOf { s with calls := s.calls.set call phase } where
  honest := h.honest
  owned := h.owned
  served fromIndex notes hmem := by
    rcases List.mem_or_eq_of_mem_set hmem with hold | hnew
    · exact h.served fromIndex notes hold
    · exact hphase fromIndex notes hnew.symm

theorem Traced.setScanner (h : Traced E B viewing assetOf s) {scanner : NoteScanner}
    (howned : ∀ entry ∈ scanner.owned.entries, Origin E viewing s.published entry) :
    Traced E B viewing assetOf { s with scanner := scanner } where
  honest := h.honest
  owned := howned
  served := h.served

/-- What one event preserves. -/
theorem Traced.step (h : Traced E B viewing assetOf s) {event : Event}
    (hhonest : event.Honest E B viewing assetOf) :
    Traced E B viewing assetOf (NoteScanner.step E B viewing nullifierFor s event) := by
  cases event with
  | publish outputs =>
      simp only [NoteScanner.step]
      split
      case isFalse => exact h
      case isTrue =>
        refine ⟨fun publication hmem => ?_, fun entry hmem => ?_,
          fun fromIndex notes hmem note hnote => ?_⟩
        · rcases List.mem_append.mp hmem with hold | hnew
          · exact h.honest publication hold
          · exact hhonest publication hnew
        · obtain ⟨publication, hpublication, horigin⟩ := h.owned entry hmem
          exact ⟨publication, List.mem_append_left _ hpublication, horigin⟩
        · obtain ⟨publication, hpublication, hsource⟩ := h.served fromIndex notes hmem note hnote
          exact ⟨publication, List.mem_append_left _ hpublication, hsource⟩
  | begin =>
      refine ⟨h.honest, h.owned, fun fromIndex notes hmem => ?_⟩
      rcases List.mem_append.mp hmem with hold | hnew
      · exact h.served fromIndex notes hold
      · cases List.mem_singleton.mp hnew
  | serve call =>
      simp only [NoteScanner.step]
      split
      case h_1 fromIndex hcall =>
        refine h.setCall call _ fun other notes heq note hmem => ?_
        obtain ⟨rfl, rfl⟩ := Phase.fetched.inj heq
        exact source_of_mem (List.drop_subset _ _) hmem
      case h_2 => exact h
  | reject call =>
      simp only [NoteScanner.step]
      split
      case h_1 => exact h.setCall call _ fun _ _ heq => by cases heq
      case h_2 => exact h.setCall call _ fun _ _ heq => by cases heq
      case h_3 => exact h
  | resume call =>
      simp only [NoteScanner.step]
      split
      case h_1 fromIndex notes hcall =>
        have hsource := h.served fromIndex notes (List.mem_of_getElem? hcall)
        have hentered : ∀ entry ∈ (scanAll E B viewing notes 0 s.scanner).2.owned.entries,
            Origin E viewing s.published entry := by
          intro entry hmem
          rcases scanAll_origin hsource 0 s.scanner entry hmem with hold | hnew
          · exact h.owned entry hold
          · exact hnew
        refine (h.setScanner hentered).setCall call _ fun other given heq => ?_
        split at heq
        · cases heq
        · cases heq
      case h_2 => exact h
  | refresh call onChain =>
      simp only [NoteScanner.step]
      split
      case h_1 scanned found hcall =>
        have hmarked : ∀ entry ∈ (s.scanner.refreshSpent nullifierFor onChain).owned.entries,
            Origin E viewing s.published entry := by
          intro entry hmem
          obtain ⟨old, hold, hpayload, -⟩ := mem_refreshSpent hmem
          obtain ⟨publication, hpublication, hkey, hopened⟩ := h.owned _ hold
          exact ⟨publication, hpublication, hkey, by rw [hpayload, hopened]⟩
        exact (h.setScanner hmarked).setCall call (.completed scanned found)
          fun other given heq => by cases heq
      case h_2 => exact h

theorem Traced.run {events : List Event} (h : Traced E B viewing assetOf s)
    (hhonest : ∀ event ∈ events, event.Honest E B viewing assetOf) :
    Traced E B viewing assetOf (NoteScanner.run E B viewing nullifierFor s events) := by
  induction events generalizing s with
  | nil => exact h
  | cons event rest ih =>
      exact ih (h.step (hhonest event List.mem_cons_self))
        fun other hmem => hhonest other (List.mem_cons_of_mem _ hmem)

/-- Entries that come from honest publications open as many different commitments. -/
theorem Traced.holdings (h : Traced E B viewing assetOf s) {entries : List (List Char × OwnedNote)}
    (hentries : entries ⊆ s.scanner.owned.entries) :
    ∃ holdings : List (Bytes × Coin),
      holdings.map (fun holding => hex holding.1) = entries.map Prod.fst ∧
      (∀ holding ∈ holdings, holding.1 ∈ commitments s.published) ∧
      List.Forall₂ (fun holding note => OpensTo B assetOf holding.1 note.toNotePayload holding.2)
        holdings (entries.map Prod.snd) := by
  induction entries with
  | nil => exact ⟨[], rfl, fun _ hmem => absurd hmem List.not_mem_nil, .nil⟩
  | cons entry rest ih =>
      obtain ⟨holdings, hkeys, hpublished, hopen⟩ := ih (List.subset_of_cons_subset hentries)
      obtain ⟨publication, hpublication, hkey, hopened⟩ :=
        h.owned entry (hentries List.mem_cons_self)
      obtain ⟨coin, hcoin⟩ := h.honest publication hpublication _ hopened
      refine ⟨(publication.commitment, coin) :: holdings, ?_, ?_, .cons hcoin hopen⟩
      · rw [List.map_cons, List.map_cons, hkeys, hkey]
      · intro holding hmem
        rcases List.mem_cons.mp hmem with rfl | hrest
        · exact List.mem_map_of_mem hpublication
        · exact hpublished holding hrest

theorem Traced.worth (h : Traced E B viewing assetOf s) : Worth B assetOf s := by
  have hnotes : s.scanner.notes =
      (s.scanner.owned.entries.filter fun entry => ¬ entry.2.spent).map Prod.snd := by
    rw [notes, OrderedMap.values, List.filter_map]
    rfl
  obtain ⟨holdings, hkeys, hpublished, hopen⟩ := h.holdings
    (List.filter_sublist (p := fun entry : List Char × OwnedNote => ¬ entry.2.spent)).subset
  rw [← hnotes] at hopen
  have htotal : s.scanner.balance =
      Selection.total (fun holding => (holding.2.amount : Int)) holdings :=
    (Selection.total_eq_of_forall₂ hopen fun _ _ hopens => hopens.amount).symm
  refine ⟨holdings, ?_, hpublished, hopen, htotal⟩
  have hnodup : (holdings.map fun holding => hex holding.1).Nodup := by
    rw [hkeys]
    exact (List.filter_sublist.map Prod.fst).nodup s.scanner.owned.nodup
  have hsplit : (holdings.map fun holding => hex holding.1) = (holdings.map Prod.fst).map hex := by
    rw [List.map_map]
    rfl
  rw [hsplit] at hnodup
  exact hnodup.of_map

end Origins

/-! ## One publication -/

/-- One note is published and scanned. -/
def scannedOnce (publication : Publication) : List Event :=
  [.publish [publication], .begin, .serve 0, .resume 0]

section Once

variable (E : Ciphers) (B : Builtins) (viewing : Bytes) (nullifierFor : OwnedNote → Option Bytes)

/-- The scanner lists whatever the viewing key makes of the note. -/
theorem notes_scannedOnce (publication : Publication) :
    (run E B viewing nullifierFor start (scannedOnce publication)).scanner.notes =
      match opened E viewing publication with
      | none => []
      | some payload => [{ payload with leafIndex := 0, spent := false }] := by
  have hroom : NoteScanner.new.tree.count < maxLeaves := by decide
  obtain ⟨grown, hinsert⟩ := CommitmentTree.insert_ok (B := B) hroom publication.commitment
  show (scanAll E B viewing (publishedFrom 0 [publication]) 0 NoteScanner.new).2.notes = _
  have hopened : decrypt E viewing
      { commitment := publication.commitment, leafIndex := 0, payload := publication.payload } =
      opened E viewing publication := rfl
  simp only [publishedFrom, scanAll, scan, bind_assoc, get_bind, hinsert, ok_bind, modify_bind,
    hopened]
  cases opened E viewing publication with
  | none => rfl
  | some payload => rfl

/-- A single note is listed at its worth only if it is honest. -/
theorem honest_of_worth {assetOf : Number → Option Fr} {publication : Publication}
    (h : Worth B assetOf (run E B viewing nullifierFor start (scannedOnce publication))) :
    Honest E B viewing assetOf publication := by
  intro payload hopened
  obtain ⟨holdings, -, hpublished, hopen, -⟩ := h
  rw [notes_scannedOnce, hopened] at hopen
  cases hopen with
  | @cons holding _ rest _ hholding _ =>
      have hmem : holding.1 ∈ [publication.commitment] := hpublished holding List.mem_cons_self
      rw [List.mem_singleton.mp hmem] at hholding
      exact ⟨holding.2, hholding⟩

end Once

/-- Whatever calls of `sync` overlap, the scanner lists only notes that open their
commitments, with a balance that these are worth, as long as every published payload that
the viewing key decrypts opens its own commitment.  A single payload that does not is
enough for the contrary. -/
theorem scanned_notes_worth (E : Ciphers) (B : Builtins) (viewing : Bytes)
    (assetOf : Number → Option Fr) (nullifierFor : OwnedNote → Option Bytes) :
    (∀ events : List Event, (∀ event ∈ events, event.Honest E B viewing assetOf) →
      Worth B assetOf (run E B viewing nullifierFor start events)) ∧
    ∀ publication, Worth B assetOf (run E B viewing nullifierFor start (scannedOnce publication)) ↔
      Honest E B viewing assetOf publication := by
  have hruns : ∀ events : List Event, (∀ event ∈ events, event.Honest E B viewing assetOf) →
      Worth B assetOf (run E B viewing nullifierFor start events) :=
    fun events hhonest => (traced_start.run hhonest).worth
  refine ⟨hruns, fun publication => ⟨honest_of_worth E B viewing nullifierFor, fun hhonest => ?_⟩⟩
  apply hruns
  intro event hmem
  simp only [scannedOnce, List.mem_cons, List.not_mem_nil, or_false] at hmem
  rcases hmem with rfl | rfl | rfl | rfl
  · intro other hother
    rwa [List.mem_singleton.mp hother]
  · trivial
  · trivial
  · trivial

namespace Sample

theorem opened_sent {payload : NotePayload} (hvalid : payload.Valid) (commitment : Bytes) :
    opened Sdk.Sample.transparent Sdk.Sample.viewing
      { commitment := commitment, payload := Sdk.Sample.sent payload } = some payload := by
  obtain ⟨encrypted, hdecoded, hopened⟩ := Sdk.Sample.decode_sent hvalid
  unfold opened decrypt
  rw [hdecoded]
  exact hopened

/-- Five base units of the native asset. -/
def five : Coin where
  asset := none
  note := { amount := 5, ownerPkX := 3, ownerPkY := 0, blinding := 7 }

def honestPublication : Publication where
  commitment := encode (five.commitment Sdk.Sample.linear)
  payload := Sdk.Sample.sent Sdk.Sample.honestPayload

/-- The forged payload, published with the same commitment. -/
def forgedPublication : Publication where
  commitment := encode (five.commitment Sdk.Sample.linear)
  payload := Sdk.Sample.sent Sdk.Sample.forgedPayload

theorem honestPublication_honest :
    Honest Sdk.Sample.transparent Sdk.Sample.linear Sdk.Sample.viewing (fun _ => none) honestPublication := by
  intro payload hopened
  obtain rfl := Option.some.inj ((opened_sent Sdk.Sample.honestPayload_valid _).symm.trans hopened)
  refine ⟨five, rfl, rfl, ?_, ?_, ?_, 3, ?_, rfl⟩
  · decide +kernel
  · decide +kernel
  · decide +kernel
  · decide +kernel

end Sample

/-- An honest note is listed for what it is worth. -/
theorem scanned_notes_worth_honest :
    Worth Sample.linear (fun _ => none)
      (run Sample.transparent Sample.linear Sdk.Sample.viewing (fun _ => none) start
        (scannedOnce Sample.honestPublication)) := by
  apply (scanned_notes_worth Sample.transparent Sample.linear Sdk.Sample.viewing (fun _ => none)
    (fun _ => none)).1
  intro event hmem
  simp only [scannedOnce, List.mem_cons, List.not_mem_nil, or_false] at hmem
  rcases hmem with rfl | rfl | rfl | rfl
  · intro publication hpublication
    rw [List.mem_singleton.mp hpublication]
    exact Sample.honestPublication_honest
  · trivial
  · trivial
  · trivial

/-- A forged payload is listed with an amount that no note has. -/
theorem scanned_note_forged :
    ¬ ∀ (E : Ciphers) (B : Builtins) (viewing : Bytes) (assetOf : Number → Option Fr)
      (nullifierFor : OwnedNote → Option Bytes) (events : List Event),
      Worth B assetOf (run E B viewing nullifierFor start events) := by
  intro halways
  have hworth := halways Sample.transparent Sample.linear Sdk.Sample.viewing (fun _ => none)
    (fun _ => none) (scannedOnce Sample.forgedPublication)
  obtain ⟨coin, hcoin⟩ := honest_of_worth _ _ _ _ hworth Sdk.Sample.forgedPayload
    (Sample.opened_sent Sdk.Sample.forgedPayload_valid _)
  have hamount : (coin.amount : Int) = 10 ^ 30 := hcoin.amount
  have hrange := hcoin.range
  omega

end StxShield.Sdk.NoteScanner
