import StxShield.Protocol.Machine

/-!
# The books of the registry and the note manager

Two contracts record every note: the registry its commitment, the note manager
its owner and metadata.  An operation enters its notes in both books at once;
everybody else can only administer the notes that exist.
-/

namespace StxShield

open Library PrivacyRegistry

/-! ## Entries -/

/-- What an operation tells the note manager of a note it creates. -/
structure NewNote where
  noteId : Buff32
  ownerCommitment : Buff32
  metadata : Buff32

/-- The notes an operation creates, as it describes them to the note manager. -/
def Operation.notes (op : Operation) : List NewNote :=
  match op.action with
  | .shield args => [⟨args.commitment, args.ownerCommitment, args.metadata⟩]
  | .transfer args => [⟨args.newCommitment, args.newOwnerCommitment, args.newMetadata⟩]
  | .withdraw _ => []
  | .split args =>
      [⟨args.commitment1, args.ownerCommitment1, args.metadata1⟩,
        ⟨args.commitment2, args.ownerCommitment2, args.metadata2⟩]
  | .merge args => [⟨args.commitment, args.ownerCommitment, args.metadata⟩]

/-- Every operation describes exactly the notes whose commitments it registers. -/
theorem Operation.noteIds_eq (op : Operation) :
    op.notes.map NewNote.noteId = op.commitments := by
  obtain ⟨currency, action⟩ := op
  cases action <;> rfl

theorem Operation.notes_length (op : Operation) : op.notes.length = op.commitments.length := by
  rw [← op.noteIds_eq, List.length_map]

/-- The record of a note when it is registered. -/
def NewNote.record (note : NewNote) (version height : Nat) : NoteRecord where
  state := .active
  ownerCommitment := note.ownerCommitment
  version := version
  metadata := note.metadata
  registeredAt := height
  updatedAt := height

/-- Two records of a note that differ in state and `updated-at` at most. -/
structure NoteRecord.SameNote (old new : NoteRecord) : Prop where
  ownerCommitment : new.ownerCommitment = old.ownerCommitment
  version : new.version = old.version
  metadata : new.metadata = old.metadata
  registeredAt : new.registeredAt = old.registeredAt

theorem NoteRecord.SameNote.refl (record : NoteRecord) : record.SameNote record :=
  ⟨rfl, rfl, rfl, rfl⟩

theorem NoteRecord.SameNote.trans {first second third : NoteRecord} (h : first.SameNote second)
    (h' : second.SameNote third) : first.SameNote third where
  ownerCommitment := h'.ownerCommitment.trans h.ownerCommitment
  version := h'.version.trans h.version
  metadata := h'.metadata.trans h.metadata
  registeredAt := h'.registeredAt.trans h.registeredAt

/-! ## Books -/

/-- What the registry and the note manager have on record, and who may write in
the registry. -/
@[ext]
structure Books where
  commitments : List Buff32
  totalCommitments : Nat
  nullifiers : List Buff32
  totalNullifiers : Nat
  totalNotes : Nat
  authorized : Principal → Bool
  notes : DataMap Buff32 NoteRecord
  noteStatistics : NoteStatistics

def World.books (w : World) : Books where
  commitments := w.registry.leaves
  totalCommitments := w.registry.protocolStatistics.totalCommitments
  nullifiers := w.registry.ledger.nullifiers
  totalNullifiers := w.registry.protocolStatistics.totalNullifiers
  totalNotes := w.registry.protocolStatistics.totalNotes
  authorized caller := w.registry.isAuthorizedCaller caller
  notes := w.noteManager.notes
  noteStatistics := w.noteManager.noteStatistics

namespace Books

def registerCommitment (b : Books) (commitment : Buff32) : Books :=
  { b with
    commitments := b.commitments ++ [commitment]
    totalCommitments := b.totalCommitments + 1 }

def registerNullifier (b : Books) (nullifier : Buff32) : Books :=
  { b with
    nullifiers := b.nullifiers ++ [nullifier]
    totalNullifiers := b.totalNullifiers + 1 }

@[simp]
theorem registerCommitment_notes (b : Books) (commitment : Buff32) :
    (b.registerCommitment commitment).notes = b.notes := rfl

@[simp]
theorem registerNullifier_notes (b : Books) (nullifier : Buff32) :
    (b.registerNullifier nullifier).notes = b.notes := rfl

/-- A note is counted by the registry and, as an active one, by the note manager. -/
def registerNote (b : Books) (version height : Nat) (note : NewNote) : Books :=
  { b with
    totalNotes := b.totalNotes + 1
    notes := b.notes.insert note.noteId (note.record version height)
    noteStatistics :=
      { b.noteStatistics with
        totalRegistered := b.noteStatistics.totalRegistered + 1
        totalActive := b.noteStatistics.totalActive + 1 } }

/-- The books after an operation. -/
def post (b : Books) (op : Operation) (version height : Nat) : Books :=
  op.notes.foldl (fun b note => b.registerNote version height note)
    { b with
      commitments := b.commitments ++ op.commitments
      totalCommitments := b.totalCommitments + op.commitments.length
      nullifiers := b.nullifiers ++ op.nullifiers
      totalNullifiers := b.totalNullifiers + op.nullifiers.length }

/-- Entering notes changes the notes and their counts. -/
theorem registerNotes_eq (version height : Nat) (added : List NewNote) (b : Books) :
    added.foldl (fun b note => b.registerNote version height note) b =
      { b with
        totalNotes := b.totalNotes + added.length
        notes := added.foldl
          (fun notes note => notes.insert note.noteId (note.record version height)) b.notes
        noteStatistics :=
          { b.noteStatistics with
            totalRegistered := b.noteStatistics.totalRegistered + added.length
            totalActive := b.noteStatistics.totalActive + added.length } } := by
  induction added generalizing b with
  | nil => rfl
  | cons note rest ih =>
      rw [List.foldl_cons, ih]
      simp only [registerNote, List.foldl_cons, List.length_cons, Nat.add_assoc, Nat.add_comm 1]

/-- What the notes are after some were entered: the new ones, and the old ones
under the other ids. -/
theorem lookup_registerNotes (version height : Nat) {added : List NewNote}
    (hnodup : (added.map NewNote.noteId).Nodup) (notes : DataMap Buff32 NoteRecord)
    (id : Buff32) (record : NoteRecord) :
    (added.foldl (fun notes note => notes.insert note.noteId (note.record version height))
        notes).lookup id = some record ↔
      (∃ note ∈ added, note.noteId = id ∧ note.record version height = record) ∨
        id ∉ added.map NewNote.noteId ∧ notes.lookup id = some record := by
  induction added generalizing notes with
  | nil => simp
  | cons note rest ih =>
      obtain ⟨hnotin, hrest⟩ := List.nodup_cons.mp hnodup
      rw [List.foldl_cons, ih hrest]
      by_cases heq : id = note.noteId
      · subst heq
        simp only [hnotin, not_false_eq_true, true_and, List.map_cons, List.mem_cons,
          exists_eq_or_imp, not_true_eq_false, false_and, or_false,
          AList.lookup_insert, Option.some.injEq]
        exact or_comm
      · have hne : note.noteId ≠ id := fun hsame => heq hsame.symm
        simp [AList.lookup_insert_ne heq, hne, heq]

end Books

/-! ## Steps -/

/-- One change of the books.  `H` is the history of the run it belongs to. -/
inductive BookStep (H : List Event) : Books → Books → Prop where
  | post {b : Books} {op : Operation} {circuitVersion version height : Nat}
      (hcompleted : Event.completed op circuitVersion ∈ H)
      (hnodup : (op.notes.map NewNote.noteId).Nodup)
      (hfresh : ∀ note ∈ op.notes, b.notes.lookup note.noteId = none) :
      BookStep H b (b.post op version height)
  /-- A note is frozen, reactivated or deprecated. -/
  | administer {b : Books} {id : Buff32} {record : NoteRecord} {newState : NoteState}
      {height : Nat} {stats : NoteStatistics} (hlookup : b.notes.lookup id = some record)
      (hstate : newState = .frozen ∨ newState = .active ∨ newState = .deprecated)
      (hstats : stats.totalRegistered = b.noteStatistics.totalRegistered) :
      BookStep H b
        { b with
          notes := b.notes.insert id { record with state := newState, updatedAt := height }
          noteStatistics := stats }
  /-- The allowlist changes; only the named caller can join it. -/
  | allowlist {b : Books} {authorized : Principal → Bool}
      (hjoin : ∀ who, authorized who → b.authorized who ∨ ∃ ctx registered,
        Event.called ctx (.privacyRegistry (.addAuthorizedCaller who)) registered ∈ H) :
      BookStep H b { b with authorized := authorized }
  /-- Whatever an authorised caller outside the protocol does. -/
  | foreign {b b' : Books} {who : Principal} (hwho : who.isProtocol = false)
      (hauth : b.authorized who) : BookStep H b b'

abbrev BookSteps (H : List Event) : Books → Books → Prop := Relation.ReflTransGen (BookStep H)

/-- A step of a run is a step of any longer run. -/
theorem BookStep.mono {H H' : List Event} (hH : H ⊆ H') {b b' : Books} (h : BookStep H b b') :
    BookStep H' b b' := by
  cases h with
  | post hcompleted hnodup hfresh => exact .post (hH hcompleted) hnodup hfresh
  | administer hlookup hstate hstats => exact .administer hlookup hstate hstats
  | allowlist hjoin =>
      refine .allowlist fun who hwho => (hjoin who hwho).imp_right ?_
      rintro ⟨ctx, registered, hcalled⟩
      exact ⟨ctx, registered, hH hcalled⟩
  | foreign hwho hauth => exact .foreign hwho hauth

/-! ## What the books always say -/

/-- The authorised callers are the protocol's own contracts. -/
def Books.Guarded (b : Books) : Prop := ∀ who, b.authorized who → who.isProtocol = true

/-- The two books agree, and the counts are those of the entries. -/
structure Books.Agree (b : Books) : Prop where
  guarded : b.Guarded
  notes : ∀ id, id ∈ b.notes ↔ id ∈ b.commitments
  totalCommitments : b.totalCommitments = b.commitments.length
  totalNullifiers : b.totalNullifiers = b.nullifiers.length
  totalNotes : b.totalNotes = b.totalCommitments
  totalRegistered : b.noteStatistics.totalRegistered = b.totalNotes

variable {H : List Event} {b b' : Books}

theorem DataMap.mem_iff_lookup {K V : Type} [DecidableEq K] {map : DataMap K V} {key : K} :
    key ∈ map ↔ ∃ value, map.lookup key = some value := by
  rw [← AList.lookup_isSome, Option.isSome_iff_exists]

namespace Books.Agree

theorem mem_registerNotes (version height : Nat) (added : List NewNote)
    (notes : DataMap Buff32 NoteRecord) (id : Buff32) :
    id ∈ added.foldl (fun notes note => notes.insert note.noteId (note.record version height))
        notes ↔ id ∈ notes ∨ id ∈ added.map NewNote.noteId := by
  induction added generalizing notes with
  | nil => simp
  | cons note rest ih =>
      rw [List.foldl_cons, ih, AList.mem_insert, List.map_cons, List.mem_cons]
      tauto

theorem post (h : b.Agree) (op : Operation) (version height : Nat) :
    (b.post op version height).Agree := by
  unfold Books.post
  rw [Books.registerNotes_eq]
  refine
    { guarded := h.guarded
      notes := fun id => ?_
      totalCommitments := ?_
      totalNullifiers := ?_
      totalNotes := ?_
      totalRegistered := ?_ }
  · rw [mem_registerNotes, op.noteIds_eq, List.mem_append, h.notes id]
  · rw [List.length_append, ← h.totalCommitments]
  · rw [List.length_append, ← h.totalNullifiers]
  · rw [op.notes_length, h.totalNotes]
  · rw [h.totalRegistered]

/-- Every change of the books keeps them in agreement. -/
theorem step (hguarded : StxShield.Guarded H) (h : b.Agree) (hstep : BookStep H b b') :
    b'.Agree := by
  cases hstep with
  | post => exact h.post _ _ _
  | @administer id record newState height stats hlookup hstate hstats =>
      have hmem : id ∈ b.notes := DataMap.mem_iff_lookup.mpr ⟨record, hlookup⟩
      refine { h with notes := fun other => ?_, totalRegistered := hstats.trans h.totalRegistered }
      rw [AList.mem_insert, ← h.notes other]
      exact or_iff_right_of_imp fun heq => heq ▸ hmem
  | allowlist hjoin =>
      refine { h with guarded := fun who hwho => ?_ }
      rcases hjoin who hwho with hold | ⟨ctx, registered, hcalled⟩
      · exact h.guarded who hold
      · exact hguarded.authorized _ _ _ hcalled
  | foreign hwho hauth =>
      rw [h.guarded _ hauth] at hwho
      cases hwho

theorem run (hguarded : StxShield.Guarded H) (h : b.Agree) (hsteps : BookSteps H b b') :
    b'.Agree := by
  induction hsteps with
  | refl => exact h
  | tail _ hstep ih => exact ih.step hguarded hstep

end Books.Agree

/-! ## What becomes of a note -/

/-- A registered note stays, with everything but its state and `updated-at`. -/
theorem BookStep.sameNote (hguarded : b.Guarded) (hstep : BookStep H b b') {id : Buff32}
    {record : NoteRecord} (hlookup : b.notes.lookup id = some record) :
    ∃ record', b'.notes.lookup id = some record' ∧ record.SameNote record' := by
  cases hstep with
  | @post op circuitVersion version height hcompleted hnodup hfresh =>
      refine ⟨record, ?_, .refl record⟩
      rw [Books.post, Books.registerNotes_eq]
      refine (Books.lookup_registerNotes version height hnodup _ _ _).mpr (.inr ⟨?_, hlookup⟩)
      intro hmem
      obtain ⟨note, hnote, rfl⟩ := List.mem_map.mp hmem
      rw [hfresh note hnote] at hlookup
      cases hlookup
  | @administer other old newState height stats hother hstate hstats =>
      by_cases heq : id = other
      · subst heq
        obtain rfl := Option.some.inj (hlookup.symm.trans hother)
        exact ⟨_, AList.lookup_insert _, rfl, rfl, rfl, rfl⟩
      · exact ⟨record, (AList.lookup_insert_ne heq).trans hlookup, .refl record⟩
  | allowlist => exact ⟨record, hlookup, .refl record⟩
  | foreign hwho hauth =>
      rw [hguarded _ hauth] at hwho
      cases hwho

theorem BookSteps.sameNote (hH : Guarded H) (h : b.Agree) (hsteps : BookSteps H b b')
    {id : Buff32} {record : NoteRecord} (hlookup : b.notes.lookup id = some record) :
    ∃ record', b'.notes.lookup id = some record' ∧ record.SameNote record' := by
  induction hsteps with
  | refl => exact ⟨record, hlookup, .refl record⟩
  | tail hsteps hstep ih =>
      obtain ⟨mid, hmid, hsame⟩ := ih
      obtain ⟨record', hrecord', hsame'⟩ := hstep.sameNote (h.run hH hsteps).guarded hmid
      exact ⟨record', hrecord', hsame.trans hsame'⟩

/-- Every note in the books was described by a completed operation, and nobody
has marked it spent or withdrawn. -/
structure Books.Described (H : List Event) (b : Books) : Prop where
  operation : ∀ id record, b.notes.lookup id = some record →
    ∃ op circuitVersion, Event.completed op circuitVersion ∈ H ∧ ∃ note ∈ op.notes,
      note.noteId = id ∧ record.ownerCommitment = note.ownerCommitment ∧
        record.metadata = note.metadata
  unspent : ∀ id record, b.notes.lookup id = some record →
    record.state ≠ .spent ∧ record.state ≠ .withdrawn

namespace Books.Described

theorem step (hguarded : b.Guarded) (h : b.Described H) (hstep : BookStep H b b') :
    b'.Described H := by
  cases hstep with
  | @post op circuitVersion version height hcompleted hnodup hfresh =>
      have hcases {id : Buff32} {record : NoteRecord}
          (hlookup : (b.post op version height).notes.lookup id = some record) :
          (∃ note ∈ op.notes, note.noteId = id ∧ note.record version height = record) ∨
            b.notes.lookup id = some record := by
        rw [Books.post, Books.registerNotes_eq] at hlookup
        exact ((Books.lookup_registerNotes version height hnodup _ _ _).mp hlookup).imp_right
          And.right
      refine ⟨fun id record hlookup => ?_, fun id record hlookup => ?_⟩
      · rcases hcases hlookup with ⟨note, hnote, hid, rfl⟩ | hold
        · exact ⟨op, circuitVersion, hcompleted, note, hnote, hid, rfl, rfl⟩
        · exact h.operation id record hold
      · rcases hcases hlookup with ⟨note, hnote, hid, rfl⟩ | hold
        · exact ⟨nofun, nofun⟩
        · exact h.unspent id record hold
  | @administer other old newState height stats hother hstate hstats =>
      refine ⟨fun id record hlookup => ?_, fun id record hlookup => ?_⟩
      · by_cases heq : id = other
        · subst heq
          obtain rfl := Option.some.inj ((AList.lookup_insert _).symm.trans hlookup)
          exact h.operation id old hother
        · exact h.operation id record ((AList.lookup_insert_ne heq).symm.trans hlookup)
      · by_cases heq : id = other
        · subst heq
          obtain rfl := Option.some.inj ((AList.lookup_insert _).symm.trans hlookup)
          rcases hstate with rfl | rfl | rfl <;> exact ⟨nofun, nofun⟩
        · exact h.unspent id record ((AList.lookup_insert_ne heq).symm.trans hlookup)
  | allowlist => exact ⟨h.operation, h.unspent⟩
  | foreign hwho hauth =>
      rw [hguarded _ hauth] at hwho
      cases hwho

theorem run (hguarded : StxShield.Guarded H) (hagree : b.Agree) (h : b.Described H)
    (hsteps : BookSteps H b b') : b'.Described H := by
  induction hsteps with
  | refl => exact h
  | tail hsteps hstep ih => exact ih.step (hagree.run hguarded hsteps).guarded hstep

end Books.Described

end StxShield
