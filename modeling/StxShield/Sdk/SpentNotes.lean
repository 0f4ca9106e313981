import StxShield.Sdk.DiscoveredNotes

/-!
# Spent notes stay spent

The store remembers that a note is spent under the spelling it is kept by.  A note that is
consumed before it is in the store, or under another spelling, is not remembered.
-/

namespace StxShield.Sdk

open Library JavaScript Circuit Async

/-! ## Events -/

/-- What happens to one client's notes. -/
inductive NoteEvent where
  | add (note : ShieldNote)
  | markSpent (commitment : String)
  | remove (commitment : String)
  | persist (note : ShieldNote) (written : Bool)
  | consume (note : ShieldNote) (answers : ConsumeAnswers)
  | getNotes (replies : FeedReplies) (resolve : Option (List AssetInfo → Except String AssetInfo))

section Runs

variable (E : Ciphers) (K : Packages)

def NoteEvent.apply (client : Client) : NoteEvent → Client
  | .add note => client.add note
  | .markSpent commitment => client.markSpent commitment
  | .remove commitment => client.remove commitment
  | .persist note written => Sdk.persist note written client
  | .consume note answers => (Sdk.consume note answers client).2
  | .getNotes replies resolve => (Sdk.getNotes E K replies resolve client).2

def NoteEvent.applyAll : Client → List NoteEvent → Client
  | client, [] => client
  | client, event :: rest => applyAll (event.apply E K client) rest

/-- Notes that are added spell their commitments as the store does, notes are consumed
while they are in the store, and spent ones are not removed. -/
def NoteEvent.Tidy (client : Client) : NoteEvent → Prop
  | .add note => client.Agrees note.commitment
  | .markSpent _ => True
  | .remove commitment => ∀ stored ∈ client.store, stored.commitment = commitment →
      stored.spent = false
  | .persist _ _ => True
  | .consume note _ => note.commitment ∈ client.spellings
  | .getNotes replies _ => ∀ found, (discover E K replies client).1 = .returned found →
      client.AgreesAll found

def NoteEvent.AllTidy : Client → List NoteEvent → Prop
  | _, [] => True
  | client, event :: rest => event.Tidy E K client ∧ AllTidy (event.apply E K client) rest

end Runs

/-! ## What the operations do to the store -/

section Stores

variable {E : Ciphers} {K : Packages} {client : Client}

theorem keeps_caught {α : Type} (reply : Ending (List α)) :
    Keeps id (recover (await reply) fun _ => pure [] : Async Client (List α)) :=
  keeps_recover (keeps_await reply) fun _ => keeps_pure []

theorem keeps_getAssets (replies : FeedReplies) : Keeps id (getAssets replies) :=
  keeps_bind (keeps_await replies.assets) fun assets => keeps_pure (withNative assets)

/-- Discovery only reads. -/
theorem keeps_discover (replies : FeedReplies) : Keeps id (discover E K replies) := by
  unfold discover
  refine keeps_bind (keeps_await _) fun keys => ?_
  refine keeps_bind (keeps_caught _) fun records => ?_
  refine keeps_bind (keeps_getAssets replies) fun assets => ?_
  refine keeps_bind (keeps_caught _) fun vaultRecords => ?_
  exact keeps_orThrow _

theorem discover_of_answers {owner : OwnerKey} {viewing : Bytes} {assets : List AssetInfo}
    {records vaultRecords : List EncryptedNoteRecord} {found : List ShieldNote}
    (h : discoverNotes E K viewing owner (withNative assets) (records ++ vaultRecords) =
      .ok found) :
    discover E K
      { keys := .returned (owner, viewing)
        records := .returned records
        assets := .returned assets
        vaultRecords := .returned vaultRecords } client = (.returned found, client) := by
  show orThrow (discoverNotes E K viewing owner (withNative assets) (records ++ vaultRecords))
    client = _
  rw [h]
  rfl

/-- Reading notes adds those found, if any, and returns unspent ones only. -/
theorem getNotes_cases (E : Ciphers) (K : Packages) (client : Client) (replies : FeedReplies)
    (resolve : Option (List AssetInfo → Except String AssetInfo)) :
    ((∀ notes, (getNotes E K replies resolve client).1 ≠ .returned notes) ∧
        (getNotes E K replies resolve client).2 = client) ∨
      ∃ found, (discover E K replies client).1 = .returned found ∧
        (getNotes E K replies resolve client).2 = client.addAll found ∧
        ∀ notes, (getNotes E K replies resolve client).1 = .returned notes →
          ∀ note ∈ notes, note ∈ (client.addAll found).unspent := by
  have hclient : (discover E K replies client).2 = client := keeps_discover replies client
  unfold getNotes
  rw [bind_apply]
  generalize discover E K replies client = outcome at hclient ⊢
  obtain ⟨ending, after⟩ := outcome
  obtain rfl : after = client := hclient
  cases ending with
  | thrown message => exact .inl ⟨fun notes h => (by cases h), rfl⟩
  | crashed => exact .inl ⟨fun notes h => (by cases h), rfl⟩
  | returned found =>
      refine .inr ⟨found, rfl, ?_⟩
      simp only [modify_bind, get_bind]
      have hsorted : ∀ note ∈ newestFirst (after.addAll found).unspent,
          note ∈ (after.addAll found).unspent :=
        fun note => (List.perm_insertionSort _ _).mem_iff.mp
      cases resolve with
      | none =>
          refine ⟨rfl, fun notes hnotes note hnote => hsorted note ?_⟩
          rwa [← Ending.returned.inj hnotes] at hnote
      | some resolve =>
          refine ⟨?_, fun notes hnotes note hnote => hsorted note ?_⟩
          · have hkept := keeps_bind (keeps_getAssets replies) fun assets =>
              keeps_bind (keeps_orThrow (resolve assets)) fun asset =>
                keeps_pure ((newestFirst (after.addAll found).unspent).filter
                  fun n => sameAsset n.asset asset)
            exact hkept _
          · have hreturned := Prod.ext (y := (Ending.returned notes, _)) hnotes rfl
            simp only [getAssets, bind_assoc, pure_bind, await_bind_returned, orThrow_bind_returned,
              pure_apply, Prod.mk.injEq, Ending.returned.injEq] at hreturned
            obtain ⟨assets, -, asset, -, hfiltered, -⟩ := hreturned
            rw [← hfiltered] at hnote
            exact (List.mem_filter.mp hnote).1

theorem getNotes_of_found {replies : FeedReplies} {found : List ShieldNote}
    (h : discover E K replies client = (.returned found, client)) :
    getNotes E K replies none client =
      (.returned (newestFirst (client.addAll found).unspent), client.addAll found) := by
  unfold getNotes
  rw [bind_of_returned h]
  rfl

theorem keeps_registerNote (commitment ciphertext : String) (answers : Nat → ApiAnswer)
    (remaining attempt : Nat) :
    Keeps Client.store (registerNote commitment ciphertext answers remaining attempt) := by
  have hif : ∀ written, Keeps Client.store (modify (registerIf written commitment ciphertext)) := by
    intro written client
    cases written with
    | true => rfl
    | false => rfl
  induction remaining generalizing attempt with
  | zero => exact keeps_pure ()
  | succ remaining ih =>
      unfold registerNote
      split
      · exact keeps_modify fun _ => rfl
      · refine keeps_bind (hif _) fun _ => ?_
        split
        · exact keeps_throwing _
        · exact ih _
      · exact keeps_throwing _
      · exact keeps_bind (hif _) fun _ => keeps_await _

/-- Whatever comes of the rest, a note that is consumed is first marked in the store. -/
theorem consume_store (note : ShieldNote) (answers : ConsumeAnswers) :
    (consume note answers client).2.store = (client.markSpent note.commitment).store := by
  have hflag : Keeps Client.store (modify fun client => client.flagSpent note.commitment) :=
    keeps_modify fun _ => rfl
  have hrest : ∀ seen : Client, Keeps Client.store (do
      if seen.authenticated then
        recover (do
          if note.ciphertext ≠ "" then
            registerNote note.commitment note.ciphertext answers.register apiRetries 0
          await answers.markSpent) fun _ => pure ()) := by
    intro seen
    split
    · refine keeps_recover ?_ fun _ => keeps_pure ()
      split
      · exact keeps_bind (keeps_registerNote _ _ _ _ _) fun _ => keeps_await _
      · exact keeps_await _
    · exact keeps_pure ()
  unfold consume
  rw [modify_bind, get_bind]
  dsimp only
  split
  · refine keeps_bind (keeps_recover ?_ fun _ => keeps_pure ()) (fun _ => ?_)
      (client.markSpent note.commitment)
    · exact keeps_bind (keeps_await _) fun _ => hflag
    · exact hrest _
  · exact hrest _ (client.markSpent note.commitment)

theorem markSpent_spelling (commitment : String) {α : Type} (f : String → α) :
    ((client.markSpent commitment).store.map fun stored => f stored.commitment) =
      client.store.map fun stored => f stored.commitment := by
  unfold Client.markSpent
  rw [List.map_map]
  apply List.map_congr_left
  intro stored _
  by_cases hsame : stored.commitment = commitment
  · simp [hsame]
  · simp [hsame]

end Stores

/-! ## What stays -/

namespace Client

variable {client : Client}

/-- A note of this commitment is in the store, and spent. -/
def HasSpent (client : Client) (commitment : String) : Prop :=
  ∃ stored ∈ client.store, hexToBytes stored.commitment = hexToBytes commitment ∧
    stored.spent = true

variable {commitment : String}

theorem Distinct.markSpent (h : client.Distinct) (marked : String) :
    (client.markSpent marked).Distinct := by
  unfold Distinct
  rwa [markSpent_spelling]

/-- What is marked is spent from then on. -/
theorem hasSpent_markSpent (hknown : commitment ∈ client.spellings) :
    (client.markSpent commitment).HasSpent commitment := by
  obtain ⟨stored, hstored, hsame⟩ := List.mem_map.mp hknown
  refine ⟨{ stored with spent := true }, List.mem_map.mpr ⟨stored, hstored, if_pos hsame⟩, ?_, rfl⟩
  exact congrArg hexToBytes hsame

theorem HasSpent.markSpent (h : client.HasSpent commitment) (marked : String) :
    (client.markSpent marked).HasSpent commitment := by
  obtain ⟨stored, hstored, hsame, hspent⟩ := h
  refine ⟨_, List.mem_map_of_mem hstored, ?_, ?_⟩
  · split
    · exact hsame
    · exact hsame
  · split
    · rfl
    · exact hspent

theorem HasSpent.add (h : client.HasSpent commitment) (hdistinct : client.Distinct)
    (note : ShieldNote) : (client.add note).HasSpent commitment := by
  obtain ⟨stored, hstored, hsame, hspent⟩ := h
  obtain ⟨kept, hkept, hcommitment, hstill⟩ := hdistinct.spent_add note hstored hspent
  exact ⟨kept, hkept, by rw [hcommitment, hsame], hstill⟩

/-- Notes that are read later are added to what is spent. -/
theorem HasSpent.addAll {notes : List ShieldNote} (h : client.HasSpent commitment)
    (hdistinct : client.Distinct) (hagrees : client.AgreesAll notes) :
    (client.addAll notes).HasSpent commitment := by
  induction notes generalizing client with
  | nil => exact h
  | cons note rest ih =>
      exact ih (h.add hdistinct note) (hdistinct.add (hagrees note List.mem_cons_self).1)
        hagrees.tail

theorem HasSpent.remove (h : client.HasSpent commitment) {removed : String}
    (hunspent : ∀ stored ∈ client.store, stored.commitment = removed → stored.spent = false) :
    (client.remove removed).HasSpent commitment := by
  obtain ⟨stored, hstored, hsame, hspent⟩ := h
  refine ⟨stored, List.mem_filter.mpr ⟨hstored, decide_eq_true fun hremoved => ?_⟩, hsame, hspent⟩
  rw [hunspent stored hstored hremoved] at hspent
  cases hspent

theorem Distinct.remove (h : client.Distinct) (removed : String) :
    (client.remove removed).Distinct :=
  h.sublist (List.filter_sublist.map _)

/-- Notes that are not spent have other commitments. -/
theorem HasSpent.not_unspent (h : client.HasSpent commitment) (hdistinct : client.Distinct)
    {note : ShieldNote} (hnote : note ∈ client.unspent) :
    hexToBytes note.commitment ≠ hexToBytes commitment := by
  obtain ⟨stored, hstored, hsame, hspent⟩ := h
  obtain ⟨hmem, hunspent⟩ := List.mem_filter.mp hnote
  intro heq
  obtain rfl := hdistinct.eq hmem hstored (heq.trans hsame.symm)
  exact absurd hspent (of_decide_eq_true hunspent)

end Client

section Runs

variable {E : Ciphers} {K : Packages} {client : Client}

namespace NoteEvent

/-- What one event preserves of the store. -/
theorem Tidy.distinct {event : NoteEvent} (htidy : event.Tidy E K client)
    (h : client.Distinct) : (event.apply E K client).Distinct := by
  cases event with
  | add note => exact h.add htidy
  | markSpent commitment => exact h.markSpent commitment
  | remove commitment => exact h.remove commitment
  | persist note written =>
      cases written with
      | true => exact h
      | false => exact h
  | consume note answers =>
      show ((Sdk.consume note answers client).2.store.map _).Nodup
      rw [consume_store]
      exact h.markSpent note.commitment
  | getNotes replies resolve =>
      show (Sdk.getNotes E K replies resolve client).2.Distinct
      rcases getNotes_cases E K client replies resolve with
        ⟨-, hsame⟩ | ⟨found, hfound, hadded, -⟩
      · rw [hsame]
        exact h
      · rw [hadded]
        exact h.addAll (htidy found hfound)

theorem Tidy.hasSpent {event : NoteEvent} (htidy : event.Tidy E K client)
    (hdistinct : client.Distinct) {commitment : String} (h : client.HasSpent commitment) :
    (event.apply E K client).HasSpent commitment := by
  cases event with
  | add note => exact h.add hdistinct note
  | markSpent marked => exact h.markSpent marked
  | remove removed => exact h.remove htidy
  | persist note written =>
      cases written with
      | true => exact h
      | false => exact h
  | consume note answers =>
      show ∃ stored ∈ (Sdk.consume note answers client).2.store, _
      rw [consume_store]
      exact h.markSpent note.commitment
  | getNotes replies resolve =>
      show (Sdk.getNotes E K replies resolve client).2.HasSpent commitment
      rcases getNotes_cases E K client replies resolve with
        ⟨-, hsame⟩ | ⟨found, hfound, hadded, -⟩
      · rw [hsame]
        exact h
      · rw [hadded]
        exact h.addAll hdistinct (htidy found hfound)

theorem applyAll_append (before after : List NoteEvent) :
    applyAll E K client (before ++ after) = applyAll E K (applyAll E K client before) after := by
  induction before generalizing client with
  | nil => rfl
  | cons event rest ih => exact ih

theorem AllTidy.append {before after : List NoteEvent}
    (h : AllTidy E K client (before ++ after)) :
    AllTidy E K client before ∧ AllTidy E K (applyAll E K client before) after := by
  induction before generalizing client with
  | nil => exact ⟨trivial, h⟩
  | cons event rest ih =>
      obtain ⟨hrest, hafter⟩ := ih h.2
      exact ⟨⟨h.1, hrest⟩, hafter⟩

theorem AllTidy.distinct {events : List NoteEvent} (htidy : AllTidy E K client events)
    (h : client.Distinct) : (applyAll E K client events).Distinct := by
  induction events generalizing client with
  | nil => exact h
  | cons event rest ih => exact ih htidy.2 (htidy.1.distinct h)

theorem AllTidy.hasSpent {events : List NoteEvent} (htidy : AllTidy E K client events)
    (hdistinct : client.Distinct) {commitment : String} (h : client.HasSpent commitment) :
    (applyAll E K client events).HasSpent commitment := by
  induction events generalizing client with
  | nil => exact h
  | cons event rest ih =>
      exact ih htidy.2 (htidy.1.distinct hdistinct) (htidy.1.hasSpent hdistinct h)

end NoteEvent

end Runs

/-- Whatever happens to a client's notes, one that has been consumed is not read as unspent
again, as long as notes are consumed while they are in the store, no commitment is added in
two spellings and no spent note is removed. -/
theorem spent_note_stays_spent (E : Ciphers) (K : Packages) (client : Client)
    (hempty : client.store = []) (before after : List NoteEvent) (note : ShieldNote)
    (answers : ConsumeAnswers) (replies : FeedReplies)
    (resolve : Option (List AssetInfo → Except String AssetInfo))
    (htidy : NoteEvent.AllTidy E K client
      (before ++ .consume note answers :: (after ++ [.getNotes replies resolve])))
    (notes : List ShieldNote)
    (hread : (getNotes E K replies resolve (NoteEvent.applyAll E K client
      (before ++ .consume note answers :: after))).1 = .returned notes) :
    ∀ returned ∈ notes, hexToBytes returned.commitment ≠ hexToBytes note.commitment := by
  have hstart : client.Distinct := by
    unfold Client.Distinct
    rw [hempty]
    exact List.nodup_nil
  obtain ⟨hbefore, hconsume, hrest⟩ := htidy.append
  obtain ⟨hafter, hlast, -⟩ := hrest.append
  have hspent : ((NoteEvent.consume note answers).apply E K
      (NoteEvent.applyAll E K client before)).HasSpent note.commitment := by
    show ∃ stored ∈ (consume note answers (NoteEvent.applyAll E K client before)).2.store, _
    rw [consume_store]
    exact Client.hasSpent_markSpent hconsume
  have hmarked := hconsume.distinct (hbefore.distinct hstart)
  have hdistinct := hafter.distinct hmarked
  have hstill := hafter.hasSpent hmarked hspent
  rw [NoteEvent.applyAll_append] at hread
  have hcases := getNotes_cases E K (NoteEvent.applyAll E K ((NoteEvent.consume note answers).apply
    E K (NoteEvent.applyAll E K client before)) after) replies resolve
  rcases hcases with ⟨hnone, -⟩ | ⟨found, hfound, -, hunspent⟩
  · exact absurd hread (hnone notes)
  · intro returned hreturned
    have hagrees := hlast found hfound
    exact (hstill.addAll hdistinct hagrees).not_unspent (hdistinct.addAll hagrees)
      (hunspent notes hread returned hreturned)

namespace Sample

/-- A feed that reports the honest note as unspent. -/
def laggingFeed : FeedReplies where
  keys := .returned (ownerKey, viewing)
  records := .returned [record honestPayload]
  assets := .returned []
  vaultRecords := .returned []

def honestNote : ShieldNote := recordedNote ownerKey (record honestPayload) honestPayload none none

theorem discover_laggingFeed (client : Client) :
    discover transparent offline laggingFeed client = (.returned [honestNote], client) :=
  discover_of_answers (discoverNotes_record (record_passes _ honestPayload_valid rfl rfl rfl))

/-- A consumption of which nothing but the store hears. -/
def unheard : ConsumeAnswers where
  setSpent := .thrown ""
  register _ := .failed false ""
  markSpent := .thrown ""

end Sample

/-- A note is added, consumed and reported unspent by the feed. -/
theorem spent_note_stays_spent_reported :
    ∃ notes, (getNotes Sample.transparent Sample.offline Sample.laggingFeed none
        (NoteEvent.applyAll Sample.transparent Sample.offline Sample.fresh
          [.add Sample.honestNote, .consume Sample.honestNote Sample.unheard])).1 =
        .returned notes ∧
      ∀ returned ∈ notes,
        hexToBytes returned.commitment ≠ hexToBytes Sample.honestNote.commitment := by
  refine ⟨_, congrArg Prod.fst (getNotes_of_found (Sample.discover_laggingFeed _)), ?_⟩
  apply spent_note_stays_spent Sample.transparent Sample.offline Sample.fresh rfl
    [.add Sample.honestNote] [] Sample.honestNote Sample.unheard Sample.laggingFeed none
  · refine ⟨fun stored hstored => absurd hstored List.not_mem_nil, List.mem_cons_self, ?_, trivial⟩
    intro found hfound note hnote
    rw [Sample.discover_laggingFeed] at hfound
    obtain rfl := Ending.returned.inj hfound
    obtain rfl := List.mem_singleton.mp hnote
    refine ⟨fun stored hstored _ => ?_, fun other hother _ => ?_⟩
    · have hkept : stored ∈ (consume Sample.honestNote Sample.unheard
          (Sample.fresh.add Sample.honestNote)).2.store := hstored
      rw [consume_store] at hkept
      have hspelled := List.mem_map_of_mem (f := fun stored => stored.commitment) hkept
      rw [markSpent_spelling _ fun text => text] at hspelled
      exact List.mem_singleton.mp hspelled
    · rw [List.mem_singleton.mp hother]
  · exact congrArg Prod.fst (getNotes_of_found (Sample.discover_laggingFeed _))

/-- A note that is consumed before it is in the store is read as unspent. -/
theorem spent_note_returns :
    ¬ ∀ (E : Ciphers) (K : Packages) (client : Client), client.store = [] →
      ∀ (before after : List NoteEvent) (note : ShieldNote) (answers : ConsumeAnswers)
        (replies : FeedReplies) (resolve : Option (List AssetInfo → Except String AssetInfo))
        (notes : List ShieldNote),
        (getNotes E K replies resolve (NoteEvent.applyAll E K client
          (before ++ .consume note answers :: after))).1 = .returned notes →
        ∀ returned ∈ notes, hexToBytes returned.commitment ≠ hexToBytes note.commitment := by
  intro halways
  have hread := halways Sample.transparent Sample.offline Sample.fresh rfl [] [] Sample.honestNote
    Sample.unheard Sample.laggingFeed none _ (congrArg Prod.fst (getNotes_of_found (Sample.discover_laggingFeed _)))
  exact hread Sample.honestNote List.mem_cons_self rfl

end StxShield.Sdk
