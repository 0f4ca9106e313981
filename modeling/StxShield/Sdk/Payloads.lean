import StxShield.Sdk.Operations

/-!
# Payloads of notes

The blinding of a note is in its payload only, encrypted to its owner.  Registering payloads
and consuming notes add to what the API holds, and change no ciphertext in the vault; how
far they come depends on where the process goes down.
-/

namespace StxShield.Sdk

open Library JavaScript Circuit Async

/-! ## Payloads -/

/-- A note's commitment, and its encrypted payload. -/
abbrev Payload : Type := String × String

namespace Client

/-- The ciphertext in the vault under a commitment. -/
def vaulted (client : Client) (commitment : String) : Option String :=
  (client.vault.bind fun vault => vault.lookup commitment).map PersistedNote.ciphertext

/-- The payload is registered on the API, or in the vault. -/
def Holds (client : Client) (payload : Payload) : Prop :=
  payload ∈ client.api ∨ client.vaulted payload.1 = some payload.2

instance (client : Client) (payload : Payload) : Decidable (client.Holds payload) :=
  inferInstanceAs (Decidable (payload ∈ client.api ∨ client.vaulted payload.1 = some payload.2))

/-- One of the payloads made for the commitment is held. -/
def Finds (client : Client) (payloads : List Payload) (commitment : String) : Prop :=
  ∃ payload ∈ payloads, payload.1 = commitment ∧ client.Holds payload

instance (client : Client) (payloads : List Payload) (commitment : String) :
    Decidable (client.Finds payloads commitment) :=
  inferInstanceAs (Decidable (∃ payload ∈ payloads, payload.1 = commitment ∧ client.Holds payload))

/-- Nothing that is held is lost, and payloads come under these commitments only. -/
structure Touches (commitments : List String) (client after : Client) : Prop where
  api : ∀ payload ∈ client.api, payload ∈ after.api
  others : ∀ payload ∈ after.api, payload ∈ client.api ∨ payload.1 ∈ commitments
  vaulted : after.vaulted = client.vaulted
  vault : after.vault.isSome = client.vault.isSome
  authenticated : after.authenticated = client.authenticated

namespace Touches

variable {commitments : List String} {first second third client : Client}

theorem refl (client : Client) : Touches commitments client client :=
  ⟨fun _ h => h, fun _ h => .inl h, rfl, rfl, rfl⟩

theorem trans (h : Touches commitments first second) (h' : Touches commitments second third) :
    Touches commitments first third where
  api payload hmem := h'.api payload (h.api payload hmem)
  others payload hmem := (h'.others payload hmem).elim (h.others payload) .inr
  vaulted := h'.vaulted.trans h.vaulted
  vault := h'.vault.trans h.vault
  authenticated := h'.authenticated.trans h.authenticated

theorem mem_api {payload : Payload} (h : Touches [] first second) :
    payload ∈ second.api ↔ payload ∈ first.api := by
  constructor
  · intro hmem
    rcases h.others payload hmem with hold | hnone
    · exact hold
    · cases hnone
  · exact h.api payload

theorem mono {more : List String} (h : Touches commitments first second)
    (hmore : commitments ⊆ more) : Touches more first second :=
  { h with others := fun payload hmem => (h.others payload hmem).imp id (@hmore _) }

variable {α β : Type} {m : Async Client α} {next : α → Async Client β}

theorem bind (hm : Within (Touches commitments) m)
    (hnext : ∀ value, Within (Touches commitments) (next value)) :
    Within (Touches commitments) (m >>= next) :=
  within_bind trans hm hnext

/-- A failure may be passed over. -/
theorem passed {attempt : Async Client Unit} (h : Within (Touches commitments) attempt) :
    Within (Touches commitments) (recover attempt fun _ => pure ()) :=
  within_recover (R := Touches commitments) trans h fun _ => within_pure refl ()

end Touches

/-- Setting the flag in the vault does not touch a ciphertext. -/
theorem vaulted_flagSpent (client : Client) (commitment : String) :
    (client.flagSpent commitment).vaulted = client.vaulted := by
  funext other
  unfold vaulted flagSpent
  cases client.vault with
  | none => rfl
  | some vault =>
      simp only [Option.map_some, Option.bind_some]
      cases hkept : vault.lookup commitment with
      | none => rfl
      | some kept =>
          dsimp only
          by_cases hsame : other = commitment
          · rw [hsame, AList.lookup_insert, hkept]
            rfl
          · rw [AList.lookup_insert_ne hsame]

theorem touches_flagSpent {commitments : List String} (client : Client) (commitment : String) :
    client.Touches commitments (client.flagSpent commitment) where
  api _ h := h
  others _ h := .inl h
  vaulted := client.vaulted_flagSpent commitment
  vault := Option.isSome_map ..
  authenticated := rfl

/-- A payload arrives at the API a number of times. -/
def registered (client : Client) (writes : Nat) (payload : Payload) : Client :=
  { client with api := client.api ++ List.replicate writes payload }

theorem mem_registered {client : Client} {writes : Nat} {payload found : Payload} :
    found ∈ (client.registered writes payload).api ↔
      found ∈ client.api ∨ 0 < writes ∧ found = payload := by
  rw [registered, List.mem_append, List.mem_replicate, Nat.pos_iff_ne_zero]

theorem touches_registered {commitments : List String} {payload : Payload}
    (h : payload.1 ∈ commitments) (client : Client) (writes : Nat) :
    client.Touches commitments (client.registered writes payload) where
  api _ hmem := mem_registered.mpr (.inl hmem)
  others found hmem := by
    rcases mem_registered.mp hmem with hold | ⟨-, rfl⟩
    · exact .inl hold
    · exact .inr h
  vaulted := rfl
  vault := rfl
  authenticated := rfl

end Client

/-! ## Registering a payload -/

/-- What registering a payload comes to: how often the API has written it, and whether the
client hears of an end. -/
structure Registration where
  writes : Nat
  ending : Ending Unit

def registration (answers : Nat → ApiAnswer) : Nat → Nat → Registration
  | 0, _ => ⟨0, .returned ()⟩
  | remaining + 1, attempt =>
      match answers attempt with
      | .accepted => ⟨1, .returned ()⟩
      | .failed written message =>
          let rest :=
            if remaining = 0 then ⟨0, .thrown message⟩
            else registration answers remaining (attempt + 1)
          ⟨written.toNat + rest.writes, rest.ending⟩
      | .unauthorized message => ⟨0, .thrown message⟩
      | .crashed written => ⟨written.toNat, .crashed⟩

section Registering

variable {K : Packages} {commitment ciphertext : String} {answers : Nat → ApiAnswer}
  {remaining attempt : Nat} {client : Client}

theorem registerIf_eq (written : Bool) :
    registerIf written commitment ciphertext client =
      client.registered written.toNat (commitment, ciphertext) := by
  cases written with
  | true => rfl
  | false =>
      change client = { client with api := client.api ++ [] }
      rw [List.append_nil]

theorem registered_registered {writes more : Nat} {payload : Payload} :
    (client.registered writes payload).registered more payload =
      client.registered (writes + more) payload := by
  unfold Client.registered
  rw [List.append_assoc, List.replicate_append_replicate]

theorem registerNote_eq :
    registerNote commitment ciphertext answers remaining attempt client =
      ((registration answers remaining attempt).ending,
        client.registered (registration answers remaining attempt).writes
          (commitment, ciphertext)) := by
  induction remaining generalizing attempt client with
  | zero =>
      have hnone : client = client.registered 0 (commitment, ciphertext) := registerIf_eq false
      exact congrArg (Prod.mk (Ending.returned ())) hnone
  | succ remaining ih =>
      unfold registration registerNote
      cases answers attempt with
      | accepted => rfl
      | unauthorized message =>
          exact congrArg (Prod.mk (Ending.thrown message)) (registerIf_eq false)
      | crashed written =>
          exact congrArg (Prod.mk Ending.crashed) (registerIf_eq written)
      | failed written message =>
          dsimp only
          rw [modify_bind, registerIf_eq]
          by_cases hlast : remaining = 0
          · rw [if_pos hlast, if_pos hlast]
            rfl
          · rw [if_neg hlast, if_neg hlast, ih, registered_registered]

/-- What the API holds after a session, if there is one, has registered a payload. -/
def Client.told (client : Client) (answers : Nat → ApiAnswer) (payload : Payload) : Client :=
  if client.authenticated then
    client.registered (registration answers apiRetries 0).writes payload
  else client

theorem Client.touches_told {commitments : List String} {payload : Payload}
    (h : payload.1 ∈ commitments) (client : Client) :
    client.Touches commitments (client.told answers payload) := by
  unfold told
  split
  case isTrue => exact touches_registered h client _
  case isFalse => exact .refl client

theorem told_authenticated {payload : Payload} :
    (client.told answers payload).authenticated = client.authenticated :=
  (client.touches_told (List.mem_singleton_self _)).authenticated

section Storing

variable {note : ShieldNote} {leafIndex : Nat} {viewingPk : Bytes} {nonce : Int}

theorem storeCiphertext_of_alive
    (h : client.authenticated = true → (registration answers apiRetries 0).ending ≠ .crashed) :
    storeCiphertext K note leafIndex viewingPk nonce answers client =
      (.returned (ciphertextOf K note leafIndex viewingPk nonce),
        client.told answers (note.commitment, ciphertextOf K note leafIndex viewingPk nonce)) := by
  unfold storeCiphertext Client.told
  rw [get_bind]
  dsimp only
  by_cases hsession : client.authenticated = true
  · rw [if_pos hsession, if_pos hsession]
    rw [bind_of_returned (passed_of_alive (by rw [registerNote_eq]; exact h hsession)),
      registerNote_eq]
    rfl
  · rw [if_neg hsession, if_neg hsession]
    rfl

theorem storeCiphertext_of_crashed (hsession : client.authenticated = true)
    (h : (registration answers apiRetries 0).ending = .crashed) :
    storeCiphertext K note leafIndex viewingPk nonce answers client =
      (.crashed,
        client.told answers (note.commitment, ciphertextOf K note leafIndex viewingPk nonce)) := by
  unfold storeCiphertext Client.told
  rw [get_bind]
  dsimp only
  rw [if_pos hsession, if_pos hsession]
  rw [bind_apply, passed_of_crashed (by rw [registerNote_eq]; exact h), registerNote_eq]

end Storing

/-! ## Consuming an input -/

/-- The process outlives what is awaited for a spent note. -/
def ConsumeAnswers.Survived (answers : ConsumeAnswers) (note : ShieldNote) (client : Client) :
    Prop :=
  (client.vault.isSome = true → answers.setSpent ≠ .crashed) ∧
    (client.authenticated = true →
      (note.ciphertext ≠ "" → (registration answers.register apiRetries 0).ending ≠ .crashed) ∧
      (note.ciphertext = "" ∨ (registration answers.register apiRetries 0).ending = .returned () →
        answers.markSpent ≠ .crashed))

theorem survived_iff {note : ShieldNote} {answers : ConsumeAnswers} {after : Client}
    {commitments : List String} (h : client.Touches commitments after) :
    answers.Survived note after ↔ answers.Survived note client := by
  unfold ConsumeAnswers.Survived
  rw [h.vault, h.authenticated]

/-- Marking a note spent on the API. -/
def report (authenticated : Bool) (note : ShieldNote) (answers : ConsumeAnswers) :
    Async Client Unit := do
  if authenticated then
    recover (do
      if note.ciphertext ≠ "" then
        registerNote note.commitment note.ciphertext answers.register apiRetries 0
      await answers.markSpent) fun _ => pure ()

theorem report_returned {note : ShieldNote} {answers : ConsumeAnswers} {authenticated : Bool} :
    (report authenticated note answers client).1 = .returned () ↔
      (authenticated = true →
        (note.ciphertext ≠ "" → (registration answers.register apiRetries 0).ending ≠ .crashed) ∧
        (note.ciphertext = "" ∨ (registration answers.register apiRetries 0).ending = .returned () →
          answers.markSpent ≠ .crashed)) := by
  unfold report
  cases authenticated with
  | false => simp
  | true =>
      rw [if_pos rfl, passed_returned_iff]
      by_cases hempty : note.ciphertext = ""
      · rw [if_neg (not_not_intro hempty)]
        simp [hempty, await]
      · rw [if_pos hempty, bind_apply, registerNote_eq]
        cases (registration answers.register apiRetries 0).ending with
        | returned => simp [hempty, await]
        | thrown message => simp [hempty]
        | crashed => simp [hempty]

theorem touches_report {commitments : List String} {note : ShieldNote}
    (hnote : note.commitment ∈ commitments) (authenticated : Bool) (answers : ConsumeAnswers) :
    Within (Client.Touches commitments) (report authenticated note answers) := by
  have hregister : Within (Client.Touches commitments)
      (registerNote note.commitment note.ciphertext answers.register apiRetries 0) := by
    intro client
    rw [registerNote_eq]
    exact Client.touches_registered hnote client _
  have hmark : Within (Client.Touches commitments) (await answers.markSpent) :=
    within_await Client.Touches.refl _
  unfold report
  split
  case isTrue =>
    refine Client.Touches.passed ?_
    split
    case isTrue => exact Client.Touches.bind hregister fun _ => hmark
    case isFalse => exact hmark
  case isFalse => exact within_pure Client.Touches.refl ()

theorem consume_eq (note : ShieldNote) (answers : ConsumeAnswers) :
    consume note answers client =
      ((do
        if client.vault.isSome then
          recover (do
            await answers.setSpent
            modify fun client => client.flagSpent note.commitment) fun _ => pure ()
        report client.authenticated note answers) : Async Client Unit)
        (client.markSpent note.commitment) := by
  unfold consume report
  rw [modify_bind, get_bind]
  rfl

theorem consume_returned {note : ShieldNote} {answers : ConsumeAnswers} :
    (consume note answers client).1 = .returned () ↔ answers.Survived note client := by
  rw [consume_eq, ConsumeAnswers.Survived]
  cases hvault : client.vault.isSome with
  | false =>
      simp only [Bool.false_eq_true, if_false, false_implies, true_and]
      exact report_returned
  | true =>
      simp only [if_true, true_implies]
      cases answers.setSpent with
      | returned => exact report_returned.trans (by simp)
      | thrown message => exact report_returned.trans (by simp)
      | crashed => exact iff_of_false (fun h => by cases h) (fun h => h.1 rfl)

theorem touches_consume {commitments : List String} {note : ShieldNote}
    (hnote : note.commitment ∈ commitments) (answers : ConsumeAnswers) :
    Within (Client.Touches commitments) (consume note answers) := by
  intro client
  rw [consume_eq]
  have hreport := touches_report hnote client.authenticated answers
  have hmarked : client.Touches commitments (client.markSpent note.commitment) :=
    { Client.Touches.refl client with }
  refine hmarked.trans ?_
  split
  case isTrue =>
    refine Client.Touches.bind (Client.Touches.passed ?_) (fun _ => hreport) _
    exact Client.Touches.bind (within_await Client.Touches.refl _) fun _ =>
      within_modify fun client => client.touches_flagSpent _
  case isFalse => exact hreport _

/-- The process outlives marking all the inputs. -/
def SurvivedAll (answers : Nat → ConsumeAnswers) (client : Client) :
    Nat → List ShieldNote → Prop
  | _, [] => True
  | i, note :: rest => (answers i).Survived note client ∧ SurvivedAll answers client (i + 1) rest

theorem survivedAll_iff {answers : Nat → ConsumeAnswers} {i : Nat} {notes : List ShieldNote}
    {after : Client} {commitments : List String} (h : client.Touches commitments after) :
    SurvivedAll answers after i notes ↔ SurvivedAll answers client i notes := by
  induction notes generalizing i with
  | nil => exact Iff.rfl
  | cons note rest ih => exact and_congr (survived_iff h) ih

theorem consumeAll_returned {answers : Nat → ConsumeAnswers} {i : Nat} {notes : List ShieldNote} :
    (consumeAll answers i notes client).1 = .returned () ↔ SurvivedAll answers client i notes := by
  induction notes generalizing i client with
  | nil => exact iff_of_true rfl trivial
  | cons note rest ih =>
      unfold consumeAll SurvivedAll
      have htouches : client.Touches [note.commitment] (consume note (answers i) client).2 :=
        touches_consume (List.mem_singleton_self _) (answers i) client
      by_cases hreturned : (consume note (answers i) client).1 = .returned ()
      · rw [bind_of_returned (Prod.ext hreturned rfl), ih, survivedAll_iff htouches,
          and_iff_right (consume_returned.mp hreturned)]
      · refine iff_of_false ?_ fun h => hreturned (consume_returned.mpr h.1)
        exact (bind_of_stopped fun _ => hreturned).1 ()

theorem touches_consumeAll {commitments : List String} {notes : List ShieldNote}
    (hnotes : ∀ note ∈ notes, note.commitment ∈ commitments) (answers : Nat → ConsumeAnswers)
    (i : Nat) : Within (Client.Touches commitments) (consumeAll answers i notes) := by
  induction notes generalizing i with
  | nil => exact within_pure Client.Touches.refl ()
  | cons note rest ih =>
      refine Client.Touches.bind (touches_consume (hnotes note List.mem_cons_self) _) fun _ => ?_
      exact ih (fun other hother => hnotes other (List.mem_cons_of_mem _ hother)) (i + 1)

end Registering

/-! ## Storing the outputs -/

/-- The payloads of the outputs. -/
def payloadsOf (K : Packages) (replies : OperationReplies) (key : Bytes) :
    Nat → List (ShieldNote × Nat) → List Payload
  | _, [] => []
  | k, (note, leaf) :: rest =>
      (note.commitment, ciphertextOf K note leaf key (replies.nonce k)) ::
        payloadsOf K replies key (k + 1) rest

section Outputs

variable (replies : OperationReplies) (authenticated : Bool) (interrupted : Nat → Bool)

/-- The process outlives registering an output. -/
def Outlives (k : Nat) : Prop :=
  authenticated = true →
    (registration (registrationOf replies k) apiRetries 0).ending ≠ .crashed

/-- The payload is registered on the API: the process is up when its turn comes, and the API
writes it. -/
def Registered : Nat → List Payload → Payload → Prop
  | _, [], _ => False
  | k, payload :: rest, found =>
      interrupted k = false ∧
        ((authenticated = true ∧
            0 < (registration (registrationOf replies k) apiRetries 0).writes ∧ found = payload) ∨
          Outlives replies authenticated k ∧ Registered (k + 1) rest found)

/-- The process outlives registering all of them. -/
def OutlivesAll : Nat → List Payload → Prop
  | _, [] => True
  | k, _ :: rest =>
      interrupted k = false ∧ Outlives replies authenticated k ∧ OutlivesAll (k + 1) rest

end Outputs

section Storing

variable {E : Ciphers} {K : Packages} {replies : OperationReplies} {key : Bytes}
  {interrupted : Nat → Bool} {viewingPk : Nat → Async Wallet Bytes} {wallet : Wallet}
  {outputs : List (ShieldNote × Nat)} {k : Nat}

theorem mem_told {client : Client} {payload found : Payload} :
    found ∈ (client.told (registrationOf replies k) payload).api ↔
      found ∈ client.api ∨ client.authenticated = true ∧
        0 < (registration (registrationOf replies k) apiRetries 0).writes ∧ found = payload := by
  unfold Client.told
  split
  case isTrue hsession => rw [Client.mem_registered, hsession, eq_self, true_and]
  case isFalse hsession => simp [hsession]

theorem onClient_eq {α : Type} {m : Async Client α} {ending : Ending α} {after : Client}
    (h : m wallet.client = (ending, after)) :
    onClient m wallet = (ending, { wallet with client := after }) := by
  unfold onClient zoom
  rw [h]

variable (E) (K) (key)

/-- An output that is registered while the process is up. -/
theorem encryptAndStore_of_alive (note : ShieldNote) (leaf : Nat)
    (h : Outlives replies wallet.client.authenticated k) :
    ∃ mid,
      mid.client = wallet.client.told (registrationOf replies k)
        (note.commitment, ciphertextOf K note leaf key (replies.nonce k)) ∧
      encryptAndStore E K note leaf key (replies.nonce k) (registrationOf replies k) wallet =
        (.returned (ciphertextOf K note leaf key (replies.nonce k)), mid) := by
  unfold encryptAndStore
  rw [modify_bind]
  exact ⟨_, rfl, onClient_eq (storeCiphertext_of_alive h)⟩

/-- And one that takes the process down. -/
theorem encryptAndStore_of_crashed (note : ShieldNote) (leaf : Nat)
    (h : ¬ Outlives replies wallet.client.authenticated k) :
    ∃ mid,
      mid.client = wallet.client.told (registrationOf replies k)
        (note.commitment, ciphertextOf K note leaf key (replies.nonce k)) ∧
      encryptAndStore E K note leaf key (replies.nonce k) (registrationOf replies k) wallet =
        (.crashed, mid) := by
  obtain ⟨hsession, hcrashed⟩ := Classical.not_imp.mp h
  unfold encryptAndStore
  rw [modify_bind]
  exact ⟨_, rfl, onClient_eq (storeCiphertext_of_crashed hsession (not_not.mp hcrashed))⟩

variable {E K key} (hkey : ∀ k wallet, viewingPk k wallet =
  (if interrupted k then .crashed else .returned key, wallet))
include hkey

/-- The first of the outputs is registered, and the rest if the process outlives that. -/
theorem storeOutputs_cons (E : Ciphers) (note : ShieldNote) (leaf : Nat)
    (rest : List (ShieldNote × Nat)) :
    let ciphertext := ciphertextOf K note leaf key (replies.nonce k)
    let stored := storeOutputs E K replies viewingPk k ((note, leaf) :: rest) wallet
    (interrupted k = true ∧ stored = (.crashed, wallet)) ∨
      interrupted k = false ∧ ∃ mid,
        mid.client = wallet.client.told (registrationOf replies k) (note.commitment, ciphertext) ∧
        (Outlives replies wallet.client.authenticated k ∧
            stored = (storeOutputs E K replies viewingPk (k + 1) rest >>= fun others =>
              pure (ciphertext :: others)) mid ∨
          ¬ Outlives replies wallet.client.authenticated k ∧ stored = (.crashed, mid)) := by
  intro ciphertext stored
  have hfirst := hkey k wallet
  cases hup : interrupted k with
  | true =>
      rw [hup, if_pos rfl] at hfirst
      refine .inl ⟨rfl, ?_⟩
      change storeOutputs E K replies viewingPk k ((note, leaf) :: rest) wallet = _
      unfold storeOutputs
      rw [bind_apply, hfirst]
  | false =>
      rw [hup, if_neg Bool.false_ne_true] at hfirst
      refine .inr ⟨rfl, ?_⟩
      have hstored : stored = (encryptAndStore E K note leaf key (replies.nonce k)
          (registrationOf replies k) >>= fun ciphertext =>
            storeOutputs E K replies viewingPk (k + 1) rest >>= fun others =>
              pure (ciphertext :: others)) wallet := by
        change storeOutputs E K replies viewingPk k ((note, leaf) :: rest) wallet = _
        rw [storeOutputs, bind_of_returned hfirst]
      by_cases halive : Outlives replies wallet.client.authenticated k
      · obtain ⟨mid, hmid, hreturned⟩ := encryptAndStore_of_alive E K key note leaf halive
        refine ⟨mid, hmid, .inl ⟨halive, ?_⟩⟩
        rw [hstored, bind_of_returned hreturned]
      · obtain ⟨mid, hmid, hcrashed⟩ := encryptAndStore_of_crashed E K key note leaf halive
        refine ⟨mid, hmid, .inr ⟨halive, ?_⟩⟩
        rw [hstored, bind_apply, hcrashed]

/-- One output after the other is registered, as long as the process is up. -/
theorem mem_api_storeOutputs {found : Payload} :
    found ∈ (storeOutputs E K replies viewingPk k outputs wallet).2.client.api ↔
      found ∈ wallet.client.api ∨
        Registered replies wallet.client.authenticated interrupted k
          (payloadsOf K replies key k outputs) found := by
  induction outputs generalizing k wallet with
  | nil => exact (or_false _).symm ▸ Iff.rfl
  | cons output rest ih =>
      obtain ⟨note, leaf⟩ := output
      unfold payloadsOf Registered
      rcases storeOutputs_cons hkey E note leaf rest with
        ⟨hup, h⟩ | ⟨hup, mid, hmid, ⟨halive, h⟩ | ⟨halive, h⟩⟩
      · rw [h, hup]
        simp
      · rw [h, bind_pure_snd, ih, hmid, told_authenticated, mem_told]
        simp only [hup, halive, true_and, or_assoc]
      · rw [h, hmid, mem_told]
        simp only [hup, halive, false_and, or_false, true_and]

/-- Nothing is put into the vault yet. -/
theorem storeOutputs_vault :
    (storeOutputs E K replies viewingPk k outputs wallet).2.client.vault = wallet.client.vault := by
  induction outputs generalizing k wallet with
  | nil => rfl
  | cons output rest ih =>
      obtain ⟨note, leaf⟩ := output
      have htold {client : Client} {answers : Nat → ApiAnswer} {payload : Payload} :
          (client.told answers payload).vault = client.vault := by
        unfold Client.told
        split <;> rfl
      rcases storeOutputs_cons hkey E note leaf rest with
        ⟨hup, h⟩ | ⟨hup, mid, hmid, ⟨halive, h⟩ | ⟨halive, h⟩⟩
      · rw [h]
      · rw [h, bind_pure_snd, ih, hmid, htold]
      · rw [h, hmid, htold]

/-- All outputs' ciphertexts are returned if the process outlives registering them. -/
theorem storeOutputs_of_alive
    (h : OutlivesAll replies wallet.client.authenticated interrupted k
      (payloadsOf K replies key k outputs)) :
    ∃ after, storeOutputs E K replies viewingPk k outputs wallet =
      (.returned ((payloadsOf K replies key k outputs).map Prod.snd), after) := by
  induction outputs generalizing k wallet with
  | nil => exact ⟨wallet, rfl⟩
  | cons output rest ih =>
      obtain ⟨note, leaf⟩ := output
      obtain ⟨hright, hlives, hrest⟩ := h
      rcases storeOutputs_cons hkey E note leaf rest with
        ⟨hup, h⟩ | ⟨hup, mid, hmid, ⟨halive, h⟩ | ⟨halive, h⟩⟩
      · rw [hright] at hup
        cases hup
      · rw [← told_authenticated, ← hmid] at hrest
        obtain ⟨after, hreturned⟩ := ih hrest
        refine ⟨after, ?_⟩
        rw [h, bind_of_returned hreturned]
        rfl
      · exact absurd hlives halive

theorem storeOutputs_stopped
    (h : ¬ OutlivesAll replies wallet.client.authenticated interrupted k
      (payloadsOf K replies key k outputs)) (ciphertexts : List String) :
    (storeOutputs E K replies viewingPk k outputs wallet).1 ≠ .returned ciphertexts := by
  induction outputs generalizing k wallet ciphertexts with
  | nil => exact absurd trivial h
  | cons output rest ih =>
      obtain ⟨note, leaf⟩ := output
      rcases storeOutputs_cons hkey E note leaf rest with
        ⟨hup, heq⟩ | ⟨hup, mid, hmid, ⟨halive, heq⟩ | ⟨halive, heq⟩⟩
      · rw [heq]
        exact fun hreturned => by cases hreturned
      · have hrest : ¬ OutlivesAll replies mid.client.authenticated interrupted (k + 1)
            (payloadsOf K replies key (k + 1) rest) := by
          intro hrest
          rw [hmid, told_authenticated] at hrest
          exact h ⟨hup, halive, hrest⟩
        rw [heq]
        exact (bind_of_stopped (ih hrest)).1 ciphertexts
      · rw [heq]
        exact fun hreturned => by cases hreturned

end Storing

end StxShield.Sdk
