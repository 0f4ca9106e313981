import StxShield.Sdk.Payloads

/-!
# Where the outputs are kept

A relayed operation stores the payloads of its outputs after a relayer has confirmed the
transaction, and a recipient's never in the vault; a shield forgets its note when it cannot
confirm the transaction.
-/

namespace StxShield.Sdk

open Library JavaScript Circuit Async

/-! ## The vault -/

/-- What is found of a note. -/
def ShieldNote.payload (note : ShieldNote) : Payload := (note.commitment, note.ciphertext)

namespace Client

/-- One of the payloads made for the commitment is in the vault. -/
def Vaults (client : Client) (payloads : List Payload) (commitment : String) : Prop :=
  ∃ ciphertext, (commitment, ciphertext) ∈ payloads ∧ client.vaulted commitment = some ciphertext

variable {client : Client} {payloads : List Payload} {commitment : String} {note : ShieldNote}

theorem finds_iff :
    client.Finds payloads commitment ↔
      (∃ ciphertext, (commitment, ciphertext) ∈ payloads ∧ (commitment, ciphertext) ∈ client.api) ∨
        client.Vaults payloads commitment := by
  constructor
  · rintro ⟨⟨found, ciphertext⟩, hmem, rfl, hheld | hheld⟩
    · exact .inl ⟨ciphertext, hmem, hheld⟩
    · exact .inr ⟨ciphertext, hmem, hheld⟩
  · rintro (⟨ciphertext, hmem, hheld⟩ | ⟨ciphertext, hmem, hheld⟩)
    · exact ⟨_, hmem, rfl, .inl hheld⟩
    · exact ⟨_, hmem, rfl, .inr hheld⟩

theorem isSome_persist (written : Bool) :
    (persist note written client).vault.isSome = client.vault.isSome := by
  cases written with
  | false => rfl
  | true => exact Option.isSome_map ..

theorem vaulted_persist (written : Bool) :
    (persist note written client).vaulted commitment =
      if client.vault.isSome = true ∧ written = true ∧ note.commitment = commitment then
        some note.ciphertext
      else client.vaulted commitment := by
  cases written with
  | false => simp [persist]
  | true =>
      unfold persist vaulted
      cases client.vault with
      | none => simp
      | some vault =>
          by_cases hsame : note.commitment = commitment
          · subst hsame
            simp [AList.lookup_insert]
          · simp [hsame, AList.lookup_insert_ne (Ne.symm hsame)]

/-- A note of the payloads is put into the vault. -/
theorem vaults_persist (hnote : note.payload ∈ payloads) (written : Bool) :
    (persist note written client).Vaults payloads commitment ↔
      client.Vaults payloads commitment ∨
        client.vault.isSome = true ∧ written = true ∧ note.commitment = commitment := by
  unfold Vaults
  rw [vaulted_persist]
  by_cases hput : client.vault.isSome = true ∧ written = true ∧ note.commitment = commitment
  · obtain ⟨-, -, rfl⟩ := id hput
    rw [if_pos hput]
    exact iff_of_true ⟨note.ciphertext, hnote, rfl⟩ (.inr hput)
  · rw [if_neg hput, or_iff_left hput]

end Client

/-- One of the payloads with the commitment is put into the vault. -/
def PutOf (put : Nat → Bool) : Nat → List Payload → String → Prop
  | _, [], _ => False
  | k, payload :: rest, commitment =>
      put k = true ∧ payload.1 = commitment ∨ PutOf put (k + 1) rest commitment

theorem vaults_persistAll {payloads : List Payload} {commitment : String} {put : Nat → Bool}
    {k : Nat} {notes : List ShieldNote} {client : Client}
    (hnotes : ∀ note ∈ notes, note.payload ∈ payloads) :
    (persistAll put k notes client).Vaults payloads commitment ↔
      client.Vaults payloads commitment ∨
        client.vault.isSome = true ∧ PutOf put k (notes.map ShieldNote.payload) commitment := by
  induction notes generalizing k client with
  | nil => simp [persistAll, PutOf]
  | cons note rest ih =>
      unfold persistAll
      rw [ih fun other hother => hnotes other (List.mem_cons_of_mem _ hother),
        Client.vaults_persist (hnotes note List.mem_cons_self), Client.isSome_persist, or_assoc,
        ← and_or_left]
      rfl

theorem api_persist {note : ShieldNote} {written : Bool} {client : Client} :
    (persist note written client).api = client.api := by
  cases written <;> rfl

theorem api_persistAll {put : Nat → Bool} {k : Nat} {notes : List ShieldNote} {client : Client} :
    (persistAll put k notes client).api = client.api := by
  induction notes generalizing k client with
  | nil => rfl
  | cons note rest ih => exact ih.trans api_persist

/-- Adding notes to the store is no matter of the API's or of the vault's. -/
theorem addAll_eq (client : Client) (notes : List ShieldNote) :
    ∃ store, client.addAll notes = { client with store := store } := by
  induction notes generalizing client with
  | nil => exact ⟨client.store, rfl⟩
  | cons note rest ih =>
      obtain ⟨store, hstore⟩ := ih (client.add note)
      exact ⟨store, hstore⟩

theorem map_payload_keptNotes {K : Packages} {replies : OperationReplies} {key : Bytes} {k : Nat}
    {outputs : List (ShieldNote × Nat)} (root txid : String) :
    (List.zipWith (keptNote root txid) outputs
        ((payloadsOf K replies key k outputs).map Prod.snd)).map ShieldNote.payload =
      payloadsOf K replies key k outputs := by
  induction outputs generalizing k with
  | nil => rfl
  | cons output rest ih => exact congrArg (List.cons _) ih

/-! ## What a run leaves -/

/-- Of the payloads of a run some are registered, and some go into the vault. -/
structure Leaves (start final : Client) (inputs : List String) (payloads : List Payload)
    (registers : Payload → Prop) (vaults : String → Prop) : Prop where
  registered : ∀ payload, registers payload → payload ∈ payloads ∧ payload ∈ final.api
  vaulted : ∀ commitment, vaults commitment → final.Vaults payloads commitment
  api : ∀ payload ∈ final.api, payload ∈ start.api ∨ payload.1 ∈ inputs ∨ registers payload
  vault : ∀ commitment, final.Vaults payloads commitment →
    start.Vaults payloads commitment ∨ vaults commitment

/-- Neither the API nor the vault knows the commitment, and it is not an input's. -/
structure Client.New (client : Client) (inputs : List String) (commitment : String) : Prop where
  api : ∀ payload ∈ client.api, payload.1 ≠ commitment
  vault : client.vaulted commitment = none
  inputs : commitment ∉ inputs

namespace Leaves

variable {start final : Client} {inputs : List String} {payloads : List Payload}
  {registers : Payload → Prop} {vaults : String → Prop} {commitment : String}

theorem finds (h : Leaves start final inputs payloads registers vaults)
    (hkept : (∃ ciphertext, registers (commitment, ciphertext)) ∨ vaults commitment) :
    final.Finds payloads commitment := by
  rw [Client.finds_iff]
  rcases hkept with ⟨ciphertext, hregisters⟩ | hvaults
  · exact .inl ⟨ciphertext, h.registered _ hregisters⟩
  · exact .inr (h.vaulted _ hvaults)

theorem of_finds (h : Leaves start final inputs payloads registers vaults)
    (hnew : start.New inputs commitment) (hfinds : final.Finds payloads commitment) :
    (∃ ciphertext, registers (commitment, ciphertext)) ∨ vaults commitment := by
  rcases Client.finds_iff.mp hfinds with ⟨ciphertext, -, hheld⟩ | hheld
  · rcases h.api _ hheld with hold | hinput | hregisters
    · exact absurd rfl (hnew.api _ hold)
    · exact absurd hinput hnew.inputs
    · exact .inl ⟨ciphertext, hregisters⟩
  · rcases h.vault _ hheld with ⟨ciphertext, -, hold⟩ | hvaults
    · rw [hnew.vault] at hold
      cases hold
    · exact .inr hvaults

/-- A run that stops before its outputs leaves nothing of them. -/
theorem of_touches (h : start.Touches inputs final) :
    Leaves start final inputs payloads (fun _ => False) fun _ => False where
  registered _ hfalse := hfalse.elim
  vaulted _ hfalse := hfalse.elim
  api payload hmem := (h.others payload hmem).imp_right .inl
  vault commitment hheld := by
    unfold Client.Vaults at hheld ⊢
    rw [h.vaulted] at hheld
    exact .inl hheld

/-- What happens before the outputs are stored touches the inputs only. -/
theorem after {mid : Client} (htouches : start.Touches inputs mid)
    (h : Leaves mid final inputs payloads registers vaults) :
    Leaves start final inputs payloads registers vaults where
  registered := h.registered
  vaulted := h.vaulted
  api payload hmem := by
    rcases h.api payload hmem with hmid | hlater
    · exact (htouches.others payload hmid).imp_right .inl
    · exact .inr hlater
  vault commitment hheld := by
    have hsame : mid.Vaults payloads commitment ↔ start.Vaults payloads commitment := by
      unfold Client.Vaults
      rw [htouches.vaulted]
    rw [← hsame]
    exact h.vault commitment hheld

theorem congr {registers' : Payload → Prop} {vaults' : String → Prop}
    (h : Leaves start final inputs payloads registers vaults)
    (hregisters : ∀ payload, registers payload ↔ registers' payload)
    (hvaults : ∀ commitment, vaults commitment ↔ vaults' commitment) :
    Leaves start final inputs payloads registers' vaults' := by
  obtain rfl : registers = registers' := funext fun payload => propext (hregisters payload)
  obtain rfl : vaults = vaults' := funext fun commitment => propext (hvaults commitment)
  exact h

end Leaves

/-! ## Relayed operations -/

theorem mem_of_registered {replies : OperationReplies} {authenticated : Bool}
    {interrupted : Nat → Bool} {k : Nat} {payloads : List Payload} {found : Payload}
    (h : Registered replies authenticated interrupted k payloads found) : found ∈ payloads := by
  induction payloads generalizing k with
  | nil => exact h.elim
  | cons payload rest ih =>
      rcases h.2 with ⟨-, -, rfl⟩ | ⟨-, hrest⟩
      · exact List.mem_cons_self
      · exact List.mem_cons_of_mem _ (ih hrest)

/-- A relayer confirms the transaction, and the process outlives marking its inputs. -/
def Delivered (replies : OperationReplies) (client : Client) (inputs : List ShieldNote) : Prop :=
  (∃ txid, submitRelayed "" replies.relayers = .returned txid) ∧
    SurvivedAll replies.consumed client 0 inputs

section Relayed

variable {E : Ciphers} {K : Packages} {replies : OperationReplies} {wallet : Wallet}
  {prepare : Async Client Prepared} {prepared : Prepared} {mid : Client}

def Prepared.spends (prepared : Prepared) : List String :=
  prepared.inputs.map ShieldNote.commitment

theorem touches_inputs (prepared : Prepared) (answers : Nat → ConsumeAnswers) :
    Within (Client.Touches prepared.spends) (consumeAll answers 0 prepared.inputs) :=
  touches_consumeAll (fun _ hnote => List.mem_map_of_mem hnote) answers 0

variable (hprepare : prepare wallet.client = (.returned prepared, mid))
include hprepare

theorem relay_of_delivered (h : Delivered replies mid prepared.inputs) :
    ∃ txid after, relay replies prepare wallet = (.returned (prepared, txid), after) ∧
      mid.Touches prepared.spends after.client := by
  obtain ⟨⟨txid, hsubmitted⟩, hsurvived⟩ := h
  have hconsumed : consumeAll replies.consumed 0 prepared.inputs mid =
      (.returned (), (consumeAll replies.consumed 0 prepared.inputs mid).2) :=
    Prod.ext (consumeAll_returned.mpr hsurvived) rfl
  refine ⟨txid, { wallet with client := (consumeAll replies.consumed 0 prepared.inputs mid).2 },
    ?_, touches_inputs prepared replies.consumed mid⟩
  unfold relay
  rw [bind_of_returned (onClient_eq hprepare), hsubmitted, returned_bind,
    bind_of_returned (onClient_eq hconsumed)]
  rfl

theorem relay_stopped (h : ¬ Delivered replies mid prepared.inputs) :
    (∀ outcome, (relay replies prepare wallet).1 ≠ .returned outcome) ∧
      mid.Touches prepared.spends (relay replies prepare wallet).2.client := by
  unfold relay
  rw [bind_of_returned (onClient_eq hprepare)]
  cases hsubmitted : submitRelayed "" replies.relayers with
  | thrown message =>
      rw [thrown_bind]
      exact ⟨fun _ hreturned => (by cases hreturned), .refl _⟩
  | crashed =>
      rw [crashed_bind]
      exact ⟨fun _ hreturned => (by cases hreturned), .refl _⟩
  | returned txid =>
      rw [returned_bind]
      have hconsumed : (consumeAll replies.consumed 0 prepared.inputs mid).1 ≠ .returned () :=
        fun hreturned => h ⟨⟨txid, hsubmitted⟩, consumeAll_returned.mp hreturned⟩
      have hstopped : ∀ value, (onClient (consumeAll replies.consumed 0 prepared.inputs)
          { wallet with client := mid }).1 ≠ .returned value := fun _ => hconsumed
      rw [(bind_of_stopped hstopped).2]
      exact ⟨(bind_of_stopped hstopped).1, touches_inputs prepared replies.consumed mid⟩

omit hprepare

variable (E K replies wallet) in
/-- What storing the outputs leaves. -/
theorem storeOutputs_leaves {key : Bytes} {interrupted : Nat → Bool}
    {viewingPk : Nat → Async Wallet Bytes}
    (hkey : ∀ k wallet, viewingPk k wallet =
      (if interrupted k then .crashed else .returned key, wallet))
    (outputs : List (ShieldNote × Nat)) (inputs : List String) :
    Leaves wallet.client (storeOutputs E K replies viewingPk 0 outputs wallet).2.client inputs
      (payloadsOf K replies key 0 outputs)
      (Registered replies wallet.client.authenticated interrupted 0
        (payloadsOf K replies key 0 outputs)) fun _ => False where
  registered _ h := ⟨mem_of_registered h, (mem_api_storeOutputs hkey).mpr (.inr h)⟩
  vaulted _ h := h.elim
  api _ hmem := ((mem_api_storeOutputs hkey).mp hmem).imp_right .inr
  vault commitment hheld := by
    unfold Client.Vaults Client.vaulted at hheld ⊢
    rw [storeOutputs_vault hkey] at hheld
    exact .inl hheld

/-- And what keeping them leaves. -/
theorem Leaves.persistAll {start mid : Client} {inputs : List String} {payloads : List Payload}
    {registers : Payload → Prop} {notes : List ShieldNote}
    (h : Leaves start mid inputs payloads registers fun _ => False) (put : Nat → Bool)
    (hnotes : notes.map ShieldNote.payload = payloads) (hvault : mid.vault = start.vault) :
    Leaves start (Sdk.persistAll put 0 notes (mid.addAll notes)) inputs payloads registers
      fun commitment => start.vault.isSome = true ∧ PutOf put 0 payloads commitment := by
  obtain ⟨store, hstore⟩ := addAll_eq mid notes
  have hmem : ∀ note ∈ notes, note.payload ∈ payloads := fun note hnote =>
    hnotes ▸ List.mem_map_of_mem hnote
  have hput (commitment : String) :
      (Sdk.persistAll put 0 notes (mid.addAll notes)).Vaults payloads commitment ↔
        mid.Vaults payloads commitment ∨
          start.vault.isSome = true ∧ PutOf put 0 payloads commitment := by
    rw [vaults_persistAll hmem, hstore, hnotes, ← hvault]
    rfl
  have hapi : (Sdk.persistAll put 0 notes (mid.addAll notes)).api = mid.api := by
    rw [api_persistAll, hstore]
  exact
    { registered := fun payload hregisters => hapi ▸ h.registered payload hregisters
      vaulted := fun commitment hvaults => (hput commitment).mpr (.inr hvaults)
      api := fun payload hheld => h.api payload (hapi ▸ hheld)
      vault := fun commitment hheld => by
        rcases (hput commitment).mp hheld with hmid | hvaults
        · exact (h.vault commitment hmid).imp_right False.elim
        · exact .inr hvaults }

theorem transfer_leaves {base : Int} {recipient : String} {address : ShieldAddress}
    (hprepare : prepareTransfer K replies.toReplies base recipient wallet.client =
      (.returned prepared, mid))
    (haddress : decodeAddress recipient = .ok address) :
    Leaves mid (transfer E K replies base recipient wallet).2.client prepared.spends
      (payloadsOf K replies address.viewingPk 0 prepared.outputs)
      (fun payload => Delivered replies mid prepared.inputs ∧
        Registered replies mid.authenticated (fun _ => false) 0
          (payloadsOf K replies address.viewingPk 0 prepared.outputs) payload)
      fun _ => False := by
  unfold transfer
  by_cases hdelivered : Delivered replies mid prepared.inputs
  · obtain ⟨txid, after, hrelay, htouches⟩ := relay_of_delivered hprepare hdelivered
    rw [bind_of_returned hrelay]
    dsimp only
    rw [haddress, ok_bind]
    have hkey (k : Nat) (wallet : Wallet) :
        (fun _ => pure address.viewingPk : Nat → Async Wallet Bytes) k wallet =
          (if (fun _ => false : Nat → Bool) k then .crashed else .returned address.viewingPk,
            wallet) := rfl
    have hstored := storeOutputs_leaves E K replies after hkey prepared.outputs prepared.spends
    rw [htouches.authenticated] at hstored
    change Leaves mid ((storeOutputs E K replies (fun _ => pure address.viewingPk) 0
      prepared.outputs >>= fun _ => pure ((fun _ => txid) ())) after).2.client _ _ _ _
    rw [bind_pure_snd]
    exact (Leaves.after htouches hstored).congr (fun _ => by simp [hdelivered]) fun _ => Iff.rfl
  · obtain ⟨hstopped, htouches⟩ := relay_stopped hprepare hdelivered
    rw [(bind_of_stopped hstopped).2]
    exact (Leaves.of_touches htouches).congr (fun _ => by simp [hdelivered]) fun _ => Iff.rfl

theorem ownViewingPk_eq {keys : Keys} (hkeys : replies.keys = .returned keys) (k : Nat)
    (wallet : Wallet) :
    ownViewingPk replies k wallet =
      (if replies.interrupted k then .crashed else .returned keys.viewingPk, wallet) := by
  unfold ownViewingPk
  rw [hkeys, returned_bind]
  cases replies.interrupted k with
  | true => rfl
  | false => rfl

theorem relayOwn_leaves {keys : Keys} (hprepare : prepare wallet.client = (.returned prepared, mid))
    (hkeys : replies.keys = .returned keys) :
    Leaves mid (relayOwn E K replies prepare wallet).2.client prepared.spends
      (payloadsOf K replies keys.viewingPk 0 prepared.outputs)
      (fun payload => Delivered replies mid prepared.inputs ∧
        Registered replies mid.authenticated replies.interrupted 0
          (payloadsOf K replies keys.viewingPk 0 prepared.outputs) payload)
      fun commitment => Delivered replies mid prepared.inputs ∧ mid.vault.isSome = true ∧
        OutlivesAll replies mid.authenticated replies.interrupted 0
          (payloadsOf K replies keys.viewingPk 0 prepared.outputs) ∧
        PutOf replies.put 0 (payloadsOf K replies keys.viewingPk 0 prepared.outputs)
          commitment := by
  unfold relayOwn
  by_cases hdelivered : Delivered replies mid prepared.inputs
  · obtain ⟨txid, after, hrelay, htouches⟩ := relay_of_delivered hprepare hdelivered
    rw [bind_of_returned hrelay]
    dsimp only
    have hkey := ownViewingPk_eq hkeys
    have hstored := storeOutputs_leaves E K replies after hkey prepared.outputs prepared.spends
    rw [htouches.authenticated] at hstored
    by_cases halive : OutlivesAll replies mid.authenticated replies.interrupted 0
      (payloadsOf K replies keys.viewingPk 0 prepared.outputs)
    · rw [← htouches.authenticated] at halive
      obtain ⟨stored, hreturned⟩ := storeOutputs_of_alive (E := E) hkey halive
      have hvault : (storeOutputs E K replies (ownViewingPk replies) 0 prepared.outputs
          after).2.client.vault = after.client.vault := storeOutputs_vault hkey
      rw [hreturned] at hstored hvault
      rw [bind_of_returned hreturned]
      have hkept := hstored.persistAll replies.put
        (map_payload_keptNotes (publishedRoot prepared.request) txid) hvault
      refine (Leaves.after htouches hkept).congr (fun _ => by simp [hdelivered]) fun _ => ?_
      rw [htouches.vault, ← htouches.authenticated]
      simp [hdelivered, halive]
    · have hnone : ∀ ciphertexts, (storeOutputs E K replies (ownViewingPk replies) 0
          prepared.outputs after).1 ≠ .returned ciphertexts :=
        storeOutputs_stopped hkey (htouches.authenticated ▸ halive)
      rw [(bind_of_stopped hnone).2]
      exact (Leaves.after htouches hstored).congr (fun _ => by simp [hdelivered]) fun _ =>
        by simp [halive]
  · obtain ⟨hstopped, htouches⟩ := relay_stopped hprepare hdelivered
    rw [(bind_of_stopped hstopped).2]
    exact (Leaves.of_touches htouches).congr (fun _ => by simp [hdelivered]) fun _ =>
      by simp [hdelivered]

end Relayed

/-! ## Preparing touches nothing -/

section Preparing

variable {K : Packages} {replies : Replies} {commitments : List String}

theorem touches_setSynced (f : Client → Synced) :
    Within (Client.Touches commitments) (modify fun client => { client with synced := f client }) :=
  within_modify fun client => { Client.Touches.refl client with }

theorem touches_orThrow {α : Type} (result : Except String α) :
    Within (Client.Touches commitments) (orThrow result) :=
  within_orThrow Client.Touches.refl result

theorem touches_await {α : Type} (reply : Ending α) :
    Within (Client.Touches commitments) (await reply) := within_await Client.Touches.refl reply

theorem touches_get : Within (Client.Touches commitments) get := within_get Client.Touches.refl

theorem touches_throwIf (condition : Prop) [Decidable condition] (message : String) :
    Within (Client.Touches commitments) (throwIf condition message) := by
  unfold throwIf
  split
  case isTrue => exact within_throwing Client.Touches.refl message
  case isFalse => exact within_pure Client.Touches.refl ()

theorem touches_syncTree : Within (Client.Touches commitments) (syncTree K replies) :=
  Client.Touches.bind (touches_await _) fun _ => Client.Touches.bind (touches_orThrow _) fun _ =>
    touches_setSynced _

theorem touches_appendOutput (commitment : String) :
    Within (Client.Touches commitments) (appendOutput K commitment) :=
  Client.Touches.bind touches_get fun _ => Client.Touches.bind (touches_orThrow _) fun _ =>
    Client.Touches.bind (touches_setSynced _) fun _ => within_pure Client.Touches.refl _

theorem touches_prove (statement : Except String Statement) :
    Within (Client.Touches commitments) (prove replies statement) :=
  Client.Touches.bind (touches_orThrow _) fun _ => Client.Touches.bind (touches_await _) fun _ =>
    Client.Touches.bind (touches_setSynced _) fun _ => within_pure Client.Touches.refl _

theorem touches_prepareTransfer (base : Int) (recipient : String) :
    Within (Client.Touches commitments) (prepareTransfer K replies base recipient) := by
  unfold prepareTransfer
  repeat with_reducible first
    | exact within_pure Client.Touches.refl _
    | exact touches_get
    | exact touches_await _
    | exact touches_orThrow _
    | exact touches_syncTree
    | exact touches_prove _
    | exact touches_appendOutput _
    | refine Client.Touches.bind ?_ fun _ => ?_

theorem touches_prepareSplit (note : ShieldNote) (a1 a2 : Int) :
    Within (Client.Touches commitments) (prepareSplit K replies note a1 a2) := by
  unfold prepareSplit
  repeat with_reducible first
    | exact within_pure Client.Touches.refl _
    | exact touches_get
    | exact touches_await _
    | exact touches_orThrow _
    | exact touches_throwIf _ _
    | exact touches_syncTree
    | exact touches_prove _
    | exact touches_appendOutput _
    | refine Client.Touches.bind ?_ fun _ => ?_

theorem touches_prepareMerge (i1 i2 : ShieldNote) :
    Within (Client.Touches commitments) (prepareMerge K replies i1 i2) := by
  unfold prepareMerge
  repeat with_reducible first
    | exact within_pure Client.Touches.refl _
    | exact touches_get
    | exact touches_await _
    | exact touches_orThrow _
    | exact touches_throwIf _ _
    | exact touches_syncTree
    | exact touches_prove _
    | exact touches_appendOutput _
    | refine Client.Touches.bind ?_ fun _ => ?_

end Preparing

/-! ## Shields -/

section Shields

variable {E : Ciphers} {K : Packages} {replies : OperationReplies} {base : Int} {wallet : Wallet}

/-- A shield has a session when it stores its payload. -/
theorem draftShield_returned {client after : Client} {draft : ShieldDraft}
    {answers : ShieldReplies}
    (h : draftShield K answers base client = (.returned draft, after)) :
    ({ client with authenticated := true } : Client).Touches [] after := by
  simp only [draftShield, await_bind_returned, throwIf_bind_returned, modify_bind] at h
  obtain ⟨asset, -, -, -, keys, -, -, -, hrest⟩ := h
  have hafter := congrArg Prod.snd hrest
  dsimp only at hafter
  rw [← hafter]
  have hfetch : Within (Client.Touches []) (fetchCurrentRoot answers) :=
    Client.Touches.bind (touches_await _) fun _ =>
      Client.Touches.bind (touches_setSynced _) fun _ => within_pure Client.Touches.refl _
  refine (?_ : Within (Client.Touches []) _) _
  repeat with_reducible first
    | exact within_pure Client.Touches.refl _
    | exact touches_get
    | exact touches_orThrow _
    | exact touches_syncTree
    | exact touches_prove _
    | exact touches_appendOutput _
    | exact hfetch
    | refine Client.Touches.bind ?_ fun _ => ?_

theorem onClient_inv {α : Type} {m : Async Client α} {ending : Ending α} {after : Wallet}
    (h : onClient m wallet = (ending, after)) :
    ∃ client, m wallet.client = (ending, client) ∧ after = { wallet with client := client } := by
  obtain ⟨hending, hafter⟩ := Prod.mk.inj h
  exact ⟨(m wallet.client).2, Prod.ext hending rfl, hafter.symm⟩

/-- The payload of a shield is registered before its transaction is handed over. -/
theorem prepareRecorded_returned {prepared : PreparedShield} {mid : Wallet}
    (h : prepareRecorded E K replies base wallet = (.returned prepared, mid)) :
    (∀ found, found ∈ mid.client.api ↔ found ∈ wallet.client.api ∨
        0 < (registration replies.registered apiRetries 0).writes ∧
          found = prepared.note.payload) ∧
      mid.client.vaulted = wallet.client.vaulted ∧
      mid.client.vault.isSome = wallet.client.vault.isSome := by
  unfold prepareRecorded at h
  obtain ⟨draft, drafted, hdraft, h⟩ := bind_returned.mp h
  obtain ⟨ciphertext, stored, hstored, h⟩ := bind_returned.mp h
  obtain ⟨client, hclient, hdrafted⟩ := onClient_inv hdraft
  obtain rfl : drafted.client = client := by rw [hdrafted]
  have htouches := draftShield_returned hclient
  have hsession : drafted.client.authenticated = true := htouches.authenticated
  -- The process has outlived registering the payload, or nothing would have been made.
  have halive : Outlives replies drafted.client.authenticated 0 := by
    by_contra hcrashes
    obtain ⟨crashed, -, hcrashed⟩ := encryptAndStore_of_crashed E K draft.viewingPk
      draft.out.note draft.leafIndex hcrashes
    have hending := congrArg Prod.fst (hcrashed.symm.trans hstored)
    cases hending
  obtain ⟨registered, hregistered, hreturned⟩ := encryptAndStore_of_alive E K draft.viewingPk
    draft.out.note draft.leafIndex halive
  obtain ⟨hciphertext, rfl⟩ := Prod.mk.inj (hreturned.symm.trans hstored)
  obtain rfl := Ending.returned.inj hciphertext
  obtain ⟨completed, hcompleted, rfl⟩ := onClient_inv h
  simp only [completeShield, await_bind_returned, orThrow_bind_returned, pure_apply,
    Prod.mk.injEq, Ending.returned.injEq] at hcompleted
  obtain ⟨inclusion, -, transaction, -, rfl, rfl⟩ := hcompleted
  have htold : drafted.client.Touches [draft.out.note.commitment] registered.client := by
    rw [hregistered]
    refine Client.touches_told ?_ drafted.client
    exact List.mem_singleton_self _
  refine ⟨fun found => ?_, htold.vaulted.trans htouches.vaulted, htold.vault.trans htouches.vault⟩
  change found ∈ registered.client.api ↔ _
  rw [hregistered, mem_told]
  exact or_congr htouches.mem_api (and_iff_right hsession)

/-- The vault keeps the note of a shield that is broadcast, unless the client cannot confirm the
transaction and forgets it. -/
def Deposits (replies : OperationReplies) : Prop :=
  (∃ txid, replies.broadcast = .returned txid) ∧
    match replies.confirmation with
    | .returned confirmed =>
        replies.put 0 = true ∨ confirmed = true ∧ replies.put 1 = true
    | .thrown _ => replies.put 0 = true ∧ replies.removed.1 = false
    | .crashed => replies.put 0 = true

theorem rollBack_client (commitment : String) (client : Client) :
    (rollBack replies commitment client).2 =
      if client.vault.isSome = true ∧ replies.removed.1 = true then
        (client.remove commitment).forget commitment
      else client.remove commitment := by
  unfold rollBack
  rw [modify_bind, get_bind]
  have hvault : (client.remove commitment).vault.isSome = client.vault.isSome := rfl
  cases hsome : client.vault.isSome with
  | false =>
      rw [hsome] at hvault
      simp [hvault]
  | true =>
      rw [hsome] at hvault
      rw [if_pos hvault, passed_snd, modify_bind]
      cases replies.removed.1 with
      | true => rfl
      | false => rfl

/-- What is forgotten is not in the vault any more. -/
theorem not_vaults_forget {payload : Payload} {commitment : String} (client : Client) :
    ¬ (client.forget payload.1).Vaults [payload] commitment := by
  rintro ⟨ciphertext, hmem, hheld⟩
  obtain rfl := List.mem_singleton.mp hmem
  unfold Client.vaulted Client.forget at hheld
  cases hvault : client.vault with
  | none => rw [hvault] at hheld; cases hheld
  | some vault =>
      rw [hvault] at hheld
      simp only [Option.map_some, Option.bind_some, AList.lookup_erase, Option.map_none,
        reduceCtorEq] at hheld

/-- The note that is kept of a broadcast shield. -/
def depositedNote (prepared : PreparedShield) (txid : String) : ShieldNote :=
  { prepared.note with txid := txid }

/-- The client with the note it keeps. -/
def deposited (replies : OperationReplies) (prepared : PreparedShield) (txid : String)
    (client : Client) : Client :=
  persist (depositedNote prepared txid) (replies.put 0) (client.add (depositedNote prepared txid))

/-- Where a shield that has been broadcast ends. -/
theorem shield_client {prepared : PreparedShield} {mid : Wallet} {txid : String}
    (h : prepareRecorded E K replies base wallet = (.returned prepared, mid))
    (hbroadcast : replies.broadcast = .returned txid) :
    (shield E K replies base wallet).2.client =
      match replies.confirmation with
      | .returned confirmed =>
          if confirmed then
            persist (depositedNote prepared txid) (replies.put 1)
              (deposited replies prepared txid mid.client)
          else deposited replies prepared txid mid.client
      | .thrown _ =>
          (rollBack replies prepared.note.commitment
            (deposited replies prepared txid mid.client)).2
      | .crashed => deposited replies prepared txid mid.client := by
  unfold shield
  rw [bind_of_returned h, hbroadcast, returned_bind]
  cases replies.confirmation with
  | returned confirmed =>
      cases confirmed with
      | true => rfl
      | false => rfl
  | crashed => rfl
  | thrown message =>
      have hrolled : (∀ value : Bool,
          ((onClient (rollBack replies prepared.note.commitment) >>= fun _ => throwing message)
            { mid with client := deposited replies prepared txid mid.client }).1 ≠
              .returned value) ∧ _ := bind_throwing
      exact congrArg Wallet.client ((bind_of_stopped hrolled.1).2.trans hrolled.2)

theorem vaults_deposited {prepared : PreparedShield} {txid commitment : String}
    {client : Client} :
    (deposited replies prepared txid client).Vaults [prepared.note.payload] commitment ↔
      client.Vaults [prepared.note.payload] commitment ∨
        client.vault.isSome = true ∧ replies.put 0 = true ∧
          prepared.note.commitment = commitment :=
  Client.vaults_persist (List.mem_singleton_self _) (replies.put 0)

theorem isSome_deposited {prepared : PreparedShield} {txid : String} {client : Client} :
    (deposited replies prepared txid client).vault.isSome = client.vault.isSome :=
  Client.isSome_persist (replies.put 0)

theorem api_deposited {prepared : PreparedShield} {txid : String} {client : Client} :
    (deposited replies prepared txid client).api = client.api := api_persist

/-- What becomes of the vault's entry when the client cannot confirm the transaction. -/
theorem vaults_rollBack {payload : Payload} {commitment : String} {client : Client} :
    (rollBack replies payload.1 client).2.Vaults [payload] commitment ↔
      client.Vaults [payload] commitment ∧ replies.removed.1 = false := by
  rw [rollBack_client]
  cases hremoved : replies.removed.1 with
  | false =>
      rw [if_neg (by simp)]
      exact (and_iff_left rfl).symm
  | true =>
      by_cases hvault : client.vault.isSome = true
      · rw [if_pos ⟨hvault, rfl⟩]
        exact iff_of_false (not_vaults_forget _) (by simp)
      · rw [if_neg fun h => hvault h.1]
        refine iff_of_false ?_ (by simp)
        rintro ⟨ciphertext, -, hheld⟩
        unfold Client.vaulted Client.remove at hheld
        rw [Option.not_isSome_iff_eq_none.mp hvault] at hheld
        cases hheld

theorem api_rollBack {commitment : String} {client : Client} :
    (rollBack replies commitment client).2.api = client.api := by
  rw [rollBack_client]
  split
  case isTrue => rfl
  case isFalse => rfl

/-- A run leaves the API as it is, and the vault with the note of a deposit. -/
structure Settles (replies : OperationReplies) (payload : Payload) (mid final : Client) : Prop where
  api : final.api = mid.api
  kept : ∀ commitment, mid.vault.isSome = true ∧ Deposits replies ∧ payload.1 = commitment →
    final.Vaults [payload] commitment
  vault : ∀ commitment, final.Vaults [payload] commitment →
    mid.Vaults [payload] commitment ∨
      mid.vault.isSome = true ∧ Deposits replies ∧ payload.1 = commitment

theorem Settles.of_iff {payload : Payload} {mid final : Client} (hapi : final.api = mid.api)
    (hvault : ∀ commitment, final.Vaults [payload] commitment ↔
      mid.Vaults [payload] commitment ∨
        mid.vault.isSome = true ∧ Deposits replies ∧ payload.1 = commitment) :
    Settles replies payload mid final :=
  ⟨hapi, fun commitment hkept => (hvault commitment).mpr (.inr hkept),
    fun commitment => (hvault commitment).mp⟩

/-- A shield that has been broadcast. -/
theorem settles_of_broadcast {prepared : PreparedShield} {mid : Wallet} {txid : String}
    (h : prepareRecorded E K replies base wallet = (.returned prepared, mid))
    (hbroadcast : replies.broadcast = .returned txid) :
    Settles replies prepared.note.payload mid.client (shield E K replies base wallet).2.client := by
  rw [shield_client h hbroadcast]
  have hsent : ∃ txid, replies.broadcast = .returned txid := ⟨txid, hbroadcast⟩
  have hdeposited (commitment : String) :
      (deposited replies prepared txid mid.client).Vaults [prepared.note.payload] commitment ↔
        mid.client.Vaults [prepared.note.payload] commitment ∨
          mid.client.vault.isSome = true ∧ replies.put 0 = true ∧
            prepared.note.payload.1 = commitment := vaults_deposited
  cases hconfirmation : replies.confirmation with
  | returned confirmed =>
      have hdeposits : Deposits replies ↔
          replies.put 0 = true ∨ confirmed = true ∧ replies.put 1 = true := by
        unfold Deposits
        rw [hconfirmation]
        exact and_iff_right hsent
      cases confirmed with
      | false =>
          refine .of_iff api_deposited fun commitment => ?_
          rw [hdeposits]
          simp only [Bool.false_eq_true, if_false, false_and, or_false]
          exact hdeposited commitment
      | true =>
          refine .of_iff (api_persist.trans api_deposited) fun commitment => ?_
          have hconfirmed : (persist (depositedNote prepared txid) (replies.put 1)
              (deposited replies prepared txid mid.client)).Vaults [prepared.note.payload]
                commitment ↔
              (deposited replies prepared txid mid.client).Vaults [prepared.note.payload]
                  commitment ∨
                (deposited replies prepared txid mid.client).vault.isSome = true ∧
                  replies.put 1 = true ∧ prepared.note.payload.1 = commitment :=
            Client.vaults_persist (List.mem_singleton_self _) (replies.put 1)
          dsimp only
          rw [if_pos rfl, hconfirmed, isSome_deposited, hdeposited, hdeposits, or_assoc,
            ← and_or_left, ← or_and_right]
          simp only [true_and]
  | thrown message =>
      have hdeposits : Deposits replies ↔
          replies.put 0 = true ∧ replies.removed.1 = false := by
        unfold Deposits
        rw [hconfirmation]
        exact and_iff_right hsent
      have hrolled (commitment : String) : (rollBack replies prepared.note.commitment
          (deposited replies prepared txid mid.client)).2.Vaults [prepared.note.payload]
            commitment ↔ _ := vaults_rollBack
      refine ⟨api_rollBack.trans api_deposited, fun commitment => ?_, fun commitment => ?_⟩
      · rintro ⟨hvault, hdeposit, hsame⟩
        obtain ⟨hput, hkept⟩ := hdeposits.mp hdeposit
        exact (hrolled commitment).mpr
          ⟨(hdeposited commitment).mpr (.inr ⟨hvault, hput, hsame⟩), hkept⟩
      · intro hheld
        obtain ⟨hmid, hkept⟩ := (hrolled commitment).mp hheld
        rcases (hdeposited commitment).mp hmid with hold | ⟨hvault, hput, hsame⟩
        · exact .inl hold
        · exact .inr ⟨hvault, hdeposits.mpr ⟨hput, hkept⟩, hsame⟩
  | crashed =>
      have hdeposits : Deposits replies ↔ replies.put 0 = true := by
        unfold Deposits
        rw [hconfirmation]
        exact and_iff_right hsent
      refine .of_iff api_deposited fun commitment => ?_
      rw [hdeposits]
      exact hdeposited commitment

/-- A shield whose broadcast does not return keeps nothing more. -/
theorem settles_of_stopped {prepared : PreparedShield} {mid : Wallet}
    (h : prepareRecorded E K replies base wallet = (.returned prepared, mid))
    (hstopped : ∀ txid, replies.broadcast ≠ .returned txid) :
    Settles replies prepared.note.payload mid.client (shield E K replies base wallet).2.client := by
  have hfinal : (shield E K replies base wallet).2 = mid := by
    have hawait : ∀ txid, (await replies.broadcast mid).1 ≠ .returned txid := hstopped
    unfold shield
    rw [bind_of_returned h, (bind_of_stopped hawait).2]
    rfl
  rw [hfinal]
  refine .of_iff rfl fun commitment => ⟨.inl, ?_⟩
  rintro (hold | ⟨-, ⟨⟨txid, hbroadcast⟩, -⟩, -⟩)
  · exact hold
  · exact absurd hbroadcast (hstopped txid)

theorem shield_leaves {prepared : PreparedShield} {mid : Wallet}
    (h : prepareRecorded E K replies base wallet = (.returned prepared, mid)) :
    Leaves wallet.client (shield E K replies base wallet).2.client [] [prepared.note.payload]
      (fun payload => 0 < (registration replies.registered apiRetries 0).writes ∧
        payload = prepared.note.payload)
      fun commitment => wallet.client.vault.isSome = true ∧ Deposits replies ∧
        prepared.note.commitment = commitment := by
  obtain ⟨hapi, hvaulted, hvault⟩ := prepareRecorded_returned h
  have hsettles : Settles replies prepared.note.payload mid.client
      (shield E K replies base wallet).2.client := by
    by_cases hsent : ∃ txid, replies.broadcast = .returned txid
    · obtain ⟨txid, hbroadcast⟩ := hsent
      exact settles_of_broadcast h hbroadcast
    · exact settles_of_stopped h fun txid hbroadcast => hsent ⟨txid, hbroadcast⟩
  have hold (commitment : String) : mid.client.Vaults [prepared.note.payload] commitment ↔
      wallet.client.Vaults [prepared.note.payload] commitment := by
    unfold Client.Vaults
    rw [hvaulted]
  refine ⟨fun payload hregisters => ?_, fun commitment hkept => ?_, fun payload hmem => ?_,
    fun commitment hheld => ?_⟩
  · rw [hsettles.api]
    exact ⟨hregisters.2 ▸ List.mem_singleton_self _, (hapi payload).mpr (.inr hregisters)⟩
  · exact hsettles.kept commitment (hvault ▸ hkept)
  · rw [hsettles.api] at hmem
    exact ((hapi payload).mp hmem).imp_right .inr
  · rw [← hold, ← hvault]
    exact hsettles.vault commitment hheld

end Shields

end StxShield.Sdk
