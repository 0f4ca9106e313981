import StxShield.Sdk.StoredOutputs
import StxShield.Security.ViewingKeys

/-!
# The secrets of outputs

Whatever fails on the way of an operation, the payloads of its outputs are to be stored when
its transaction succeeds on chain.  They are as long as the client hears of the success, and
outlives what it does then.
-/

namespace StxShield.Sdk

open Library JavaScript Async

/-- The operations that make outputs. -/
inductive OutputOperation where
  | transfer (base : Int) (recipient : String)
  | own (operation : OwnOperation)

/-- What is spent, and the payloads of the outputs, when a transaction is handed over. -/
structure Handover where
  inputs : List ShieldNote
  payloads : List Payload

def Handover.spends (handover : Handover) : List String :=
  handover.inputs.map ShieldNote.commitment

namespace OutputOperation

section Operations

variable (E : Ciphers) (K : Packages) (replies : OperationReplies)

def run : OutputOperation → Async Wallet String
  | .transfer base recipient => Sdk.transfer E K replies base recipient
  | .own operation => operation.run E K replies

/-- What an operation has made when it hands its transaction over. -/
inductive Hands (wallet : Wallet) : OutputOperation → Handover → Prop where
  | transfer {base : Int} {recipient : String} {prepared : Prepared} {mid : Client}
      {address : ShieldAddress}
      (hprepare : prepareTransfer K replies.toReplies base recipient wallet.client =
        (.returned prepared, mid))
      (haddress : decodeAddress recipient = .ok address) :
      Hands wallet (.transfer base recipient)
        ⟨prepared.inputs, payloadsOf K replies address.viewingPk 0 prepared.outputs⟩
  | split {note : ShieldNote} {a1 a2 : Int} {prepared : Prepared} {mid : Client} {keys : Keys}
      (hprepare : prepareSplit K replies.toReplies note a1 a2 wallet.client =
        (.returned prepared, mid))
      (hkeys : replies.keys = .returned keys) :
      Hands wallet (.own (.split note a1 a2))
        ⟨prepared.inputs, payloadsOf K replies keys.viewingPk 0 prepared.outputs⟩
  | merge {i1 i2 : ShieldNote} {prepared : Prepared} {mid : Client} {keys : Keys}
      (hprepare : prepareMerge K replies.toReplies i1 i2 wallet.client = (.returned prepared, mid))
      (hkeys : replies.keys = .returned keys) :
      Hands wallet (.own (.merge i1 i2))
        ⟨prepared.inputs, payloadsOf K replies keys.viewingPk 0 prepared.outputs⟩
  | shield {base : Int} {prepared : PreparedShield} {mid : Wallet}
      (hprepare : prepareRecorded E K replies base wallet = (.returned prepared, mid)) :
      Hands wallet (.own (.shield base)) ⟨[], [prepared.note.payload]⟩

/-- A vault that carries out each write, or a session that the API accepts. -/
def Working (client : Client) : Prop :=
  (client.vault.isSome = true ∧ ∀ k, replies.put k = true) ∨
    client.authenticated = true ∧
      ∀ k attempt message, registrationOf replies k attempt ≠ .unauthorized message

/-- If the transaction succeeds, the outputs' payloads are found where the run ends. -/
def OutputsKept (operation : OutputOperation) (wallet : Wallet) : Prop :=
  Working replies wallet.client → replies.landed = true →
    ∀ handover, operation.Hands E K replies wallet handover →
      ∀ payload ∈ handover.payloads,
        (operation.run E K replies wallet).2.client.Finds handover.payloads payload.1

/-! ## When they are kept -/

/-- The payload is registered on the API: by a shield before its transaction, by the others
once it is confirmed. -/
def Registers (client : Client) (handover : Handover) (payload : Payload) :
    OutputOperation → Prop
  | .own (.shield _) =>
      0 < (registration replies.registered apiRetries 0).writes ∧ payload ∈ handover.payloads
  | .transfer .. =>
      Delivered replies client handover.inputs ∧
        Registered replies client.authenticated (fun _ => false) 0 handover.payloads payload
  | .own _ =>
      Delivered replies client handover.inputs ∧
        Registered replies client.authenticated replies.interrupted 0 handover.payloads payload

/-- The payload goes to the vault, if it is one's own. -/
def Vaults (client : Client) (handover : Handover) (commitment : String) :
    OutputOperation → Prop
  | .own (.shield _) =>
      client.vault.isSome = true ∧ Deposits replies ∧
        commitment ∈ handover.payloads.map Prod.fst
  | .transfer .. => False
  | .own _ =>
      Delivered replies client handover.inputs ∧ client.vault.isSome = true ∧
        OutlivesAll replies client.authenticated replies.interrupted 0 handover.payloads ∧
        PutOf replies.put 0 handover.payloads commitment

/-- One of the payloads for the commitment is stored. -/
def Stores (client : Client) (handover : Handover) (commitment : String)
    (operation : OutputOperation) : Prop :=
  (∃ ciphertext, operation.Registers replies client handover (commitment, ciphertext)) ∨
    operation.Vaults replies client handover commitment

end Operations

variable {E : Ciphers} {K : Packages} {replies : OperationReplies} {wallet : Wallet}
  {operation : OutputOperation} {handover : Handover}

theorem delivered_iff {mid client : Client} {inputs : List ShieldNote}
    (h : client.Touches [] mid) :
    Delivered replies mid inputs ↔ Delivered replies client inputs :=
  and_congr_right' (survivedAll_iff h)

theorem touches_of_prepared {prepare : Async Client Prepared} {client mid : Client}
    {prepared : Prepared} (hprepare : Within (Client.Touches []) prepare)
    (h : prepare client = (.returned prepared, mid)) : client.Touches [] mid := by
  have htouches := hprepare client
  rw [h] at htouches
  exact htouches

theorem relayOwn_hands {prepare : Async Client Prepared} {prepared : Prepared} {mid : Client}
    {keys : Keys} (htouches : Within (Client.Touches []) prepare)
    (hprepare : prepare wallet.client = (.returned prepared, mid))
    (hkeys : replies.keys = .returned keys) :
    Leaves wallet.client (relayOwn E K replies prepare wallet).2.client prepared.spends
      (payloadsOf K replies keys.viewingPk 0 prepared.outputs)
      (fun payload => Delivered replies wallet.client prepared.inputs ∧
        Registered replies wallet.client.authenticated replies.interrupted 0
          (payloadsOf K replies keys.viewingPk 0 prepared.outputs) payload)
      fun commitment => Delivered replies wallet.client prepared.inputs ∧
        wallet.client.vault.isSome = true ∧
        OutlivesAll replies wallet.client.authenticated replies.interrupted 0
          (payloadsOf K replies keys.viewingPk 0 prepared.outputs) ∧
        PutOf replies.put 0 (payloadsOf K replies keys.viewingPk 0 prepared.outputs)
          commitment := by
  have hsame := touches_of_prepared htouches hprepare
  have hleaves := relayOwn_leaves (E := E) (K := K) hprepare hkeys
  simp only [delivered_iff hsame, hsame.authenticated, hsame.vault] at hleaves
  exact hleaves.after (hsame.mono (List.nil_subset _))

theorem hands_leaves (h : operation.Hands E K replies wallet handover) :
    Leaves wallet.client (operation.run E K replies wallet).2.client handover.spends
      handover.payloads
      (fun payload => operation.Registers replies wallet.client handover payload)
      fun commitment => operation.Vaults replies wallet.client handover commitment := by
  cases h with
  | transfer hprepare haddress =>
      have hsame := touches_of_prepared (touches_prepareTransfer _ _) hprepare
      have hleaves := transfer_leaves (E := E) hprepare haddress
      simp only [delivered_iff hsame, hsame.authenticated] at hleaves
      exact hleaves.after (hsame.mono (List.nil_subset _))
  | split hprepare hkeys => exact relayOwn_hands (touches_prepareSplit _ _ _) hprepare hkeys
  | merge hprepare hkeys => exact relayOwn_hands (touches_prepareMerge _ _) hprepare hkeys
  | shield hprepare =>
      have hrun {base : Int} : ((OutputOperation.own (.shield base)).run E K replies wallet).2 =
          (Sdk.shield E K replies base wallet).2 := bind_pure_snd
      rw [hrun]
      refine (shield_leaves hprepare).congr (fun payload => ?_) fun commitment => ?_
      · exact and_congr_right' List.mem_singleton.symm
      · refine and_congr_right' (and_congr_right' ?_)
        exact eq_comm.trans List.mem_singleton.symm

/-- The outputs are new: nobody has registered or kept their commitments before. -/
def New (E : Ciphers) (K : Packages) (replies : OperationReplies) (wallet : Wallet)
    (operation : OutputOperation) : Prop :=
  ∀ handover, operation.Hands E K replies wallet handover →
    ∀ payload ∈ handover.payloads, wallet.client.New handover.spends payload.1

/-- If the transaction succeeds, the outputs are stored. -/
def AllStored (E : Ciphers) (K : Packages) (replies : OperationReplies) (wallet : Wallet)
    (operation : OutputOperation) : Prop :=
  Working replies wallet.client → replies.landed = true →
    ∀ handover, operation.Hands E K replies wallet handover →
      ∀ payload ∈ handover.payloads, operation.Stores replies wallet.client handover payload.1

/-- A relayer confirms the transaction, the session is accepted, and the process stays up. -/
structure Undisturbed (replies : OperationReplies) (client : Client) : Prop where
  confirmed : ∃ txid, submitRelayed "" replies.relayers = .returned txid
  survives : ∀ i note, (replies.consumed i).Survived note client
  up : ∀ k, replies.interrupted k = false
  session : client.authenticated = true
  written : ∀ k, 0 < (registration (registrationOf replies k) apiRetries 0).writes
  outlives : ∀ k, Outlives replies client.authenticated k

namespace Undisturbed

variable (h : Undisturbed replies wallet.client)
include h

theorem delivered (inputs : List ShieldNote) : Delivered replies wallet.client inputs := by
  refine ⟨h.confirmed, ?_⟩
  generalize 0 = i
  induction inputs generalizing i with
  | nil => trivial
  | cons note rest ih => exact ⟨h.survives i note, ih (i + 1)⟩

/-- All the payloads are registered, one after the other. -/
theorem registered {interrupted : Nat → Bool} (hup : ∀ k, interrupted k = false)
    {payloads : List Payload} {payload : Payload} (hmem : payload ∈ payloads) (k : Nat) :
    Registered replies wallet.client.authenticated interrupted k payloads payload := by
  induction payloads generalizing k with
  | nil => cases hmem
  | cons first rest ih =>
      refine ⟨hup k, ?_⟩
      rcases List.mem_cons.mp hmem with rfl | hrest
      · exact .inl ⟨h.session, h.written k, rfl⟩
      · exact .inr ⟨h.outlives k, ih hrest (k + 1)⟩

theorem registers {payload : Payload} (hmem : payload ∈ handover.payloads) :
    operation.Registers replies wallet.client handover payload := by
  cases operation with
  | transfer base recipient => exact ⟨h.delivered _, h.registered (fun _ => rfl) hmem 0⟩
  | own operation =>
      cases operation with
      | shield base => exact ⟨h.written 0, hmem⟩
      | split note a1 a2 => exact ⟨h.delivered _, h.registered h.up hmem 0⟩
      | merge i1 i2 => exact ⟨h.delivered _, h.registered h.up hmem 0⟩

theorem allStored : operation.AllStored E K replies wallet :=
  fun _ _ _ _ payload hmem => .inl ⟨payload.2, h.registers hmem⟩

end Undisturbed

end OutputOperation

namespace Sample

/-- A relayer takes an operation, and is not heard of again before the deadline; everything
else is answered. -/
def unheardOf : OperationReplies where
  toShieldReplies :=
    { listing [inputNote.commitment] with
      relayers := [{ accept := fun _ => .accepted, statuses := [.other] }] }
  interrupted _ := false
  landed := true

def halves : OutputOperation := .own (.split inputNote 400000 600000)

/-- Whether the outputs of the split are found in the end. -/
def halvesFound : Option Bool :=
  match prepareSplit packages unheardOf.toReplies inputNote 400000 600000 wallet with
  | (.returned prepared, _) =>
      let payloads := payloadsOf packages unheardOf [] 0 prepared.outputs
      some (payloads.all fun payload =>
        (halves.run transparent packages unheardOf ⟨wallet, []⟩).2.client.Finds payloads payload.1)
  | _ => none

/-- The relayer confirms the operation the second time that it is asked. -/
def confirming : OperationReplies :=
  { unheardOf with
    relayers := [{ accept := fun _ => .accepted, statuses := [.other, .confirmed "txid"] }] }

theorem confirming_accepts (k : Nat) : registrationOf confirming k = fun _ => .accepted :=
  ite_self _

theorem confirming_undisturbed :
    OutputOperation.Undisturbed confirming (Wallet.client ⟨wallet, []⟩) where
  confirmed := ⟨"txid", rfl⟩
  survives i note := by
    refine ⟨fun _ hcrashed => ?_, fun _ => ⟨fun _ hcrashed => ?_, fun _ hcrashed => ?_⟩⟩
    all_goals cases hcrashed
  up _ := rfl
  session := rfl
  written k := by
    rw [confirming_accepts]
    exact Nat.one_pos
  outlives k := by
    intro _ hcrashed
    rw [confirming_accepts] at hcrashed
    cases hcrashed

/-- How many payloads the split has where it hands its transaction over. -/
def halvesHanded : Option Nat :=
  match prepareSplit packages confirming.toReplies inputNote 400000 600000 wallet with
  | (.returned prepared, _) => some (payloadsOf packages confirming [] 0 prepared.outputs).length
  | _ => none

end Sample

end StxShield.Sdk
