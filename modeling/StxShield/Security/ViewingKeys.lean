import StxShield.Library.TwoRuns
import StxShield.Sdk.NoteDelivery
import StxShield.Sdk.Operations
import StxShield.Security.ShieldStatements

/-!
# What a viewing key tells

Two wallets with different spending secrets run the same operation.  All that differs
between the plaintexts they encrypt is the secret, and it does: whoever can read one of
them knows it.
-/

namespace StxShield.Sdk

open Library JavaScript Circuit Async

/-! ## Plaintexts -/

section Plaintexts

theorem encodeText_injective {text text' : List Char} (h : encodeText text = encodeText text') :
    text = text' := by
  have hbytes : (String.ofList text).toByteArray = (String.ofList text').toByteArray :=
    ByteArray.ext (Array.toList_inj.mp h)
  exact String.ofList_injective (String.toByteArray_inj.mp hbytes)

theorem textOf_injective {x y : Int} (h : textOf 10 x = textOf 10 y) : x = y := by
  have hread := bigInt_textOf x
  rw [h, bigInt_textOf y] at hread
  exact (Except.ok.inj hread).symm

variable (E : Ciphers)

/-- A plaintext shows the spending secret. -/
theorem serialize_eq_iff (p : NotePayload) (sk sk' : Int) :
    serialize E { p with ownerSk := sk } = serialize E { p with ownerSk := sk' } ↔ sk = sk' := by
  constructor
  · intro h
    obtain ⟨front, back, hprint⟩ := Json.exists_printMembers
      [numberMember E 'v' p.version, stringMember 'a' (textOf 10 p.amount),
        stringMember 'b' (textOf 10 p.blinding)]
      ([stringMember 'n' (textOf 10 p.nonce), stringMember 'c' (b2h p.commitment),
        numberMember E 't' p.treePosition] ++ assetMember E p.assetId)
    have hserialize (secret : Int) : serialize E { p with ownerSk := secret } =
        encodeText ('\x7b' :: (front ++ (stringMember 's' (textOf 10 secret)).print ++ back) ++
          ['\x7d']) := by
      rw [← hprint]
      rfl
    rw [hserialize, hserialize] at h
    have htext := encodeText_injective h
    simp only [List.cons_append, List.cons.injEq, true_and, List.append_assoc,
      List.append_cancel_left_eq, List.append_cancel_right_eq, stringMember, Json.Member.print,
      Json.quoted] at htext
    exact textOf_injective htext
  · rintro rfl
    rfl

end Plaintexts

/-! ## Two wallets -/

def OwnerKey.ownedBy (sk : Int) (key : OwnerKey) : OwnerKey := { key with sk := sk }

def Keys.ownedBy (sk : Int) (keys : Keys) : Keys := { keys with owner := keys.owner.ownedBy sk }

def ShieldNote.ownedBy (sk : Int) (note : ShieldNote) : ShieldNote :=
  { note with secret := { note.secret with ownerSk := sk } }

def NewNote.ownedBy (sk : Int) (out : NewNote) : NewNote := { out with note := out.note.ownedBy sk }

def Client.ownedBy (sk : Int) (client : Client) : Client :=
  { client with store := client.store.map (ShieldNote.ownedBy sk) }

/-- The same answers to a wallet of another spending secret. -/
def OperationReplies.ownedBy (sk : Int) (replies : OperationReplies) : OperationReplies :=
  { replies with keys := replies.keys.map (Keys.ownedBy sk) }

def OwnOperation.ownedBy (sk : Int) : OwnOperation → OwnOperation
  | .shield base => .shield base
  | .split note a1 a2 => .split (note.ownedBy sk) a1 a2
  | .merge i1 i2 => .merge (i1.ownedBy sk) (i2.ownedBy sk)

/-- What an operation encrypts, in a wallet of this spending secret. -/
def OwnOperation.plaintexts (E : Ciphers) (K : Packages) (operation : OwnOperation)
    (replies : OperationReplies) (client : Client) (sk : Int) : List Bytes :=
  ((operation.ownedBy sk).run E K (replies.ownedBy sk)
    { client := client.ownedBy sk, encrypted := [] }).2.encrypted

/-- Nothing that an operation looks at tells two clients apart. -/
structure Client.Alike (client client' : Client) : Prop where
  synced : client.synced = client'.synced
  authenticated : client.authenticated = client'.authenticated
  vault : client.vault.isSome = client'.vault.isSome

/-- Two wallets whose plaintexts differ if their secrets do. -/
structure Wallet.Tells (sk sk' : Int) (wallet wallet' : Wallet) : Prop where
  client : wallet.client.Alike wallet'.client
  encrypted : List.Forall₂ (fun plaintext plaintext' => plaintext = plaintext' ↔ sk = sk')
    wallet.encrypted wallet'.encrypted

/-! ## Steps side by side -/

section Steps

variable {σ τ : Type} {E : Ciphers} {K : Packages} {replies : OperationReplies} {sk sk' : Int}

theorem paired_onClient {α β : Type} {m : Async Client α} {m' : Async Client β} {Q : α → β → Prop}
    (h : Paired Client.Alike m m' Q) : Paired (Wallet.Tells sk sk') (onClient m) (onClient m') Q :=
  h.zoom_both (fun _ _ halike => halike.client)
    fun _ _ _ _ htells halike => { htells with client := halike }

theorem paired_keys {R : σ → τ → Prop} :
    Paired R (await (replies.ownedBy sk).keys) (await (replies.ownedBy sk').keys)
      fun keys keys' => ∃ seen, keys = Keys.ownedBy sk seen ∧ keys' = Keys.ownedBy sk' seen :=
  Paired.await_maps

theorem paired_syncTree {some other : Replies} (h : some.commitments = other.commitments) :
    Paired Client.Alike (syncTree K some) (syncTree K other) Eq := by
  unfold syncTree
  rw [h]
  refine (Paired.await_same _).bind ?_
  rintro commits _ rfl
  refine (Paired.orThrow_same _).bind ?_
  rintro synced _ rfl
  exact (Paired.modify_both fun s t halike => { halike with synced := rfl }).weaken fun _ _ _ => rfl

theorem paired_appendOutput (commitment : String) :
    Paired Client.Alike (appendOutput K commitment) (appendOutput K commitment) Eq := by
  unfold appendOutput
  refine Paired.get_bind fun s t halike => ?_
  rw [halike.synced]
  refine (Paired.orThrow_same _).bind ?_
  rintro ⟨index, tree⟩ _ rfl
  refine (Paired.modify_both fun s t halike => ?_).bind fun _ _ _ => Paired.pure_both rfl
  exact { halike with synced := by rw [halike.synced] }

/-- Both statements are made, or neither for the same reason. -/
theorem paired_prove {some other : Replies} {statement statement' : Except String Statement}
    (hproof : some.proof = other.proof) (hmeanwhile : some.meanwhile = other.meanwhile)
    (h : ∀ message, statement = .error message ↔ statement' = .error message) :
    Paired Client.Alike (prove some statement) (prove other statement') fun _ _ => True := by
  unfold prove
  rw [hproof, hmeanwhile]
  refine (Paired.orThrow_both h).bind fun _ _ _ => ?_
  refine (Paired.await_same _).bind fun _ _ _ => ?_
  refine (Paired.modify_both fun s t halike => ?_).bind fun _ _ _ => Paired.pure_both trivial
  exact { halike with synced := by rw [halike.synced] }

theorem newNote_ownedBy (amount : Int) (owner : OwnerKey) (blinding : Int) (asset : AssetInfo) :
    newNote K amount (owner.ownedBy sk) blinding asset =
      (newNote K amount owner blinding asset).map (NewNote.ownedBy sk) := by
  unfold newNote newNoteFor
  cases assetFieldFor K asset with
  | error message => rfl
  | ok assetField => rfl

/-- The two new notes differ in their secrets. -/
theorem paired_newNote (amount : Int) (owner : OwnerKey) (blinding : Int) (asset : AssetInfo) :
    Paired Client.Alike (orThrow (newNote K amount (owner.ownedBy sk) blinding asset))
      (orThrow (newNote K amount (owner.ownedBy sk') blinding asset))
      fun out out' => ∃ drawn, out = NewNote.ownedBy sk drawn ∧ out' = NewNote.ownedBy sk' drawn := by
  rw [newNote_ownedBy, newNote_ownedBy]
  exact Paired.orThrow_maps

/-- A failure is passed over. -/
theorem paired_attempt {m m' : Async Client Unit} (h : Paired Client.Alike m m' fun _ _ => True) :
    Paired Client.Alike (recover m fun _ => pure ()) (recover m' fun _ => pure ())
      fun _ _ => True :=
  h.recover_both fun _ => Paired.pure_both trivial

theorem paired_registerNote (commitment ciphertext ciphertext' : String)
    (answers : Nat → ApiAnswer) (remaining attempt : Nat) :
    Paired Client.Alike (registerNote commitment ciphertext answers remaining attempt)
      (registerNote commitment ciphertext' answers remaining attempt) fun _ _ => True := by
  have hif (written : Bool) : Paired Client.Alike
      (modify (registerIf written commitment ciphertext))
      (modify (registerIf written commitment ciphertext')) fun _ _ => True := by
    apply Paired.modify_both
    intro s t halike
    cases written with
    | true => exact ⟨halike.synced, halike.authenticated, halike.vault⟩
    | false => exact halike
  induction remaining generalizing attempt with
  | zero => exact Paired.pure_both trivial
  | succ remaining ih =>
      unfold registerNote
      cases answers attempt with
      | accepted => exact hif true
      | failed written message =>
          exact (hif written).bind fun _ _ _ =>
            Paired.ite_both Iff.rfl (Paired.throwing_both message) (ih (attempt + 1))
      | unauthorized message => exact Paired.throwing_both message
      | crashed written => exact (hif written).bind fun _ _ _ => Paired.await_both .crashed

theorem paired_storeCiphertext (note note' : ShieldNote) (hsame : note'.commitment = note.commitment)
    (leafIndex : Nat) (viewingPk : Bytes) (nonce : Int) (answers : Nat → ApiAnswer) :
    Paired Client.Alike (storeCiphertext K note leafIndex viewingPk nonce answers)
      (storeCiphertext K note' leafIndex viewingPk nonce answers) fun _ _ => True := by
  unfold storeCiphertext
  refine Paired.get_bind fun s t halike => ?_
  rw [halike.authenticated, hsame]
  refine Paired.ite_both Iff.rfl ?_ (Paired.pure_both trivial)
  exact (paired_attempt (paired_registerNote _ _ _ _ _ _)).bind fun _ _ _ =>
    Paired.pure_both trivial

/-- The one place where the secrets show. -/
theorem paired_encryptAndStore (note : ShieldNote) (leafIndex : Nat) (viewingPk : Bytes)
    (nonce : Int) (answers : Nat → ApiAnswer) :
    Paired (Wallet.Tells sk sk')
      (encryptAndStore E K (note.ownedBy sk) leafIndex viewingPk nonce answers)
      (encryptAndStore E K (note.ownedBy sk') leafIndex viewingPk nonce answers)
      fun _ _ => True := by
  unfold encryptAndStore
  refine (Paired.modify_both fun s t htells => ?_).bind fun _ _ _ =>
    paired_onClient (paired_storeCiphertext (note.ownedBy sk) (note.ownedBy sk') rfl leafIndex
      viewingPk nonce answers)
  refine { htells with encrypted := List.rel_append htells.encrypted (.cons ?_ .nil) }
  exact serialize_eq_iff E (payloadOf (note.ownedBy sk) leafIndex nonce) sk sk'

/-- The computation does the same with clients that are alike. -/
def Blind (m : Async Client Unit) : Prop := Paired Client.Alike m m fun _ _ => True

theorem blind_await (reply : Ending Unit) : Blind (await reply) :=
  (Paired.await_same reply).weaken fun _ _ _ => trivial

/-- Marking a note spent on the API. -/
theorem blind_report (authenticated : Bool) (note : ShieldNote) (answers : ConsumeAnswers) :
    Blind (do
      if authenticated then
        recover (do
          if note.ciphertext ≠ "" then
            registerNote note.commitment note.ciphertext answers.register apiRetries 0
          await answers.markSpent) fun _ => pure ()) := by
  refine Paired.ite_both Iff.rfl (paired_attempt ?_) (Paired.pure_both trivial)
  refine Paired.ite_both Iff.rfl ?_ (blind_await _)
  exact (paired_registerNote _ _ _ _ _ _).bind fun _ _ _ => blind_await _

theorem blind_consume (note : ShieldNote) (answers : ConsumeAnswers) :
    Blind (consume note answers) := by
  unfold Blind consume
  refine (Paired.modify_both fun s t halike => ?_).bind fun _ _ _ => ?_
  · exact ⟨halike.synced, halike.authenticated, halike.vault⟩
  refine Paired.get_bind fun s t halike => ?_
  rw [halike.vault, halike.authenticated]
  have hreport := blind_report t.authenticated note answers
  refine Paired.ite_both Iff.rfl ?_ hreport
  refine (paired_attempt ?_).bind fun _ _ _ => hreport
  refine (Paired.await_same _).bind fun _ _ _ => Paired.modify_both fun s t halike => ?_
  refine { halike with vault := ?_ }
  rw [Client.flagSpent, Client.flagSpent, Option.isSome_map, Option.isSome_map, halike.vault]

/-- What is consumed does not show its secret. -/
theorem blind_consumeAll (answers : Nat → ConsumeAnswers) (i : Nat) (notes : List ShieldNote) :
    Paired Client.Alike (consumeAll answers i (notes.map (ShieldNote.ownedBy sk)))
      (consumeAll answers i (notes.map (ShieldNote.ownedBy sk'))) fun _ _ => True := by
  induction notes generalizing i with
  | nil => exact Paired.pure_both trivial
  | cons note rest ih => exact Paired.bind (blind_consume note (answers i)) fun _ _ _ => ih (i + 1)

end Steps

/-! ## Operations side by side -/

section Operations

variable {E : Ciphers} {K : Packages} {replies : OperationReplies} {sk sk' : Int}

theorem f_nullifierOf (commitment ownerSk : Int) :
    ∃ field, f (nullifierOf K commitment ownerSk) = .ok field :=
  ⟨K.builtins.hash2 (reduce commitment) (reduce ownerSk), f_ok.mpr rfl⟩

/-- Whether a statement is made does not depend on its nullifier. -/
theorem splitInputs_error {w w' : SplitWitness} (hw : ∃ field, f w.nullifier = .ok field)
    (hw' : ∃ field, f w'.nullifier = .ok field)
    (hsame : { w with nullifier := w'.nullifier, ownerSk := w'.ownerSk } = w') (message : String) :
    splitInputs w = .error message ↔ splitInputs w' = .error message := by
  obtain ⟨n, hn⟩ := hw
  obtain ⟨n', hn'⟩ := hw'
  rw [← hsame]
  unfold splitInputs
  simp only [hn, hn', except_bind_error, except_pure_error, reduceCtorEq, false_or,
    Except.ok.injEq, exists_eq_left']

theorem mergeInputs_error {w w' : MergeWitness} (hw1 : ∃ field, f w.nullifier1 = .ok field)
    (hw1' : ∃ field, f w'.nullifier1 = .ok field) (hw2 : ∃ field, f w.nullifier2 = .ok field)
    (hw2' : ∃ field, f w'.nullifier2 = .ok field)
    (hsame : { w with
      nullifier1 := w'.nullifier1, nullifier2 := w'.nullifier2,
      ownerSk1 := w'.ownerSk1, ownerSk2 := w'.ownerSk2 } = w') (message : String) :
    mergeInputs w = .error message ↔ mergeInputs w' = .error message := by
  obtain ⟨n1, hn1⟩ := hw1
  obtain ⟨n1', hn1'⟩ := hw1'
  obtain ⟨n2, hn2⟩ := hw2
  obtain ⟨n2', hn2'⟩ := hw2'
  rw [← hsame]
  unfold mergeInputs
  simp only [hn1, hn1', hn2, hn2', except_bind_error, except_pure_error, reduceCtorEq, false_or,
    Except.ok.injEq, exists_eq_left']

/-- The same inputs and outputs, but for their secrets. -/
structure Prepared.Match (sk sk' : Int) (p p' : Prepared) : Prop where
  inputs : ∃ inputs : List ShieldNote, p.inputs = inputs.map (ShieldNote.ownedBy sk) ∧
    p'.inputs = inputs.map (ShieldNote.ownedBy sk')
  outputs : ∃ outputs : List (ShieldNote × Nat), p.outputs = outputs.map (Prod.map (ShieldNote.ownedBy sk) id) ∧
    p'.outputs = outputs.map (Prod.map (ShieldNote.ownedBy sk') id)

theorem paired_prepareSplit (note : ShieldNote) (a1 a2 : Int) :
    Paired Client.Alike
      (prepareSplit K (replies.ownedBy sk).toReplies (note.ownedBy sk) a1 a2)
      (prepareSplit K (replies.ownedBy sk').toReplies (note.ownedBy sk') a1 a2)
      (Prepared.Match sk sk') := by
  unfold prepareSplit
  refine paired_keys.bind ?_
  rintro _ _ ⟨keys, rfl, rfl⟩
  refine (Paired.throwIf_both Iff.rfl _).bind fun _ _ _ => ?_
  refine (paired_syncTree rfl).bind fun _ _ _ => ?_
  refine Paired.get_bind fun s t halike => ?_
  dsimp only
  rw [halike.synced]
  refine (paired_newNote _ _ _ _).bind ?_
  rintro _ _ ⟨o1, rfl, rfl⟩
  refine (paired_newNote _ _ _ _).bind ?_
  rintro _ _ ⟨o2, rfl, rfl⟩
  refine (Paired.orThrow_same _).bind ?_
  rintro commitment _ rfl
  refine (Paired.orThrow_same _).bind ?_
  rintro witnessed _ rfl
  refine (Paired.orThrow_same _).bind ?_
  rintro insertion1 _ rfl
  refine (paired_appendOutput _).bind ?_
  rintro l1 _ rfl
  refine Paired.get_bind fun middle middle' hmiddle => ?_
  rw [hmiddle.synced]
  refine (Paired.orThrow_same _).bind ?_
  rintro insertion2 _ rfl
  refine (paired_appendOutput _).bind ?_
  rintro l2 _ rfl
  refine Paired.get_bind fun appended appended' happended => ?_
  refine (Paired.orThrow_same _).bind ?_
  rintro assetField _ rfl
  refine (paired_prove rfl rfl (splitInputs_error (f_nullifierOf _ _) (f_nullifierOf _ _) rfl)).bind
    fun _ _ _ => ?_
  refine (Paired.await_same _).bind fun _ _ _ => Paired.pure_both ?_
  exact ⟨⟨[note], rfl, rfl⟩, ⟨[(o1.note, l1), (o2.note, l2)], rfl, rfl⟩⟩

theorem paired_prepareMerge (i1 i2 : ShieldNote) :
    Paired Client.Alike
      (prepareMerge K (replies.ownedBy sk).toReplies (i1.ownedBy sk) (i2.ownedBy sk))
      (prepareMerge K (replies.ownedBy sk').toReplies (i1.ownedBy sk') (i2.ownedBy sk'))
      (Prepared.Match sk sk') := by
  unfold prepareMerge
  refine paired_keys.bind ?_
  rintro _ _ ⟨keys, rfl, rfl⟩
  refine (Paired.throwIf_both Iff.rfl _).bind fun _ _ _ => ?_
  refine (paired_newNote _ _ _ _).bind ?_
  rintro _ _ ⟨out, rfl, rfl⟩
  refine (paired_syncTree rfl).bind fun _ _ _ => ?_
  refine Paired.get_bind fun s t halike => ?_
  dsimp only
  rw [halike.synced]
  refine (Paired.orThrow_same _).bind ?_
  rintro commitment1 _ rfl
  refine (Paired.orThrow_same _).bind ?_
  rintro commitment2 _ rfl
  refine (Paired.orThrow_same _).bind ?_
  rintro insertion _ rfl
  refine (Paired.orThrow_same _).bind ?_
  rintro membership1 _ rfl
  refine (Paired.orThrow_same _).bind ?_
  rintro membership2 _ rfl
  refine (Paired.orThrow_same _).bind ?_
  rintro assetField _ rfl
  refine (paired_prove rfl rfl (mergeInputs_error (f_nullifierOf _ _) (f_nullifierOf _ _)
    (f_nullifierOf _ _) (f_nullifierOf _ _) rfl)).bind fun _ _ _ => ?_
  refine Paired.get_bind fun resumed resumed' hresumed => ?_
  refine (paired_appendOutput _).bind ?_
  rintro leaf _ rfl
  refine Paired.get_bind fun appended appended' happended => ?_
  refine (Paired.await_same _).bind fun _ _ _ => Paired.pure_both ?_
  exact ⟨⟨[i1, i2], rfl, rfl⟩, ⟨[(out.note, leaf)], rfl, rfl⟩⟩

theorem paired_fetchCurrentRoot :
    Paired Client.Alike (fetchCurrentRoot (replies.ownedBy sk).toShieldReplies)
      (fetchCurrentRoot (replies.ownedBy sk').toShieldReplies) Eq := by
  unfold fetchCurrentRoot
  refine (Paired.await_same _).bind ?_
  rintro root _ rfl
  refine (Paired.modify_both fun s t halike => ?_).bind fun _ _ _ => Paired.pure_both rfl
  exact { halike with synced := congrArg replies.elsewhere halike.synced }

theorem paired_draftShield (base : Int) :
    Paired Client.Alike (draftShield K (replies.ownedBy sk).toShieldReplies base)
      (draftShield K (replies.ownedBy sk').toShieldReplies base)
      fun draft draft' => ∃ drawn statement, draft.out = NewNote.ownedBy sk drawn ∧
        draft' = { draft with statement := statement, out := drawn.ownedBy sk' } := by
  unfold draftShield
  refine (Paired.await_same _).bind ?_
  rintro asset _ rfl
  refine (Paired.throwIf_both Iff.rfl _).bind fun _ _ _ => ?_
  refine (Paired.throwIf_both Iff.rfl _).bind fun _ _ _ => ?_
  refine paired_keys.bind ?_
  rintro _ _ ⟨keys, rfl, rfl⟩
  refine (Paired.await_same _).bind fun _ _ _ => ?_
  refine (Paired.modify_both fun s t halike => ?_).bind fun _ _ _ => ?_
  · exact ⟨halike.synced, rfl, halike.vault⟩
  refine (paired_syncTree rfl).bind fun _ _ _ => ?_
  refine (paired_newNote _ _ _ _).bind ?_
  rintro _ _ ⟨out, rfl, rfl⟩
  refine paired_fetchCurrentRoot.bind ?_
  rintro currentRoot _ rfl
  refine Paired.get_bind fun s t halike => ?_
  dsimp only
  rw [halike.synced]
  refine (Paired.orThrow_same _).bind ?_
  rintro insertion _ rfl
  refine (paired_prove rfl rfl fun _ => Iff.rfl).bind fun statement statement' _ => ?_
  refine (paired_appendOutput _).bind ?_
  rintro leafIndex _ rfl
  refine Paired.get_bind fun appended appended' happended => ?_
  rw [happended.synced]
  exact Paired.pure_both ⟨out, statement', rfl, rfl⟩

/-- The notes that the two wallets keep have the same commitment. -/
theorem paired_completeShield (base : Int) (draft : ShieldDraft) (drawn : NewNote)
    (statement : Statement) (hout : draft.out = NewNote.ownedBy sk drawn)
    (ciphertext ciphertext' : String) :
    Paired Client.Alike
      (completeShield K (replies.ownedBy sk).toShieldReplies base draft ciphertext)
      (completeShield K (replies.ownedBy sk').toShieldReplies base
        { draft with statement := statement, out := drawn.ownedBy sk' } ciphertext')
      fun prepared prepared' => prepared.note.commitment = prepared'.note.commitment := by
  unfold completeShield
  rw [hout]
  refine (Paired.await_same _).bind ?_
  rintro inclusion _ rfl
  refine (Paired.orThrow_same _).bind ?_
  rintro transaction _ rfl
  exact Paired.pure_both rfl

theorem paired_prepareRecorded (base : Int) :
    Paired (Wallet.Tells sk sk') (prepareRecorded E K (replies.ownedBy sk) base)
      (prepareRecorded E K (replies.ownedBy sk') base)
      fun prepared prepared' => prepared.note.commitment = prepared'.note.commitment := by
  unfold prepareRecorded
  refine (paired_onClient (paired_draftShield base)).bind ?_
  rintro draft _ ⟨drawn, statement, hout, rfl⟩
  dsimp only
  rw [hout]
  refine (paired_encryptAndStore _ _ _ _ _).bind fun ciphertext ciphertext' _ => ?_
  exact paired_onClient (paired_completeShield base draft drawn statement hout _ _)

/-! ### Keeping notes -/

theorem Client.Alike.trans {first second third : Client} (h : first.Alike second)
    (h' : second.Alike third) : first.Alike third :=
  ⟨h.synced.trans h'.synced, h.authenticated.trans h'.authenticated, h.vault.trans h'.vault⟩

theorem Client.Alike.symm {client client' : Client} (h : client.Alike client') :
    client'.Alike client :=
  ⟨h.synced.symm, h.authenticated.symm, h.vault.symm⟩

theorem Client.alike_add (client : Client) (note : ShieldNote) : client.Alike (client.add note) :=
  ⟨rfl, rfl, rfl⟩

theorem Client.alike_addAll (client : Client) (notes : List ShieldNote) :
    client.Alike (client.addAll notes) := by
  induction notes generalizing client with
  | nil => exact ⟨rfl, rfl, rfl⟩
  | cons note rest ih => exact (client.alike_add note).trans (ih (client.add note))

theorem alike_persist (client : Client) (note : ShieldNote) (written : Bool) :
    client.Alike (persist note written client) := by
  cases written with
  | false => exact ⟨rfl, rfl, rfl⟩
  | true => exact ⟨rfl, rfl, (Option.isSome_map ..).symm⟩

theorem alike_persistAll (put : Nat → Bool) (k : Nat) (notes : List ShieldNote) (client : Client) :
    client.Alike (persistAll put k notes client) := by
  induction notes generalizing k client with
  | nil => exact ⟨rfl, rfl, rfl⟩
  | cons note rest ih => exact (alike_persist client note (put k)).trans (ih (k + 1) _)

/-- What is kept does not tell the clients apart. -/
theorem paired_keep {keep keep' : Client → Client}
    (h : ∀ client : Client, client.Alike (keep client))
    (h' : ∀ client : Client, client.Alike (keep' client)) :
    Paired (Wallet.Tells sk sk') (onClient (modify keep)) (onClient (modify keep'))
      fun _ _ => True :=
  paired_onClient (Paired.modify_both fun s t halike =>
    ((h s).symm.trans halike).trans (h' t))

theorem paired_rollBack (commitment : String) :
    Paired Client.Alike (rollBack (replies.ownedBy sk) commitment)
      (rollBack (replies.ownedBy sk') commitment) fun _ _ => True := by
  unfold rollBack
  refine (Paired.modify_both fun s t halike => ?_).bind fun _ _ _ => ?_
  · exact ⟨halike.synced, halike.authenticated, halike.vault⟩
  refine Paired.get_bind fun s t halike => ?_
  rw [halike.vault]
  refine Paired.ite_both Iff.rfl (paired_attempt ?_) (Paired.pure_both trivial)
  refine (Paired.modify_both fun s t halike => ?_).bind fun _ _ _ => blind_await _
  change Client.Alike (if replies.removed.1 then s.forget commitment else s)
    (if replies.removed.1 then t.forget commitment else t)
  split
  case isTrue =>
    refine { halike with vault := ?_ }
    rw [Client.forget, Client.forget, Option.isSome_map, Option.isSome_map, halike.vault]
  case isFalse => exact halike

theorem paired_shield (base : Int) :
    Paired (Wallet.Tells sk sk') (shield E K (replies.ownedBy sk) base)
      (shield E K (replies.ownedBy sk') base) fun _ _ => True := by
  unfold shield
  refine (paired_prepareRecorded base).bind fun prepared prepared' hsame => ?_
  refine (Paired.await_same _).bind ?_
  rintro txid _ rfl
  dsimp only
  rw [hsame]
  refine (paired_keep ?_ ?_).bind fun _ _ _ => ?_
  · exact fun client => (client.alike_add _).trans (alike_persist _ _ _)
  · exact fun client => (client.alike_add _).trans (alike_persist _ _ _)
  have hconfirmed : Paired (Wallet.Tells sk sk')
      (recover (await (replies.ownedBy sk).confirmation) fun message => do
        onClient (rollBack (replies.ownedBy sk) prepared'.note.commitment)
        throwing message)
      (recover (await (replies.ownedBy sk').confirmation) fun message => do
        onClient (rollBack (replies.ownedBy sk') prepared'.note.commitment)
        throwing message) Eq := by
    refine (Paired.await_same _).recover_both fun message => ?_
    exact (paired_onClient (paired_rollBack _)).bind fun _ _ _ => Paired.throwing_both message
  refine hconfirmed.bind ?_
  rintro confirmed _ rfl
  refine (paired_keep ?_ ?_).bind fun _ _ _ => Paired.pure_both trivial
  · intro client
    cases confirmed with
    | true => exact alike_persist _ _ _
    | false => exact ⟨rfl, rfl, rfl⟩
  · intro client
    cases confirmed with
    | true => exact alike_persist _ _ _
    | false => exact ⟨rfl, rfl, rfl⟩

theorem paired_ownViewingPk (k : Nat) :
    Paired (Wallet.Tells sk sk') (ownViewingPk (replies.ownedBy sk) k)
      (ownViewingPk (replies.ownedBy sk') k) Eq := by
  unfold ownViewingPk
  refine paired_keys.bind ?_
  rintro _ _ ⟨keys, rfl, rfl⟩
  exact (Paired.await_same _).bind fun _ _ _ => Paired.pure_both rfl

theorem paired_storeOutputs (k : Nat) (outputs : List (ShieldNote × Nat)) :
    Paired (Wallet.Tells sk sk')
      (storeOutputs E K (replies.ownedBy sk) (ownViewingPk (replies.ownedBy sk)) k
        (outputs.map (Prod.map (ShieldNote.ownedBy sk) id)))
      (storeOutputs E K (replies.ownedBy sk') (ownViewingPk (replies.ownedBy sk')) k
        (outputs.map (Prod.map (ShieldNote.ownedBy sk') id))) fun _ _ => True := by
  induction outputs generalizing k with
  | nil => exact Paired.pure_both trivial
  | cons output rest ih =>
      refine Paired.bind (paired_ownViewingPk k) ?_
      rintro key _ rfl
      refine (paired_encryptAndStore output.1 output.2 key _ _).bind fun _ _ _ => ?_
      exact (ih (k + 1)).bind fun _ _ _ => Paired.pure_both trivial

/-- An operation does the same after it is prepared. -/
theorem paired_relayOwn {prepare prepare' : Async Client Prepared}
    (h : Paired Client.Alike prepare prepare' (Prepared.Match sk sk')) :
    Paired (Wallet.Tells sk sk') (relayOwn E K (replies.ownedBy sk) prepare)
      (relayOwn E K (replies.ownedBy sk') prepare') fun _ _ => True := by
  have hrelay : Paired (Wallet.Tells sk sk') (relay (replies.ownedBy sk) prepare)
      (relay (replies.ownedBy sk') prepare')
      fun relayed relayed' => Prepared.Match sk sk' relayed.1 relayed'.1 := by
    unfold relay
    refine (paired_onClient h).bind fun prepared prepared' hmatch => ?_
    refine (Paired.await_same _).bind fun _ _ _ => ?_
    obtain ⟨inputs, hinputs, hinputs'⟩ := hmatch.inputs
    rw [hinputs, hinputs']
    exact (paired_onClient (blind_consumeAll _ 0 inputs)).bind fun _ _ _ => Paired.pure_both hmatch
  unfold relayOwn
  refine hrelay.bind ?_
  rintro ⟨prepared, txid⟩ ⟨prepared', txid'⟩ hmatch
  obtain ⟨outputs, houtputs, houtputs'⟩ := hmatch.outputs
  dsimp only at houtputs houtputs' ⊢
  rw [houtputs, houtputs']
  refine (paired_storeOutputs 0 outputs).bind fun _ _ _ => ?_
  refine (paired_keep ?_ ?_).bind fun _ _ _ => Paired.pure_both trivial
  · exact fun client => (client.alike_addAll _).trans (alike_persistAll _ _ _ _)
  · exact fun client => (client.alike_addAll _).trans (alike_persistAll _ _ _ _)

theorem paired_run (operation : OwnOperation) :
    Paired (Wallet.Tells sk sk') ((operation.ownedBy sk).run E K (replies.ownedBy sk))
      ((operation.ownedBy sk').run E K (replies.ownedBy sk')) fun _ _ => True := by
  cases operation with
  | shield base => exact (paired_shield base).bind fun _ _ _ => Paired.pure_both trivial
  | split note a1 a2 => exact paired_relayOwn (paired_prepareSplit note a1 a2)
  | merge i1 i2 => exact paired_relayOwn (paired_prepareMerge i1 i2)

end Operations

/-- Two wallets that differ in their spending secrets encrypt as many plaintexts, whatever comes
of the operation, and any two of them are the same exactly if the secrets are. -/
theorem plaintexts_equal_iff (E : Ciphers) (K : Packages) (operation : OwnOperation)
    (replies : OperationReplies) (client : Client) (sk sk' : Int) :
    List.Forall₂ (fun plaintext plaintext' => plaintext = plaintext' ↔ sk = sk')
      (operation.plaintexts E K replies client sk) (operation.plaintexts E K replies client sk') := by
  have hstart : Wallet.Tells sk sk' { client := client.ownedBy sk, encrypted := [] }
      { client := client.ownedBy sk', encrypted := [] } := ⟨⟨rfl, rfl, rfl⟩, .nil⟩
  exact (paired_run operation _ _ hstart).2.encrypted

/-- One STX is shielded without a failure, by wallets with the secrets one and two. -/
theorem plaintexts_differ :
    ¬ ∀ (E : Ciphers) (K : Packages) (operation : OwnOperation) (replies : OperationReplies)
      (client : Client) (sk sk' : Int),
      operation.plaintexts E K replies client sk = operation.plaintexts E K replies client sk' := by
  intro halways
  have hsame := halways Sample.transparent Sample.packages (.shield 1000000)
    { toShieldReplies := Sample.listing [Sample.inputNote.commitment]
      interrupted := fun _ => false
      landed := true } Sample.wallet 1 2
  revert hsame
  decide +kernel

end StxShield.Sdk
