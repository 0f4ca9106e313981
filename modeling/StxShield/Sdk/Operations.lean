import StxShield.Sdk.Encryption
import StxShield.Sdk.NoteStore
import StxShield.Sdk.Shielding

/-!
# Operations to their end

Once its transaction is out an operation waits for it, consumes its inputs, and encrypts
and keeps its outputs.  The plaintexts are on record, in the order they are encrypted in.
-/

namespace StxShield.Sdk

open Library JavaScript Circuit Async Relay

/-- The client, and the plaintexts it has encrypted. -/
structure Wallet where
  client : Client
  encrypted : List Bytes

def onClient {α : Type} (m : Async Client α) : Async Wallet α :=
  zoom Wallet.client (fun client wallet => { wallet with client := client }) m

/-- The answers a whole operation gets. -/
structure OperationReplies extends ShieldReplies where
  /-- Whether the process goes down while the keys, derived before, are awaited again. -/
  interrupted : Nat → Bool
  /-- Whether the transaction succeeds on chain; the client may not hear of it. -/
  landed : Bool

variable (E : Ciphers) (K : Packages) (replies : OperationReplies)

/-! ## Steps -/

/-- `storeCiphertext`, with its plaintext on record. -/
def encryptAndStore (note : ShieldNote) (leafIndex : Nat) (viewingPk : Bytes) (nonce : Int)
    (answers : Nat → ApiAnswer) : Async Wallet String := do
  modify fun wallet =>
    { wallet with
      encrypted := wallet.encrypted ++ [serialize E (payloadOf note leafIndex nonce)] }
  onClient (storeCiphertext K note leafIndex viewingPk nonce answers)

def consumeAll (answers : Nat → ConsumeAnswers) : Nat → List ShieldNote → Async Client Unit
  | _, [] => pure ()
  | i, note :: rest => do
      consume note (answers i)
      consumeAll answers (i + 1) rest

/-- What comes of registering the first output, or the second. -/
def registrationOf (k : Nat) : Nat → ApiAnswer :=
  if k = 0 then replies.registered else replies.registered2

/-- The outputs' payloads, one after the other. -/
def storeOutputs (viewingPk : Nat → Async Wallet Bytes) :
    Nat → List (ShieldNote × Nat) → Async Wallet (List String)
  | _, [] => pure []
  | k, (note, leaf) :: rest => do
      let key ← viewingPk k
      let ciphertext ← encryptAndStore E K note leaf key (replies.nonce k) (registrationOf replies k)
      let others ← storeOutputs viewingPk (k + 1) rest
      pure (ciphertext :: others)

/-- `(await this.keys()).viewing.publicKey` -/
def ownViewingPk (k : Nat) : Async Wallet Bytes := do
  let keys ← await replies.keys
  await (if replies.interrupted k then .crashed else .returned ())
  pure keys.viewingPk

/-- An output as it is kept. -/
def keptNote (newRoot txid : String) (output : ShieldNote × Nat) (ciphertext : String) :
    ShieldNote :=
  { output.1 with
    ciphertext := ciphertext
    root := newRoot
    txid := txid
    secret := { output.1.secret with leafIndex := some (.ofNat output.2) } }

def persistAll (put : Nat → Bool) : Nat → List ShieldNote → Client → Client
  | _, [], client => client
  | k, note :: rest, client => persistAll put (k + 1) rest (persist note (put k) client)

/-- The root that a request publishes. -/
def publishedRoot : RelayRequest → String
  | .transfer request => request.newRoot
  | .split request => request.newRoot
  | .merge request => request.newRoot
  | .withdraw request => request.root

/-! ## Relayed operations -/

/-- A relayer is to confirm the transaction before its inputs are consumed. -/
def relay (prepare : Async Client Prepared) : Async Wallet (Prepared × String) := do
  let prepared ← onClient prepare
  let txid ← await (submitRelayed "" replies.relayers)
  onClient (consumeAll replies.consumed 0 prepared.inputs)
  pure (prepared, txid)

/-- The output is encrypted to the recipient; it is nothing for this wallet to keep. -/
def transfer (base : Int) (recipient : String) : Async Wallet String := do
  let (prepared, txid) ← relay replies (prepareTransfer K replies.toReplies base recipient)
  let address ← orThrow (decodeAddress recipient)
  let _ ← storeOutputs E K replies (fun _ => pure address.viewingPk) 0 prepared.outputs
  pure txid

/-- The outputs of a split or of a merge are one's own. -/
def relayOwn (prepare : Async Client Prepared) : Async Wallet String := do
  let (prepared, txid) ← relay replies prepare
  let ciphertexts ← storeOutputs E K replies (ownViewingPk replies) 0 prepared.outputs
  let notes :=
    List.zipWith (keptNote (publishedRoot prepared.request) txid) prepared.outputs ciphertexts
  onClient (modify fun client => persistAll replies.put 0 notes (client.addAll notes))
  pure txid

def split (note : ShieldNote) (a1 a2 : Int) : Async Wallet String :=
  relayOwn E K replies (prepareSplit K replies.toReplies note a1 a2)

def merge (i1 i2 : ShieldNote) : Async Wallet String :=
  relayOwn E K replies (prepareMerge K replies.toReplies i1 i2)

/-! ## Shields -/

/-- As `prepareShield`, with the plaintext on record. -/
def prepareRecorded (base : Int) : Async Wallet PreparedShield := do
  let draft ← onClient (draftShield K replies.toShieldReplies base)
  let ciphertext ← encryptAndStore E K draft.out.note draft.leafIndex draft.viewingPk
    (replies.nonce 0) replies.registered
  onClient (completeShield K replies.toShieldReplies base draft ciphertext)

/-- A deposit that has been reverted is forgotten. -/
def rollBack (commitment : String) : Async Client Unit := do
  modify fun client => client.remove commitment
  let client ← get
  if client.vault.isSome then
    recover (do
      modify fun client => if replies.removed.1 then client.forget commitment else client
      await replies.removed.2) fun _ => pure ()

def shield (base : Int) : Async Wallet ShieldNote := do
  let prepared ← prepareRecorded E K replies base
  let txid ← await replies.broadcast
  let stored := { prepared.note with txid := txid }
  onClient (modify fun client => persist stored (replies.put 0) (client.add stored))
  let confirmed ← recover (await replies.confirmation) fun message => do
    onClient (rollBack replies stored.commitment)
    throwing message
  onClient (modify fun client =>
    if confirmed then persist stored (replies.put 1) client else client)
  pure stored

/-! ## Runs -/

/-- Operations whose outputs are the wallet's own. -/
inductive OwnOperation where
  | shield (base : Int)
  | split (note : ShieldNote) (a1 a2 : Int)
  | merge (i1 i2 : ShieldNote)

def OwnOperation.run : OwnOperation → Async Wallet String
  | .shield base => do
      let stored ← Sdk.shield E K replies base
      pure stored.txid
  | .split note a1 a2 => Sdk.split E K replies note a1 a2
  | .merge i1 i2 => Sdk.merge E K replies i1 i2

end StxShield.Sdk
