import Mathlib.Data.List.Sort
import StxShield.Sdk.Encryption
import StxShield.Sdk.NoteStore

/-!
# Discovery

The client tries to decrypt every record of the API's feed and of its vault, and keeps
the notes whose payloads reproduce the commitments they are recorded with.
-/

namespace StxShield.Sdk

open Library JavaScript Circuit Async RootPublisher

structure EncryptedNoteRecord where
  commitment : String
  ciphertext : Option String
  root : String
  txid : String
  spent : Bool

section Discovery

variable (E : Ciphers) (K : Packages) (viewing : Bytes) (owner : OwnerKey)
  (assets : List AssetInfo)

/-- What the viewing key makes of a record; an empty ciphertext counts as none. -/
def openRecord (r : EncryptedNoteRecord) : Option NotePayload :=
  match r.ciphertext with
  | none => none
  | some ciphertext =>
      if ciphertext = "" then none
      else
        match decodeEncryptedNote (hexToBytes (String.ofList (withoutMark ciphertext))) with
        | .ok encrypted => tryDecryptNote E encrypted viewing
        | .error _ => none

/-- `byId.get(id)`: of two assets with one number it is the last. -/
def assetById (id : Number) : Option AssetInfo :=
  assets.reverse.find? fun asset => Number.ofNat asset.id = id

/-- The asset of a payload, native if it is about none; `none` for one that is not
supported. -/
def payloadAsset (payload : NotePayload) : Option (Option AssetInfo) :=
  match payload.assetId with
  | some id => if (Value.number id).isTruthy then (assetById assets id).map some else some none
  | none => some none

/-- `assetFieldOf`, where there is an asset that has one. -/
def payloadField (asset : Option AssetInfo) : Except String (Option Int) :=
  match asset with
  | some asset => assetFieldFor K asset
  | none => .ok none

def secretOf (payload : NotePayload) (asset : Option AssetInfo) (assetField : Option Int) :
    NoteSecret where
  ownerSk := owner.sk
  ownerPkX := owner.pkX
  ownerPkY := owner.pkY
  blinding := payload.blinding
  leafIndex := some payload.treePosition
  assetId := (asset.filter fun asset => ¬ asset.native).map AssetInfo.id
  assetField := assetField

def commitmentOfSecret (amount : Int) (s : NoteSecret) : Int :=
  commitmentOf K amount s.ownerPkX s.ownerPkY s.blinding s.assetField

/-- The note that is kept of a record. -/
def recordedNote (r : EncryptedNoteRecord) (payload : NotePayload) (asset : Option AssetInfo)
    (assetField : Option Int) : ShieldNote where
  commitment := r.commitment
  ciphertext := r.ciphertext.getD ""
  root := r.root
  txid := r.txid
  amount := payload.amount
  asset := asset
  spent := r.spent
  secret := secretOf owner payload asset assetField

/-- One turn of the loop. -/
def discoverNote (r : EncryptedNoteRecord) : Except String (Option ShieldNote) :=
  match openRecord E viewing r with
  | none => .ok none
  | some payload =>
      match payloadAsset assets payload with
      | none => .ok none
      | some asset => do
          let assetField ← payloadField K asset
          let note := recordedNote owner r payload asset assetField
          if toHex32 (commitmentOfSecret K payload.amount note.secret) ≠ prefixed r.commitment then
            return none
          return some note

def discoverNotes : List EncryptedNoteRecord → Except String (List ShieldNote)
  | [] => .ok []
  | r :: rest => do
      let found ← discoverNote E K viewing owner assets r
      let out ← discoverNotes rest
      return found.toList ++ out

end Discovery

/-! ## Reading notes -/

/-- The answers `getNotes` gets. -/
structure FeedReplies where
  /-- The owner's key, and the secret half of the viewing key. -/
  keys : Ending (OwnerKey × Bytes)
  records : Ending (List EncryptedNoteRecord)
  assets : Ending (List AssetInfo)
  vaultRecords : Ending (List EncryptedNoteRecord)

section Reading

variable (E : Ciphers) (K : Packages) (replies : FeedReplies)

def withNative (assets : List AssetInfo) : List AssetInfo :=
  if assets.any AssetInfo.native then assets else nativeAsset :: assets

def getAssets : Async Client (List AssetInfo) := do
  let assets ← await replies.assets
  pure (withNative assets)

/-- The notes found in the feed and in the vault; either may be unavailable. -/
def discover : Async Client (List ShieldNote) := do
  let (owner, viewing) ← await replies.keys
  let records ← recover (await replies.records) fun _ => pure []
  let assets ← getAssets replies
  let vaultRecords ← recover (await replies.vaultRecords) fun _ => pure []
  orThrow (discoverNotes E K viewing owner assets (records ++ vaultRecords))

/-- A note without a leaf goes before all others. -/
def newest (n : ShieldNote) : Number := n.secret.leafIndex.getD (.ofNat Json.maxSafeInteger)

/-- `notes.sort((a, b) => newest(b) - newest(a))` -/
def newestFirst (notes : List ShieldNote) : List ShieldNote :=
  notes.insertionSort fun a b => ¬ (newest b).exceeds (newest a)

/-- The unspent notes, of one asset if the caller asks for one; `resolve` is what becomes
of the caller's reference in a list of assets. -/
def getNotes (resolve : Option (List AssetInfo → Except String AssetInfo)) :
    Async Client (List ShieldNote) := do
  let found ← discover E K replies
  modify fun client => client.addAll found
  let client ← get
  let notes := newestFirst client.unspent
  match resolve with
  | none => pure notes
  | some resolve => do
      let assets ← getAssets replies
      let asset ← orThrow (resolve assets)
      pure (notes.filter fun n => sameAsset n.asset asset)

end Reading

end StxShield.Sdk
