import StxShield.Library.Async
import StxShield.Sdk.Notes

/-!
# The client's operations

Each operation awaits the API, the proof engine, zkVerify and a relayer in turn, and
stores what its owner needs of the new notes at the end.  How the awaited calls
end is given with the operation; while one proves, other operations of the same
client may move its tree.

A signer and a proof engine are configured.  Amounts are in base units.
-/

namespace StxShield.Sdk

open Library JavaScript Circuit Async

/-! ## State -/

/-- The tree of the chain's commitments, and where each of them is. -/
structure Synced where
  tree : CommitmentTree
  commitmentIndex : DataMap String Nat

structure PersistedNote where
  ciphertext : String
  root : String
  txid : String
  leafIndex : Option Number
  assetId : Option Nat
  spent : Bool

/-- The client with what the API and the local vault hold of its notes. -/
structure Client where
  synced : Synced
  store : List ShieldNote
  authenticated : Bool
  /-- The payloads registered on the API, by commitment. -/
  api : List (String × String)
  /-- The vault, when one is configured. -/
  vault : Option (DataMap String PersistedNote)

/-! ### The note store -/

namespace Client

/-- A note stays spent, and in its place. -/
def add (client : Client) (note : ShieldNote) : Client :=
  let known := client.store.find? fun stored => stored.commitment = note.commitment
  let note := { note with spent := note.spent || known.elim false ShieldNote.spent }
  { client with
    store :=
      if known.isSome then
        client.store.map fun stored => if stored.commitment = note.commitment then note else stored
      else client.store ++ [note] }

def markSpent (client : Client) (commitment : String) : Client :=
  { client with
    store := client.store.map fun stored =>
      if stored.commitment = commitment then { stored with spent := true } else stored }

def remove (client : Client) (commitment : String) : Client :=
  { client with store := client.store.filter fun stored => stored.commitment ≠ commitment }

/-- `setSpent` of the vault. -/
def flagSpent (client : Client) (commitment : String) : Client :=
  { client with
    vault := client.vault.map fun vault =>
      match vault.lookup commitment with
      | some kept => vault.insert commitment { kept with spent := true }
      | none => vault }

/-- `remove` of the vault. -/
def forget (client : Client) (commitment : String) : Client :=
  { client with vault := client.vault.map fun vault => vault.erase commitment }

end Client

/-! ## Providers -/

/-- What comes of one request to the API; it may be written and still fail. -/
inductive ApiAnswer where
  | accepted
  | failed (written : Bool) (message : String)
  | unauthorized (message : String)
  | crashed (written : Bool)

/-- The default of `retry`. -/
def apiRetries : Nat := 3

def register (commitment ciphertext : String) (client : Client) : Client :=
  { client with api := client.api ++ [(commitment, ciphertext)] }

def registerIf (written : Bool) (commitment ciphertext : String) (client : Client) : Client :=
  if written then register commitment ciphertext client else client

/-- `registerNote`, retried unless the wallet is not authorized. -/
def registerNote (commitment ciphertext : String) (answers : Nat → ApiAnswer) :
    Nat → Nat → Async Client Unit
  | 0, _ => pure ()
  | remaining + 1, attempt =>
      match answers attempt with
      | .accepted => modify (register commitment ciphertext)
      | .failed written message => do
          modify (registerIf written commitment ciphertext)
          if remaining = 0 then throwing message
          else registerNote commitment ciphertext answers remaining (attempt + 1)
      | .unauthorized message => throwing message
      | .crashed written => do
          modify (registerIf written commitment ciphertext)
          await .crashed

/-- What comes of posting an operation to a relayer. -/
inductive AcceptAnswer where
  | accepted
  | refused (code : Option String) (message : String)
  | threw (message : String)
  | crashed

/-- What comes of asking a relayer for a job's status. -/
inductive StatusAnswer where
  | confirmed (txid : String)
  | failed (message : String)
  | other
  | threw (message : String)
  | crashed

/-- One relayer's answers; the status is asked for until the deadline. -/
structure RelayerAnswers where
  accept : Nat → AcceptAnswer
  statuses : List StatusAnswer

/-- Retries of `accept`, while the aggregation is not published. -/
def acceptRetries : Nat := 5

def accept (answers : Nat → AcceptAnswer) : Nat → Nat → Ending Unit
  | 0, _ => .thrown ""
  | remaining + 1, attempt =>
      match answers attempt with
      | .accepted => .returned ()
      | .refused code message =>
          if remaining = 0 ∨ code ≠ some "aggregation_not_published" then .thrown message
          else accept answers remaining (attempt + 1)
      | .threw message => .thrown message
      | .crashed => .crashed

def awaitJob : List StatusAnswer → Ending String
  | [] => .thrown "relayed operation timed out"
  | .confirmed txid :: _ => .returned txid
  | .failed message :: _ => .thrown message
  | .other :: rest => awaitJob rest
  | .threw message :: _ => .thrown message
  | .crashed :: _ => .crashed

/-- `RelayerProvider.submit`: the relayers are tried in order. -/
def submitRelayed (lastError : String) : List RelayerAnswers → Ending String
  | [] => .thrown lastError
  | relayer :: rest =>
      match accept relayer.accept acceptRetries 0 with
      | .returned () =>
          match awaitJob relayer.statuses with
          | .thrown message => submitRelayed message rest
          | ending => ending
      | .thrown message => submitRelayed message rest
      | .crashed => .crashed

/-! ## How the awaited calls of one operation end -/

/-- What `consume` awaits for one spent note. -/
structure ConsumeAnswers where
  setSpent : Ending Unit
  register : Nat → ApiAnswer
  markSpent : Ending Unit

/-- The answers an operation gets, and what is drawn at random for it. -/
structure Replies where
  assets : Ending AssetInfo
  keys : Ending Keys
  connect : Ending Unit
  commitments : Ending (List String)
  currentRoot : Ending String
  proof : Ending Unit
  /-- What other operations do to the tree while the engine proves. -/
  meanwhile : Synced → Synced
  inclusion : Ending Relay.Inclusion
  relayers : List RelayerAnswers
  /-- The shield transaction, signed and broadcast by the wallet. -/
  broadcast : Ending String
  /-- `waitForTx`: whether it is confirmed; it throws on a reverted transaction. -/
  confirmation : Ending Bool
  consumed : Nat → ConsumeAnswers
  registered : Nat → ApiAnswer
  registered2 : Nat → ApiAnswer
  /-- Whether the vault carries out each write. -/
  put : Nat → Bool
  removed : Bool × Ending Unit
  blindingBytes : Nat → RandomBytes
  nonceBytes : Nat → RandomBytes

/-- The blinding of an operation's new notes, in order. -/
def Replies.blinding (replies : Replies) (k : Nat) : Int := randomBlinding (replies.blindingBytes k)

/-- The nonce of a payload is drawn in the same way. -/
def Replies.nonce (replies : Replies) (k : Nat) : Int := randomBlinding (replies.nonceBytes k)

variable (K : Packages) (replies : Replies)

/-! ## Steps the operations share -/

def lowerCase (text : String) : String := String.ofList (text.toList.map Char.toLower)

def insertCommitment (synced : Synced) (commitment : String) : Except String Synced := do
  let norm := lowerCase (RootPublisher.prefixed commitment)
  let (index, tree) ← synced.tree.insert K.builtins (hexToBytes norm)
  return { tree := tree, commitmentIndex := synced.commitmentIndex.insert norm index }

/-- The tree of all commitments, in the order of their leaves. -/
def rebuilt (commits : List String) : Except String Synced :=
  commits.foldlM (insertCommitment K) { tree := CommitmentTree.empty, commitmentIndex := ∅ }

def syncTree : Async Client Unit := do
  let commits ← await replies.commitments
  let synced ← orThrow (rebuilt K commits)
  modify fun client => { client with synced := synced }

def membership (synced : Synced) (note : ShieldNote) : Except String MembershipWitness :=
  match synced.commitmentIndex.lookup (lowerCase note.commitment) with
  | none => .error "note commitment is not on chain yet (wait for confirmation)"
  | some leafIndex => do
      let p ← synced.tree.proof K.builtins leafIndex
      return {
        path := p.path.map fun (bit, sibling) => (bit, bytesToBig sibling)
        merkleRoot := bytesToBig (synced.tree.root K.builtins) }

def currentRootHex (tree : CommitmentTree) : String := hexText (tree.root K.builtins)

def insertionFor (tree : CommitmentTree) (commitmentHex : String) :
    Except String InsertionWitness := do
  let w ← tree.insertionWitness K.builtins (hexToBytes commitmentHex)
  return {
    leafIndex := w.index
    path := w.path.map fun (bit, sibling) => (bit, bytesToBig sibling)
    oldRoot := bytesToBig w.oldRoot
    newRoot := bytesToBig w.newRoot }

/-- Appends an output to the client's own tree; gives its leaf. -/
def appendOutput (commitmentHex : String) : Async Client Nat := do
  let client ← get
  let (index, tree) ← orThrow (client.synced.tree.insert K.builtins (hexToBytes commitmentHex))
  modify fun client => { client with synced := { client.synced with tree := tree } }
  pure index

/-- A new note, its commitment and its owner commitment. -/
structure NewNote where
  note : ShieldNote
  commitment : Int
  ownerCommitment : Int

def newNoteFor (amount ownerSk ownerPkX ownerPkY blinding : Int) (asset : AssetInfo) :
    Except String NewNote := do
  let assetField ← assetFieldFor K asset
  let commitment := commitmentOf K amount ownerPkX ownerPkY blinding assetField
  return {
    note := {
      commitment := toHex32 commitment
      ciphertext := ""
      root := ""
      txid := ""
      amount := amount
      asset := some asset
      spent := false
      secret := {
        ownerSk := ownerSk
        ownerPkX := ownerPkX
        ownerPkY := ownerPkY
        blinding := blinding
        leafIndex := none
        assetId := if asset.native then none else some asset.id
        assetField := assetField } }
    commitment := commitment
    ownerCommitment := ownerCommitmentOf K ownerPkX ownerPkY }

def newNote (amount : Int) (owner : OwnerKey) (blinding : Int) (asset : AssetInfo) :
    Except String NewNote :=
  newNoteFor K amount owner.sk owner.pkX owner.pkY blinding asset

def recipientNote (amount : Int) (recipient : ShieldAddress) (blinding : Int)
    (asset : AssetInfo) : Except String NewNote :=
  newNoteFor K amount 0 recipient.ownerPkX recipient.ownerPkY blinding asset

/-- The engine proves the statement it is given. -/
def prove (statement : Except String Statement) : Async Client Statement := do
  let statement ← orThrow statement
  await replies.proof
  modify fun client => { client with synced := replies.meanwhile client.synced }
  pure statement

/-- What the client encrypts of a note. -/
def payloadOf (note : ShieldNote) (leafIndex : Nat) (nonce : Int) : NotePayload where
  version := .ofNat 1
  amount := note.amount
  blinding := note.secret.blinding
  ownerSk := note.secret.ownerSk
  nonce := nonce
  commitment := hexToBytes note.commitment
  treePosition := .ofNat leafIndex
  assetId := note.secret.assetId.map Number.ofNat

/-- The payload registered for a note.  `toHex` marks its text, and the client marks it
again. -/
def ciphertextOf (note : ShieldNote) (leafIndex : Nat) (viewingPk : Bytes) (nonce : Int) : String :=
  "0x" ++ hexText (K.encryptNote (payloadOf note leafIndex nonce) viewingPk)

/-- The payload goes to the API if there is a session; a failure is only logged. -/
def storeCiphertext (note : ShieldNote) (leafIndex : Nat) (viewingPk : Bytes) (nonce : Int)
    (answers : Nat → ApiAnswer) : Async Client String := do
  let ciphertext := ciphertextOf K note leafIndex viewingPk nonce
  let client ← get
  if client.authenticated then
    recover (registerNote note.commitment ciphertext answers apiRetries 0) fun _ => pure ()
  pure ciphertext

/-- A note goes to the vault, when one is configured. -/
def persist (note : ShieldNote) (written : Bool) (client : Client) : Client :=
  if written then
    { client with
      vault := client.vault.map fun vault => vault.insert note.commitment
        { ciphertext := note.ciphertext
          root := note.root
          txid := note.txid
          leafIndex := note.secret.leafIndex
          assetId := note.secret.assetId
          spent := note.spent } }
  else client

/-- A spent note is marked in the vault and on the API; failures are passed over. -/
def consume (note : ShieldNote) (answers : ConsumeAnswers) : Async Client Unit := do
  modify fun client => client.markSpent note.commitment
  let client ← get
  if client.vault.isSome then
    recover (do
      await answers.setSpent
      modify fun client => client.flagSpent note.commitment) fun _ => pure ()
  if client.authenticated then
    recover (do
      if note.ciphertext ≠ "" then
        registerNote note.commitment note.ciphertext answers.register apiRetries 0
      await answers.markSpent) fun _ => pure ()

def minShield : Int := 1000000

def minWithdrawal : Int := 1000000

def tokenParam (asset : AssetInfo) : Option String := if asset.native then none else asset.token

/-- The inclusion as it is sent to a relayer. -/
def inclusionBody (inclusion : Relay.Inclusion) : Relay.Inclusion :=
  { inclusion with
    merklePath := inclusion.merklePath.map RootPublisher.prefixed }

def pickNote (store : List ShieldNote) (base : Int) (asset : AssetInfo) :
    Except String ShieldNote :=
  match store.find? fun n => ¬ n.spent ∧ n.amount = base ∧ sameAsset n.asset asset with
  | some exact => .ok exact
  | none => .error ("no unspent " ++ asset.symbol ++ " note of exactly " ++
      String.ofList (textOf 10 base) ++ " base units; split first")

/-! ## Preparing a relayed operation -/

/-- What an operation has made when it turns to the relayers: the statement proved and
the request built, from which notes, and the new notes with their leaves. -/
structure Prepared where
  statement : Statement
  request : Relay.RelayRequest
  inputs : List ShieldNote
  outputs : List (ShieldNote × Nat)

def prepareTransfer (base : Int) (recipient : String) : Async Client Prepared := do
  let asset ← await replies.assets
  let client ← get
  let input ← orThrow (pickNote client.store base asset)
  let address ← orThrow (decodeAddress recipient)
  let out ← orThrow (recipientNote K base address (replies.blinding 0) asset)
  syncTree K replies
  let { synced, .. } ← get
  let inputCommitment ← orThrow (bigInt input.commitment)
  let nf := nullifierOf K inputCommitment input.secret.ownerSk
  let insertion ← orThrow (insertionFor K synced.tree out.note.commitment)
  let newCommitment ← orThrow (bigInt out.note.commitment)
  let witnessed ← orThrow (membership K synced input)
  let assetField ← orThrow (assetFieldFor K asset)
  let proved ← prove replies (transferInputs
    { nullifier := nf
      newCommitment := newCommitment
      newOwnerCommitment := out.ownerCommitment
      input := witnessNote input
      ownerSk := input.secret.ownerSk
      output := witnessNote out.note
      membership := witnessed
      insertion := insertion
      assetField := assetField })
  let resumed ← get
  let currentRoot := currentRootHex K resumed.synced.tree
  let outLeaf ← appendOutput K out.note.commitment
  let appended ← get
  let newRoot := currentRootHex K appended.synced.tree
  let inclusion ← await replies.inclusion
  pure
    { statement := proved
      request := .transfer
        { nullifier := toHex32 nf
          newCommitment := out.note.commitment
          newOwnerCommitment := toHex32 out.ownerCommitment
          newMetadata := toHex32 0
          currentRoot := currentRoot
          newRoot := newRoot
          leafIndex := some insertion.leafIndex
          token := tokenParam asset
          inclusion := inclusionBody inclusion }
      inputs := [input]
      outputs := [(out.note, outLeaf)] }

/-- Both witnesses of a split, and the roots, are taken before the proof. -/
def prepareSplit (note : ShieldNote) (a1 a2 : Int) : Async Client Prepared := do
  let keys ← await replies.keys
  let asset := note.assetOf
  throwIf (a1 + a2 ≠ note.amount) "split amounts must sum to the note amount"
  syncTree K replies
  let { synced, .. } ← get
  let o1 ← orThrow (newNote K a1 keys.owner (replies.blinding 0) asset)
  let o2 ← orThrow (newNote K a2 keys.owner (replies.blinding 1) asset)
  let commitment ← orThrow (bigInt note.commitment)
  let nf := nullifierOf K commitment note.secret.ownerSk
  let witnessed ← orThrow (membership K synced note)
  let currentRoot := currentRootHex K synced.tree
  let insertion1 ← orThrow (insertionFor K synced.tree o1.note.commitment)
  let l1 ← appendOutput K o1.note.commitment
  let middle ← get
  let insertion2 ← orThrow (insertionFor K middle.synced.tree o2.note.commitment)
  let l2 ← appendOutput K o2.note.commitment
  let appended ← get
  let newRoot := currentRootHex K appended.synced.tree
  let assetField ← orThrow (assetFieldFor K asset)
  let proved ← prove replies (splitInputs
    { nullifier := nf
      commitment1 := o1.commitment
      ownerCommitment1 := o1.ownerCommitment
      commitment2 := o2.commitment
      ownerCommitment2 := o2.ownerCommitment
      input := witnessNote note
      ownerSk := note.secret.ownerSk
      out1 := witnessNote o1.note
      out2 := witnessNote o2.note
      membership := witnessed
      insertion1 := insertion1
      insertion2 := insertion2
      assetField := assetField })
  let inclusion ← await replies.inclusion
  pure
    { statement := proved
      request := .split
        { nullifier := toHex32 nf
          commitment1 := o1.note.commitment
          ownerCommitment1 := toHex32 o1.ownerCommitment
          metadata1 := toHex32 0
          commitment2 := o2.note.commitment
          ownerCommitment2 := toHex32 o2.ownerCommitment
          metadata2 := toHex32 0
          currentRoot := currentRoot
          newRoot := newRoot
          leafIndex := some insertion1.leafIndex
          token := tokenParam asset
          inclusion := inclusionBody inclusion }
      inputs := [note]
      outputs := [(o1.note, l1), (o2.note, l2)] }

def prepareMerge (i1 i2 : ShieldNote) : Async Client Prepared := do
  let keys ← await replies.keys
  let asset := i1.assetOf
  throwIf (¬ sameAsset i2.asset asset) "cannot merge notes of different assets"
  let out ← orThrow (newNote K (i1.amount + i2.amount) keys.owner (replies.blinding 0) asset)
  syncTree K replies
  let { synced, .. } ← get
  let commitment1 ← orThrow (bigInt i1.commitment)
  let commitment2 ← orThrow (bigInt i2.commitment)
  let nf1 := nullifierOf K commitment1 i1.secret.ownerSk
  let nf2 := nullifierOf K commitment2 i2.secret.ownerSk
  let insertion ← orThrow (insertionFor K synced.tree out.note.commitment)
  let membership1 ← orThrow (membership K synced i1)
  let membership2 ← orThrow (membership K synced i2)
  let assetField ← orThrow (assetFieldFor K asset)
  let proved ← prove replies (mergeInputs
    { nullifier1 := nf1
      nullifier2 := nf2
      commitment := out.commitment
      ownerCommitment := out.ownerCommitment
      input1 := witnessNote i1
      ownerSk1 := i1.secret.ownerSk
      membership1 := membership1
      input2 := witnessNote i2
      ownerSk2 := i2.secret.ownerSk
      membership2 := membership2
      output := witnessNote out.note
      insertion := insertion
      assetField := assetField })
  let resumed ← get
  let currentRoot := currentRootHex K resumed.synced.tree
  let leaf ← appendOutput K out.note.commitment
  let appended ← get
  let newRoot := currentRootHex K appended.synced.tree
  let inclusion ← await replies.inclusion
  pure
    { statement := proved
      request := .merge
        { nullifier1 := toHex32 nf1
          nullifier2 := toHex32 nf2
          commitment := out.note.commitment
          ownerCommitment := toHex32 out.ownerCommitment
          metadata := toHex32 0
          currentRoot := currentRoot
          newRoot := newRoot
          leafIndex := some insertion.leafIndex
          token := tokenParam asset
          inclusion := inclusionBody inclusion }
      inputs := [i1, i2]
      outputs := [(out.note, leaf)] }

/-- The recipient is the one given, or the wallet's own address. -/
def prepareWithdraw (note : ShieldNote) (recipient : Ending String) : Async Client Prepared := do
  let asset := note.assetOf
  throwIf (asset.native ∧ note.amount < minWithdrawal) "minimum withdrawal is 1 STX"
  let address ← await recipient
  syncTree K replies
  let { synced, .. } ← get
  let commitment ← orThrow (bigInt note.commitment)
  let nf := nullifierOf K commitment note.secret.ownerSk
  let root := currentRootHex K synced.tree
  let recipientPrincipal ← orThrow (K.clarity.principal address)
  let witnessed ← orThrow (membership K synced note)
  let assetField ← orThrow (assetFieldFor K asset)
  let proved ← prove replies (withdrawInputs
    { nullifier := nf
      amount := note.amount
      recipientHash := bytesToBig (fePrincipal K.primitives recipientPrincipal)
      input := witnessNote note
      ownerSk := note.secret.ownerSk
      membership := witnessed
      assetField := assetField })
  let inclusion ← await replies.inclusion
  pure
    { statement := proved
      request := .withdraw
        { nullifier := toHex32 nf
          amount := String.ofList (textOf 10 note.amount)
          recipient := address
          root := root
          token := tokenParam asset
          inclusion := inclusionBody inclusion }
      inputs := [note]
      outputs := [] }

/-! ## Operations -/

/-- The relayed operations. -/
inductive Intent where
  | transfer (base : Int) (recipient : String)
  | split (note : ShieldNote) (a1 a2 : Int)
  | merge (i1 i2 : ShieldNote)
  | withdraw (note : ShieldNote) (recipient : Ending String)

def prepare : Intent → Async Client Prepared
  | .transfer base recipient => prepareTransfer K replies base recipient
  | .split note a1 a2 => prepareSplit K replies note a1 a2
  | .merge i1 i2 => prepareMerge K replies i1 i2
  | .withdraw note recipient => prepareWithdraw K replies note recipient

end StxShield.Sdk
