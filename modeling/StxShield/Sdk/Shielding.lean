import StxShield.Relayer.ContractArguments
import StxShield.Sdk.Client

/-!
# Shielding

A shield moves the owner's own tokens, so the wallet signs it itself.  It declares the root
that it reads from the chain; the leaf's place and the next root are those of the tree that
was rebuilt from the API's list.
-/

namespace StxShield.Sdk

open Library JavaScript Circuit Async RootPublisher Relay

/-! ## The transaction -/

/-- What the wallet is asked to sign: a call of `shield`. -/
structure ShieldTransaction where
  contract : Principal
  args : List ClarityValue

/-- `Cl.uint` of an amount. -/
def uintOfAmount (lib : StacksLibrary) (amount : Int) : Except String Uint :=
  if amount < 0 then .error "Cannot construct unsigned clarity integer from negative value"
  else lib.uint amount.toNat

/-- The token in front of the arguments for `sip10-pool`. -/
def shieldToken (lib : StacksLibrary) (asset : AssetInfo) : Except String (List ClarityValue) :=
  if asset.native then .ok []
  else
    match asset.token with
    | some text => (fun token => [token]) <$> tokenArg lib text
    | none => .error "token is null"

/-- `submitShield`, up to the signature. -/
def submitShield (lib : StacksLibrary) (asset : AssetInfo) (amount : Int)
    (commitment ownerCommitment currentRoot newRoot : String) (leafIndex : Nat)
    (inc : Relay.Inclusion) : Except String ShieldTransaction := do
  let incArgs ← inclusionArgs lib inc
  let leafIndex ← lib.uintOfNumber leafIndex
  let token ← shieldToken lib asset
  let amount ← uintOfAmount lib amount
  pure
    { contract := if asset.native then .privacyPool else .sip10Pool
      args := token ++ .uint amount :: buf commitment :: buf ownerCommitment ::
        buf (toHex32 0) :: buf currentRoot :: buf newRoot :: .uint leafIndex :: incArgs }

/-! ### Entering the pool -/

def shield? : List ClarityValue → Option (ShieldArgs × StxShield.Inclusion)
  | amount :: commitment :: ownerCommitment :: metadata :: currentRoot :: newRoot ::
      leafIndex :: inclusion => do
      return ({
        amount := ← amount.uint?
        commitment := ← commitment.buff32?
        ownerCommitment := ← ownerCommitment.buff32?
        metadata := ← metadata.buff32?
        currentRoot := ← currentRoot.buff32?
        newRoot := ← newRoot.buff32?
        leafIndex := ← leafIndex.uint? }, ← inclusion? inclusion)
  | _ => none

/-- The call that is made, if the arguments are of the declared types. -/
def ShieldTransaction.decode (transaction : ShieldTransaction) : Option StxShield.Call :=
  match transaction.contract, transaction.args with
  | .privacyPool, args => do
      let decoded ← shield? args
      return .privacyPool (.shield decoded.1 decoded.2)
  | .sip10Pool, token :: args => do
      let token ← token.principal?
      let decoded ← shield? args
      return .sip10Pool (.shield token decoded.1 decoded.2)
  | _, _ => none

/-! ## The operation -/

/-- While the root is fetched other operations of the client may move its tree, too. -/
structure ShieldReplies extends Replies where
  elsewhere : Synced → Synced

/-- What a shield has made before its payload is stored. -/
structure ShieldDraft where
  asset : AssetInfo
  viewingPk : Bytes
  statement : Statement
  out : NewNote
  currentRoot : String
  newRoot : String
  insertionLeaf : Nat
  leafIndex : Nat

/-- What a shield has made when it turns to the wallet. -/
structure PreparedShield where
  statement : Statement
  note : ShieldNote
  transaction : ShieldTransaction

variable (K : Packages) (replies : ShieldReplies)

def fetchCurrentRoot : Async Client String := do
  let root ← await replies.currentRoot
  modify fun client => { client with synced := replies.elsewhere client.synced }
  pure root

def draftShield (base : Int) : Async Client ShieldDraft := do
  let asset ← await replies.assets
  throwIf (asset.native ∧ base < minShield) "minimum shield is 1 STX"
  throwIf (¬ asset.active) ("asset " ++ asset.symbol ++ " is not shieldable")
  let keys ← await replies.keys
  await replies.connect
  modify fun client => { client with authenticated := true }
  syncTree K replies.toReplies
  let out ← orThrow (newNote K base keys.owner (replies.blinding 0) asset)
  let currentRoot ← fetchCurrentRoot replies
  let { synced, .. } ← get
  let insertion ← orThrow (insertionFor K synced.tree out.note.commitment)
  let proved ← prove replies.toReplies (shieldInputs
    { note := witnessNote out.note
      commitment := out.commitment
      ownerCommitment := out.ownerCommitment
      insertion := insertion
      assetField := out.note.secret.assetField })
  let leafIndex ← appendOutput K out.note.commitment
  let appended ← get
  let newRoot := currentRootHex K appended.synced.tree
  pure
    { asset := asset
      viewingPk := keys.viewingPk
      statement := proved
      out := out
      currentRoot := currentRoot
      newRoot := newRoot
      insertionLeaf := insertion.leafIndex
      leafIndex := leafIndex }

def completeShield (base : Int) (draft : ShieldDraft) (ciphertext : String) :
    Async Client PreparedShield := do
  let note := draft.out.note
  let inclusion ← await replies.inclusion
  let transaction ← orThrow (submitShield K.clarity draft.asset base note.commitment
    (toHex32 draft.out.ownerCommitment) draft.currentRoot draft.newRoot draft.insertionLeaf
    inclusion)
  pure
    { statement := draft.statement
      note :=
        { note with
          ciphertext := ciphertext
          root := draft.newRoot
          secret := { note.secret with leafIndex := some (.ofNat draft.leafIndex) } }
      transaction := transaction }

/-- `shield`, up to the wallet's signature. -/
def prepareShield (base : Int) : Async Client PreparedShield := do
  let draft ← draftShield K replies base
  let ciphertext ← storeCiphertext K draft.out.note draft.leafIndex draft.viewingPk
    (replies.nonce 0) replies.registered
  completeShield K replies base draft ciphertext

end StxShield.Sdk
