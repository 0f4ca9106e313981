import StxShield.Circuits.Main
import StxShield.Library.Hexadecimal
import StxShield.Relayer.Requests
import StxShield.Sdk.CommitmentTree
import StxShield.Sdk.PublicInputs

/-!
# Notes and witnesses of the client

What the client keeps of a note, how it writes field elements as text, and the
witnesses it hands to the proof engine.  Amounts and field elements are big
integers there.
-/

namespace StxShield.Sdk

open Library JavaScript Circuit RootPublisher

/-! ## Text -/

/-- `x.toString(radix)` -/
def textOf (radix : Nat) (x : Int) : List Char :=
  if x < 0 then '-' :: Nat.toDigits radix x.natAbs else Nat.toDigits radix x.toNat

def toHex32 (x : Int) : String := String.ofList ('0' :: 'x' :: padStart 64 (textOf 16 x))

/-- `"0x" + bytesToHex(b)` -/
def hexText (b : Bytes) : String := String.ofList ('0' :: 'x' :: bytesToHex b)

/-- `parseInt` of two characters, stored in a byte; what is no number becomes zero. -/
def parseByte (high low : Char) : UInt8 :=
  if digitValue high < 16 then
    if digitValue low < 16 then .ofNat (16 * digitValue high + digitValue low)
    else .ofNat (digitValue high)
  else if digitValue low < 16 then
    if isWhitespace high ∨ high = '+' then .ofNat (digitValue low)
    else if high = '-' then 0 - .ofNat (digitValue low)
    else 0
  else 0

def parseBytes : List Char → Bytes
  | high :: low :: rest => parseByte high low :: parseBytes rest
  | _ => []

def withoutMark (text : String) : List Char :=
  if hasHexMark text then text.toList.drop 2 else text.toList

def hexToBytes (h : String) : Bytes :=
  let raw := codeUnits (withoutMark h)
  parseBytes (if raw.length % 2 = 1 then '0' :: raw else raw)

/-- `BigInt(text)` -/
def bigInt (text : String) : Except String Int :=
  let parsed : Option Int :=
    match trim text.toList with
    | [] => some 0
    | '0' :: 'x' :: digits => (digitsValue 16 digits).map Int.ofNat
    | '0' :: 'X' :: digits => (digitsValue 16 digits).map Int.ofNat
    | '0' :: 'o' :: digits => (digitsValue 8 digits).map Int.ofNat
    | '0' :: 'O' :: digits => (digitsValue 8 digits).map Int.ofNat
    | '0' :: 'b' :: digits => (digitsValue 2 digits).map Int.ofNat
    | '0' :: 'B' :: digits => (digitsValue 2 digits).map Int.ofNat
    | trimmed =>
        let (sign, digits) := signed trimmed
        (digitsValue 10 digits).map fun value => sign * value
  match parsed with
  | some value => .ok value
  | none => .error ("Cannot convert " ++ text ++ " to a BigInt")

/-! ## The packages the client uses -/

structure NotePayload where
  version : Number
  amount : Int
  blinding : Int
  ownerSk : Int
  nonce : Int
  commitment : Bytes
  treePosition : Number
  assetId : Option Number
  deriving DecidableEq

/-- The libraries the client is built on. -/
structure Packages where
  clarity : Relay.StacksLibrary
  primitives : Primitives
  builtins : Builtins
  /-- A note's payload, encrypted to a viewing key and encoded. -/
  encryptNote : NotePayload → Bytes → Bytes

variable (K : Packages)

/-! ## Assets -/

structure AssetInfo where
  id : Nat
  symbol : String
  token : Option String
  active : Bool
  native : Bool

def nativeAsset : AssetInfo where
  id := 0
  symbol := "STX"
  token := none
  active := true
  native := true

/-- `assetFieldOf`: the client parses the principal as the Stacks library does. -/
def assetFieldOf (tokenPrincipal : Option String) : Except String Int :=
  match tokenPrincipal with
  | some text => (fun token => bytesToBig (fePrincipal K.primitives token)) <$> K.clarity.principal text
  | none => .error "token is null"

def assetFieldFor (asset : AssetInfo) : Except String (Option Int) :=
  if asset.native then .ok none else some <$> assetFieldOf K asset.token

def sameAsset (a : Option AssetInfo) (b : AssetInfo) : Bool := a.elim 0 AssetInfo.id = b.id

/-- Zero counts as absent. -/
def truthy (assetField : Option Int) : Option Int := assetField.filter (· ≠ 0)

/-! ## Notes -/

structure NoteSecret where
  ownerSk : Int
  ownerPkX : Int
  ownerPkY : Int
  blinding : Int
  leafIndex : Option Number
  assetId : Option Nat
  assetField : Option Int

structure ShieldNote where
  commitment : String
  ciphertext : String
  root : String
  txid : String
  amount : Int
  asset : Option AssetInfo
  spent : Bool
  secret : NoteSecret

/-- `assetOfNote` -/
def ShieldNote.assetOf (note : ShieldNote) : AssetInfo := note.asset.getD nativeAsset

structure OwnerKey where
  sk : Int
  pkX : Int
  pkY : Int

/-- The keys derived from the wallet's secret. -/
structure Keys where
  owner : OwnerKey
  viewingPk : Bytes

structure ShieldAddress where
  ownerPkX : Int
  ownerPkY : Int
  viewingPk : Bytes

def decodeAddress (s : String) : Except String ShieldAddress := do
  if ¬ "stxsh1".toList.isPrefixOf s.toList then throw "not a Stacks Shield address"
  let body := codeUnits (s.toList.drop 6)
  if body.length ≠ 64 + 64 + 64 then throw "malformed Stacks Shield address"
  let ownerPkX ← bigInt (String.ofList ('0' :: 'x' :: body.take 64))
  let ownerPkY ← bigInt (String.ofList ('0' :: 'x' :: (body.drop 64).take 64))
  return { ownerPkX, ownerPkY, viewingPk := hexToBytes (String.ofList (body.drop 128)) }

def commitmentOf (amount ownerPkX ownerPkY blinding : Int) (assetField : Option Int) : Int :=
  let inner := poseidon4 K.builtins amount ownerPkX ownerPkY blinding
  match truthy assetField with
  | some field => poseidon2 K.builtins inner field
  | none => inner

def ownerCommitmentOf (ownerPkX ownerPkY : Int) : Int := poseidon2 K.builtins ownerPkX ownerPkY

def nullifierOf (commitment ownerSk : Int) : Int := poseidon2 K.builtins commitment ownerSk

/-- The bytes that `getRandomValues` fills for a blinding. -/
structure RandomBytes where
  bytes : Bytes
  length_eq : bytes.length = 31

def randomBlinding (drawn : RandomBytes) : Int := shiftIn 0 drawn.bytes + 1

/-- A blinding is a field element, whatever is drawn. -/
theorem randomBlinding_range (drawn : RandomBytes) :
    0 < randomBlinding drawn ∧ randomBlinding drawn < fieldModulus := by
  have hbound := bigEndianValue_lt drawn.bytes
  have hwide : 256 ^ 31 + 1 < fieldModulus := by decide
  rw [drawn.length_eq] at hbound
  rw [randomBlinding, shiftIn_eq, Nat.zero_mul, Nat.zero_add]
  constructor
  · omega
  · omega

/-! ## Witnesses -/

structure NoteWitness where
  amount : Int
  ownerPkX : Int
  ownerPkY : Int
  blinding : Int

def witnessNote (note : ShieldNote) : NoteWitness where
  amount := note.amount
  ownerPkX := note.secret.ownerPkX
  ownerPkY := note.secret.ownerPkY
  blinding := note.secret.blinding

structure MembershipWitness where
  path : List (Bool × Int)
  merkleRoot : Int

structure InsertionWitness where
  leafIndex : Nat
  path : List (Bool × Int)
  oldRoot : Int
  newRoot : Int

structure ShieldWitness where
  note : NoteWitness
  commitment : Int
  ownerCommitment : Int
  insertion : InsertionWitness
  assetField : Option Int

structure TransferWitness where
  nullifier : Int
  newCommitment : Int
  newOwnerCommitment : Int
  input : NoteWitness
  ownerSk : Int
  output : NoteWitness
  membership : MembershipWitness
  insertion : InsertionWitness
  assetField : Option Int

structure SplitWitness where
  nullifier : Int
  commitment1 : Int
  ownerCommitment1 : Int
  commitment2 : Int
  ownerCommitment2 : Int
  input : NoteWitness
  ownerSk : Int
  out1 : NoteWitness
  out2 : NoteWitness
  membership : MembershipWitness
  insertion1 : InsertionWitness
  insertion2 : InsertionWitness
  assetField : Option Int

structure MergeWitness where
  nullifier1 : Int
  nullifier2 : Int
  commitment : Int
  ownerCommitment : Int
  input1 : NoteWitness
  ownerSk1 : Int
  membership1 : MembershipWitness
  input2 : NoteWitness
  ownerSk2 : Int
  membership2 : MembershipWitness
  output : NoteWitness
  insertion : InsertionWitness
  assetField : Option Int

structure WithdrawWitness where
  nullifier : Int
  amount : Int
  recipientHash : Int
  input : NoteWitness
  ownerSk : Int
  membership : MembershipWitness
  assetField : Option Int

/-! ## Public inputs

The engine maps its inputs to the circuit's by name.  A statement is what the proof
it returns is about; the private inputs do not show in it. -/

/-- An input is a field element or it is refused. -/
def f (x : Int) : Except String Fr :=
  if h : 0 ≤ x ∧ x.toNat < fieldModulus then .ok ⟨x.toNat, h.2⟩
  else .error "input is not a field element"

/-- The SIP-10 circuits for an asset field, else the native ones. -/
def assetIn (assetField : Option Int) : Except String (Option Fr) :=
  match truthy assetField with
  | some field => some <$> f field
  | none => .ok none

/-- `CIRCUIT_VERSION` -/
def circuitVersion : Fr := 2

def shieldInputs (w : ShieldWitness) : Except String Statement := do
  return {
    asset := ← assetIn w.assetField
    inputs := .shield {
      op := 1
      commitment := ← f w.commitment
      ownerCommitment := ← f w.ownerCommitment
      amount := ← f w.note.amount
      oldRoot := ← f w.insertion.oldRoot
      newRoot := ← f w.insertion.newRoot
      leafIndex := ← f w.insertion.leafIndex
      circuitVersion := circuitVersion } }

def transferInputs (w : TransferWitness) : Except String Statement := do
  return {
    asset := ← assetIn w.assetField
    inputs := .transfer {
      op := 2
      nullifier := ← f w.nullifier
      newCommitment := ← f w.newCommitment
      newOwnerCommitment := ← f w.newOwnerCommitment
      merkleRoot := ← f w.membership.merkleRoot
      newRoot := ← f w.insertion.newRoot
      leafIndex := ← f w.insertion.leafIndex
      circuitVersion := circuitVersion } }

def splitInputs (w : SplitWitness) : Except String Statement := do
  return {
    asset := ← assetIn w.assetField
    inputs := .split {
      op := 4
      nullifier := ← f w.nullifier
      commitment1 := ← f w.commitment1
      ownerCommitment1 := ← f w.ownerCommitment1
      commitment2 := ← f w.commitment2
      ownerCommitment2 := ← f w.ownerCommitment2
      merkleRoot := ← f w.membership.merkleRoot
      newRoot := ← f w.insertion2.newRoot
      leafIndex := ← f w.insertion1.leafIndex
      circuitVersion := circuitVersion } }

def mergeInputs (w : MergeWitness) : Except String Statement := do
  return {
    asset := ← assetIn w.assetField
    inputs := .merge {
      op := 5
      nullifier1 := ← f w.nullifier1
      nullifier2 := ← f w.nullifier2
      commitment := ← f w.commitment
      ownerCommitment := ← f w.ownerCommitment
      merkleRoot := ← f w.membership1.merkleRoot
      newRoot := ← f w.insertion.newRoot
      leafIndex := ← f w.insertion.leafIndex
      circuitVersion := circuitVersion } }

def withdrawInputs (w : WithdrawWitness) : Except String Statement := do
  return {
    asset := ← assetIn w.assetField
    inputs := .withdraw {
      op := 3
      nullifier := ← f w.nullifier
      amount := ← f w.amount
      recipientHash := ← f w.recipientHash
      merkleRoot := ← f w.membership.merkleRoot
      circuitVersion := circuitVersion } }

end StxShield.Sdk
