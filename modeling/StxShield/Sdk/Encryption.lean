import StxShield.Library.Json
import StxShield.Sdk.Wire

/-!
# Encrypted note delivery

A note's payload is written as JSON and encrypted to a viewing key under a fresh
ephemeral key; whoever scans tries to decrypt every published payload.
-/

namespace StxShield.Sdk

open Library JavaScript

/-! ## The ciphers -/

/-- The cryptographic packages, the text decoder of the platform, and how the engine
prints a number that is no integer below 10^21. -/
structure Ciphers where
  publicKey : Bytes → Bytes
  sharedSecret : Bytes → Bytes → Except String Bytes
  sha256 : Bytes → Bytes
  encrypt : Bytes → Bytes → Bytes → Bytes
  decrypt : Bytes → Bytes → Bytes → Except String Bytes
  decodeText : Bytes → List Char
  printNumber : ℚ → List Char

/-- `enc.encode(text)` -/
def encodeText (text : List Char) : Bytes := (String.ofList text).toByteArray.data.toList

/-- What the packages promise: both ends of X25519 agree, the AEAD decrypts what it
encrypted, adding a tag, and text without a byte order mark is decoded as encoded. -/
structure Ciphers.Sound (E : Ciphers) : Prop where
  publicKey_length : ∀ secret, secret.length = 32 → (E.publicKey secret).length = 32
  sha256_length : ∀ input, (E.sha256 input).length = 32
  agreement : ∀ a b, a.length = 32 → b.length = 32 →
    ∃ shared, E.sharedSecret a (E.publicKey b) = .ok shared ∧
      E.sharedSecret b (E.publicKey a) = .ok shared
  decrypts : ∀ key nonce plaintext,
    E.decrypt key nonce (E.encrypt key nonce plaintext) = .ok plaintext
  tagged : ∀ key nonce plaintext,
    (E.encrypt key nonce plaintext).length = plaintext.length + 16
  decodes : ∀ text, text.head? ≠ some '\ufeff' → E.decodeText (encodeText text) = text

structure EncryptedNote where
  ephemeralPublicKey : Bytes
  nonce : Bytes
  ciphertext : Bytes
  deriving DecidableEq

variable (E : Ciphers)

/-- The sixteenth byte of the label's room stays zero. -/
def deriveKey (shared ephemeralPk : Bytes) : Bytes :=
  E.sha256 (shared ++ ephemeralPk ++ encodeText "stx-shield-note".toList ++ [0])

/-! ## Serialization -/

/-- `b2h` -/
def b2h (b : Bytes) : List Char := bytesToHex b

/-- `h2b` -/
def h2b (h : List Char) : Bytes :=
  let units := codeUnits h
  parseBytes (if units.length % 2 = 1 then '0' :: units else units)

/-- The text of a number in JSON, and the value that has it. -/
def jsonNumber : Number → List Char × Value
  | .finite value =>
      (if value.den = 1 ∧ value.num.natAbs < 10 ^ 21 then textOf 10 value.num
        else E.printNumber value,
        .number (.finite value))
  | _ => ("null".toList, .null)

def numberMember (name : Char) (number : Number) : Json.Member where
  name := [name]
  text := (jsonNumber E number).1
  value := (jsonNumber E number).2

def stringMember (name : Char) (text : List Char) : Json.Member where
  name := [name]
  text := Json.quoted text
  value := .string (String.ofList text)

/-- An asset of number zero or of none counts as the native one. -/
def assetMember (assetId : Option Number) : List Json.Member :=
  match assetId with
  | some id => if (Value.number id).isTruthy then [numberMember E 'i' id] else []
  | none => []

def NotePayload.members (p : NotePayload) : List Json.Member :=
  [numberMember E 'v' p.version,
    stringMember 'a' (textOf 10 p.amount),
    stringMember 'b' (textOf 10 p.blinding),
    stringMember 's' (textOf 10 p.ownerSk),
    stringMember 'n' (textOf 10 p.nonce),
    stringMember 'c' (b2h p.commitment),
    numberMember E 't' p.treePosition] ++
  assetMember E p.assetId

def serialize (p : NotePayload) : Bytes := encodeText (Json.stringify (p.members E))

/-! ### Reading a payload -/

/-- `BigInt(String([value]))`: of two elements the text has a comma, and a number is
printed with an exponent from 10^21 on. -/
def elementBigInt : Value → Except String Int
  | .undefined => bigInt ""
  | .null => bigInt ""
  | .boolean _ => .error "Cannot convert to a BigInt"
  | .number (.finite value) =>
      if value.den = 1 ∧ value.num.natAbs < 10 ^ 21 then .ok value.num
      else .error "Cannot convert to a BigInt"
  | .number _ => .error "Cannot convert to a BigInt"
  | .bigint value => .ok value
  | .string text => bigInt text
  | .array [] => bigInt ""
  | .array [element] => elementBigInt element
  | .array _ => .error "Cannot convert to a BigInt"
  | .object text => bigInt text

/-- `BigInt(value)` -/
def toBigInt : Value → Except String Int
  | .undefined => .error "Cannot convert undefined to a BigInt"
  | .null => .error "Cannot convert null to a BigInt"
  | .boolean value => .ok (if value then 1 else 0)
  | .number (.finite value) =>
      if value.den = 1 then .ok value.num
      else .error "The number cannot be converted to a BigInt because it is not an integer"
  | .number _ =>
      .error "The number cannot be converted to a BigInt because it is not an integer"
  | .bigint value => .ok value
  | .string text => bigInt text
  | .array elements => elementBigInt (.array elements)
  | .object text => bigInt text

/-- `h2b` of a member that is cast to a string: other values than text have no length. -/
def bytesOf : Value → Except String Bytes
  | .undefined => .error "Cannot read properties of undefined"
  | .null => .error "Cannot read properties of null"
  | .string text => .ok (h2b text.toList)
  | _ => .ok []

def deserialize (bytes : Bytes) : Except String NotePayload := do
  match Json.parse (E.decodeText bytes) with
  | none => .error "Unexpected token in JSON"
  | some o =>
    let version ← o.field "v"
    let amount ← o.field "a" >>= toBigInt
    let blinding ← o.field "b" >>= toBigInt
    let ownerSk ← o.field "s" >>= toBigInt
    let nonce ← o.field "n" >>= toBigInt
    let commitment ← o.field "c" >>= bytesOf
    let treePosition ← o.field "t"
    let assetId ← o.field "i"
    return {
      version := version.toNumber
      amount := amount
      blinding := blinding
      ownerSk := ownerSk
      nonce := nonce
      commitment := commitment
      treePosition := treePosition.toNumber
      assetId := if assetId.isNullish then none else some assetId.toNumber }

/-! ## Encryption -/

/-- `NOTE_PAYLOAD_VERSION` -/
def notePayloadVersion : Number := .ofNat 1

/-- `ephemeralSecret` is given, or drawn at random. -/
def encryptNote (payload : NotePayload) (receiverViewingPk ephemeralSecret : Bytes) :
    Except String EncryptedNote := do
  let ephemeralPublicKey := E.publicKey ephemeralSecret
  let shared ← E.sharedSecret ephemeralSecret receiverViewingPk
  let key := deriveKey E shared ephemeralPublicKey
  let nonce := (E.sha256 ephemeralPublicKey).take 24
  return {
    ephemeralPublicKey := ephemeralPublicKey
    nonce := nonce
    ciphertext := E.encrypt key nonce (serialize E payload) }

/-- Every failure is taken for a note that is addressed to somebody else. -/
def tryDecryptNote (note : EncryptedNote) (viewingSecretKey : Bytes) : Option NotePayload :=
  let opened := do
    let shared ← E.sharedSecret viewingSecretKey note.ephemeralPublicKey
    let key := deriveKey E shared note.ephemeralPublicKey
    let plaintext ← E.decrypt key note.nonce note.ciphertext
    deserialize E plaintext
  match opened with
  | .ok payload => if payload.version ≠ notePayloadVersion then none else some payload
  | .error _ => none

/-! ### The wire -/

/-- `target.set(source, offset)` -/
def setBytes (source : Bytes) (offset : Nat) (target : Bytes) : Except String Bytes :=
  if target.length < offset + source.length then .error "offset is out of bounds"
  else .ok (target.take offset ++ source ++ target.drop (offset + source.length))

def encodeEncryptedNote (n : EncryptedNote) : Except String Bytes := do
  let out := List.replicate (32 + 24 + n.ciphertext.length) 0
  let out ← setBytes n.ephemeralPublicKey 0 out
  let out ← setBytes n.nonce 32 out
  setBytes n.ciphertext 56 out

def decodeEncryptedNote (bytes : Bytes) : Except String EncryptedNote :=
  if bytes.length < 57 then .error "encrypted note too short"
  else .ok {
    ephemeralPublicKey := bytes.take 32
    nonce := (bytes.drop 32).take 24
    ciphertext := bytes.drop 56 }

end StxShield.Sdk
