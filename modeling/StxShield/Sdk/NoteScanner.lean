import StxShield.Library.Async
import StxShield.Library.OrderedMap
import StxShield.Library.Selection
import StxShield.Sdk.CommitmentTree
import StxShield.Sdk.Encryption

/-!
# The note scanner

The scanner enters every published commitment into its tree and keeps the notes that
its viewing key decrypts.  A call of `sync` first awaits the notes from the index it
has come to; the loop over them is not interrupted.
-/

namespace StxShield.Sdk

open Library JavaScript Circuit Async

structure PublishedNote where
  commitment : Bytes
  leafIndex : Nat
  payload : Bytes

structure OwnedNote extends NotePayload where
  leafIndex : Nat
  spent : Bool

structure NoteScanner where
  tree : CommitmentTree
  owned : OrderedMap (List Char) OwnedNote
  nextIndex : Nat

namespace NoteScanner

def new : NoteScanner where
  tree := CommitmentTree.empty
  owned := OrderedMap.empty
  nextIndex := 0

/-- `hex` -/
def hex (b : Bytes) : List Char := bytesToHex b

/-! ## Scanning -/

section Scanning

variable (E : Ciphers) (B : Builtins) (viewing : Bytes)

/-- A malformed payload is taken for a note of somebody else. -/
def decrypt (note : PublishedNote) : Option NotePayload :=
  match decodeEncryptedNote note.payload with
  | .ok encrypted => tryDecryptNote E encrypted viewing
  | .error _ => none

/-- One turn of the loop; tells whether a note was found. -/
def scan (note : PublishedNote) : Async NoteScanner Nat := do
  let scanner ← get
  let grown ← orThrow (scanner.tree.insert B note.commitment)
  modify fun scanner => { scanner with tree := grown.2, nextIndex := note.leafIndex + 1 }
  match decrypt E viewing note with
  | none => pure 0
  | some payload => do
      modify fun scanner =>
        { scanner with
          owned := scanner.owned.set (hex note.commitment)
            { payload with leafIndex := note.leafIndex, spent := false } }
      pure 1

/-- The loop of `sync`; gives the number of notes found. -/
def scanAll : List PublishedNote → Nat → Async NoteScanner Nat
  | [], found => pure found
  | note :: rest, found => do
      let more ← scan E B viewing note
      scanAll rest (found + more)

end Scanning

/-- `refreshSpent`, with the nullifiers that the source gave. -/
def refreshSpent (nullifierFor : OwnedNote → Option Bytes) (onChain : List Bytes)
    (scanner : NoteScanner) : NoteScanner :=
  { scanner with
    owned := scanner.owned.mapValues fun note =>
      match nullifierFor note with
      | some nullifier =>
          if hex nullifier ∈ onChain.map hex then { note with spent := true } else note
      | none => note }

/-! ## Notes -/

/-- Unspent notes, in the order they were first found. -/
def notes (scanner : NoteScanner) : List OwnedNote :=
  scanner.owned.values.filter fun note => ¬ note.spent

def balance (scanner : NoteScanner) : Int := Selection.total (fun note => note.amount) scanner.notes

/-- Membership proof for one of the notes. -/
def proofFor (B : Builtins) (commitment : Bytes) (scanner : NoteScanner) :
    Except String CommitmentTree.MerkleProof :=
  match scanner.owned.get? (hex commitment) with
  | some note => scanner.tree.proof B note.leafIndex
  | none => .error "note is not owned by this viewing key"

/-- The comparator of `select`; it never calls two notes equal. -/
def compare (a b : OwnedNote) : Int := if b.amount > a.amount then 1 else -1

/-- What an engine may make of `notes.sort(compare)`: all the notes, and none before one
that the comparator puts first.  In which order notes of one amount come is up to the
engine, since the comparator answers both ways. -/
structure Sorts (sort : List OwnedNote → List OwnedNote) : Prop where
  perm : ∀ notes, (sort notes).Perm notes
  ordered : ∀ notes, (sort notes).Pairwise fun a b => compare a b ≤ 0

/-- Notes covering `amount`, largest first. -/
def select (sort : List OwnedNote → List OwnedNote) (amount : Int) (scanner : NoteScanner) :
    Except String (List OwnedNote) :=
  let available := sort scanner.notes
  let (chosen, total) := Selection.gather (fun note => note.amount) amount available 0
  if total < amount then
    .error ("insufficient shielded balance: have " ++ String.ofList (textOf 10 total) ++
      ", need " ++ String.ofList (textOf 10 amount))
  else .ok chosen

end NoteScanner

end StxShield.Sdk
