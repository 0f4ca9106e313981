import StxShield.Chain.Principals

/-!
# The SDK's public-input encoding

The field builders of the SDK, written over mutable byte arrays there, and one
field list for each circuit.  A builder throws on what is not a field element.
The SIP-10 lists have the asset id in front of the circuit version.
-/

namespace StxShield.Sdk

open Library

/-- A value, or the message of the error that was thrown. -/
abbrev Throws : Type → Type := Except String

namespace OP

def shield : Int := 1
def transfer : Int := 2
def withdraw : Int := 3
def split : Int := 4
def merge : Int := 5

end OP

/-! ## Byte arrays -/

/-- `out.set(part, index)` of a byte array. -/
def setAt (out : Bytes) (index : Nat) (part : Bytes) : Bytes :=
  out.take index ++ part ++ out.drop (index + part.length)

def concatAll (parts : List Bytes) : Bytes :=
  let out := List.replicate (parts.foldl (fun s p => s + p.length) 0) 0
  (parts.foldl (fun state p => (setAt state.1 state.2 p, state.2 + p.length)) (out, 0)).1

/-! ## Field builders -/

/-- The loop of `feUint`, below an index: the low byte goes to the last free
place until nothing is left. -/
def feUintLoop : Nat → Nat → Bytes → Bytes × Nat
  | 0, x, out => (out, x)
  | i + 1, x, out =>
      if x > 0 then feUintLoop i (x >>> 8) (out.set i (UInt8.ofNat (x &&& 0xff))) else (out, x)

def feUint (n : Int) : Throws Bytes :=
  if n < 0 then .error "field elements are unsigned"
  else
    let (out, x) := feUintLoop 32 n.toNat (List.replicate 32 0)
    if x > 0 then .error "value does not fit in a 32-byte field element" else .ok out

/-- The library serialises principals like `to-consensus-buff?`. -/
def fePrincipal (P : Primitives) (address : Principal) : Bytes :=
  let digest := P.sha256 (P.consensusBuff address)
  digest.bytes.set 0 0

def fe32 (b : Bytes) : Throws Bytes :=
  if b.length ≠ 32 then .error ("field element must be 32 bytes, got " ++ toString b.length)
  else .ok b

def hash (P : Primitives) (fields : List Bytes) : Buff32 := P.keccak256 (concatAll fields)

/-- `assetIdOf`: the asset's field element, from the token's principal. -/
def assetIdOf (P : Primitives) (tokenPrincipal : Principal) : Bytes := fePrincipal P tokenPrincipal

/-! ## Arguments -/

structure ShieldObject where
  commitment : Bytes
  ownerCommitment : Bytes
  amount : Int
  oldRoot : Bytes
  newRoot : Bytes
  leafIndex : Int
  circuitVersion : Int

structure TransferObject where
  nullifier : Bytes
  newCommitment : Bytes
  newOwnerCommitment : Bytes
  merkleRoot : Bytes
  newRoot : Bytes
  leafIndex : Int
  circuitVersion : Int

structure WithdrawObject where
  nullifier : Bytes
  amount : Int
  recipient : Principal
  merkleRoot : Bytes
  circuitVersion : Int

structure SplitObject where
  nullifier : Bytes
  commitment1 : Bytes
  ownerCommitment1 : Bytes
  commitment2 : Bytes
  ownerCommitment2 : Bytes
  merkleRoot : Bytes
  newRoot : Bytes
  leafIndex : Int
  circuitVersion : Int

structure MergeObject where
  nullifier1 : Bytes
  nullifier2 : Bytes
  commitment : Bytes
  ownerCommitment : Bytes
  merkleRoot : Bytes
  newRoot : Bytes
  leafIndex : Int
  circuitVersion : Int

/-! ## Field lists, STX -/

section Fields

variable (P : Primitives)

def shieldFields (o : ShieldObject) : Throws (List Bytes) := do
  return [← feUint OP.shield, ← fe32 o.commitment, ← fe32 o.ownerCommitment, ← feUint o.amount,
    ← fe32 o.oldRoot, ← fe32 o.newRoot, ← feUint o.leafIndex, ← feUint o.circuitVersion]

def transferFields (o : TransferObject) : Throws (List Bytes) := do
  return [← feUint OP.transfer, ← fe32 o.nullifier, ← fe32 o.newCommitment,
    ← fe32 o.newOwnerCommitment, ← fe32 o.merkleRoot, ← fe32 o.newRoot, ← feUint o.leafIndex,
    ← feUint o.circuitVersion]

def withdrawFields (o : WithdrawObject) : Throws (List Bytes) := do
  return [← feUint OP.withdraw, ← fe32 o.nullifier, ← feUint o.amount, fePrincipal P o.recipient,
    ← fe32 o.merkleRoot, ← feUint o.circuitVersion]

def splitFields (o : SplitObject) : Throws (List Bytes) := do
  return [← feUint OP.split, ← fe32 o.nullifier, ← fe32 o.commitment1, ← fe32 o.ownerCommitment1,
    ← fe32 o.commitment2, ← fe32 o.ownerCommitment2, ← fe32 o.merkleRoot, ← fe32 o.newRoot,
    ← feUint o.leafIndex, ← feUint o.circuitVersion]

def mergeFields (o : MergeObject) : Throws (List Bytes) := do
  return [← feUint OP.merge, ← fe32 o.nullifier1, ← fe32 o.nullifier2, ← fe32 o.commitment,
    ← fe32 o.ownerCommitment, ← fe32 o.merkleRoot, ← fe32 o.newRoot, ← feUint o.leafIndex,
    ← feUint o.circuitVersion]

/-! ## Field lists, SIP-10 -/

def shieldFieldsSip10 (o : ShieldObject) (token : Principal) : Throws (List Bytes) := do
  return [← feUint OP.shield, ← fe32 o.commitment, ← fe32 o.ownerCommitment, ← feUint o.amount,
    ← fe32 o.oldRoot, ← fe32 o.newRoot, ← feUint o.leafIndex, assetIdOf P token,
    ← feUint o.circuitVersion]

def transferFieldsSip10 (o : TransferObject) (token : Principal) : Throws (List Bytes) := do
  return [← feUint OP.transfer, ← fe32 o.nullifier, ← fe32 o.newCommitment,
    ← fe32 o.newOwnerCommitment, ← fe32 o.merkleRoot, ← fe32 o.newRoot, ← feUint o.leafIndex,
    assetIdOf P token, ← feUint o.circuitVersion]

def withdrawFieldsSip10 (o : WithdrawObject) (token : Principal) : Throws (List Bytes) := do
  return [← feUint OP.withdraw, ← fe32 o.nullifier, ← feUint o.amount, fePrincipal P o.recipient,
    ← fe32 o.merkleRoot, assetIdOf P token, ← feUint o.circuitVersion]

def splitFieldsSip10 (o : SplitObject) (token : Principal) : Throws (List Bytes) := do
  return [← feUint OP.split, ← fe32 o.nullifier, ← fe32 o.commitment1, ← fe32 o.ownerCommitment1,
    ← fe32 o.commitment2, ← fe32 o.ownerCommitment2, ← fe32 o.merkleRoot, ← fe32 o.newRoot,
    ← feUint o.leafIndex, assetIdOf P token, ← feUint o.circuitVersion]

def mergeFieldsSip10 (o : MergeObject) (token : Principal) : Throws (List Bytes) := do
  return [← feUint OP.merge, ← fe32 o.nullifier1, ← fe32 o.nullifier2, ← fe32 o.commitment,
    ← fe32 o.ownerCommitment, ← fe32 o.merkleRoot, ← fe32 o.newRoot, ← feUint o.leafIndex,
    assetIdOf P token, ← feUint o.circuitVersion]

/-! ## Digests -/

def shieldPublicInputs (o : ShieldObject) : Throws Buff32 := hash P <$> shieldFields o

def transferPublicInputs (o : TransferObject) : Throws Buff32 := hash P <$> transferFields o

def withdrawPublicInputs (o : WithdrawObject) : Throws Buff32 := hash P <$> withdrawFields P o

def splitPublicInputs (o : SplitObject) : Throws Buff32 := hash P <$> splitFields o

def mergePublicInputs (o : MergeObject) : Throws Buff32 := hash P <$> mergeFields o

def shieldPublicInputsSip10 (o : ShieldObject) (token : Principal) : Throws Buff32 :=
  hash P <$> shieldFieldsSip10 P o token

def transferPublicInputsSip10 (o : TransferObject) (token : Principal) : Throws Buff32 :=
  hash P <$> transferFieldsSip10 P o token

def withdrawPublicInputsSip10 (o : WithdrawObject) (token : Principal) : Throws Buff32 :=
  hash P <$> withdrawFieldsSip10 P o token

def splitPublicInputsSip10 (o : SplitObject) (token : Principal) : Throws Buff32 :=
  hash P <$> splitFieldsSip10 P o token

def mergePublicInputsSip10 (o : MergeObject) (token : Principal) : Throws Buff32 :=
  hash P <$> mergeFieldsSip10 P o token

/-! ## Raw vectors

The same lists without the width checks, as the prover is fed with them. -/

namespace publicInputVector

def shield (o : ShieldObject) : Throws (List Bytes) := do
  return [← feUint OP.shield, o.commitment, o.ownerCommitment, ← feUint o.amount, o.oldRoot,
    o.newRoot, ← feUint o.leafIndex, ← feUint o.circuitVersion]

def transfer (o : TransferObject) : Throws (List Bytes) := do
  return [← feUint OP.transfer, o.nullifier, o.newCommitment, o.newOwnerCommitment, o.merkleRoot,
    o.newRoot, ← feUint o.leafIndex, ← feUint o.circuitVersion]

def withdraw (o : WithdrawObject) : Throws (List Bytes) := do
  return [← feUint OP.withdraw, o.nullifier, ← feUint o.amount, fePrincipal P o.recipient,
    o.merkleRoot, ← feUint o.circuitVersion]

def split (o : SplitObject) : Throws (List Bytes) := do
  return [← feUint OP.split, o.nullifier, o.commitment1, o.ownerCommitment1, o.commitment2,
    o.ownerCommitment2, o.merkleRoot, o.newRoot, ← feUint o.leafIndex, ← feUint o.circuitVersion]

def merge (o : MergeObject) : Throws (List Bytes) := do
  return [← feUint OP.merge, o.nullifier1, o.nullifier2, o.commitment, o.ownerCommitment,
    o.merkleRoot, o.newRoot, ← feUint o.leafIndex, ← feUint o.circuitVersion]

end publicInputVector

/-- The operation zkVerify performs on a raw vector. -/
def hashPublicInputVector (fields : List Bytes) : Throws Buff32 :=
  (fun fields => P.keccak256 (concatAll fields)) <$> fields.mapM fe32

end Fields

end StxShield.Sdk
