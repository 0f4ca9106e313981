import StxShield.Relayer.RootPublisher

/-!
# Relay requests

What a relayer accepts for each operation, and the contract call it makes of it.
An operation for a SIP-010 token names the token and lands in `sip10-pool`.
-/

namespace StxShield.Relay

open Library RootPublisher

/-! ## The Stacks library -/

/-- What is relied on of the library's constructors: an integer is encoded as
itself or not at all. -/
structure StacksLibrary where
  /-- `Cl.uint` of a number. -/
  uintOfNumber : Nat → Except String Uint
  uintOfNumber_val : ∀ n u, uintOfNumber n = .ok u → u.val = n
  /-- `Cl.uint` of a big integer. -/
  uint : Nat → Except String Uint
  uint_val : ∀ n u, uint n = .ok u → u.val = n
  standardPrincipal : String → Except String Principal
  contractPrincipal : String → String → Except String Principal

/-- `text.split(".")` -/
def splitDots (text : String) : List String :=
  (text.toList.splitOn '.').map String.ofList

/-- `principalCV`: what follows a second dot is dropped. -/
def StacksLibrary.principal (lib : StacksLibrary) (text : String) : Except String Principal :=
  match splitDots text with
  | address :: name :: _ => lib.contractPrincipal address name
  | _ => lib.standardPrincipal text

/-! ## Schemas -/

def isHexDigit (c : Char) : Bool :=
  ('0' ≤ c && c ≤ '9') || ('a' ≤ c && c ≤ 'f') || ('A' ≤ c && c ≤ 'F')

/-- `Bytes32` -/
def isBytes32 (text : String) : Bool :=
  hasHexMark text && (text.toList.drop 2).length = 64 && (text.toList.drop 2).all isHexDigit

def isUpperOrDigit (c : Char) : Bool := ('0' ≤ c && c ≤ '9') || ('A' ≤ c && c ≤ 'Z')

def isLetter (c : Char) : Bool := ('a' ≤ c && c ≤ 'z') || ('A' ≤ c && c ≤ 'Z')

def isContractName : List Char → Bool
  | [] => false
  | first :: rest => isLetter first && rest.all fun c => isLetter c || ('0' ≤ c && c ≤ '9') || c = '-'

/-- `Principal`, standard or contract. -/
def isPrincipal (text : String) : Bool :=
  match text.toList.splitOn '.' with
  | ('S' :: address) :: name =>
      address.all isUpperOrDigit && (38 ≤ address.length && address.length ≤ 40) &&
        match name with
        | [] => true
        | [name] => isContractName name
        | _ => false
  | _ => false

/-- An amount of base units. -/
def isDecimal (text : String) : Bool :=
  text.toList ≠ [] && text.toList.all fun c => '0' ≤ c && c ≤ '9'

/-- `BigInt` of a decimal text. -/
def bigIntOf (text : String) : Nat := (JavaScript.digitsValue 10 text.toList).getD 0

structure Inclusion where
  domainId : Nat
  aggregationId : Nat
  merklePath : List String
  leafIndex : Nat

def Inclusion.accepts (inclusion : Inclusion) : Bool :=
  inclusion.merklePath.all isBytes32 && inclusion.merklePath.length ≤ 32

/-! ## Requests

The authorization and the encrypted payload, which no call is made from, are left
out. -/

inductive Operation where
  | transfer
  | withdraw
  | split
  | merge
  deriving DecidableEq

/-- What every request has; without a token it is about STX. -/
structure Base where
  inclusion : Inclusion
  token : Option String

def Base.accepts (base : Base) : Bool := base.inclusion.accepts && base.token.all isPrincipal

structure TransferRequest extends Base where
  nullifier : String
  newCommitment : String
  newOwnerCommitment : String
  newMetadata : String
  currentRoot : String
  newRoot : String
  leafIndex : Option Nat

structure WithdrawRequest extends Base where
  nullifier : String
  amount : String
  recipient : String
  root : String

structure SplitRequest extends Base where
  nullifier : String
  commitment1 : String
  ownerCommitment1 : String
  metadata1 : String
  commitment2 : String
  ownerCommitment2 : String
  metadata2 : String
  currentRoot : String
  newRoot : String
  leafIndex : Option Nat

structure MergeRequest extends Base where
  nullifier1 : String
  nullifier2 : String
  commitment : String
  ownerCommitment : String
  metadata : String
  currentRoot : String
  newRoot : String
  leafIndex : Option Nat

inductive RelayRequest where
  | transfer (request : TransferRequest)
  | withdraw (request : WithdrawRequest)
  | split (request : SplitRequest)
  | merge (request : MergeRequest)

namespace RelayRequest

def operation : RelayRequest → Operation
  | .transfer _ => .transfer
  | .withdraw _ => .withdraw
  | .split _ => .split
  | .merge _ => .merge

def base : RelayRequest → Base
  | .transfer request => request.toBase
  | .withdraw request => request.toBase
  | .split request => request.toBase
  | .merge request => request.toBase

/-- The request passes the schema of its operation. -/
def accepts (request : RelayRequest) : Bool :=
  request.base.accepts &&
    match request with
    | .transfer t =>
        isBytes32 t.nullifier && isBytes32 t.newCommitment && isBytes32 t.newOwnerCommitment &&
          isBytes32 t.newMetadata && isBytes32 t.currentRoot && isBytes32 t.newRoot
    | .withdraw w =>
        isBytes32 w.nullifier && isDecimal w.amount && isPrincipal w.recipient && isBytes32 w.root
    | .split s =>
        isBytes32 s.nullifier && isBytes32 s.commitment1 && isBytes32 s.ownerCommitment1 &&
          isBytes32 s.metadata1 && isBytes32 s.commitment2 && isBytes32 s.ownerCommitment2 &&
          isBytes32 s.metadata2 && isBytes32 s.currentRoot && isBytes32 s.newRoot
    | .merge m =>
        isBytes32 m.nullifier1 && isBytes32 m.nullifier2 && isBytes32 m.commitment &&
          isBytes32 m.ownerCommitment && isBytes32 m.metadata && isBytes32 m.currentRoot &&
          isBytes32 m.newRoot

/-- `isSip10`: the token for an operation that has one; an empty text counts as
none. -/
def token? (request : RelayRequest) : Option String := request.base.token.filter (· ≠ "")

end RelayRequest

/-! ## Contract calls -/

inductive ClarityValue where
  | buffer (bytes : Bytes)
  | uint (value : Uint)
  | principal (value : Principal)
  | list (buffers : List Bytes)
  deriving DecidableEq

/-- The public functions that requests are sent to. -/
inductive ContractFunction where
  | transfer
  | withdraw
  | splitNote
  | split
  | mergeNotes
  deriving DecidableEq

structure ContractCall where
  contract : Principal
  fn : ContractFunction
  args : List ClarityValue
  deriving DecidableEq

section BuildCall

variable (lib : StacksLibrary)

def buf (hex : String) : ClarityValue := .buffer (bufBytes hex)

/-- The token trait argument, from `ADDR.name`. -/
def tokenArg (principal : String) : Except String ClarityValue :=
  match splitDots principal with
  | address :: name :: _ =>
      if address = "" ∨ name = "" then
        .error ("token must be a contract principal: " ++ principal)
      else ClarityValue.principal <$> lib.contractPrincipal address name
  | _ => .error ("token must be a contract principal: " ++ principal)

/-- The arguments every operation ends with. -/
def inclusionArgs (inclusion : Inclusion) : Except String (List ClarityValue) := do
  let domainId ← lib.uintOfNumber inclusion.domainId
  let aggregationId ← lib.uintOfNumber inclusion.aggregationId
  let leafIndex ← lib.uintOfNumber inclusion.leafIndex
  pure [.uint domainId, .uint aggregationId, .list (inclusion.merklePath.map bufBytes),
    .uint leafIndex]

def leafIndexArg : Option Nat → Except String (List ClarityValue)
  | none => .error "leaf-adding operations require leafIndex"
  | some leafIndex => (fun index => [.uint index]) <$> lib.uintOfNumber leafIndex

/-- The token in front, for an operation that has one. -/
def leadArgs (request : RelayRequest) : Except String (List ClarityValue) :=
  match request.token? with
  | some token => (fun arg => [arg]) <$> tokenArg lib token
  | none => .ok []

def buildCall (request : RelayRequest) : Except String ContractCall := do
  let lead ← leadArgs lib request
  let sip10 := request.token?.isSome
  match request with
  | .transfer t =>
      let leafIndex ← leafIndexArg lib t.leafIndex
      let inclusion ← inclusionArgs lib t.inclusion
      pure
        { contract := if sip10 then .sip10Pool else .privacyPool
          fn := .transfer
          args := lead ++ [buf t.nullifier, buf t.newCommitment, buf t.newOwnerCommitment,
            buf t.newMetadata, buf t.currentRoot, buf t.newRoot] ++ leafIndex ++ inclusion }
  | .withdraw w =>
      let amount ← lib.uint (bigIntOf w.amount)
      let recipient ← lib.principal w.recipient
      let inclusion ← inclusionArgs lib w.inclusion
      pure
        { contract := if sip10 then .sip10Pool else .privacyPool
          fn := .withdraw
          args := lead ++ [buf w.nullifier, .uint amount, .principal recipient, buf w.root] ++
            inclusion }
  | .split s =>
      let leafIndex ← leafIndexArg lib s.leafIndex
      let inclusion ← inclusionArgs lib s.inclusion
      pure
        { contract := if sip10 then .sip10Pool else .splitMergeManager
          fn := if sip10 then .split else .splitNote
          args := lead ++ [buf s.nullifier, buf s.commitment1, buf s.ownerCommitment1,
            buf s.metadata1, buf s.commitment2, buf s.ownerCommitment2, buf s.metadata2,
            buf s.currentRoot, buf s.newRoot] ++ leafIndex ++ inclusion }
  | .merge m =>
      let leafIndex ← leafIndexArg lib m.leafIndex
      let inclusion ← inclusionArgs lib m.inclusion
      pure
        { contract := if sip10 then .sip10Pool else .splitMergeManager
          fn := .mergeNotes
          args := lead ++ [buf m.nullifier1, buf m.nullifier2, buf m.commitment,
            buf m.ownerCommitment, buf m.metadata, buf m.currentRoot, buf m.newRoot] ++
            leafIndex ++ inclusion }

end BuildCall

end StxShield.Relay
