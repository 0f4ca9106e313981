import StxShield.Library.Bytes
import StxShield.Library.Execution

/-!
# Principals, buffers and calling contexts

The contracts of the deployment are named by the principals the sources use for
them (`.privacy-registry`, `.privacy-pool`, ...); every other account or
contract, in particular every SIP-010 token, is an `account`.
-/

namespace StxShield

open Library

inductive Principal where
  | burnAddress
  | privacyRegistry
  | noteManager
  | protocolFees
  | zkVerifier
  | privacyPool
  | splitMergeManager
  | assetRegistry
  | sip10ProtocolFees
  | sip10ZkVerifier
  | sip10Pool
  | account (id : Nat)
  deriving DecidableEq, Repr

/-- The contracts of the deployment. -/
def Principal.isProtocol : Principal → Bool
  | .burnAddress => false
  | .account _ => false
  | _ => true

/-- A Clarity `(buff 32)`: at most 32 bytes, possibly fewer. -/
def Buff32 : Type := { bytes : Bytes // bytes.length ≤ 32 }
  deriving DecidableEq

def Buff32.bytes (buff : Buff32) : Bytes := buff.val

theorem Buff32.length_le (buff : Buff32) : buff.bytes.length ≤ 32 := buff.property

theorem Buff32.ext {left right : Buff32} (h : left.bytes = right.bytes) : left = right :=
  Subtype.ext h

/-- `ZERO-HASH`: 32 zero bytes. -/
def zeroHash : Buff32 := ⟨List.replicate 32 0, by simp⟩

/-- A Clarity `uint`. -/
abbrev Uint : Type := Fin (2 ^ 128)

instance uint_neZero : NeZero (2 ^ 128) := ⟨by decide⟩

/-- A function of a contract, as the call stack records it.  `index` numbers
the public functions of the contract; `pool-balance` is private. -/
inductive FunctionId where
  | function (contract : Principal) (index : Nat)
  | poolBalance
  deriving DecidableEq, Repr

/-- What a running function sees of its caller: `tx-sender`, `contract-caller`,
`stacks-block-height`, and the functions already being executed. -/
structure Ctx where
  txSender : Principal
  contractCaller : Principal
  height : Nat
  stack : List FunctionId

namespace Ctx

/-- The context of a function called from `contract`. -/
def calledBy (ctx : Ctx) (contract : Principal) : Ctx :=
  { ctx with contractCaller := contract }

/-- The context of a function called from `contract` inside `as-contract`. -/
def asContract (ctx : Ctx) (contract : Principal) : Ctx :=
  { ctx with txSender := contract, contractCaller := contract }

def entering (ctx : Ctx) (function : FunctionId) : Ctx :=
  { ctx with stack := function :: ctx.stack }

/-- A call the protocol's contracts did not make.  Token code runs in such a
context, and inside `as-contract` it inherits a protocol contract as
`tx-sender`; the two contracts that hold STX never hand theirs over. -/
structure External (ctx : Ctx) : Prop where
  caller : ctx.contractCaller.isProtocol = false
  sender_ne_pool : ctx.txSender ≠ .privacyPool
  sender_ne_fees : ctx.txSender ≠ .protocolFees

/-- The context of a transaction before any contract has run. -/
structure TopLevel (ctx : Ctx) : Prop where
  sender : ctx.txSender.isProtocol = false
  caller : ctx.contractCaller.isProtocol = false
  stack : ctx.stack = []

theorem TopLevel.external {ctx : Ctx} (h : ctx.TopLevel) : ctx.External where
  caller := h.caller
  sender_ne_pool := by
    intro heq
    have hsender := h.sender
    rw [heq] at hsender
    cases hsender
  sender_ne_fees := by
    intro heq
    have hsender := h.sender
    rw [heq] at hsender
    cases hsender

end Ctx

/-- The hash functions and the encoding that Clarity provides. -/
structure Primitives where
  keccak256 : Bytes → Buff32
  keccak256_length : ∀ input, (keccak256 input).bytes.length = 32
  sha256 : Bytes → Buff32
  sha256_length : ∀ input, (sha256 input).bytes.length = 32
  /-- `to-consensus-buff?` of a principal. -/
  consensusBuff : Principal → Bytes

end StxShield
