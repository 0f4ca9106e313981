import StxShield.Contracts.PrivacyPool
import StxShield.Contracts.Sip10Pool
import StxShield.Contracts.SplitMergeManager

/-!
# Operations as the protocol sees them

What the ten operations have in common: a statement to be verified, nullifiers
and commitments to register, a declared root and a next one, and an amount
that enters or leaves the shielded total.
-/

namespace StxShield

open Library

namespace Operation

variable (op : Operation)

/-- The verifier an operation presents its statement to. -/
def verifier : Principal :=
  match op.currency with
  | .stx => .zkVerifier
  | .sip10 _ => .sip10ZkVerifier

def proofType : Nat :=
  match op.action with
  | .shield _ => proofTypeShield
  | .transfer _ => proofTypeTransfer
  | .withdraw _ => proofTypeWithdrawal
  | .split _ => proofTypeSplit
  | .merge _ => proofTypeMerge

/-- The bytes whose hash the statement must carry; the STX contracts append
the registry's circuit version, `sip10-pool` its own. -/
def inputs (P : Primitives) (circuitVersion : Nat) : Operation → Bytes
  | ⟨.stx, .shield args⟩ => PrivacyPool.shieldInputs args circuitVersion
  | ⟨.stx, .transfer args⟩ => PrivacyPool.transferInputs args circuitVersion
  | ⟨.stx, .withdraw args⟩ => PrivacyPool.withdrawInputs P args circuitVersion
  | ⟨.stx, .split args⟩ => SplitMergeManager.splitInputs args circuitVersion
  | ⟨.stx, .merge args⟩ => SplitMergeManager.mergeInputs args circuitVersion
  | ⟨.sip10 token, .shield args⟩ => Sip10Pool.shieldInputs P token args
  | ⟨.sip10 token, .transfer args⟩ => Sip10Pool.transferInputs P token args
  | ⟨.sip10 token, .withdraw args⟩ => Sip10Pool.withdrawInputs P token args
  | ⟨.sip10 token, .split args⟩ => Sip10Pool.splitInputs P token args
  | ⟨.sip10 token, .merge args⟩ => Sip10Pool.mergeInputs P token args

/-- The notes an operation spends. -/
def nullifiers : List Buff32 :=
  match op.action with
  | .shield _ => []
  | .transfer args => [args.nullifier]
  | .withdraw args => [args.nullifier]
  | .split args => [args.nullifier]
  | .merge args => [args.nullifier1, args.nullifier2]

/-- The notes an operation creates. -/
def commitments : List Buff32 :=
  match op.action with
  | .shield args => [args.commitment]
  | .transfer args => [args.newCommitment]
  | .withdraw _ => []
  | .split args => [args.commitment1, args.commitment2]
  | .merge args => [args.commitment]

/-- The root the statement is about. -/
def declaredRoot : Buff32 :=
  match op.action with
  | .shield args => args.currentRoot
  | .transfer args => args.currentRoot
  | .withdraw args => args.root
  | .split args => args.currentRoot
  | .merge args => args.currentRoot

/-- The root after the new leaves, and the index the first one claims. -/
def extension : Option (Buff32 × Nat) :=
  match op.action with
  | .shield args => some (args.newRoot, args.leafIndex)
  | .transfer args => some (args.newRoot, args.leafIndex)
  | .withdraw _ => none
  | .split args => some (args.newRoot, args.leafIndex)
  | .merge args => some (args.newRoot, args.leafIndex)

/-- What enters the shielded total. -/
def deposit : Nat :=
  match op.action with
  | .shield args => args.amount
  | _ => 0

/-- What leaves the shielded total. -/
def payout : Nat :=
  match op.action with
  | .withdraw args => args.amount
  | _ => 0

end Operation

/-- The operation a public call performs, if it is one of the ten. -/
def Call.operation? : Call → Option Operation
  | .privacyPool (.shield args _) => some ⟨.stx, .shield args⟩
  | .privacyPool (.transfer args _) => some ⟨.stx, .transfer args⟩
  | .privacyPool (.withdraw args _) => some ⟨.stx, .withdraw args⟩
  | .splitMergeManager (.splitNote args _) => some ⟨.stx, .split args⟩
  | .splitMergeManager (.mergeNotes args _) => some ⟨.stx, .merge args⟩
  | .sip10Pool (.shield contract args _) => some ⟨.sip10 contract, .shield args⟩
  | .sip10Pool (.transfer contract args _) => some ⟨.sip10 contract, .transfer args⟩
  | .sip10Pool (.withdraw contract args _) => some ⟨.sip10 contract, .withdraw args⟩
  | .sip10Pool (.split contract args _) => some ⟨.sip10 contract, .split args⟩
  | .sip10Pool (.mergeNotes contract args _) => some ⟨.sip10 contract, .merge args⟩
  | _ => none

end StxShield
