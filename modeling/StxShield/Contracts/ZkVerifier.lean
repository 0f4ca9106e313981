import StxShield.Chain.World
import StxShield.Contracts.PrivacyRegistry

/-!
# zk-verifier

Acceptance of statements that zkVerify has verified: a statement's leaf must
occur in a published aggregation, and is accepted once.  `sip10-zk-verifier`
copies these functions under its own error codes, so they take the base of the
error range as a parameter; `ZkVerifier` instantiates them at 300.
-/

namespace StxShield

open Library Exec

namespace Verifier

/-! ## Errors, as offsets into the contract's range -/

def errUnauthorized : Nat := 0
def errUnauthorizedCaller : Nat := 1
def errVerificationFrozen : Nat := 2
def errUnknownProofType : Nat := 3
def errVkeyNotFound : Nat := 4
def errVkeyDisabled : Nat := 5
def errVkeyExists : Nat := 6
def errInvalidProofLength : Nat := 7
def errInvalidPublicInputs : Nat := 8
def errProofAlreadyVerified : Nat := 9
def errProofNotAggregated : Nat := 10
def errAggregationNotFound : Nat := 11
def errAggregationExists : Nat := 12
def errInvalidAggregation : Nat := 13
def errInvalidVkey : Nat := 14
def errVersionMismatch : Nat := 15
def errInvalidLeafIndex : Nat := 16
def errVkeyStatusUnchanged : Nat := 17
def errRelayerExists : Nat := 18
def errRelayerNotFound : Nat := 19
def errBindingNotSet : Nat := 20
def errInvalidBinding : Nat := 21

def maxProofLength : Nat := 16384

/-! ## Authority -/

abbrev isVerifierAdmin (registry : PrivacyRegistry) (who : Principal) : Prop :=
  registry.isAdmin who PrivacyRegistry.roleVerifierAdmin

abbrev isEmergencyAdmin (registry : PrivacyRegistry) (who : Principal) : Prop :=
  registry.isAdmin who PrivacyRegistry.roleEmergencyAdmin

abbrev isRelayer (verifier : Verifier) (registry : PrivacyRegistry) (who : Principal) : Prop :=
  isVerifierAdmin registry who ∨ ((verifier.relayers.lookup who).map Relayer.enabled).getD false

abbrev isValidProofType (proofType : Nat) : Prop :=
  proofType = 1 ∨ proofType = 2 ∨ proofType = 3 ∨ proofType = 4 ∨ proofType = 5

/-! ## Statement leaf and Merkle inclusion -/

section Inclusion

variable (P : Primitives)

/-- The aggregation leaf of a statement, as zkVerify computes it. -/
def statementLeaf (contextHash zkvVkeyHash versionHash publicInputsHash : Buff32) : Buff32 :=
  P.keccak256 ((contextHash.bytes ++ zkvVkeyHash.bytes) ++
    (versionHash.bytes ++ publicInputsHash.bytes))

structure MerkleAcc where
  hash : Buff32
  position : Nat
  width : Nat

/-- One level of the path: the running node is on the right when its position
is odd or it is the last node of an odd level. -/
def merkleStep (acc : MerkleAcc) (sibling : Buff32) : MerkleAcc where
  hash :=
    if acc.position % 2 = 1 ∨ acc.position + 1 = acc.width then
      P.keccak256 (sibling.bytes ++ acc.hash.bytes)
    else P.keccak256 (acc.hash.bytes ++ sibling.bytes)
  position := acc.position / 2
  width := (acc.width - 1) / 2 + 1

def computeMerkleRoot (leaf : Buff32) (path : List Buff32) (leafIndex leafCount : Nat) : Buff32 :=
  (path.foldl (merkleStep P)
    { hash := P.keccak256 leaf.bytes, position := leafIndex, width := leafCount }).hash

end Inclusion

/-! ## Proof verification -/

/-- The counters after one more accepted proof. -/
def countVerified (stats : VerificationStats) (proofType : Nat) :
    Exec Verifier VerificationStats := do
  let bump (counted : Prop) [Decidable counted] (n : Nat) : Exec Verifier Nat :=
    if counted then addUint n 1 else pure n
  let totalVerified ← addUint stats.totalVerified 1
  let shield ← bump (proofType = 1) stats.shield
  let transfer ← bump (proofType = 2) stats.transfer
  let withdrawal ← bump (proofType = 3) stats.withdrawal
  let other ← bump (proofType = 4 ∨ proofType = 5) stats.other
  pure { totalVerified, shield, transfer, withdrawal, other }

/-- Accepts a statement once; `authorized` and `currentVersion` are what the
contract holds against the caller and the circuit version. -/
def verifyProof (P : Primitives) (errorBase : Nat) (authorized : Prop) [Decidable authorized]
    (currentVersion : Nat) (ctx : Ctx) (proofType circuitVersion : Nat)
    (publicInputsHash : Buff32) (inclusion : Inclusion) : Exec Verifier Buff32 := do
  let verifier ← read
  require (verifier.verificationFrozen = false) (errorBase + errVerificationFrozen)
  require authorized (errorBase + errUnauthorizedCaller)
  require (isValidProofType proofType) (errorBase + errUnknownProofType)
  require (circuitVersion = currentVersion) (errorBase + errVersionMismatch)
  require (publicInputsHash ≠ zeroHash) (errorBase + errInvalidPublicInputs)
  let vkey ← unwrap (verifier.verificationKeys.lookup (proofType, circuitVersion))
    (errorBase + errVkeyNotFound)
  let agg ← unwrap (verifier.aggregations.lookup (inclusion.domainId, inclusion.aggregationId))
    (errorBase + errAggregationNotFound)
  require vkey.enabled (errorBase + errVkeyDisabled)
  require (inclusion.aggLeafIndex < agg.leafCount) (errorBase + errInvalidLeafIndex)
  let binding ← unwrap (verifier.bindings.lookup (proofType, circuitVersion))
    (errorBase + errBindingNotSet)
  require (verifier.contextHash ≠ zeroHash) (errorBase + errBindingNotSet)
  require (0 < verifier.contextHash.bytes.length) (errorBase + errBindingNotSet)
  let leaf := statementLeaf P verifier.contextHash binding.zkvVkeyHash binding.versionHash
    publicInputsHash
  require (computeMerkleRoot P leaf inclusion.merklePath.val inclusion.aggLeafIndex agg.leafCount =
    agg.root) (errorBase + errProofNotAggregated)
  let verifiedProofs ← unwrap
    (verifier.verifiedProofs.insertNew? leaf
      { proofType := proofType, verifiedAt := ctx.height })
    (errorBase + errProofAlreadyVerified)
  let stats ← countVerified verifier.verificationStats proofType
  modify fun verifier =>
    { verifier with verifiedProofs := verifiedProofs, verificationStats := stats }
  pure leaf

/-! ## Aggregations, bindings, relayers and keys -/

section Administration

variable (errorBase : Nat) (registry : PrivacyRegistry) (ctx : Ctx)

def submitAggregation (domainId aggregationId : Nat) (root : Buff32) (leafCount : Nat) :
    Exec Verifier Unit := do
  let verifier ← read
  require (verifier.isRelayer registry ctx.contractCaller) (errorBase + errUnauthorized)
  require (root ≠ zeroHash) (errorBase + errInvalidAggregation)
  require (0 < leafCount) (errorBase + errInvalidAggregation)
  let aggregations ← unwrap
    (verifier.aggregations.insertNew? (domainId, aggregationId)
      { root := root, leafCount := leafCount, postedAt := ctx.height,
        postedBy := ctx.contractCaller })
    (errorBase + errAggregationExists)
  let count ← addUint verifier.aggregationCount 1
  modify fun verifier => { verifier with aggregations := aggregations, aggregationCount := count }

def setZkverifyContextHash (contextHash : Buff32) : Exec Verifier Unit := do
  require (isVerifierAdmin registry ctx.contractCaller) (errorBase + errUnauthorized)
  require (contextHash ≠ zeroHash) (errorBase + errInvalidBinding)
  modify fun verifier => { verifier with contextHash := contextHash }

def setZkverifyBinding (proofType circuitVersion : Nat) (zkvVkeyHash versionHash : Buff32) :
    Exec Verifier Unit := do
  let verifier ← read
  require (isVerifierAdmin registry ctx.contractCaller) (errorBase + errUnauthorized)
  require (isValidProofType proofType) (errorBase + errUnknownProofType)
  require (zkvVkeyHash ≠ zeroHash) (errorBase + errInvalidBinding)
  require (versionHash ≠ zeroHash) (errorBase + errInvalidBinding)
  require ((verifier.verificationKeys.lookup (proofType, circuitVersion)).isSome)
    (errorBase + errVkeyNotFound)
  modify fun verifier =>
    { verifier with
      bindings := verifier.bindings.insert (proofType, circuitVersion)
        { zkvVkeyHash := zkvVkeyHash, versionHash := versionHash, setAt := ctx.height } }

def addRelayer (who : Principal) : Exec Verifier Unit := do
  let verifier ← read
  require (isVerifierAdmin registry ctx.contractCaller) (errorBase + errUnauthorized)
  let relayers ← unwrap
    (verifier.relayers.insertNew? who { enabled := true, addedAt := ctx.height })
    (errorBase + errRelayerExists)
  let count ← addUint verifier.relayerCount 1
  modify fun verifier => { verifier with relayers := relayers, relayerCount := count }

def removeRelayer (who : Principal) : Exec Verifier Unit := do
  let verifier ← read
  require (isVerifierAdmin registry ctx.contractCaller) (errorBase + errUnauthorized)
  require ((verifier.relayers.lookup who).isSome) (errorBase + errRelayerNotFound)
  let count ← subUint verifier.relayerCount 1
  modify fun verifier =>
    { verifier with relayers := verifier.relayers.erase who, relayerCount := count }

def registerVerificationKey (proofType circuitVersion : Nat) (vkeyHash : Buff32)
    (proofLength : Nat) : Exec Verifier Unit := do
  let verifier ← read
  require (isVerifierAdmin registry ctx.contractCaller) (errorBase + errUnauthorized)
  require (isValidProofType proofType) (errorBase + errUnknownProofType)
  require (vkeyHash ≠ zeroHash) (errorBase + errInvalidVkey)
  require (0 < proofLength ∧ proofLength ≤ maxProofLength) (errorBase + errInvalidProofLength)
  let verificationKeys ← unwrap
    (verifier.verificationKeys.insertNew? (proofType, circuitVersion)
      { vkeyHash := vkeyHash, proofLength := proofLength, enabled := true,
        registeredAt := ctx.height })
    (errorBase + errVkeyExists)
  modify fun verifier => { verifier with verificationKeys := verificationKeys }

/-- The record is looked up before the caller's authority is checked. -/
def setVerificationKeyStatus (proofType circuitVersion : Nat) (enabled : Bool) :
    Exec Verifier Unit := do
  let verifier ← read
  let vkey ← unwrap (verifier.verificationKeys.lookup (proofType, circuitVersion))
    (errorBase + errVkeyNotFound)
  require (isVerifierAdmin registry ctx.contractCaller ∨
    isEmergencyAdmin registry ctx.contractCaller) (errorBase + errUnauthorized)
  require (vkey.enabled ≠ enabled) (errorBase + errVkeyStatusUnchanged)
  modify fun verifier =>
    { verifier with
      verificationKeys :=
        verifier.verificationKeys.insert (proofType, circuitVersion)
          { vkey with enabled := enabled } }

def setVerificationFrozen (frozen : Bool) : Exec Verifier Unit := do
  require (isEmergencyAdmin registry ctx.contractCaller) (errorBase + errUnauthorized)
  modify fun verifier => { verifier with verificationFrozen := frozen }

/-- Every public function but `verify-proof`. -/
def administer : Call → Exec Verifier Unit
  | .verifyProof .. => abort
  | .submitAggregation domainId aggregationId root leafCount =>
      submitAggregation errorBase registry ctx domainId aggregationId root leafCount
  | .setZkverifyContextHash contextHash =>
      setZkverifyContextHash errorBase registry ctx contextHash
  | .setZkverifyBinding proofType circuitVersion zkvVkeyHash versionHash =>
      setZkverifyBinding errorBase registry ctx proofType circuitVersion zkvVkeyHash versionHash
  | .addRelayer who => addRelayer errorBase registry ctx who
  | .removeRelayer who => removeRelayer errorBase registry ctx who
  | .registerVerificationKey proofType circuitVersion vkeyHash proofLength =>
      registerVerificationKey errorBase registry ctx proofType circuitVersion vkeyHash proofLength
  | .setVerificationKeyStatus proofType circuitVersion enabled =>
      setVerificationKeyStatus errorBase registry ctx proofType circuitVersion enabled
  | .freezeVerification => setVerificationFrozen errorBase registry ctx true
  | .unfreezeVerification => setVerificationFrozen errorBase registry ctx false

end Administration

end Verifier

/-! ## The contract -/

namespace ZkVerifier

open World

def errorBase : Nat := 300

/-- `verify-proof`: the caller is authorised by the registry, which also holds
the circuit version. -/
def verifyProof (P : Primitives) (ctx : Ctx) (proofType circuitVersion : Nat)
    (publicInputsHash : Buff32) (inclusion : Inclusion) : Exec World Buff32 := do
  onRegistry PrivacyRegistry.checkActive
  let w ← read
  let leaf ← onZkVerifier (Verifier.verifyProof P errorBase
    (w.registry.isAuthorizedCaller ctx.contractCaller) w.registry.protocolVersions.circuit ctx
    proofType circuitVersion publicInputsHash inclusion)
  record (.proofVerified .zkVerifier proofType publicInputsHash)
  pure leaf

def execute (P : Primitives) (ctx : Ctx) : Verifier.Call → Exec World Unit
  | .verifyProof proofType circuitVersion publicInputsHash inclusion => do
      let _ ← verifyProof P ctx proofType circuitVersion publicInputsHash inclusion
      pure ()
  | call => do
      let w ← read
      onZkVerifier (Verifier.administer errorBase w.registry ctx call)

end ZkVerifier

end StxShield
