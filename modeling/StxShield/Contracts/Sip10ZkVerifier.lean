import StxShield.Contracts.ZkVerifier

/-!
# sip10-zk-verifier

The verifier of the SIP-10 family.  It differs from `zk-verifier` in who may
present a proof, one pool set by the registry's owner, and in holding its own
circuit version.
-/

namespace StxShield.Sip10ZkVerifier

open Library Exec World

def errorBase : Nat := 550
def errInvalidVersion : Nat := 572
def errPoolUnchanged : Nat := 573

/-! ## Merkle inclusion -/

section Inclusion

variable (P : Primitives)

/-- This contract's own copy of `merkle-step`. -/
def merkleStep (acc : Verifier.MerkleAcc) (sibling : Buff32) : Verifier.MerkleAcc where
  hash :=
    if acc.position % 2 = 1 ∨ acc.position + 1 = acc.width then
      P.keccak256 (sibling.bytes ++ acc.hash.bytes)
    else P.keccak256 (acc.hash.bytes ++ sibling.bytes)
  position := acc.position / 2
  width := (acc.width - 1) / 2 + 1

/-- This contract's own copy of `compute-merkle-root`. -/
def computeMerkleRoot (leaf : Buff32) (path : List Buff32) (leafIndex leafCount : Nat) : Buff32 :=
  (path.foldl (merkleStep P)
    { hash := P.keccak256 leaf.bytes, position := leafIndex, width := leafCount }).hash

/-- The copies agree, so the shared verifier can use either. -/
theorem computeMerkleRoot_eq (leaf : Buff32) (path : List Buff32) (leafIndex leafCount : Nat) :
    computeMerkleRoot P leaf path leafIndex leafCount =
      Verifier.computeMerkleRoot P leaf path leafIndex leafCount := rfl

end Inclusion

/-! ## Public functions -/

def verifyProof (P : Primitives) (ctx : Ctx) (proofType circuitVersion : Nat)
    (publicInputsHash : Buff32) (inclusion : Inclusion) : Exec World Buff32 := do
  onRegistry PrivacyRegistry.checkActive
  let w ← read
  let leaf ← onSip10ZkVerifier
    (zoom Sip10Verifier.verifier (fun verifier storage => { storage with verifier := verifier })
      (Verifier.verifyProof P errorBase
        (some ctx.contractCaller = w.sip10ZkVerifier.authorizedPool)
        w.sip10ZkVerifier.circuitVersion ctx proofType circuitVersion publicInputsHash inclusion))
  record (.proofVerified .sip10ZkVerifier proofType publicInputsHash)
  pure leaf

def setCircuitVersion (registry : PrivacyRegistry) (ctx : Ctx) (newVersion : Nat) :
    Exec Sip10Verifier Unit := do
  let storage ← read
  require (Verifier.isVerifierAdmin registry ctx.contractCaller)
    (errorBase + Verifier.errUnauthorized)
  require (storage.circuitVersion < newVersion) errInvalidVersion
  modify fun storage => { storage with circuitVersion := newVersion }

def setAuthorizedPool (registry : PrivacyRegistry) (ctx : Ctx) (pool : Principal) :
    Exec Sip10Verifier Unit := do
  let storage ← read
  require (registry.isOwner ctx.contractCaller) (errorBase + Verifier.errUnauthorized)
  require (some pool ≠ storage.authorizedPool) errPoolUnchanged
  modify fun storage => { storage with authorizedPool := some pool }

def execute (P : Primitives) (ctx : Ctx) : Sip10Verifier.Call → Exec World Unit
  | .common (.verifyProof proofType circuitVersion publicInputsHash inclusion) => do
      let _ ← verifyProof P ctx proofType circuitVersion publicInputsHash inclusion
      pure ()
  | .common call => do
      let w ← read
      onSip10ZkVerifier
        (zoom Sip10Verifier.verifier (fun verifier storage => { storage with verifier := verifier })
          (Verifier.administer errorBase w.registry ctx call))
  | .setCircuitVersion newVersion => do
      let w ← read
      onSip10ZkVerifier (setCircuitVersion w.registry ctx newVersion)
  | .setAuthorizedPool pool => do
      let w ← read
      onSip10ZkVerifier (setAuthorizedPool w.registry ctx pool)

end StxShield.Sip10ZkVerifier
