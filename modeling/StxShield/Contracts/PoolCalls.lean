import StxShield.Contracts.NoteManager

/-!
# Calls the pools share

The calls `privacy-pool`, `split-merge-manager` and `sip10-pool` make to the
registry and the note manager, each with the version the registry holds at
that moment.
-/

namespace StxShield.PoolCalls

open Library Exec World

/-- `check-current-root`: the declared root is the current one, and active. -/
def checkCurrentRoot (declared : Buff32) (errStaleRoot errUnknownRoot : Nat) :
    Exec World Unit := do
  let w ← read
  require (declared = w.registry.currentRoot.root) errStaleRoot
  require (w.registry.isKnownRoot declared) errUnknownRoot

def registerNote (caller : Ctx) (noteId ownerCommitment metadata : Buff32) : Exec World Unit := do
  let w ← read
  NoteManager.registerNote caller noteId ownerCommitment metadata w.registry.protocolVersions.note

def registerNullifier (caller : Ctx) (nullifier : Buff32) : Exec World Unit :=
  onRegistry (PrivacyRegistry.registerNullifier caller nullifier)

def registerCommitment (caller : Ctx) (commitment : Buff32) : Exec World Nat := do
  let w ← read
  onRegistry
    (PrivacyRegistry.registerCommitment caller commitment w.registry.protocolVersions.commitment)

def updateRoot (caller : Ctx) (newRoot : Buff32) : Exec World Unit := do
  let w ← read
  onRegistry (PrivacyRegistry.updateRoot caller newRoot w.registry.protocolVersions.root)

end StxShield.PoolCalls
