import StxShield.Chain.Interface

/-!
# privacy-registry

The public functions of `privacy-registry.clar`.  The registry calls no other
contract, so each function is a computation on the registry's own storage.
-/

namespace StxShield.PrivacyRegistry

open Library Exec

/-! ## Constants -/

def roleProtocolAdmin : Nat := 1
def roleEmergencyAdmin : Nat := 2
def roleVerifierAdmin : Nat := 3
def roleFeeAdmin : Nat := 4

def errUnauthorized : Nat := 100
def errUnauthorizedCaller : Nat := 101
def errProtocolPaused : Nat := 102
def errProtocolEmergency : Nat := 103
def errProtocolUpgrading : Nat := 104
def errProtocolDeprecated : Nat := 105
def errInvalidProtocolState : Nat := 106
def errInvalidStateTransition : Nat := 107
def errInvalidCommitment : Nat := 110
def errDuplicateCommitment : Nat := 111
def errCommitmentLimitExceeded : Nat := 112
def errInvalidNullifier : Nat := 115
def errDuplicateNullifier : Nat := 116
def errNullifierInvariantViolation : Nat := 117
def errInvalidRoot : Nat := 120
def errDuplicateRoot : Nat := 121
def errRootNotFound : Nat := 122
def errInvalidVersion : Nat := 125
def errVersionMismatch : Nat := 126
def errInvalidLimits : Nat := 130
def errAmountBelowMinimum : Nat := 131
def errAmountAboveMaximum : Nat := 132
def errNoteLimitExceeded : Nat := 133
def errInsufficientShieldedBalance : Nat := 134
def errShieldedSupplyOverflow : Nat := 135
def errInvalidAdministrator : Nat := 140
def errInvalidRole : Nat := 141
def errRoleAlreadyGranted : Nat := 142
def errRoleNotGranted : Nat := 143
def errCallerAlreadyAuthorized : Nat := 144
def errCallerNotAuthorized : Nat := 145
def errInvalidOwner : Nat := 146
def errNoPendingOwner : Nat := 147
def errNotPendingOwner : Nat := 148

/-! ## Access control -/

def hasRole (registry : PrivacyRegistry) (account : Principal) (role : Nat) : Bool :=
  (registry.administrators.lookup (account, role)).getD false

def isAuthorizedCaller (registry : PrivacyRegistry) (caller : Principal) : Bool :=
  (registry.authorizedCallers.lookup caller).getD false

abbrev isOwner (registry : PrivacyRegistry) (who : Principal) : Prop := who = registry.owner

/-- The owner or a holder of `role`. -/
abbrev isAdmin (registry : PrivacyRegistry) (who : Principal) (role : Nat) : Prop :=
  registry.isOwner who ∨ registry.hasRole who role

/-! ## Protocol state -/

/-- Gate of every protected operation. -/
def checkActive : Exec PrivacyRegistry Unit := do
  let registry ← read
  match registry.protocolState with
  | .active => pure ()
  | .paused => fail errProtocolPaused
  | .emergency => fail errProtocolEmergency
  | .upgrading => fail errProtocolUpgrading
  | .deprecated => fail errProtocolDeprecated

/-- The complete transition table. -/
def isValidTransition : ProtocolState → ProtocolState → Bool
  | .active, .paused => true
  | .paused, .active => true
  | .paused, .upgrading => true
  | .upgrading, .active => true
  | .active, .emergency => true
  | .paused, .emergency => true
  | .upgrading, .emergency => true
  | .emergency, .paused => true
  | .paused, .deprecated => true
  | _, _ => false

def applyTransition (newState : ProtocolState) : Exec PrivacyRegistry Unit := do
  let registry ← read
  require (isValidTransition registry.protocolState newState) errInvalidStateTransition
  modify fun registry => { registry with protocolState := newState }

/-! ## Read-only validation -/

def validateShieldAmount (amount : Nat) : Exec PrivacyRegistry Unit := do
  let registry ← read
  require (registry.protocolLimits.minShield ≤ amount) errAmountBelowMinimum
  require (amount ≤ registry.protocolLimits.maxShield) errAmountAboveMaximum

def validateWithdrawalAmount (amount : Nat) : Exec PrivacyRegistry Unit := do
  let registry ← read
  require (registry.protocolLimits.minWithdrawal ≤ amount) errAmountBelowMinimum
  require (amount ≤ registry.protocolLimits.maxWithdrawal) errAmountAboveMaximum

/-- The root was registered and is still active. -/
def isKnownRoot (registry : PrivacyRegistry) (root : Buff32) : Bool :=
  ((registry.merkleRoots.lookup root).map RootRecord.active).getD false

/-! ## Commitments, nullifiers and roots -/

/-- Registers a note commitment and returns the leaf index it occupies. -/
def registerCommitment (ctx : Ctx) (commitment : Buff32) (version : Nat) :
    Exec PrivacyRegistry Nat := do
  let registry ← read
  let index := registry.protocolStatistics.totalCommitments
  checkActive
  require (registry.isAuthorizedCaller ctx.contractCaller) errUnauthorizedCaller
  require (commitment ≠ zeroHash) errInvalidCommitment
  require (version = registry.protocolVersions.commitment) errVersionMismatch
  require (index < registry.protocolLimits.maxCommitments) errCommitmentLimitExceeded
  let commitments ← unwrap
    (registry.commitments.insertNew? commitment
      { registered := true, registeredAt := ctx.height, version := version })
    errDuplicateCommitment
  let next ← addUint index 1
  modify fun registry =>
    { registry with
      commitments := commitments
      protocolStatistics := { registry.protocolStatistics with totalCommitments := next } }
  pure index

/-- Registers a spent-note nullifier.  The duplicate check precedes the count
check, so a replayed spend is always reported as a replay. -/
def registerNullifier (ctx : Ctx) (nullifier : Buff32) : Exec PrivacyRegistry Unit := do
  let registry ← read
  checkActive
  require (registry.isAuthorizedCaller ctx.contractCaller) errUnauthorizedCaller
  require (nullifier ≠ zeroHash) errInvalidNullifier
  require ((registry.nullifiers.lookup nullifier).isNone) errDuplicateNullifier
  require (registry.protocolStatistics.totalNullifiers <
    registry.protocolStatistics.totalCommitments) errNullifierInvariantViolation
  let nullifiers ← unwrap
    (registry.nullifiers.insertNew? nullifier { registered := true, consumedAt := ctx.height })
    errDuplicateNullifier
  let next ← addUint registry.protocolStatistics.totalNullifiers 1
  modify fun registry =>
    { registry with
      nullifiers := nullifiers
      protocolStatistics := { registry.protocolStatistics with totalNullifiers := next } }

/-- Registers a new current root; the owner may do so too, for the bootstrap. -/
def updateRoot (ctx : Ctx) (newRoot : Buff32) (version : Nat) : Exec PrivacyRegistry Unit := do
  checkActive
  let registry ← read
  require (registry.isAuthorizedCaller ctx.contractCaller ∨ registry.isOwner ctx.contractCaller)
    errUnauthorizedCaller
  require (newRoot ≠ zeroHash) errInvalidRoot
  require (version = registry.protocolVersions.root) errVersionMismatch
  let merkleRoots ← unwrap
    (registry.merkleRoots.insertNew? newRoot
      { version := version, registeredAt := ctx.height, active := true })
    errDuplicateRoot
  modify fun registry =>
    { registry with
      merkleRoots := merkleRoots
      currentRoot := { root := newRoot, version := version, updatedAt := ctx.height } }

/-- Activates or deactivates a registered root, in any protocol state. -/
def setRootStatus (ctx : Ctx) (root : Buff32) (active : Bool) : Exec PrivacyRegistry Unit := do
  let registry ← read
  require (registry.isAdmin ctx.contractCaller roleEmergencyAdmin) errUnauthorized
  require (root ≠ zeroHash) errInvalidRoot
  let info ← unwrap (registry.merkleRoots.lookup root) errRootNotFound
  require (info.active ≠ active) errInvalidRoot
  modify fun registry =>
    { registry with
      merkleRoots := registry.merkleRoots.insert root { info with active := active } }

/-! ## State transitions -/

/-- A transition pinned to the caller's authority and its from-state. -/
def pinnedTransition (authorized : PrivacyRegistry → Prop) [DecidablePred authorized]
    (fromState newState : ProtocolState) : Exec PrivacyRegistry Unit := do
  let registry ← read
  require (authorized registry) errUnauthorized
  require (registry.protocolState = fromState) errInvalidStateTransition
  applyTransition newState

def pauseProtocol (ctx : Ctx) : Exec PrivacyRegistry Unit :=
  pinnedTransition (fun registry => registry.isAdmin ctx.contractCaller roleProtocolAdmin)
    .active .paused

def unpauseProtocol (ctx : Ctx) : Exec PrivacyRegistry Unit :=
  pinnedTransition (fun registry => registry.isAdmin ctx.contractCaller roleProtocolAdmin)
    .paused .active

/-- The only transition whose from-state is left to the table. -/
def emergencyPauseProtocol (ctx : Ctx) : Exec PrivacyRegistry Unit := do
  let registry ← read
  require (registry.isAdmin ctx.contractCaller roleEmergencyAdmin) errUnauthorized
  applyTransition .emergency

def resolveEmergency (ctx : Ctx) : Exec PrivacyRegistry Unit :=
  pinnedTransition (fun registry => registry.isOwner ctx.contractCaller) .emergency .paused

def beginUpgrade (ctx : Ctx) : Exec PrivacyRegistry Unit :=
  pinnedTransition (fun registry => registry.isOwner ctx.contractCaller) .paused .upgrading

def completeUpgrade (ctx : Ctx) : Exec PrivacyRegistry Unit :=
  pinnedTransition (fun registry => registry.isOwner ctx.contractCaller) .upgrading .active

def deprecateProtocol (ctx : Ctx) : Exec PrivacyRegistry Unit :=
  pinnedTransition (fun registry => registry.isOwner ctx.contractCaller) .paused .deprecated

/-! ## Versions and limits -/

def updateVersions (ctx : Ctx) (new : ProtocolVersions) : Exec PrivacyRegistry Unit := do
  let registry ← read
  let current := registry.protocolVersions
  require (registry.isAdmin ctx.contractCaller roleProtocolAdmin) errUnauthorized
  require (registry.protocolState = .upgrading) errInvalidProtocolState
  require (current.protocol ≤ new.protocol ∧ current.verifier ≤ new.verifier ∧
    current.note ≤ new.note ∧ current.circuit ≤ new.circuit ∧
    current.commitment ≤ new.commitment ∧ current.root ≤ new.root) errInvalidVersion
  require (new ≠ current) errInvalidVersion
  modify fun registry => { registry with protocolVersions := new }

def setVerifierVersions (ctx : Ctx) (verifierVersion circuitVersion : Nat) :
    Exec PrivacyRegistry Unit := do
  let registry ← read
  let current := registry.protocolVersions
  require (registry.isAdmin ctx.contractCaller roleVerifierAdmin) errUnauthorized
  require (registry.protocolState = .upgrading) errInvalidProtocolState
  require (current.verifier ≤ verifierVersion ∧ current.circuit ≤ circuitVersion)
    errInvalidVersion
  require (current.verifier < verifierVersion ∨ current.circuit < circuitVersion)
    errInvalidVersion
  modify fun registry =>
    { registry with
      protocolVersions := { current with verifier := verifierVersion, circuit := circuitVersion } }

/-- Configuration changes: refused once deprecated, and during an emergency
refused to everyone but the owner. -/
def checkConfigurable (ctx : Ctx) : Exec PrivacyRegistry Unit := do
  let registry ← read
  require (registry.protocolState ≠ .deprecated) errProtocolDeprecated
  require (registry.protocolState ≠ .emergency ∨ registry.isOwner ctx.contractCaller)
    errProtocolEmergency

def updateProtocolLimits (ctx : Ctx) (new : ProtocolLimits) : Exec PrivacyRegistry Unit := do
  let registry ← read
  require (registry.isAdmin ctx.contractCaller roleProtocolAdmin) errUnauthorized
  checkConfigurable ctx
  require (0 < new.minShield) errInvalidLimits
  require (new.minShield ≤ new.maxShield) errInvalidLimits
  require (new.maxShield ≤ stxSupplyCeiling) errInvalidLimits
  require (0 < new.minWithdrawal) errInvalidLimits
  require (new.minWithdrawal ≤ new.maxWithdrawal) errInvalidLimits
  require (new.maxWithdrawal ≤ stxSupplyCeiling) errInvalidLimits
  require (0 < new.maxCommitments) errInvalidLimits
  require (new.maxCommitments ≤ merkleTreeCapacity) errInvalidLimits
  require (registry.protocolStatistics.totalCommitments ≤ new.maxCommitments) errInvalidLimits
  require (0 < new.maxNotes) errInvalidLimits
  require (new.maxNotes ≤ merkleTreeCapacity) errInvalidLimits
  require (registry.protocolStatistics.totalNotes ≤ new.maxNotes) errInvalidLimits
  require (new.maxFeeBps ≤ maxFeeBpsCeiling) errInvalidLimits
  modify fun registry => { registry with protocolLimits := new }

def setMaxFeeBps (ctx : Ctx) (newMaxFeeBps : Nat) : Exec PrivacyRegistry Unit := do
  let registry ← read
  require (registry.isAdmin ctx.contractCaller roleFeeAdmin) errUnauthorized
  checkConfigurable ctx
  require (newMaxFeeBps ≤ maxFeeBpsCeiling) errInvalidLimits
  modify fun registry =>
    { registry with protocolLimits := { registry.protocolLimits with maxFeeBps := newMaxFeeBps } }

/-! ## Statistics -/

/-- Records STX entering the shielded pool. -/
def recordShield (ctx : Ctx) (amount : Nat) : Exec PrivacyRegistry Unit := do
  let registry ← read
  checkActive
  require (registry.isAuthorizedCaller ctx.contractCaller) errUnauthorizedCaller
  require (registry.protocolLimits.minShield ≤ amount) errAmountBelowMinimum
  require (amount ≤ registry.protocolLimits.maxShield) errAmountAboveMaximum
  let total ← addUint registry.protocolStatistics.totalShieldedStx amount
  require (total ≤ stxSupplyCeiling) errShieldedSupplyOverflow
  modify fun registry =>
    { registry with
      protocolStatistics := { registry.protocolStatistics with totalShieldedStx := total } }

/-- Records STX leaving the shielded pool. -/
def recordWithdrawal (ctx : Ctx) (amount : Nat) : Exec PrivacyRegistry Unit := do
  let registry ← read
  checkActive
  require (registry.isAuthorizedCaller ctx.contractCaller) errUnauthorizedCaller
  require (registry.protocolLimits.minWithdrawal ≤ amount) errAmountBelowMinimum
  require (amount ≤ registry.protocolLimits.maxWithdrawal) errAmountAboveMaximum
  require (amount ≤ registry.protocolStatistics.totalShieldedStx) errInsufficientShieldedBalance
  let total ← subUint registry.protocolStatistics.totalShieldedStx amount
  let withdrawals ← addUint registry.protocolStatistics.totalWithdrawals 1
  modify fun registry =>
    { registry with
      protocolStatistics :=
        { registry.protocolStatistics with
          totalShieldedStx := total
          totalWithdrawals := withdrawals } }

def recordTransfer (ctx : Ctx) : Exec PrivacyRegistry Unit := do
  let registry ← read
  checkActive
  require (registry.isAuthorizedCaller ctx.contractCaller) errUnauthorizedCaller
  let transfers ← addUint registry.protocolStatistics.totalTransfers 1
  modify fun registry =>
    { registry with
      protocolStatistics := { registry.protocolStatistics with totalTransfers := transfers } }

def recordNoteCreated (ctx : Ctx) : Exec PrivacyRegistry Unit := do
  let registry ← read
  checkActive
  require (registry.isAuthorizedCaller ctx.contractCaller) errUnauthorizedCaller
  require (registry.protocolStatistics.totalNotes < registry.protocolLimits.maxNotes)
    errNoteLimitExceeded
  let notes ← addUint registry.protocolStatistics.totalNotes 1
  modify fun registry =>
    { registry with
      protocolStatistics := { registry.protocolStatistics with totalNotes := notes } }

/-! ## Administration -/

abbrev isRole (role : Nat) : Prop :=
  role = roleProtocolAdmin ∨ role = roleEmergencyAdmin ∨ role = roleVerifierAdmin ∨
    role = roleFeeAdmin

def grantRole (ctx : Ctx) (account : Principal) (role : Nat) : Exec PrivacyRegistry Unit := do
  let registry ← read
  require (registry.isOwner ctx.contractCaller) errUnauthorized
  require (isRole role) errInvalidRole
  require (account ≠ .burnAddress) errInvalidAdministrator
  require (account ≠ registry.owner) errInvalidAdministrator
  let administrators ← unwrap (registry.administrators.insertNew? (account, role) true)
    errRoleAlreadyGranted
  modify fun registry => { registry with administrators := administrators }

def revokeRole (ctx : Ctx) (account : Principal) (role : Nat) : Exec PrivacyRegistry Unit := do
  let registry ← read
  require (registry.isOwner ctx.contractCaller) errUnauthorized
  require (isRole role) errInvalidRole
  require ((registry.administrators.lookup (account, role)).isSome) errRoleNotGranted
  modify fun registry =>
    { registry with administrators := registry.administrators.erase (account, role) }

def addAuthorizedCaller (ctx : Ctx) (caller : Principal) : Exec PrivacyRegistry Unit := do
  let registry ← read
  require (registry.isOwner ctx.contractCaller) errUnauthorized
  require (caller ≠ .burnAddress) errInvalidAdministrator
  let authorizedCallers ← unwrap (registry.authorizedCallers.insertNew? caller true)
    errCallerAlreadyAuthorized
  modify fun registry => { registry with authorizedCallers := authorizedCallers }

def removeAuthorizedCaller (ctx : Ctx) (caller : Principal) : Exec PrivacyRegistry Unit := do
  let registry ← read
  require (registry.isOwner ctx.contractCaller) errUnauthorized
  require ((registry.authorizedCallers.lookup caller).isSome) errCallerNotAuthorized
  modify fun registry =>
    { registry with authorizedCallers := registry.authorizedCallers.erase caller }

def transferOwnership (ctx : Ctx) (newOwner : Principal) : Exec PrivacyRegistry Unit := do
  let registry ← read
  require (registry.isOwner ctx.contractCaller) errUnauthorized
  require (newOwner ≠ .burnAddress) errInvalidOwner
  require (newOwner ≠ registry.owner) errInvalidOwner
  modify fun registry => { registry with pendingOwner := some newOwner }

def acceptOwnership (ctx : Ctx) : Exec PrivacyRegistry Unit := do
  let registry ← read
  let pending ← unwrap registry.pendingOwner errNoPendingOwner
  require (ctx.contractCaller = pending) errNotPendingOwner
  modify fun registry => { registry with owner := pending, pendingOwner := none }

def cancelOwnershipTransfer (ctx : Ctx) : Exec PrivacyRegistry Unit := do
  let registry ← read
  require (registry.isOwner ctx.contractCaller) errUnauthorized
  require (registry.pendingOwner.isSome) errNoPendingOwner
  modify fun registry => { registry with pendingOwner := none }

/-! ## Public interface -/

/-- The leaf index for `register-commitment`; the other functions return `(ok true)`. -/
def execute (ctx : Ctx) : Call → Exec PrivacyRegistry (Option Nat)
  | .registerCommitment commitment version => do
      let index ← registerCommitment ctx commitment version
      pure (some index)
  | .registerNullifier nullifier => do registerNullifier ctx nullifier; pure none
  | .updateRoot newRoot version => do updateRoot ctx newRoot version; pure none
  | .setRootStatus root active => do setRootStatus ctx root active; pure none
  | .pauseProtocol => do pauseProtocol ctx; pure none
  | .unpauseProtocol => do unpauseProtocol ctx; pure none
  | .emergencyPauseProtocol => do emergencyPauseProtocol ctx; pure none
  | .resolveEmergency => do resolveEmergency ctx; pure none
  | .beginUpgrade => do beginUpgrade ctx; pure none
  | .completeUpgrade => do completeUpgrade ctx; pure none
  | .deprecateProtocol => do deprecateProtocol ctx; pure none
  | .updateVersions new => do updateVersions ctx new; pure none
  | .setVerifierVersions verifierVersion circuitVersion => do
      setVerifierVersions ctx verifierVersion circuitVersion
      pure none
  | .updateProtocolLimits new => do updateProtocolLimits ctx new; pure none
  | .setMaxFeeBps newMaxFeeBps => do setMaxFeeBps ctx newMaxFeeBps; pure none
  | .recordShield amount => do recordShield ctx amount; pure none
  | .recordWithdrawal amount => do recordWithdrawal ctx amount; pure none
  | .recordTransfer => do recordTransfer ctx; pure none
  | .recordNoteCreated => do recordNoteCreated ctx; pure none
  | .grantRole account role => do grantRole ctx account role; pure none
  | .revokeRole account role => do revokeRole ctx account role; pure none
  | .addAuthorizedCaller caller => do addAuthorizedCaller ctx caller; pure none
  | .removeAuthorizedCaller caller => do removeAuthorizedCaller ctx caller; pure none
  | .transferOwnership newOwner => do transferOwnership ctx newOwner; pure none
  | .acceptOwnership => do acceptOwnership ctx; pure none
  | .cancelOwnershipTransfer => do cancelOwnershipTransfer ctx; pure none

end StxShield.PrivacyRegistry
