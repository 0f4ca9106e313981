import StxShield.Effects.PrivacyRegistry

/-!
# The registry's functions, field by field

Each function of `privacy-registry` succeeds exactly under the guards its
`asserts!` state, and then leaves exactly one record.  `Performed` collects the
functions into the few shapes that results about whole runs distinguish.
-/

namespace StxShield.PrivacyRegistry

open Library Exec

variable {registry registry' : PrivacyRegistry} {ctx : Ctx} {u : Unit}

/-! ## Registration -/

theorem registerCommitment_ok {commitment : Buff32} {version index : Nat} :
    registerCommitment ctx commitment version registry = .ok (index, registry') ↔
      registry.protocolState = .active ∧ registry.isAuthorizedCaller ctx.contractCaller ∧
      commitment ≠ zeroHash ∧ version = registry.protocolVersions.commitment ∧
      registry.protocolStatistics.totalCommitments < registry.protocolLimits.maxCommitments ∧
      registry.commitments.lookup commitment = none ∧
      registry.protocolStatistics.totalCommitments + 1 < uintBound ∧
      registry.protocolStatistics.totalCommitments = index ∧
      { registry with
        commitments := registry.commitments.insert commitment
          { registered := true, registeredAt := ctx.height, version := version }
        protocolStatistics :=
          { registry.protocolStatistics with
            totalCommitments := registry.protocolStatistics.totalCommitments + 1 } } =
        registry' := by
  unfold registerCommitment
  simp only [↓bind_ok, ↓exists_read, ↓exists_checkActive, ↓exists_require, ↓exists_unwrap,
    ↓exists_addUint, ↓exists_modify, ↓pure_ok, DataMap.insertNew?_eq_some, and_assoc,
    exists_and_left, exists_eq_left']

theorem registerNullifier_ok {nullifier : Buff32} :
    registerNullifier ctx nullifier registry = .ok (u, registry') ↔
      registry.protocolState = .active ∧ registry.isAuthorizedCaller ctx.contractCaller ∧
      nullifier ≠ zeroHash ∧ (registry.nullifiers.lookup nullifier).isNone ∧
      registry.protocolStatistics.totalNullifiers <
        registry.protocolStatistics.totalCommitments ∧
      registry.nullifiers.lookup nullifier = none ∧
      registry.protocolStatistics.totalNullifiers + 1 < uintBound ∧
      { registry with
        nullifiers := registry.nullifiers.insert nullifier
          { registered := true, consumedAt := ctx.height }
        protocolStatistics :=
          { registry.protocolStatistics with
            totalNullifiers := registry.protocolStatistics.totalNullifiers + 1 } } =
        registry' := by
  unfold registerNullifier
  simp only [↓bind_ok, ↓exists_read, ↓exists_checkActive, ↓exists_require, ↓exists_unwrap,
    ↓exists_addUint, ↓modify_ok, DataMap.insertNew?_eq_some, and_assoc, exists_and_left,
    exists_eq_left']

theorem updateRoot_ok {newRoot : Buff32} {version : Nat} :
    updateRoot ctx newRoot version registry = .ok (u, registry') ↔
      registry.protocolState = .active ∧
      (registry.isAuthorizedCaller ctx.contractCaller ∨ registry.isOwner ctx.contractCaller) ∧
      newRoot ≠ zeroHash ∧ version = registry.protocolVersions.root ∧
      registry.merkleRoots.lookup newRoot = none ∧
      { registry with
        merkleRoots := registry.merkleRoots.insert newRoot
          { version := version, registeredAt := ctx.height, active := true }
        currentRoot := { root := newRoot, version := version, updatedAt := ctx.height } } =
        registry' := by
  unfold updateRoot
  simp only [↓bind_ok, ↓exists_read, ↓exists_checkActive, ↓exists_require, ↓exists_unwrap,
    ↓modify_ok, DataMap.insertNew?_eq_some, and_assoc, exists_and_left, exists_eq_left']

theorem setRootStatus_ok {root : Buff32} {active : Bool} :
    setRootStatus ctx root active registry = .ok (u, registry') ↔
      registry.isAdmin ctx.contractCaller roleEmergencyAdmin ∧ root ≠ zeroHash ∧
      ∃ info, registry.merkleRoots.lookup root = some info ∧ info.active ≠ active ∧
        { registry with
          merkleRoots := registry.merkleRoots.insert root { info with active := active } } =
          registry' := by
  unfold setRootStatus
  simp only [↓bind_ok, ↓exists_read, ↓exists_require, ↓exists_unwrap, ↓modify_ok]

/-! ## Protocol state -/

theorem applyTransition_ok {newState : ProtocolState} :
    applyTransition newState registry = .ok (u, registry') ↔
      isValidTransition registry.protocolState newState ∧
        { registry with protocolState := newState } = registry' := by
  unfold applyTransition
  simp only [↓bind_ok, ↓exists_read, ↓exists_require, ↓modify_ok]

theorem pinnedTransition_ok {authorized : PrivacyRegistry → Prop} [DecidablePred authorized]
    {fromState newState : ProtocolState} :
    pinnedTransition authorized fromState newState registry = .ok (u, registry') ↔
      authorized registry ∧ registry.protocolState = fromState ∧
        isValidTransition registry.protocolState newState ∧
        { registry with protocolState := newState } = registry' := by
  unfold pinnedTransition
  simp only [↓bind_ok, ↓exists_read, ↓exists_require, applyTransition_ok]

theorem emergencyPauseProtocol_ok :
    emergencyPauseProtocol ctx registry = .ok (u, registry') ↔
      registry.isAdmin ctx.contractCaller roleEmergencyAdmin ∧
        isValidTransition registry.protocolState .emergency ∧
        { registry with protocolState := .emergency } = registry' := by
  unfold emergencyPauseProtocol
  simp only [↓bind_ok, ↓exists_read, ↓exists_require, applyTransition_ok]

/-- Who may take the protocol from one state to another. -/
def mayTransition (registry : PrivacyRegistry) (who : Principal) :
    ProtocolState → ProtocolState → Prop
  | .active, .paused => registry.isAdmin who roleProtocolAdmin
  | .paused, .active => registry.isAdmin who roleProtocolAdmin
  | .active, .emergency => registry.isAdmin who roleEmergencyAdmin
  | .paused, .emergency => registry.isAdmin who roleEmergencyAdmin
  | .upgrading, .emergency => registry.isAdmin who roleEmergencyAdmin
  | _, _ => registry.isOwner who

/-! ## Versions and limits -/

/-- No component version is lower. -/
structure VersionsLe (old new : ProtocolVersions) : Prop where
  protocol : old.protocol ≤ new.protocol
  verifier : old.verifier ≤ new.verifier
  note : old.note ≤ new.note
  circuit : old.circuit ≤ new.circuit
  commitment : old.commitment ≤ new.commitment
  root : old.root ≤ new.root

theorem VersionsLe.refl (versions : ProtocolVersions) : VersionsLe versions versions :=
  ⟨Nat.le_refl _, Nat.le_refl _, Nat.le_refl _, Nat.le_refl _, Nat.le_refl _, Nat.le_refl _⟩

theorem VersionsLe.trans {first second third : ProtocolVersions} (h : VersionsLe first second)
    (h' : VersionsLe second third) : VersionsLe first third where
  protocol := h.protocol.trans h'.protocol
  verifier := h.verifier.trans h'.verifier
  note := h.note.trans h'.note
  circuit := h.circuit.trans h'.circuit
  commitment := h.commitment.trans h'.commitment
  root := h.root.trans h'.root

theorem updateVersions_ok {new : ProtocolVersions} :
    updateVersions ctx new registry = .ok (u, registry') ↔
      registry.isAdmin ctx.contractCaller roleProtocolAdmin ∧
      registry.protocolState = .upgrading ∧ VersionsLe registry.protocolVersions new ∧
      new ≠ registry.protocolVersions ∧
      { registry with protocolVersions := new } = registry' := by
  unfold updateVersions
  simp only [↓bind_ok, ↓exists_read, ↓exists_require, ↓modify_ok]
  constructor
  · rintro ⟨hadmin, hstate, ⟨h1, h2, h3, h4, h5, h6⟩, hne, heq⟩
    exact ⟨hadmin, hstate, ⟨h1, h2, h3, h4, h5, h6⟩, hne, heq⟩
  · rintro ⟨hadmin, hstate, hle, hne, heq⟩
    exact ⟨hadmin, hstate, ⟨hle.protocol, hle.verifier, hle.note, hle.circuit, hle.commitment,
      hle.root⟩, hne, heq⟩

theorem setVerifierVersions_ok {verifierVersion circuitVersion : Nat} :
    setVerifierVersions ctx verifierVersion circuitVersion registry = .ok (u, registry') ↔
      registry.isAdmin ctx.contractCaller roleVerifierAdmin ∧
      registry.protocolState = .upgrading ∧
      (registry.protocolVersions.verifier ≤ verifierVersion ∧
        registry.protocolVersions.circuit ≤ circuitVersion) ∧
      (registry.protocolVersions.verifier < verifierVersion ∨
        registry.protocolVersions.circuit < circuitVersion) ∧
      { registry with
        protocolVersions :=
          { registry.protocolVersions with
            verifier := verifierVersion
            circuit := circuitVersion } } = registry' := by
  unfold setVerifierVersions
  simp only [↓bind_ok, ↓exists_read, ↓exists_require, ↓modify_ok]

/-- The consistency rules of a limit set. -/
structure LimitsWellFormed (limits : ProtocolLimits) : Prop where
  minShield_pos : 0 < limits.minShield
  minShield_le : limits.minShield ≤ limits.maxShield
  maxShield_le : limits.maxShield ≤ stxSupplyCeiling
  minWithdrawal_pos : 0 < limits.minWithdrawal
  minWithdrawal_le : limits.minWithdrawal ≤ limits.maxWithdrawal
  maxWithdrawal_le : limits.maxWithdrawal ≤ stxSupplyCeiling
  maxCommitments_pos : 0 < limits.maxCommitments
  maxCommitments_le : limits.maxCommitments ≤ merkleTreeCapacity
  maxNotes_pos : 0 < limits.maxNotes
  maxNotes_le : limits.maxNotes ≤ merkleTreeCapacity
  maxFeeBps_le : limits.maxFeeBps ≤ maxFeeBpsCeiling

theorem exists_checkConfigurable {Q : Unit → PrivacyRegistry → Prop} :
    (∃ u mid, checkConfigurable ctx registry = .ok (u, mid) ∧ Q u mid) ↔
      (registry.protocolState ≠ .deprecated ∧
        (registry.protocolState ≠ .emergency ∨ registry.isOwner ctx.contractCaller)) ∧
      Q () registry := by
  unfold checkConfigurable
  simp only [↓bind_ok, ↓exists_read, ↓exists_require, require_ok]
  constructor
  · rintro ⟨_, _, ⟨hstate, howner, rfl⟩, hq⟩
    exact ⟨⟨hstate, howner⟩, hq⟩
  · rintro ⟨⟨hstate, howner⟩, hq⟩
    exact ⟨(), registry, ⟨hstate, howner, rfl⟩, hq⟩

theorem updateProtocolLimits_ok {new : ProtocolLimits} :
    updateProtocolLimits ctx new registry = .ok (u, registry') ↔
      registry.isAdmin ctx.contractCaller roleProtocolAdmin ∧
      (registry.protocolState ≠ .deprecated ∧
        (registry.protocolState ≠ .emergency ∨ registry.isOwner ctx.contractCaller)) ∧
      LimitsWellFormed new ∧
      registry.protocolStatistics.totalCommitments ≤ new.maxCommitments ∧
      registry.protocolStatistics.totalNotes ≤ new.maxNotes ∧
      { registry with protocolLimits := new } = registry' := by
  unfold updateProtocolLimits
  simp only [↓bind_ok, ↓exists_read, ↓exists_require, ↓exists_checkConfigurable, ↓modify_ok]
  constructor
  · rintro ⟨hadmin, hstate, h1, h2, h3, h4, h5, h6, h7, h8, hcommitments, h9, h10, hnotes, h11,
      heq⟩
    exact ⟨hadmin, hstate, ⟨h1, h2, h3, h4, h5, h6, h7, h8, h9, h10, h11⟩, hcommitments, hnotes,
      heq⟩
  · rintro ⟨hadmin, hstate, ⟨h1, h2, h3, h4, h5, h6, h7, h8, h9, h10, h11⟩, hcommitments, hnotes,
      heq⟩
    exact ⟨hadmin, hstate, h1, h2, h3, h4, h5, h6, h7, h8, hcommitments, h9, h10, hnotes, h11,
      heq⟩

theorem setMaxFeeBps_ok {newMaxFeeBps : Nat} :
    setMaxFeeBps ctx newMaxFeeBps registry = .ok (u, registry') ↔
      registry.isAdmin ctx.contractCaller roleFeeAdmin ∧
      (registry.protocolState ≠ .deprecated ∧
        (registry.protocolState ≠ .emergency ∨ registry.isOwner ctx.contractCaller)) ∧
      newMaxFeeBps ≤ maxFeeBpsCeiling ∧
      { registry with
        protocolLimits := { registry.protocolLimits with maxFeeBps := newMaxFeeBps } } =
        registry' := by
  unfold setMaxFeeBps
  simp only [↓bind_ok, ↓exists_read, ↓exists_require, ↓exists_checkConfigurable, ↓modify_ok]

/-! ## Statistics -/

theorem recordShield_ok {amount : Nat} :
    recordShield ctx amount registry = .ok (u, registry') ↔
      registry.protocolState = .active ∧ registry.isAuthorizedCaller ctx.contractCaller ∧
      registry.protocolLimits.minShield ≤ amount ∧ amount ≤ registry.protocolLimits.maxShield ∧
      registry.protocolStatistics.totalShieldedStx + amount < uintBound ∧
      registry.protocolStatistics.totalShieldedStx + amount ≤ stxSupplyCeiling ∧
      { registry with
        protocolStatistics :=
          { registry.protocolStatistics with
            totalShieldedStx := registry.protocolStatistics.totalShieldedStx + amount } } =
        registry' := by
  unfold recordShield
  simp only [↓bind_ok, ↓exists_read, ↓exists_checkActive, ↓exists_require, ↓exists_addUint,
    ↓modify_ok]

theorem recordWithdrawal_ok {amount : Nat} :
    recordWithdrawal ctx amount registry = .ok (u, registry') ↔
      registry.protocolState = .active ∧ registry.isAuthorizedCaller ctx.contractCaller ∧
      registry.protocolLimits.minWithdrawal ≤ amount ∧
      amount ≤ registry.protocolLimits.maxWithdrawal ∧
      amount ≤ registry.protocolStatistics.totalShieldedStx ∧
      amount ≤ registry.protocolStatistics.totalShieldedStx ∧
      registry.protocolStatistics.totalWithdrawals + 1 < uintBound ∧
      { registry with
        protocolStatistics :=
          { registry.protocolStatistics with
            totalShieldedStx := registry.protocolStatistics.totalShieldedStx - amount
            totalWithdrawals := registry.protocolStatistics.totalWithdrawals + 1 } } =
        registry' := by
  unfold recordWithdrawal
  simp only [↓bind_ok, ↓exists_read, ↓exists_checkActive, ↓exists_require, ↓exists_addUint,
    ↓exists_subUint, ↓modify_ok]

theorem recordTransfer_ok :
    recordTransfer ctx registry = .ok (u, registry') ↔
      registry.protocolState = .active ∧ registry.isAuthorizedCaller ctx.contractCaller ∧
      registry.protocolStatistics.totalTransfers + 1 < uintBound ∧
      { registry with
        protocolStatistics :=
          { registry.protocolStatistics with
            totalTransfers := registry.protocolStatistics.totalTransfers + 1 } } = registry' := by
  unfold recordTransfer
  simp only [↓bind_ok, ↓exists_read, ↓exists_checkActive, ↓exists_require, ↓exists_addUint,
    ↓modify_ok]

theorem recordNoteCreated_ok :
    recordNoteCreated ctx registry = .ok (u, registry') ↔
      registry.protocolState = .active ∧ registry.isAuthorizedCaller ctx.contractCaller ∧
      registry.protocolStatistics.totalNotes < registry.protocolLimits.maxNotes ∧
      registry.protocolStatistics.totalNotes + 1 < uintBound ∧
      { registry with
        protocolStatistics :=
          { registry.protocolStatistics with
            totalNotes := registry.protocolStatistics.totalNotes + 1 } } = registry' := by
  unfold recordNoteCreated
  simp only [↓bind_ok, ↓exists_read, ↓exists_checkActive, ↓exists_require, ↓exists_addUint,
    ↓modify_ok]

/-! ## Administration -/

theorem grantRole_ok {account : Principal} {role : Nat} :
    grantRole ctx account role registry = .ok (u, registry') ↔
      registry.isOwner ctx.contractCaller ∧ isRole role ∧ account ≠ .burnAddress ∧
      account ≠ registry.owner ∧ registry.administrators.lookup (account, role) = none ∧
      { registry with
        administrators := registry.administrators.insert (account, role) true } = registry' := by
  unfold grantRole
  simp only [↓bind_ok, ↓exists_read, ↓exists_require, ↓exists_unwrap, ↓modify_ok,
    DataMap.insertNew?_eq_some, and_assoc, exists_and_left, exists_eq_left']

theorem revokeRole_ok {account : Principal} {role : Nat} :
    revokeRole ctx account role registry = .ok (u, registry') ↔
      registry.isOwner ctx.contractCaller ∧ isRole role ∧
      (registry.administrators.lookup (account, role)).isSome ∧
      { registry with administrators := registry.administrators.erase (account, role) } =
        registry' := by
  unfold revokeRole
  simp only [↓bind_ok, ↓exists_read, ↓exists_require, ↓modify_ok]

theorem addAuthorizedCaller_ok {caller : Principal} :
    addAuthorizedCaller ctx caller registry = .ok (u, registry') ↔
      registry.isOwner ctx.contractCaller ∧ caller ≠ .burnAddress ∧
      registry.authorizedCallers.lookup caller = none ∧
      { registry with authorizedCallers := registry.authorizedCallers.insert caller true } =
        registry' := by
  unfold addAuthorizedCaller
  simp only [↓bind_ok, ↓exists_read, ↓exists_require, ↓exists_unwrap, ↓modify_ok,
    DataMap.insertNew?_eq_some, and_assoc, exists_and_left, exists_eq_left']

theorem removeAuthorizedCaller_ok {caller : Principal} :
    removeAuthorizedCaller ctx caller registry = .ok (u, registry') ↔
      registry.isOwner ctx.contractCaller ∧
      (registry.authorizedCallers.lookup caller).isSome ∧
      { registry with authorizedCallers := registry.authorizedCallers.erase caller } =
        registry' := by
  unfold removeAuthorizedCaller
  simp only [↓bind_ok, ↓exists_read, ↓exists_require, ↓modify_ok]

theorem transferOwnership_ok {newOwner : Principal} :
    transferOwnership ctx newOwner registry = .ok (u, registry') ↔
      registry.isOwner ctx.contractCaller ∧ newOwner ≠ .burnAddress ∧
      newOwner ≠ registry.owner ∧ { registry with pendingOwner := some newOwner } = registry' := by
  unfold transferOwnership
  simp only [↓bind_ok, ↓exists_read, ↓exists_require, ↓modify_ok]

theorem acceptOwnership_ok :
    acceptOwnership ctx registry = .ok (u, registry') ↔
      registry.pendingOwner = some ctx.contractCaller ∧
      { registry with owner := ctx.contractCaller, pendingOwner := none } = registry' := by
  unfold acceptOwnership
  simp only [↓bind_ok, ↓exists_read, ↓exists_require, ↓exists_unwrap, ↓modify_ok]
  constructor
  · rintro ⟨pending, hpending, rfl, heq⟩
    exact ⟨hpending, heq⟩
  · rintro ⟨hpending, heq⟩
    exact ⟨_, hpending, rfl, heq⟩

theorem cancelOwnershipTransfer_ok :
    cancelOwnershipTransfer ctx registry = .ok (u, registry') ↔
      registry.isOwner ctx.contractCaller ∧ registry.pendingOwner.isSome ∧
      { registry with pendingOwner := none } = registry' := by
  unfold cancelOwnershipTransfer
  simp only [↓bind_ok, ↓exists_read, ↓exists_require, ↓modify_ok]

/-! ## Public calls -/

/-- The seven functions that move the protocol state. -/
def Call.movesState : Call → Bool
  | .pauseProtocol => true
  | .unpauseProtocol => true
  | .emergencyPauseProtocol => true
  | .resolveEmergency => true
  | .beginUpgrade => true
  | .completeUpgrade => true
  | .deprecateProtocol => true
  | _ => false

def Call.setsVersions : Call → Bool
  | .updateVersions _ => true
  | .setVerifierVersions _ _ => true
  | _ => false

def Call.setsLimits : Call → Bool
  | .updateProtocolLimits _ => true
  | .setMaxFeeBps _ => true
  | _ => false

/-- What a successful call found and what it did. -/
inductive Performed (ctx : Ctx) (before : PrivacyRegistry) :
    Call → Option Nat → PrivacyRegistry → Prop where
  | registerCommitment {commitment : Buff32} {version : Nat} {record : CommitmentRecord}
      (hactive : before.protocolState = .active)
      (hauth : before.isAuthorizedCaller ctx.contractCaller)
      (hcapacity : before.protocolStatistics.totalCommitments <
        before.protocolLimits.maxCommitments)
      (hfresh : before.commitments.lookup commitment = none) :
      Performed ctx before (.registerCommitment commitment version)
        (some before.protocolStatistics.totalCommitments)
        { before with
          commitments := before.commitments.insert commitment record
          protocolStatistics :=
            { before.protocolStatistics with
              totalCommitments := before.protocolStatistics.totalCommitments + 1 } }
  | registerNullifier {nullifier : Buff32}
      (hactive : before.protocolState = .active)
      (hauth : before.isAuthorizedCaller ctx.contractCaller)
      (hcount : before.protocolStatistics.totalNullifiers <
        before.protocolStatistics.totalCommitments)
      (hfresh : before.nullifiers.lookup nullifier = none) :
      Performed ctx before (.registerNullifier nullifier) none
        { before with
          nullifiers := before.nullifiers.insert nullifier
            { registered := true, consumedAt := ctx.height }
          protocolStatistics :=
            { before.protocolStatistics with
              totalNullifiers := before.protocolStatistics.totalNullifiers + 1 } }
  | updateRoot {newRoot : Buff32} {version : Nat}
      (hactive : before.protocolState = .active)
      (hauth : before.isAuthorizedCaller ctx.contractCaller ∨ before.isOwner ctx.contractCaller)
      (hfresh : before.merkleRoots.lookup newRoot = none) :
      Performed ctx before (.updateRoot newRoot version) none
        { before with
          merkleRoots := before.merkleRoots.insert newRoot
            { version := version, registeredAt := ctx.height, active := true }
          currentRoot := { root := newRoot, version := version, updatedAt := ctx.height } }
  | setRootStatus {root : Buff32} {active : Bool} {info : RootRecord}
      (hauth : before.isAdmin ctx.contractCaller roleEmergencyAdmin) (hroot : root ≠ zeroHash)
      (hinfo : before.merkleRoots.lookup root = some info) (hchange : info.active ≠ active) :
      Performed ctx before (.setRootStatus root active) none
        { before with
          merkleRoots := before.merkleRoots.insert root { info with active := active } }
  | transition {call : Call} {newState : ProtocolState} (hcall : call.movesState)
      (hvalid : isValidTransition before.protocolState newState)
      (hauth : before.mayTransition ctx.contractCaller before.protocolState newState)
      (hrecovery : before.protocolState = .emergency → call = .resolveEmergency) :
      Performed ctx before call none { before with protocolState := newState }
  | versions {call : Call} {new : ProtocolVersions} (hcall : call.setsVersions)
      (hstate : before.protocolState = .upgrading)
      (hle : VersionsLe before.protocolVersions new) :
      Performed ctx before call none { before with protocolVersions := new }
  | limits {call : Call} {new : ProtocolLimits} (hcall : call.setsLimits)
      (hstate : before.protocolState ≠ .deprecated)
      (hwell : LimitsWellFormed before.protocolLimits → LimitsWellFormed new)
      (hcommitments : new.maxCommitments = before.protocolLimits.maxCommitments ∨
        before.protocolStatistics.totalCommitments ≤ new.maxCommitments)
      (hnotes : new.maxNotes = before.protocolLimits.maxNotes ∨
        before.protocolStatistics.totalNotes ≤ new.maxNotes) :
      Performed ctx before call none { before with protocolLimits := new }
  | recordShield {amount : Nat} (hactive : before.protocolState = .active)
      (hauth : before.isAuthorizedCaller ctx.contractCaller)
      (hceiling : before.protocolStatistics.totalShieldedStx + amount ≤ stxSupplyCeiling) :
      Performed ctx before (.recordShield amount) none
        { before with
          protocolStatistics :=
            { before.protocolStatistics with
              totalShieldedStx := before.protocolStatistics.totalShieldedStx + amount } }
  | recordWithdrawal {amount : Nat} (hactive : before.protocolState = .active)
      (hauth : before.isAuthorizedCaller ctx.contractCaller)
      (hcovered : amount ≤ before.protocolStatistics.totalShieldedStx) :
      Performed ctx before (.recordWithdrawal amount) none
        { before with
          protocolStatistics :=
            { before.protocolStatistics with
              totalShieldedStx := before.protocolStatistics.totalShieldedStx - amount
              totalWithdrawals := before.protocolStatistics.totalWithdrawals + 1 } }
  | recordTransfer (hactive : before.protocolState = .active)
      (hauth : before.isAuthorizedCaller ctx.contractCaller) :
      Performed ctx before .recordTransfer none
        { before with
          protocolStatistics :=
            { before.protocolStatistics with
              totalTransfers := before.protocolStatistics.totalTransfers + 1 } }
  | recordNoteCreated (hactive : before.protocolState = .active)
      (hauth : before.isAuthorizedCaller ctx.contractCaller)
      (hcapacity : before.protocolStatistics.totalNotes < before.protocolLimits.maxNotes) :
      Performed ctx before .recordNoteCreated none
        { before with
          protocolStatistics :=
            { before.protocolStatistics with
              totalNotes := before.protocolStatistics.totalNotes + 1 } }
  | grantRole {account : Principal} {role : Nat} (howner : before.isOwner ctx.contractCaller)
      (hne : account ≠ before.owner)
      (hfresh : before.administrators.lookup (account, role) = none) :
      Performed ctx before (.grantRole account role) none
        { before with administrators := before.administrators.insert (account, role) true }
  | revokeRole {account : Principal} {role : Nat} (howner : before.isOwner ctx.contractCaller)
      (hgranted : (before.administrators.lookup (account, role)).isSome) :
      Performed ctx before (.revokeRole account role) none
        { before with administrators := before.administrators.erase (account, role) }
  | addAuthorizedCaller {caller : Principal} (howner : before.isOwner ctx.contractCaller)
      (hfresh : before.authorizedCallers.lookup caller = none) :
      Performed ctx before (.addAuthorizedCaller caller) none
        { before with authorizedCallers := before.authorizedCallers.insert caller true }
  | removeAuthorizedCaller {caller : Principal} (howner : before.isOwner ctx.contractCaller)
      (hauthorized : (before.authorizedCallers.lookup caller).isSome) :
      Performed ctx before (.removeAuthorizedCaller caller) none
        { before with authorizedCallers := before.authorizedCallers.erase caller }
  | transferOwnership {newOwner : Principal} (howner : before.isOwner ctx.contractCaller)
      (hne : newOwner ≠ before.owner) :
      Performed ctx before (.transferOwnership newOwner) none
        { before with pendingOwner := some newOwner }
  | acceptOwnership (hpending : before.pendingOwner = some ctx.contractCaller) :
      Performed ctx before .acceptOwnership none
        { before with owner := ctx.contractCaller, pendingOwner := none }
  | cancelOwnershipTransfer (howner : before.isOwner ctx.contractCaller)
      (hpending : before.pendingOwner.isSome) :
      Performed ctx before .cancelOwnershipTransfer none { before with pendingOwner := none }

/-- A transition pinned to its from-state, and to `resolve-emergency` if that is
EMERGENCY. -/
theorem performed_of_pinned {authorized : PrivacyRegistry → Prop} [DecidablePred authorized]
    {fromState newState : ProtocolState} {call : Call} (hcall : call.movesState)
    (h : pinnedTransition authorized fromState newState registry = .ok (u, registry'))
    (hauth : authorized registry → registry.mayTransition ctx.contractCaller fromState newState)
    (hrecovery : fromState = .emergency → call = .resolveEmergency) :
    Performed ctx registry call none registry' := by
  obtain ⟨hauthorized, rfl, hvalid, rfl⟩ := pinnedTransition_ok.mp h
  exact .transition hcall hvalid (hauth hauthorized) hrecovery

/-- Whatever a call does, it is one of these. -/
theorem execute_performed {call : Call} {data : Option Nat}
    (h : execute ctx call registry = .ok (data, registry')) :
    Performed ctx registry call data registry' := by
  cases call with
  | registerCommitment commitment version =>
      simp only [execute, bind_ok, pure_ok] at h
      obtain ⟨_, _, hrun, rfl, rfl⟩ := h
      obtain ⟨hactive, hauth, -, -, hcapacity, hfresh, -, rfl, rfl⟩ := registerCommitment_ok.mp hrun
      exact .registerCommitment hactive hauth hcapacity hfresh
  | registerNullifier nullifier =>
      simp only [execute, bind_ok, pure_ok] at h
      obtain ⟨_, _, hrun, rfl, rfl⟩ := h
      obtain ⟨hactive, hauth, -, -, hcount, hfresh, -, rfl⟩ := registerNullifier_ok.mp hrun
      exact .registerNullifier hactive hauth hcount hfresh
  | updateRoot newRoot version =>
      simp only [execute, bind_ok, pure_ok] at h
      obtain ⟨_, _, hrun, rfl, rfl⟩ := h
      obtain ⟨hactive, hauth, -, -, hfresh, rfl⟩ := updateRoot_ok.mp hrun
      exact .updateRoot hactive hauth hfresh
  | setRootStatus root active =>
      simp only [execute, bind_ok, pure_ok] at h
      obtain ⟨_, _, hrun, rfl, rfl⟩ := h
      obtain ⟨hauth, hroot, info, hinfo, hchange, rfl⟩ := setRootStatus_ok.mp hrun
      exact .setRootStatus hauth hroot hinfo hchange
  | pauseProtocol =>
      simp only [execute, bind_ok, pure_ok] at h
      obtain ⟨_, _, hrun, rfl, rfl⟩ := h
      exact performed_of_pinned rfl hrun id fun h => ProtocolState.noConfusion h
  | unpauseProtocol =>
      simp only [execute, bind_ok, pure_ok] at h
      obtain ⟨_, _, hrun, rfl, rfl⟩ := h
      exact performed_of_pinned rfl hrun id fun h => ProtocolState.noConfusion h
  | emergencyPauseProtocol =>
      simp only [execute, bind_ok, pure_ok] at h
      obtain ⟨_, _, hrun, rfl, rfl⟩ := h
      obtain ⟨hauth, hvalid, rfl⟩ := emergencyPauseProtocol_ok.mp hrun
      refine .transition rfl hvalid ?_ ?_
      · cases hstate : registry.protocolState with
        | active => exact hauth
        | paused => exact hauth
        | upgrading => exact hauth
        | emergency => simp [hstate, isValidTransition] at hvalid
        | deprecated => simp [hstate, isValidTransition] at hvalid
      · intro hstate
        simp [hstate, isValidTransition] at hvalid
  | resolveEmergency =>
      simp only [execute, bind_ok, pure_ok] at h
      obtain ⟨_, _, hrun, rfl, rfl⟩ := h
      exact performed_of_pinned rfl hrun id (fun _ => rfl)
  | beginUpgrade =>
      simp only [execute, bind_ok, pure_ok] at h
      obtain ⟨_, _, hrun, rfl, rfl⟩ := h
      exact performed_of_pinned rfl hrun id fun h => ProtocolState.noConfusion h
  | completeUpgrade =>
      simp only [execute, bind_ok, pure_ok] at h
      obtain ⟨_, _, hrun, rfl, rfl⟩ := h
      exact performed_of_pinned rfl hrun id fun h => ProtocolState.noConfusion h
  | deprecateProtocol =>
      simp only [execute, bind_ok, pure_ok] at h
      obtain ⟨_, _, hrun, rfl, rfl⟩ := h
      exact performed_of_pinned rfl hrun id fun h => ProtocolState.noConfusion h
  | updateVersions new =>
      simp only [execute, bind_ok, pure_ok] at h
      obtain ⟨_, _, hrun, rfl, rfl⟩ := h
      obtain ⟨-, hstate, hle, -, rfl⟩ := updateVersions_ok.mp hrun
      exact .versions rfl hstate hle
  | setVerifierVersions verifierVersion circuitVersion =>
      simp only [execute, bind_ok, pure_ok] at h
      obtain ⟨_, _, hrun, rfl, rfl⟩ := h
      obtain ⟨-, hstate, ⟨hverifier, hcircuit⟩, -, rfl⟩ := setVerifierVersions_ok.mp hrun
      have hsame := VersionsLe.refl registry.protocolVersions
      exact .versions rfl hstate { hsame with verifier := hverifier, circuit := hcircuit }
  | updateProtocolLimits new =>
      simp only [execute, bind_ok, pure_ok] at h
      obtain ⟨_, _, hrun, rfl, rfl⟩ := h
      obtain ⟨-, ⟨hstate, -⟩, hwell, hcommitments, hnotes, rfl⟩ := updateProtocolLimits_ok.mp hrun
      exact .limits rfl hstate (fun _ => hwell) (.inr hcommitments) (.inr hnotes)
  | setMaxFeeBps newMaxFeeBps =>
      simp only [execute, bind_ok, pure_ok] at h
      obtain ⟨_, _, hrun, rfl, rfl⟩ := h
      obtain ⟨-, ⟨hstate, -⟩, hbps, rfl⟩ := setMaxFeeBps_ok.mp hrun
      exact .limits rfl hstate (fun hwell => { hwell with maxFeeBps_le := hbps }) (.inl rfl) (.inl rfl)
  | recordShield amount =>
      simp only [execute, bind_ok, pure_ok] at h
      obtain ⟨_, _, hrun, rfl, rfl⟩ := h
      obtain ⟨hactive, hauth, -, -, -, hceiling, rfl⟩ := recordShield_ok.mp hrun
      exact .recordShield hactive hauth hceiling
  | recordWithdrawal amount =>
      simp only [execute, bind_ok, pure_ok] at h
      obtain ⟨_, _, hrun, rfl, rfl⟩ := h
      obtain ⟨hactive, hauth, -, -, hcovered, -, -, rfl⟩ := recordWithdrawal_ok.mp hrun
      exact .recordWithdrawal hactive hauth hcovered
  | recordTransfer =>
      simp only [execute, bind_ok, pure_ok] at h
      obtain ⟨_, _, hrun, rfl, rfl⟩ := h
      obtain ⟨hactive, hauth, -, rfl⟩ := recordTransfer_ok.mp hrun
      exact .recordTransfer hactive hauth
  | recordNoteCreated =>
      simp only [execute, bind_ok, pure_ok] at h
      obtain ⟨_, _, hrun, rfl, rfl⟩ := h
      obtain ⟨hactive, hauth, hcapacity, -, rfl⟩ := recordNoteCreated_ok.mp hrun
      exact .recordNoteCreated hactive hauth hcapacity
  | grantRole account role =>
      simp only [execute, bind_ok, pure_ok] at h
      obtain ⟨_, _, hrun, rfl, rfl⟩ := h
      obtain ⟨howner, -, -, hne, hfresh, rfl⟩ := grantRole_ok.mp hrun
      exact .grantRole howner hne hfresh
  | revokeRole account role =>
      simp only [execute, bind_ok, pure_ok] at h
      obtain ⟨_, _, hrun, rfl, rfl⟩ := h
      obtain ⟨howner, -, hgranted, rfl⟩ := revokeRole_ok.mp hrun
      exact .revokeRole howner hgranted
  | addAuthorizedCaller caller =>
      simp only [execute, bind_ok, pure_ok] at h
      obtain ⟨_, _, hrun, rfl, rfl⟩ := h
      obtain ⟨howner, -, hfresh, rfl⟩ := addAuthorizedCaller_ok.mp hrun
      exact .addAuthorizedCaller howner hfresh
  | removeAuthorizedCaller caller =>
      simp only [execute, bind_ok, pure_ok] at h
      obtain ⟨_, _, hrun, rfl, rfl⟩ := h
      obtain ⟨howner, hauthorized, rfl⟩ := removeAuthorizedCaller_ok.mp hrun
      exact .removeAuthorizedCaller howner hauthorized
  | transferOwnership newOwner =>
      simp only [execute, bind_ok, pure_ok] at h
      obtain ⟨_, _, hrun, rfl, rfl⟩ := h
      obtain ⟨howner, -, hne, rfl⟩ := transferOwnership_ok.mp hrun
      exact .transferOwnership howner hne
  | acceptOwnership =>
      simp only [execute, bind_ok, pure_ok] at h
      obtain ⟨_, _, hrun, rfl, rfl⟩ := h
      obtain ⟨hpending, rfl⟩ := acceptOwnership_ok.mp hrun
      exact .acceptOwnership hpending
  | cancelOwnershipTransfer =>
      simp only [execute, bind_ok, pure_ok] at h
      obtain ⟨_, _, hrun, rfl, rfl⟩ := h
      obtain ⟨howner, hpending, rfl⟩ := cancelOwnershipTransfer_ok.mp hrun
      exact .cancelOwnershipTransfer howner hpending

end StxShield.PrivacyRegistry
