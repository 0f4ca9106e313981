import StxShield.Contracts.PrivacyRegistry

/-!
# What the registry's functions do

Everything the rest of the development needs of the registry is its ledger:
the registered commitments and nullifiers in order, the registered roots, the
current root, the authorised callers and the shielded STX total.
-/

namespace StxShield.PrivacyRegistry

open Library Exec

/-- The part of the registry that value operations read and write. -/
@[ext]
structure RegistryLedger where
  leaves : List Buff32
  registered : Nat
  nullifiers : List Buff32
  roots : Set Buff32
  currentRoot : Buff32
  authorized : Principal → Bool
  totalShieldedStx : Nat

def ledger (registry : PrivacyRegistry) : RegistryLedger where
  leaves := registry.leaves
  registered := registry.protocolStatistics.totalCommitments
  nullifiers := registry.nullifiers.keys.reverse
  roots := { root | root ∈ registry.merkleRoots }
  currentRoot := registry.currentRoot.root
  authorized caller := registry.isAuthorizedCaller caller
  totalShieldedStx := registry.protocolStatistics.totalShieldedStx

variable {registry registry' : PrivacyRegistry} {ctx : Ctx} {u : Unit}

/-! ## Registration -/

theorem checkActive_ok :
    checkActive registry = .ok (u, registry') ↔
      registry.protocolState = .active ∧ registry = registry' := by
  unfold checkActive
  simp only [↓bind_ok, ↓exists_read]
  cases registry.protocolState <;> simp

theorem exists_checkActive {Q : Unit → PrivacyRegistry → Prop} :
    (∃ u mid, checkActive registry = .ok (u, mid) ∧ Q u mid) ↔
      registry.protocolState = .active ∧ Q () registry := by
  constructor
  · rintro ⟨_, _, h, hq⟩
    obtain ⟨hactive, rfl⟩ := checkActive_ok.mp h
    exact ⟨hactive, hq⟩
  · rintro ⟨hactive, hq⟩
    exact ⟨(), registry, checkActive_ok.mpr ⟨hactive, rfl⟩, hq⟩

/-- A commitment is new, lands at the next index, and is the only change. -/
theorem registerCommitment_effect {commitment : Buff32} {version index : Nat}
    (h : registerCommitment ctx commitment version registry = .ok (index, registry')) :
    registry.isAuthorizedCaller ctx.contractCaller ∧ commitment ∉ registry.leaves ∧
      index = registry.protocolStatistics.totalCommitments ∧
      registry'.ledger =
        { registry.ledger with
          leaves := registry.leaves ++ [commitment]
          registered := index + 1 } := by
  unfold registerCommitment at h
  simp only [↓bind_ok, ↓exists_read, ↓exists_checkActive, ↓exists_require, ↓exists_unwrap,
    ↓exists_addUint, ↓exists_modify, ↓pure_ok, DataMap.insertNew?_eq_some] at h
  obtain ⟨-, hauth, -, -, -, _, ⟨hnew, rfl⟩, -, rfl, rfl⟩ := h
  have hkeys : commitment ∉ registry.commitments.keys := AList.lookup_eq_none.mp hnew
  have hleaves : (registry.commitments.insert commitment
      { registered := true, registeredAt := ctx.height, version := version }).keys.reverse =
      registry.leaves ++ [commitment] := by
    rw [DataMap.keys_insert_new _ hnew, List.reverse_cons]
    rfl
  refine ⟨hauth, ?_, rfl, RegistryLedger.ext hleaves rfl rfl rfl rfl rfl rfl⟩
  simpa [leaves] using hkeys

/-- A nullifier is new, and is the only change. -/
theorem registerNullifier_effect {nullifier : Buff32}
    (h : registerNullifier ctx nullifier registry = .ok (u, registry')) :
    registry.isAuthorizedCaller ctx.contractCaller ∧ nullifier ∉ registry.ledger.nullifiers ∧
      registry'.ledger =
        { registry.ledger with nullifiers := registry.ledger.nullifiers ++ [nullifier] } := by
  unfold registerNullifier at h
  simp only [↓bind_ok, ↓exists_read, ↓exists_checkActive, ↓exists_require, ↓exists_unwrap,
    ↓exists_addUint, ↓modify_ok, DataMap.insertNew?_eq_some] at h
  obtain ⟨-, hauth, -, -, -, _, ⟨hnew, rfl⟩, -, rfl⟩ := h
  have hkeys : nullifier ∉ registry.nullifiers.keys := AList.lookup_eq_none.mp hnew
  have hnullifiers : (registry.nullifiers.insert nullifier
      { registered := true, consumedAt := ctx.height }).keys.reverse =
      registry.ledger.nullifiers ++ [nullifier] := by
    rw [DataMap.keys_insert_new _ hnew, List.reverse_cons]
    rfl
  refine ⟨hauth, ?_, RegistryLedger.ext rfl rfl hnullifiers rfl rfl rfl rfl⟩
  simpa [ledger] using hkeys

/-- A root is new and becomes the current one; only an authorised caller or the
owner can post it. -/
theorem updateRoot_effect {newRoot : Buff32} {version : Nat}
    (h : updateRoot ctx newRoot version registry = .ok (u, registry')) :
    newRoot ∉ registry.ledger.roots ∧
      registry'.ledger =
        { registry.ledger with
          roots := insert newRoot registry.ledger.roots
          currentRoot := newRoot } := by
  unfold updateRoot at h
  simp only [↓bind_ok, ↓exists_read, ↓exists_checkActive, ↓exists_require, ↓exists_unwrap,
    ↓modify_ok, DataMap.insertNew?_eq_some] at h
  obtain ⟨-, -, -, -, _, ⟨hnew, rfl⟩, rfl⟩ := h
  have hroots : { root | root ∈ registry.merkleRoots.insert newRoot
      { version := version, registeredAt := ctx.height, active := true } } =
      insert newRoot { root | root ∈ registry.merkleRoots } := by
    ext root
    exact AList.mem_insert _
  exact ⟨AList.lookup_eq_none.mp hnew, RegistryLedger.ext rfl rfl rfl hroots rfl rfl rfl⟩

/-- An active root is a registered one. -/
theorem mem_roots_of_isKnownRoot {root : Buff32} (h : registry.isKnownRoot root) :
    root ∈ registry.ledger.roots := by
  unfold isKnownRoot at h
  cases hlookup : registry.merkleRoots.lookup root with
  | none => simp [hlookup] at h
  | some record =>
      change root ∈ registry.merkleRoots
      rw [← AList.lookup_isSome, hlookup]
      rfl

/-! ## Statistics -/

theorem recordShield_effect {amount : Nat}
    (h : recordShield ctx amount registry = .ok (u, registry')) :
    registry.isAuthorizedCaller ctx.contractCaller ∧
      registry'.ledger =
        { registry.ledger with
          totalShieldedStx := registry.ledger.totalShieldedStx + amount } := by
  unfold recordShield at h
  simp only [↓bind_ok, ↓exists_read, ↓exists_checkActive, ↓exists_require, ↓exists_addUint,
    ↓modify_ok] at h
  obtain ⟨-, hauth, -, -, -, -, rfl⟩ := h
  exact ⟨hauth, rfl⟩

theorem recordWithdrawal_effect {amount : Nat}
    (h : recordWithdrawal ctx amount registry = .ok (u, registry')) :
    registry.isAuthorizedCaller ctx.contractCaller ∧
      amount ≤ registry.ledger.totalShieldedStx ∧
      registry'.ledger =
        { registry.ledger with
          totalShieldedStx := registry.ledger.totalShieldedStx - amount } := by
  unfold recordWithdrawal at h
  simp only [↓bind_ok, ↓exists_read, ↓exists_checkActive, ↓exists_require, ↓exists_addUint,
    ↓exists_subUint, ↓modify_ok] at h
  obtain ⟨-, hauth, -, -, -, hle, -, rfl⟩ := h
  exact ⟨hauth, hle, rfl⟩

@[simp]
theorem keeps_checkActive {α : Type} (f : PrivacyRegistry → α) : Keeps f checkActive := by
  intro registry u registry' h
  rw [(checkActive_ok.mp h).2]

@[simp]
theorem keeps_validateShieldAmount {α : Type} (f : PrivacyRegistry → α) (amount : Nat) :
    Keeps f (validateShieldAmount amount) := by
  simp [validateShieldAmount]

@[simp]
theorem keeps_validateWithdrawalAmount {α : Type} (f : PrivacyRegistry → α) (amount : Nat) :
    Keeps f (validateWithdrawalAmount amount) := by
  simp [validateWithdrawalAmount]

@[simp]
theorem recordTransfer_keeps_ledger : Keeps ledger (recordTransfer ctx) := by
  intro registry u registry' h
  unfold recordTransfer at h
  simp only [↓bind_ok, ↓exists_read, ↓exists_checkActive, ↓exists_require, ↓exists_addUint,
    ↓modify_ok] at h
  obtain ⟨-, -, -, rfl⟩ := h
  rfl

@[simp]
theorem recordNoteCreated_keeps_ledger : Keeps ledger (recordNoteCreated ctx) := by
  intro registry u registry' h
  unfold recordNoteCreated at h
  simp only [↓bind_ok, ↓exists_read, ↓exists_checkActive, ↓exists_require, ↓exists_addUint,
    ↓modify_ok] at h
  obtain ⟨-, -, -, -, rfl⟩ := h
  rfl

/-! ## Public calls -/

/-- What a public call can do to the ledger. -/
inductive CallEffect (caller : Principal) : Call → RegistryLedger → RegistryLedger → Prop where
  | quiet {call : Call} {before : RegistryLedger} : CallEffect caller call before before
  /-- Registrations and statistics are open to authorised callers only. -/
  | authorized {call : Call} {before after : RegistryLedger}
      (hauth : before.authorized caller)
      (hleaves : before.leaves <+: after.leaves)
      (hnullifiers : before.nullifiers <+: after.nullifiers) :
      CallEffect caller call before after
  | root {before : RegistryLedger} {newRoot : Buff32} {version : Nat}
      (hfresh : newRoot ∉ before.roots) :
      CallEffect caller (.updateRoot newRoot version) before
        { before with roots := insert newRoot before.roots, currentRoot := newRoot }
  /-- The allowlist changes; only the named caller can join it. -/
  | allowlist {call : Call} {before : RegistryLedger} {authorized : Principal → Bool}
      (hjoin : ∀ who, authorized who → before.authorized who ∨ call = .addAuthorizedCaller who) :
      CallEffect caller call before { before with authorized := authorized }

theorem setRootStatus_keeps_ledger (root : Buff32) (active : Bool) :
    Keeps ledger (setRootStatus ctx root active) := by
  intro registry u registry' h
  unfold setRootStatus at h
  simp only [↓bind_ok, ↓exists_read, ↓exists_require, ↓exists_unwrap, ↓modify_ok] at h
  obtain ⟨-, -, info, hinfo, -, rfl⟩ := h
  have hmem : root ∈ registry.merkleRoots := by
    rw [← AList.lookup_isSome, hinfo]
    rfl
  have hroots : { other | other ∈ registry.merkleRoots.insert root { info with active := active } } =
      { other | other ∈ registry.merkleRoots } := by
    ext other
    simp only [Set.mem_ofPred_eq, AList.mem_insert]
    exact or_iff_right_of_imp fun heq => heq ▸ hmem
  exact RegistryLedger.ext rfl rfl rfl hroots rfl rfl rfl

theorem addAuthorizedCaller_effect {caller : Principal}
    (h : addAuthorizedCaller ctx caller registry = .ok (u, registry')) :
    CallEffect ctx.contractCaller (.addAuthorizedCaller caller) registry.ledger registry'.ledger := by
  unfold addAuthorizedCaller at h
  simp only [↓bind_ok, ↓exists_read, ↓exists_require, ↓exists_unwrap, ↓modify_ok,
    DataMap.insertNew?_eq_some] at h
  obtain ⟨-, -, _, ⟨-, rfl⟩, rfl⟩ := h
  refine .allowlist fun who hwho => ?_
  by_cases heq : who = caller
  · exact .inr (heq ▸ rfl)
  · left
    simpa [ledger, isAuthorizedCaller, AList.lookup_insert_ne heq] using hwho

theorem removeAuthorizedCaller_effect {caller : Principal}
    (h : removeAuthorizedCaller ctx caller registry = .ok (u, registry')) :
    CallEffect ctx.contractCaller (.removeAuthorizedCaller caller) registry.ledger registry'.ledger := by
  unfold removeAuthorizedCaller at h
  simp only [↓bind_ok, ↓exists_read, ↓exists_require, ↓modify_ok] at h
  obtain ⟨-, -, rfl⟩ := h
  refine .allowlist fun who hwho => .inl ?_
  by_cases heq : who = caller
  · subst heq
    simp [isAuthorizedCaller] at hwho
  · simpa [ledger, isAuthorizedCaller, AList.lookup_erase_ne heq] using hwho

/-- State transitions, versions, limits and roles leave the ledger alone. -/
theorem administration_keeps_ledger (ctx : Ctx) :
    (∀ (authorized : PrivacyRegistry → Prop) [DecidablePred authorized]
        (fromState newState : ProtocolState),
      Keeps ledger (pinnedTransition authorized fromState newState)) ∧
    Keeps ledger (emergencyPauseProtocol ctx) ∧
    (∀ new, Keeps ledger (updateVersions ctx new)) ∧
    (∀ verifier circuit, Keeps ledger (setVerifierVersions ctx verifier circuit)) ∧
    (∀ new, Keeps ledger (updateProtocolLimits ctx new)) ∧
    (∀ bps, Keeps ledger (setMaxFeeBps ctx bps)) ∧
    (∀ account role, Keeps ledger (grantRole ctx account role)) ∧
    (∀ account role, Keeps ledger (revokeRole ctx account role)) ∧
    (∀ owner, Keeps ledger (transferOwnership ctx owner)) ∧
    Keeps ledger (acceptOwnership ctx) ∧ Keeps ledger (cancelOwnershipTransfer ctx) := by
  refine ⟨?_, ?_, ?_, ?_, ?_, ?_, ?_, ?_, ?_, ?_, ?_⟩ <;> intros
  all_goals
    simp only [pinnedTransition, emergencyPauseProtocol, applyTransition, updateVersions,
      setVerifierVersions, updateProtocolLimits, setMaxFeeBps, checkConfigurable, grantRole,
      revokeRole, transferOwnership, acceptOwnership, cancelOwnershipTransfer]
    repeat first
      | exact keeps_modify fun _ => rfl
      | refine keeps_bind ?_ fun _ => ?_
      | simp

/-- Every public call has one of the four effects. -/
theorem execute_effect {call : Call} {data : Option Nat}
    (h : execute ctx call registry = .ok (data, registry')) :
    CallEffect ctx.contractCaller call registry.ledger registry'.ledger := by
  obtain ⟨hpinned, hemergency, hversions, hverifier, hlimits, hbps, hgrant, hrevoke, htransfer,
    haccept, hcancel⟩ := administration_keeps_ledger ctx
  have quiet {m : Exec PrivacyRegistry Unit} (hm : Keeps ledger m)
      (h : (m >>= fun _ => pure none) registry = .ok (data, registry')) :
      CallEffect ctx.contractCaller call registry.ledger registry'.ledger := by
    have hsame := keeps_bind hm (fun _ => keeps_pure _) registry data registry' h
    exact hsame ▸ .quiet
  cases call with
  | registerCommitment commitment version =>
      simp only [execute, bind_ok, pure_ok] at h
      obtain ⟨index, _, hrun, _, rfl⟩ := h
      obtain ⟨hauth, -, -, hledger⟩ := registerCommitment_effect hrun
      rw [hledger]
      exact .authorized hauth (List.prefix_append _ _) (List.prefix_refl _)
  | registerNullifier nullifier =>
      simp only [execute, bind_ok, pure_ok] at h
      obtain ⟨_, _, hrun, _, rfl⟩ := h
      obtain ⟨hauth, -, hledger⟩ := registerNullifier_effect hrun
      rw [hledger]
      exact .authorized hauth (List.prefix_refl _) (List.prefix_append _ _)
  | updateRoot newRoot version =>
      simp only [execute, bind_ok, pure_ok] at h
      obtain ⟨_, _, hrun, _, rfl⟩ := h
      obtain ⟨hfresh, hledger⟩ := updateRoot_effect hrun
      rw [hledger]
      exact .root hfresh
  | recordShield amount =>
      simp only [execute, bind_ok, pure_ok] at h
      obtain ⟨_, _, hrun, _, rfl⟩ := h
      obtain ⟨hauth, hledger⟩ := recordShield_effect hrun
      rw [hledger]
      exact .authorized hauth (List.prefix_refl _) (List.prefix_refl _)
  | recordWithdrawal amount =>
      simp only [execute, bind_ok, pure_ok] at h
      obtain ⟨_, _, hrun, _, rfl⟩ := h
      obtain ⟨hauth, -, hledger⟩ := recordWithdrawal_effect hrun
      rw [hledger]
      exact .authorized hauth (List.prefix_refl _) (List.prefix_refl _)
  | addAuthorizedCaller caller =>
      simp only [execute, bind_ok, pure_ok] at h
      obtain ⟨_, _, hrun, _, rfl⟩ := h
      exact addAuthorizedCaller_effect hrun
  | removeAuthorizedCaller caller =>
      simp only [execute, bind_ok, pure_ok] at h
      obtain ⟨_, _, hrun, _, rfl⟩ := h
      exact removeAuthorizedCaller_effect hrun
  | setRootStatus root active => exact quiet (setRootStatus_keeps_ledger root active) h
  | pauseProtocol => exact quiet (hpinned _ _ _) h
  | unpauseProtocol => exact quiet (hpinned _ _ _) h
  | emergencyPauseProtocol => exact quiet hemergency h
  | resolveEmergency => exact quiet (hpinned _ _ _) h
  | beginUpgrade => exact quiet (hpinned _ _ _) h
  | completeUpgrade => exact quiet (hpinned _ _ _) h
  | deprecateProtocol => exact quiet (hpinned _ _ _) h
  | updateVersions new => exact quiet (hversions new) h
  | setVerifierVersions verifier circuit => exact quiet (hverifier verifier circuit) h
  | updateProtocolLimits new => exact quiet (hlimits new) h
  | setMaxFeeBps bps => exact quiet (hbps bps) h
  | recordTransfer => exact quiet recordTransfer_keeps_ledger h
  | recordNoteCreated => exact quiet recordNoteCreated_keeps_ledger h
  | grantRole account role => exact quiet (hgrant account role) h
  | revokeRole account role => exact quiet (hrevoke account role) h
  | transferOwnership owner => exact quiet (htransfer owner) h
  | acceptOwnership => exact quiet haccept h
  | cancelOwnershipTransfer => exact quiet hcancel h

end StxShield.PrivacyRegistry
