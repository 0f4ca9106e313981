import StxShield.Registry.Lifecycle

/-!
# Writes after deprecation

DEPRECATED is meant to be the end of all writes.  The functions that check only
the caller's role still take effect there; every other call leaves the whole
registry as it was.
-/

namespace StxShield.PrivacyRegistry

open Library Exec

variable {ctx : Ctx} {registry registry' : PrivacyRegistry} {call : Call} {data : Option Nat}

/-- The functions that never look at the protocol state. -/
def Call.ignoresState : Call → Bool
  | .setRootStatus _ _ => true
  | .grantRole _ _ => true
  | .revokeRole _ _ => true
  | .addAuthorizedCaller _ => true
  | .removeAuthorizedCaller _ => true
  | .transferOwnership _ => true
  | .acceptOwnership => true
  | .cancelOwnershipTransfer => true
  | _ => false

/-- A request passes all checks of a function that never looks at the protocol
state, and asks for something new. -/
def SurvivesDeprecation (registry : PrivacyRegistry) (request : Request) : Prop :=
  match request.2 with
  | .setRootStatus root active =>
      registry.isAdmin request.1.contractCaller roleEmergencyAdmin ∧ root ≠ zeroHash ∧
        ∃ info, registry.merkleRoots.lookup root = some info ∧ info.active ≠ active
  | .grantRole account role =>
      registry.isOwner request.1.contractCaller ∧ isRole role ∧ account ≠ .burnAddress ∧
        account ≠ registry.owner ∧ registry.administrators.lookup (account, role) = none
  | .revokeRole account role =>
      registry.isOwner request.1.contractCaller ∧ isRole role ∧
        (registry.administrators.lookup (account, role)).isSome
  | .addAuthorizedCaller caller =>
      registry.isOwner request.1.contractCaller ∧ caller ≠ .burnAddress ∧
        registry.authorizedCallers.lookup caller = none
  | .removeAuthorizedCaller caller =>
      registry.isOwner request.1.contractCaller ∧
        (registry.authorizedCallers.lookup caller).isSome
  | .transferOwnership newOwner =>
      registry.isOwner request.1.contractCaller ∧ newOwner ≠ .burnAddress ∧
        newOwner ≠ registry.owner ∧ registry.pendingOwner ≠ some newOwner
  | .acceptOwnership => registry.pendingOwner = some request.1.contractCaller
  | .cancelOwnershipTransfer =>
      registry.isOwner request.1.contractCaller ∧ registry.pendingOwner.isSome
  | _ => False

/-! ## One request -/

/-- Whatever else succeeds needs a protocol that is not deprecated. -/
theorem Performed.ignoresState (h : Performed ctx registry call data registry')
    (hdeprecated : registry.protocolState = .deprecated) : call.ignoresState := by
  cases h with
  | setRootStatus => rfl
  | grantRole => rfl
  | revokeRole => rfl
  | addAuthorizedCaller => rfl
  | removeAuthorizedCaller => rfl
  | transferOwnership => rfl
  | acceptOwnership => rfl
  | cancelOwnershipTransfer => rfl
  | transition _ hvalid =>
      rw [hdeprecated] at hvalid
      cases hvalid
  | versions _ hstate => cases hdeprecated.symm.trans hstate
  | limits _ hstate => exact absurd hdeprecated hstate
  | registerCommitment hactive => cases hdeprecated.symm.trans hactive
  | registerNullifier hactive => cases hdeprecated.symm.trans hactive
  | updateRoot hactive => cases hdeprecated.symm.trans hactive
  | recordShield hactive => cases hdeprecated.symm.trans hactive
  | recordWithdrawal hactive => cases hdeprecated.symm.trans hactive
  | recordTransfer hactive => cases hdeprecated.symm.trans hactive
  | recordNoteCreated hactive => cases hdeprecated.symm.trans hactive

/-- A successful call of such a function survives, unless it nominates the
owner-to-be once more. -/
theorem survives_of_execute (hignores : call.ignoresState)
    (h : execute ctx call registry = .ok (data, registry')) (hchanged : registry' ≠ registry) :
    SurvivesDeprecation registry (ctx, call) := by
  cases call with
  | setRootStatus root active =>
      simp only [execute, bind_ok, pure_ok] at h
      obtain ⟨_, _, hrun, rfl, rfl⟩ := h
      obtain ⟨hauth, hroot, info, hinfo, hnew, rfl⟩ := setRootStatus_ok.mp hrun
      exact ⟨hauth, hroot, info, hinfo, hnew⟩
  | grantRole account role =>
      simp only [execute, bind_ok, pure_ok] at h
      obtain ⟨_, _, hrun, rfl, rfl⟩ := h
      obtain ⟨howner, hrole, hburn, hne, hfresh, rfl⟩ := grantRole_ok.mp hrun
      exact ⟨howner, hrole, hburn, hne, hfresh⟩
  | revokeRole account role =>
      simp only [execute, bind_ok, pure_ok] at h
      obtain ⟨_, _, hrun, rfl, rfl⟩ := h
      obtain ⟨howner, hrole, hgranted, rfl⟩ := revokeRole_ok.mp hrun
      exact ⟨howner, hrole, hgranted⟩
  | addAuthorizedCaller caller =>
      simp only [execute, bind_ok, pure_ok] at h
      obtain ⟨_, _, hrun, rfl, rfl⟩ := h
      obtain ⟨howner, hburn, hfresh, rfl⟩ := addAuthorizedCaller_ok.mp hrun
      exact ⟨howner, hburn, hfresh⟩
  | removeAuthorizedCaller caller =>
      simp only [execute, bind_ok, pure_ok] at h
      obtain ⟨_, _, hrun, rfl, rfl⟩ := h
      obtain ⟨howner, hauthorized, rfl⟩ := removeAuthorizedCaller_ok.mp hrun
      exact ⟨howner, hauthorized⟩
  | transferOwnership newOwner =>
      simp only [execute, bind_ok, pure_ok] at h
      obtain ⟨_, _, hrun, rfl, rfl⟩ := h
      obtain ⟨howner, hburn, hne, rfl⟩ := transferOwnership_ok.mp hrun
      refine ⟨howner, hburn, hne, fun hpending => hchanged ?_⟩
      rw [← hpending]
  | acceptOwnership =>
      simp only [execute, bind_ok, pure_ok] at h
      obtain ⟨_, _, hrun, rfl, rfl⟩ := h
      obtain ⟨hpending, rfl⟩ := acceptOwnership_ok.mp hrun
      exact hpending
  | cancelOwnershipTransfer =>
      simp only [execute, bind_ok, pure_ok] at h
      obtain ⟨_, _, hrun, rfl, rfl⟩ := h
      obtain ⟨howner, hpending, rfl⟩ := cancelOwnershipTransfer_ok.mp hrun
      exact ⟨howner, hpending⟩
  | _ => cases hignores

/-- A surviving request is accepted and changes the registry. -/
theorem execute_of_survives (h : SurvivesDeprecation registry (ctx, call)) :
    ∃ registry', execute ctx call registry = .ok (none, registry') ∧ registry' ≠ registry := by
  cases call with
  | setRootStatus root active =>
      obtain ⟨hauth, hroot, info, hinfo, hnew⟩ := h
      have hrun := (setRootStatus_ok (u := ())).mpr ⟨hauth, hroot, info, hinfo, hnew, rfl⟩
      refine ⟨_, bind_ok.mpr ⟨(), _, hrun, rfl⟩, fun heq => hnew ?_⟩
      have hlookup := congrArg (fun r => r.merkleRoots.lookup root) heq
      simp only [AList.lookup_insert, hinfo, Option.some.injEq] at hlookup
      exact (congrArg RootRecord.active hlookup).symm
  | grantRole account role =>
      obtain ⟨howner, hrole, hburn, hne, hfresh⟩ := h
      have hrun := (grantRole_ok (u := ())).mpr ⟨howner, hrole, hburn, hne, hfresh, rfl⟩
      refine ⟨_, bind_ok.mpr ⟨(), _, hrun, rfl⟩, fun heq => ?_⟩
      have hlookup := congrArg (fun r => r.administrators.lookup (account, role)) heq
      simp [hfresh] at hlookup
  | revokeRole account role =>
      obtain ⟨howner, hrole, hgranted⟩ := h
      have hrun := (revokeRole_ok (u := ())).mpr ⟨howner, hrole, hgranted, rfl⟩
      refine ⟨_, bind_ok.mpr ⟨(), _, hrun, rfl⟩, fun heq => ?_⟩
      have hlookup := congrArg (fun r => r.administrators.lookup (account, role)) heq
      simp only [AList.lookup_erase] at hlookup
      rw [← hlookup] at hgranted
      cases hgranted
  | addAuthorizedCaller caller =>
      obtain ⟨howner, hburn, hfresh⟩ := h
      have hrun := (addAuthorizedCaller_ok (u := ())).mpr ⟨howner, hburn, hfresh, rfl⟩
      refine ⟨_, bind_ok.mpr ⟨(), _, hrun, rfl⟩, fun heq => ?_⟩
      have hlookup := congrArg (fun r => r.authorizedCallers.lookup caller) heq
      simp [hfresh] at hlookup
  | removeAuthorizedCaller caller =>
      obtain ⟨howner, hauthorized⟩ := h
      have hrun := (removeAuthorizedCaller_ok (u := ())).mpr ⟨howner, hauthorized, rfl⟩
      refine ⟨_, bind_ok.mpr ⟨(), _, hrun, rfl⟩, fun heq => ?_⟩
      have hlookup := congrArg (fun r => r.authorizedCallers.lookup caller) heq
      simp only [AList.lookup_erase] at hlookup
      rw [← hlookup] at hauthorized
      cases hauthorized
  | transferOwnership newOwner =>
      obtain ⟨howner, hburn, hne, hpending⟩ := h
      have hrun := (transferOwnership_ok (u := ())).mpr ⟨howner, hburn, hne, rfl⟩
      exact ⟨_, bind_ok.mpr ⟨(), _, hrun, rfl⟩,
        fun heq => hpending (congrArg pendingOwner heq).symm⟩
  | acceptOwnership =>
      have hpending : registry.pendingOwner = some ctx.contractCaller := h
      have hrun := (acceptOwnership_ok (u := ())).mpr ⟨hpending, rfl⟩
      refine ⟨_, bind_ok.mpr ⟨(), _, hrun, rfl⟩, fun heq => ?_⟩
      cases (congrArg pendingOwner heq).trans hpending
  | cancelOwnershipTransfer =>
      obtain ⟨howner, hpending⟩ := h
      have hrun := (cancelOwnershipTransfer_ok (u := ())).mpr ⟨howner, hpending, rfl⟩
      refine ⟨_, bind_ok.mpr ⟨(), _, hrun, rfl⟩, fun heq => ?_⟩
      rw [← congrArg pendingOwner heq] at hpending
      cases hpending
  | _ => exact h.elim

/-- In DEPRECATED a request leaves the registry alone exactly when it does not
survive. -/
theorem submit_eq_iff {run : Run} (hdeprecated : run.state.protocolState = .deprecated)
    (request : Request) :
    (Session.submit serve run request).state = run.state ↔
      ¬ SurvivesDeprecation run.state request := by
  constructor
  · intro hsame hsurvives
    obtain ⟨registry', hrun, hchanged⟩ := execute_of_survives hsurvives
    rw [Session.submit_ok serve hrun] at hsame
    exact hchanged hsame
  · intro hdies
    rcases Session.submit_cases serve run request with ⟨data, state, hrun, heq⟩ | heq
    · rw [heq]
      by_contra hchanged
      exact hdies (survives_of_execute ((execute_performed hrun).ignoresState hdeprecated) hrun
        hchanged)
    · rw [heq]

/-! ## Runs -/

/-- A deprecated registry stays as it is, state after state, exactly when none
of the requests survives. -/
theorem deprecation_final (deployer : Principal) (earlier later : List Request)
    (hdeprecated : (runOf deployer earlier).state.protocolState = .deprecated) :
    (∀ first second, later = first ++ second →
      (runOf deployer (earlier ++ first)).state = (runOf deployer earlier).state) ↔
    ∀ first request second, later = first ++ request :: second →
      ¬ SurvivesDeprecation (runOf deployer (earlier ++ first)).state request := by
  simp only [runOf, Session.submitAll_append _ _]
  change (∀ first second, later = first ++ second →
      (Session.submitAll serve (runOf deployer earlier) first).state =
        (runOf deployer earlier).state) ↔
    ∀ first request second, later = first ++ request :: second →
      ¬ SurvivesDeprecation (Session.submitAll serve (runOf deployer earlier) first).state request
  generalize runOf deployer earlier = run at hdeprecated
  constructor
  · intro hsame first request second hsplit
    have hbefore := hsame first (request :: second) hsplit
    have hafter := hsame (first ++ [request]) second (by simp [hsplit])
    rw [Session.submitAll_concat] at hafter
    exact (submit_eq_iff (deprecated_run hdeprecated) request).mp (hafter.trans hbefore.symm)
  · intro hdie first second hsplit
    refine Session.submitAll_state_eq fun start request rest hfirst hkept => ?_
    have hdies := hdie start request (rest ++ second) (by simp [hsplit, hfirst])
    exact ((submit_eq_iff (deprecated_run hdeprecated) request).mpr hdies).trans hkept

/-! ## A deprecated registry -/

namespace Sample

def governor : Principal := .account 0
def helper : Principal := .account 1

/-- The owner pauses the protocol and retires it. -/
def retirement : List Request :=
  [(sentFrom governor, .pauseProtocol), (sentFrom governor, .deprecateProtocol)]

/-- Everything below the owner's role checks is refused from then on. -/
def refused : List Request :=
  [(sentFrom governor, .unpauseProtocol), (sentFrom governor, .setMaxFeeBps 5),
    (sentFrom helper, .grantRole helper roleFeeAdmin)]

theorem retirement_deprecates :
    (runOf governor retirement).state.protocolState = .deprecated := by decide

end Sample

/-- A retired registry that is only sent requests of other kinds. -/
theorem deprecation_final_retired :
    (runOf Sample.governor Sample.retirement).state.protocolState = .deprecated ∧
      ((∀ first second, Sample.refused = first ++ second →
        (runOf Sample.governor (Sample.retirement ++ first)).state =
          (runOf Sample.governor Sample.retirement).state) ↔
      ∀ first request second, Sample.refused = first ++ request :: second →
        ¬ SurvivesDeprecation
          (runOf Sample.governor (Sample.retirement ++ first)).state request) :=
  ⟨Sample.retirement_deprecates,
    deprecation_final Sample.governor Sample.retirement Sample.refused
      Sample.retirement_deprecates⟩

/-- The owner can still hand out roles after retiring the protocol. -/
theorem deprecated_registry_grants_role :
    ¬ ∀ (deployer : Principal) (earlier later : List Request),
      (runOf deployer earlier).state.protocolState = .deprecated →
      (runOf deployer (earlier ++ later)).state = (runOf deployer earlier).state := by
  intro hfinal
  have hsame := hfinal Sample.governor Sample.retirement
    [(sentFrom Sample.governor, .grantRole Sample.helper roleProtocolAdmin)]
    Sample.retirement_deprecates
  have hrole := congrArg (fun registry => registry.hasRole Sample.helper roleProtocolAdmin) hsame
  revert hrole
  decide

end StxShield.PrivacyRegistry
