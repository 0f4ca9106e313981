import StxShield.Registry.Store

/-!
# The protocol's lifecycle

The protocol state moves along the transition table, each move by a caller who
holds the authority it requires; the versions move only in an upgrade window,
and only upwards.
-/

namespace StxShield.PrivacyRegistry

open Library Exec

variable {ctx : Ctx} {registry registry' : PrivacyRegistry} {call : Call} {data : Option Nat}

/-! ## One call -/

/-- A change of the protocol state is a transition the caller may make. -/
theorem Performed.transition_authorized (h : Performed ctx registry call data registry')
    (hchanged : registry'.protocolState ≠ registry.protocolState) :
    isValidTransition registry.protocolState registry'.protocolState ∧
      registry.mayTransition ctx.contractCaller registry.protocolState registry'.protocolState ∧
      (registry.protocolState = .emergency → call = .resolveEmergency) := by
  cases h with
  | transition _ hvalid hauth hrecovery => exact ⟨hvalid, hauth, hrecovery⟩
  | _ => exact absurd rfl hchanged

/-- EMERGENCY is left for PAUSED, by the owner, through `resolve-emergency`. -/
theorem Performed.leaves_emergency (h : Performed ctx registry call data registry')
    (hemergency : registry.protocolState = .emergency)
    (hleft : registry'.protocolState ≠ .emergency) :
    call = .resolveEmergency ∧ registry.isOwner ctx.contractCaller ∧
      registry'.protocolState = .paused := by
  obtain ⟨hvalid, hauth, hrecovery⟩ := h.transition_authorized (by rwa [hemergency])
  rw [hemergency] at hvalid hauth
  cases hstate : registry'.protocolState with
  | paused =>
      rw [hstate] at hauth
      exact ⟨hrecovery hemergency, hauth, rfl⟩
  | active => simp [hstate, isValidTransition] at hvalid
  | emergency => exact absurd hstate hleft
  | upgrading => simp [hstate, isValidTransition] at hvalid
  | deprecated => simp [hstate, isValidTransition] at hvalid

/-- DEPRECATED never appears as a from-state. -/
theorem Performed.stays_deprecated (h : Performed ctx registry call data registry')
    (hdeprecated : registry.protocolState = .deprecated) :
    registry'.protocolState = .deprecated := by
  by_contra hchanged
  have hvalid := (h.transition_authorized (by rwa [hdeprecated])).1
  rw [hdeprecated] at hvalid
  cases hstate : registry'.protocolState <;> rw [hstate] at hvalid <;> cases hvalid

theorem Performed.versions_step (h : Performed ctx registry call data registry') :
    VersionsLe registry.protocolVersions registry'.protocolVersions ∧
      (registry'.protocolVersions ≠ registry.protocolVersions →
        registry.protocolState = .upgrading) := by
  have hsame := VersionsLe.refl registry.protocolVersions
  cases h with
  | versions _ hstate hle => exact ⟨hle, fun _ => hstate⟩
  | _ => exact ⟨hsame, fun hne => absurd rfl hne⟩

/-! ## Runs -/

variable {run : Run}

/-- A request that changes the state was accepted. -/
theorem performed_of_change (run : Run) (request : Request)
    (h : (Session.submit serve run request).state ≠ run.state) :
    ∃ data, Performed request.1 run.state request.2 data (Session.submit serve run request).state := by
  rcases Session.submit_cases serve run request with ⟨data, state, hrun, heq⟩ | heq
  · rw [heq]
    exact ⟨data, execute_performed hrun⟩
  · rw [heq] at h
    exact absurd rfl h

theorem versionsLe_run (run : Run) (requests : List Request) :
    VersionsLe run.state.protocolVersions
      (Session.submitAll serve run requests).state.protocolVersions :=
  Session.relates (R := fun s t : PrivacyRegistry => VersionsLe s.protocolVersions t.protocolVersions)
    (fun _ => .refl _) (fun h h' => h.trans h')
    (fun _ _ _ _ hrun => (execute_performed hrun).versions_step.1) run requests

theorem deprecated_run {requests : List Request} (h : run.state.protocolState = .deprecated) :
    (Session.submitAll serve run requests).state.protocolState = .deprecated :=
  Session.relates
    (R := fun s t : PrivacyRegistry => s.protocolState = .deprecated → t.protocolState = .deprecated)
    (fun _ => id) (fun h h' => h' ∘ h)
    (fun _ _ _ _ hrun => (execute_performed hrun).stays_deprecated) run requests h

/-- Between an emergency and a later active state the owner resolved it. -/
theorem owner_resolves {requests : List Request} (hemergency : run.state.protocolState = .emergency)
    (hleft : (Session.submitAll serve run requests).state.protocolState ≠ .emergency) :
    ∃ first caller second, requests = first ++ (caller, .resolveEmergency) :: second ∧
      (Session.submitAll serve run first).state.protocolState = .emergency ∧
      (Session.submitAll serve run first).state.isOwner caller.contractCaller ∧
      (Session.submitAll serve run
        (first ++ [(caller, .resolveEmergency)])).state.protocolState = .paused := by
  obtain ⟨first, ⟨caller, call⟩, second, rfl, hkept, hlost⟩ :=
    Session.exists_loss (p := fun state : PrivacyRegistry => state.protocolState = .emergency) hemergency hleft
  obtain ⟨data, hperformed⟩ := performed_of_change (Session.submitAll serve run first)
    (caller, call) fun heq => hlost (heq ▸ hkept)
  obtain ⟨rfl, howner, hpaused⟩ := hperformed.leaves_emergency hkept hlost
  refine ⟨first, caller, second, rfl, hkept, howner, ?_⟩
  rw [Session.submitAll_concat]
  exact hpaused

/-- What the lifecycle guarantees of a state of a run, of the request that comes
next, and of the state after any further requests. -/
structure LifecycleDiscipline (before : PrivacyRegistry) (who : Principal)
    (next last : PrivacyRegistry) : Prop where
  /-- The state moves along the table, for a caller who may make the move. -/
  transitions : next.protocolState ≠ before.protocolState →
    isValidTransition before.protocolState next.protocolState ∧
      before.mayTransition who before.protocolState next.protocolState
  emergency : before.protocolState = .emergency → next.protocolState ≠ .emergency →
    before.isOwner who ∧ next.protocolState = .paused
  deprecated : before.protocolState = .deprecated → last.protocolState = .deprecated
  upgrading : next.protocolVersions ≠ before.protocolVersions → before.protocolState = .upgrading
  versions : VersionsLe before.protocolVersions last.protocolVersions

theorem lifecycleDiscipline (run : Run) (request : Request) (later : List Request) :
    LifecycleDiscipline run.state request.1.contractCaller (Session.submit serve run request).state
      (Session.submitAll serve run later).state where
  transitions hchanged := by
    obtain ⟨data, hperformed⟩ := performed_of_change run request
      fun heq => hchanged (congrArg protocolState heq)
    obtain ⟨hvalid, hauth, -⟩ := hperformed.transition_authorized hchanged
    exact ⟨hvalid, hauth⟩
  emergency hemergency hleft := by
    obtain ⟨data, hperformed⟩ := performed_of_change run request
      fun heq => hleft (heq ▸ hemergency)
    exact (hperformed.leaves_emergency hemergency hleft).2
  deprecated := deprecated_run
  upgrading hchanged := by
    obtain ⟨data, hperformed⟩ := performed_of_change run request
      fun heq => hchanged (congrArg protocolVersions heq)
    exact hperformed.versions_step.2 hchanged
  versions := versionsLe_run run later

/-- The lifecycle holds at every point of every run, and an emergency gives way
to an active protocol only through an action of the owner of that moment. -/
theorem protocol_lifecycle (deployer : Principal) (earlier : List Request) (request : Request)
    (later : List Request) :
    LifecycleDiscipline (runOf deployer earlier).state request.1.contractCaller
        (runOf deployer (earlier ++ [request])).state (runOf deployer (earlier ++ later)).state ∧
      ((runOf deployer earlier).state.protocolState = .emergency →
        (runOf deployer (earlier ++ later)).state.protocolState = .active →
        ∃ first caller second, later = first ++ (caller, .resolveEmergency) :: second ∧
          (runOf deployer (earlier ++ first)).state.protocolState = .emergency ∧
          (runOf deployer (earlier ++ first)).state.isOwner caller.contractCaller ∧
          (runOf deployer
            (earlier ++ (first ++ [(caller, .resolveEmergency)]))).state.protocolState = .paused) := by
  simp only [runOf, Session.submitAll_append _ _]
  refine ⟨lifecycleDiscipline _ request later, fun hemergency hactive => ?_⟩
  have hleft : (Session.submitAll serve (runOf deployer earlier) later).state.protocolState ≠
      .emergency := by
    unfold runOf
    rw [hactive]
    exact fun h => ProtocolState.noConfusion h
  have hresolved := owner_resolves hemergency hleft
  simpa only [runOf, Session.submitAll_append _ _] using hresolved

end StxShield.PrivacyRegistry
