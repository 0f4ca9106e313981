import Mathlib.Data.List.Induction
import StxShield.Registry.Lifecycle

/-!
# Ownership and delegated roles

`grant-role` refuses the owner, so that ownership and delegated authority stay
apart.  A successor who is granted a role while the transfer is pending keeps
it as owner; this is the one way the two meet.
-/

namespace StxShield.PrivacyRegistry

open Library Exec

variable {ctx : Ctx} {registry registry' : PrivacyRegistry} {call : Call} {data : Option Nat}
  {run : Run}

/-- The account has no entry in the role map. -/
def HoldsNoRole (registry : PrivacyRegistry) (account : Principal) : Prop :=
  ∀ role, registry.administrators.lookup (account, role) = none

/-- Every role was handed out by `grant-role`. -/
def RolesGranted (run : Run) : Prop :=
  ∀ account role, (run.state.administrators.lookup (account, role)).isSome →
    ∃ caller, ((caller, Call.grantRole account role), none) ∈ run.accepted

/-- Ownership and delegated authority do not overlap, and whoever is no longer
the owner holds what was granted to it and nothing else. -/
structure RolesSeparate (run : Run) : Prop where
  owner : HoldsNoRole run.state run.state.owner
  granted : RolesGranted run

/-! ## One request -/

theorem RolesGranted.step (h : RolesGranted run)
    (hperformed : Performed ctx run.state call data registry') :
    RolesGranted ⟨registry', ((ctx, call), data) :: run.accepted⟩ := by
  -- a role held before was granted before
  have hold : ∀ account role, (run.state.administrators.lookup (account, role)).isSome →
      ∃ caller, ((caller, Call.grantRole account role), none) ∈
        ((ctx, call), data) :: run.accepted := by
    intro account role hheld
    obtain ⟨caller, hmem⟩ := h account role hheld
    exact ⟨caller, List.mem_cons_of_mem _ hmem⟩
  intro account role hheld
  cases hperformed with
  | @grantRole newcomer granted _ _ _ =>
      by_cases heq : (account, role) = (newcomer, granted)
      · cases heq
        exact ⟨ctx, List.mem_cons_self⟩
      · apply hold
        rwa [← AList.lookup_insert_ne heq]
  | @revokeRole former revoked _ _ =>
      apply hold
      by_cases heq : (account, role) = (former, revoked)
      · cases heq
        change (AList.lookup _ (AList.erase _ _)).isSome at hheld
        rw [AList.lookup_erase] at hheld
        cases hheld
      · rwa [← AList.lookup_erase_ne heq]
  | _ => exact hold account role hheld

/-- Only a successor with a role brings the two together. -/
theorem HoldsNoRole.step (h : HoldsNoRole registry registry.owner)
    (hperformed : Performed ctx registry call data registry')
    (haccept : call = .acceptOwnership → HoldsNoRole registry ctx.contractCaller) :
    HoldsNoRole registry' registry'.owner := by
  intro role
  cases hperformed with
  | @grantRole newcomer granted _ hne _ =>
      have hother : (registry.owner, role) ≠ (newcomer, granted) := by
        intro heq
        exact hne (congrArg Prod.fst heq).symm
      exact (AList.lookup_insert_ne hother).trans (h role)
  | @revokeRole former revoked _ _ =>
      by_cases heq : (registry.owner, role) = (former, revoked)
      · change AList.lookup (registry.owner, role) (AList.erase (former, revoked) _) = none
        rw [heq]
        exact AList.lookup_erase _ _
      · exact (AList.lookup_erase_ne heq).trans (h role)
  | acceptOwnership => exact haccept rfl role
  | _ => exact h role

/-! ## Runs -/

theorem rolesGranted_run (deployer : Principal) (requests : List Request) :
    RolesGranted (runOf deployer requests) :=
  Session.invariant (fun _ _ _ _ h hrun => h.step (execute_performed hrun))
    (fun _ _ hheld => by cases hheld) requests

/-- The nominated successor takes over. -/
theorem submit_acceptOwnership {caller : Ctx}
    (hpending : run.state.pendingOwner = some caller.contractCaller) :
    (Session.submit serve run (caller, .acceptOwnership)).state =
      { run.state with owner := caller.contractCaller, pendingOwner := none } := by
  have hrun := (acceptOwnership_ok (u := ())).mpr ⟨hpending, rfl⟩
  rw [Session.submit_ok serve (bind_ok.mpr ⟨(), _, hrun, rfl⟩)]

/-- The owner is without a role in every state of a run exactly when every
successor is at the moment it takes over. -/
theorem owner_holds_no_role (deployer : Principal) (requests : List Request) :
    (∀ first second, requests = first ++ second → RolesSeparate (runOf deployer first)) ↔
      ∀ first caller second, requests = first ++ (caller, .acceptOwnership) :: second →
        (runOf deployer first).state.pendingOwner = some caller.contractCaller →
        HoldsNoRole (runOf deployer first).state caller.contractCaller := by
  constructor
  · intro hseparate first caller second hsplit hpending role
    have hafter := (hseparate (first ++ [(caller, .acceptOwnership)]) second (by simp [hsplit])).owner
    unfold runOf at hafter hpending ⊢
    rw [Session.submitAll_concat, submit_acceptOwnership hpending] at hafter
    exact hafter role
  · intro haccept first second hsplit
    refine ⟨?_, rolesGranted_run deployer first⟩
    induction first using List.reverseRecOn generalizing second with
    | nil => exact fun role => rfl
    | append_singleton start request ih =>
        have hbefore := ih (request :: second) (by simpa using hsplit)
        rw [runOf, Session.submitAll_concat]
        rcases Session.submit_cases serve (Session.submitAll serve
          (Session.start (PrivacyRegistry.deployed deployer)) start) request with
          ⟨data, state, hrun, heq⟩ | heq
        · rw [heq]
          have hperformed := execute_performed hrun
          refine hbefore.step hperformed fun hcall => ?_
          obtain ⟨caller, call⟩ := request
          obtain rfl : call = .acceptOwnership := hcall
          refine haccept start caller second (by simpa using hsplit) ?_
          cases hperformed with
          | acceptOwnership hpending => exact hpending
          | transition hmoves => cases hmoves
          | versions hsets => cases hsets
          | limits hsets => cases hsets
        · rw [heq]
          exact hbefore

/-- A successor granted a role while the transfer is pending. -/
theorem owner_granted_role :
    ¬ ∀ (deployer : Principal) (requests : List Request),
      RolesSeparate (runOf deployer requests) := by
  intro hseparate
  have hrun := (hseparate (.account 0)
    [(sentFrom (.account 0), .transferOwnership (.account 1)),
      (sentFrom (.account 0), .grantRole (.account 1) roleProtocolAdmin),
      (sentFrom (.account 1), .acceptOwnership)]).owner roleProtocolAdmin
  revert hrun
  decide

end StxShield.PrivacyRegistry
