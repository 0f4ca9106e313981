import Mathlib.Algebra.Order.Group.Int
import Mathlib.Data.List.Induction
import StxShield.Library.Execution
import StxShield.Library.SlidingWindow

/-!
# Spend control

A relayer pays for every submission, so it limits the requests of each client in a
rolling window.  The manager forgets a time only when it has left the window for good.
-/

namespace StxShield.Relay

open Library

/-! ## The fee manager -/

structure RelayError where
  code : String
  message : String
  status : Nat
  deriving DecidableEq

structure FeePolicy where
  /-- Cap on the transactions of a client in a rolling window. -/
  maxPerWindow : Nat
  windowMs : Int

def DEFAULT_POLICY : FeePolicy where
  maxPerWindow := 30
  windowMs := 60000

/-- The times of the requests that were accepted, by client. -/
structure FeeManager where
  policy : FeePolicy
  hits : DataMap String (List Int)

def RelayError.rateLimited : RelayError :=
  ⟨"rate_limited", "too many requests; try another relayer", 429⟩

namespace FeeManager

def new (policy : FeePolicy) : FeeManager := ⟨policy, ∅⟩

/-- The times the manager holds of a client. -/
def hitsOf (manager : FeeManager) (clientKey : String) : List Int :=
  (manager.hits.lookup clientKey).getD []

def assertWithinRate (manager : FeeManager) (clientKey : String) (now : Int) :
    Except RelayError FeeManager :=
  let window := now - manager.policy.windowMs
  let recent := (manager.hitsOf clientKey).filter fun t => window < t
  if manager.policy.maxPerWindow ≤ recent.length then .error .rateLimited
  else .ok { manager with hits := manager.hits.insert clientKey (recent ++ [now]) }

variable {manager manager' : FeeManager} {clientKey client : String} {now : Int}
  {error : RelayError}

/-- What an accepted request found, and what is kept of it. -/
theorem assertWithinRate_ok (h : manager.assertWithinRate clientKey now = .ok manager') :
    (recent manager.policy.windowMs now (manager.hitsOf clientKey)).length <
        manager.policy.maxPerWindow ∧
      manager'.policy = manager.policy ∧
      manager'.hitsOf clientKey =
        recent manager.policy.windowMs now (manager.hitsOf clientKey) ++ [now] ∧
      ∀ other, other ≠ clientKey → manager'.hitsOf other = manager.hitsOf other := by
  unfold assertWithinRate at h
  dsimp only at h
  split at h
  case isTrue => cases h
  case isFalse hroom =>
    obtain rfl := Except.ok.inj h
    refine ⟨Nat.lt_of_not_le hroom, rfl, ?_, fun other hother => ?_⟩
    · rw [hitsOf, AList.lookup_insert, Option.getD_some]
      rfl
    · rw [hitsOf, AList.lookup_insert_ne hother]
      rfl

theorem assertWithinRate_error (h : manager.assertWithinRate clientKey now = .error error) :
    error = .rateLimited ∧ manager.policy.maxPerWindow ≤
      (recent manager.policy.windowMs now (manager.hitsOf clientKey)).length := by
  unfold assertWithinRate at h
  dsimp only at h
  split at h
  case isTrue hfull => exact ⟨(Except.error.inj h).symm, hfull⟩
  case isFalse => cases h

end FeeManager

/-! ## Sequences of requests -/

/-- A request of a client, at a time. -/
structure Intake where
  clientKey : String
  now : Int

/-- The manager, and the requests it accepted. -/
structure Log where
  manager : FeeManager
  accepted : List Intake

namespace Log

/-- An accepted request is recorded, a rejected one leaves everything as it is. -/
def receive (log : Log) (request : Intake) : Log :=
  match log.manager.assertWithinRate request.clientKey request.now with
  | .ok manager => ⟨manager, log.accepted ++ [request]⟩
  | .error _ => log

/-- The times at which requests of a client were accepted. -/
def timesOf (log : Log) (client : String) : List Int :=
  (log.accepted.filter fun request => request.clientKey = client).map Intake.now

end Log

/-- What became of a sequence of requests. -/
def served (policy : FeePolicy) (requests : List Intake) : Log :=
  requests.foldl Log.receive ⟨.new policy, []⟩

section Runs

variable {policy : FeePolicy} {requests : List Intake} {request : Intake} {log : Log}

theorem served_append_singleton :
    served policy (requests ++ [request]) = (served policy requests).receive request := by
  rw [served, List.foldl_append]
  rfl

/-- Of every client the manager knows enough. -/
structure Log.Limited (policy : FeePolicy) (log : Log) : Prop where
  samePolicy : log.manager.policy = policy
  clients : ∀ client, Remembers policy.windowMs policy.maxPerWindow (log.timesOf client)
    (log.manager.hitsOf client)

/-- The clock has not gone back since the last accepted request. -/
def Log.Before (log : Log) (now : Int) : Prop := ∀ earlier ∈ log.accepted, earlier.now ≤ now

theorem Log.Before.times {now : Int} (h : log.Before now) {client : String} :
    ∀ time ∈ log.timesOf client, time ≤ now := by
  intro time hmem
  obtain ⟨earlier, hearlier, rfl⟩ := List.mem_map.mp hmem
  exact h earlier (List.mem_filter.mp hearlier).1

theorem Log.limited_new (policy : FeePolicy) : Log.Limited policy ⟨.new policy, []⟩ where
  samePolicy := rfl
  clients _ := .nil

/-- A request is accepted into a window with room, or changes nothing. -/
theorem Log.Limited.receive (h : log.Limited policy) (hclock : log.Before request.now) :
    (log.receive request).Limited policy := by
  unfold Log.receive
  cases hrate : log.manager.assertWithinRate request.clientKey request.now with
  | error error => exact h
  | ok manager =>
      obtain ⟨hroom, hpolicy, hhits, hothers⟩ := FeeManager.assertWithinRate_ok hrate
      rw [h.samePolicy] at hroom hhits
      refine ⟨hpolicy.trans h.samePolicy, fun client => ?_⟩
      by_cases hclient : client = request.clientKey
      · subst hclient
        have htimes : Log.timesOf ⟨manager, log.accepted ++ [request]⟩ request.clientKey =
            log.timesOf request.clientKey ++ [request.now] := by simp [Log.timesOf]
        rw [htimes]
        exact hhits ▸ (h.clients request.clientKey).append hclock.times hroom
      · have htimes : Log.timesOf ⟨manager, log.accepted ++ [request]⟩ client =
            log.timesOf client := by simp [Log.timesOf, Ne.symm hclient]
        rw [htimes]
        exact hothers client hclient ▸ h.clients client

/-- Only requests that were made are accepted. -/
theorem mem_of_accepted (h : request ∈ (served policy requests).accepted) :
    request ∈ requests := by
  induction requests using List.reverseRecOn with
  | nil => cases h
  | append_singleton earlier last ih =>
      rw [served_append_singleton, Log.receive] at h
      split at h
      · rcases List.mem_append.mp h with h | h
        · exact List.mem_append_left _ (ih h)
        · exact List.mem_append_right _ h
      · exact List.mem_append_left _ (ih h)

/-- The clock does not go back. -/
def ClockRuns (requests : List Intake) : Prop :=
  requests.Pairwise fun earlier later => earlier.now ≤ later.now

instance (requests : List Intake) : Decidable (ClockRuns requests) :=
  inferInstanceAs (Decidable (requests.Pairwise fun earlier later => earlier.now ≤ later.now))

theorem ClockRuns.before {later : List Intake} (h : ClockRuns (requests ++ request :: later)) :
    ClockRuns requests ∧ (served policy requests).Before request.now := by
  obtain ⟨hrequests, -, hcross⟩ := List.pairwise_append.mp h
  exact ⟨hrequests, fun earlier hearlier =>
    hcross earlier (mem_of_accepted hearlier) request List.mem_cons_self⟩

theorem served_limited (h : ClockRuns requests) : (served policy requests).Limited policy := by
  induction requests using List.reverseRecOn with
  | nil => exact Log.limited_new policy
  | append_singleton earlier last ih =>
      obtain ⟨hearlier, hbefore⟩ := ClockRuns.before h
      rw [served_append_singleton]
      exact (ih hearlier).receive hbefore

/-! ## The limit -/

/-- What the limiter does to a sequence of requests, whosever they are. -/
structure RateLimited (policy : FeePolicy) (requests : List Intake) : Prop where
  /-- In an interval with its start, at most the cap is accepted. -/
  fromStart : ∀ client start, ((served policy requests).timesOf client).countP
    (fun time => start ≤ time ∧ time < start + policy.windowMs) ≤ policy.maxPerWindow
  /-- In an interval with its end, at most the cap is accepted. -/
  toEnd : ∀ client start, ((served policy requests).timesOf client).countP
    (fun time => start < time ∧ time ≤ start + policy.windowMs) ≤ policy.maxPerWindow
  /-- What is rejected comes after a window with as many as the cap. -/
  rejected : ∀ earlier request later error, requests = earlier ++ request :: later →
    (served policy earlier).manager.assertWithinRate request.clientKey request.now =
      .error error →
    error = .rateLimited ∧
      ((served policy earlier).timesOf request.clientKey).countP
        (fun time => request.now - policy.windowMs < time ∧ time ≤ request.now) =
          policy.maxPerWindow

/-- As long as the clock does not go back, every window is bounded, and every rejection is
due to a full one. -/
theorem rate_limited (hclock : ClockRuns requests) : RateLimited policy requests where
  fromStart client start :=
    ((served_limited hclock).clients client).bounded _ (inOneWindow_from_start _ start)
  toEnd client start :=
    ((served_limited hclock).clients client).bounded _ (inOneWindow_to_end _ start)
  rejected earlier request later error hrequests hrate := by
    subst hrequests
    obtain ⟨hearlier, hbefore⟩ := ClockRuns.before hclock
    have hlimited : (served policy earlier).Limited policy := served_limited hearlier
    obtain ⟨herror, hfull⟩ := FeeManager.assertWithinRate_error hrate
    rw [hlimited.samePolicy] at hfull
    exact ⟨herror, (hlimited.clients request.clientKey).count_of_full hbefore.times hfull⟩

end Runs

namespace Sample

/-- One request a minute. -/
def onePerWindow : FeePolicy := { DEFAULT_POLICY with maxPerWindow := 1 }

/-- One client comes again too early, and then in time; another is served meanwhile. -/
def intakes : List Intake :=
  [⟨"alice", 0⟩, ⟨"bob", 59999⟩, ⟨"alice", 59999⟩, ⟨"alice", 60000⟩]

end Sample

theorem rate_limited_intakes :
    RateLimited Sample.onePerWindow Sample.intakes ∧
      (served Sample.onePerWindow Sample.intakes).timesOf "alice" = [0, 60000] ∧
      (served Sample.onePerWindow Sample.intakes).timesOf "bob" = [59999] :=
  ⟨rate_limited (by decide), by decide +kernel⟩

end StxShield.Relay
