import StxShield.Library.Execution

/-!
# Sessions

A session puts requests to a fallible function one after the other.  A request
that fails leaves no trace; one that succeeds is logged with its answer.
-/

namespace StxShield.Library

/-- A state, and the requests accepted on the way to it with their answers,
latest first. -/
structure Session (σ ρ α : Type) where
  state : σ
  accepted : List (ρ × α)

namespace Session

variable {σ ρ α : Type} (execute : ρ → Exec σ α)

/-- A session in which nothing has been accepted yet. -/
def start (state : σ) : Session σ ρ α := { state := state, accepted := [] }

def submit (session : Session σ ρ α) (request : ρ) : Session σ ρ α :=
  match execute request session.state with
  | .ok (answer, state) => { state := state, accepted := (request, answer) :: session.accepted }
  | .error _ => session

def submitAll (session : Session σ ρ α) (requests : List ρ) : Session σ ρ α :=
  requests.foldl (submit execute) session

variable {execute : ρ → Exec σ α} {session : Session σ ρ α} {request : ρ}

/-- A request is accepted, or nothing happens. -/
theorem submit_cases (execute : ρ → Exec σ α) (session : Session σ ρ α) (request : ρ) :
    (∃ answer state, execute request session.state = .ok (answer, state) ∧
      submit execute session request = ⟨state, (request, answer) :: session.accepted⟩) ∨
    submit execute session request = session := by
  unfold submit
  cases hrun : execute request session.state with
  | ok outcome =>
      obtain ⟨answer, state⟩ := outcome
      exact .inl ⟨answer, state, rfl, rfl⟩
  | error fault => exact .inr rfl

theorem submit_ok (execute : ρ → Exec σ α) {answer : α} {state : σ}
    (h : execute request session.state = .ok (answer, state)) :
    submit execute session request = ⟨state, (request, answer) :: session.accepted⟩ := by
  unfold submit
  rw [h]

@[simp]
theorem submitAll_nil : submitAll execute session [] = session := rfl

@[simp]
theorem submitAll_cons (requests : List ρ) :
    submitAll execute session (request :: requests) =
      submitAll execute (submit execute session request) requests := rfl

theorem submitAll_append (first second : List ρ) :
    submitAll execute session (first ++ second) =
      submitAll execute (submitAll execute session first) second :=
  List.foldl_append

theorem submitAll_concat (requests : List ρ) (request : ρ) :
    submitAll execute session (requests ++ [request]) =
      submit execute (submitAll execute session requests) request :=
  submitAll_append requests [request]

/-! ## Whole sessions -/

/-- What every accepted request preserves holds throughout. -/
theorem invariant {I : Session σ ρ α → Prop}
    (hstep : ∀ session request answer state, I session →
      execute request session.state = .ok (answer, state) →
      I ⟨state, (request, answer) :: session.accepted⟩)
    (h : I session) (requests : List ρ) : I (submitAll execute session requests) := by
  induction requests generalizing session with
  | nil => exact h
  | cons request rest ih =>
      rw [submitAll_cons]
      apply ih
      rcases submit_cases execute session request with ⟨answer, state, hrun, heq⟩ | heq
      · rw [heq]
        exact hstep session request answer state h hrun
      · rw [heq]
        exact h

/-- Every request is made in a state that suits it. -/
def Along (execute : ρ → Exec σ α) (suits : Session σ ρ α → ρ → Prop) :
    Session σ ρ α → List ρ → Prop
  | _, [] => True
  | session, request :: rest =>
      suits session request ∧ Along execute suits (submit execute session request) rest

instance decidableAlong {suits : Session σ ρ α → ρ → Prop}
    [hsuits : ∀ session request, Decidable (suits session request)] :
    ∀ session requests, Decidable (Along execute suits session requests)
  | _, [] => isTrue trivial
  | session, request :: rest =>
      @instDecidableAnd _ _ (hsuits session request) (decidableAlong (submit execute session request) rest)

/-- What every suitable accepted request preserves holds along suitable ones. -/
theorem invariant_along {I : Session σ ρ α → Prop} {suits : Session σ ρ α → ρ → Prop}
    (hstep : ∀ session request answer state, I session → suits session request →
      execute request session.state = .ok (answer, state) →
      I ⟨state, (request, answer) :: session.accepted⟩)
    (h : I session) {requests : List ρ} (hsuits : Along execute suits session requests) :
    I (submitAll execute session requests) := by
  induction requests generalizing session with
  | nil => exact h
  | cons request rest ih =>
      obtain ⟨hfirst, hrest⟩ := hsuits
      rw [submitAll_cons]
      refine ih ?_ hrest
      rcases submit_cases execute session request with ⟨answer, state, hrun, heq⟩ | heq
      · rw [heq]
        exact hstep session request answer state h hfirst hrun
      · rw [heq]
        exact h

/-- A preorder that every accepted request stays within relates the ends. -/
theorem relates {R : σ → σ → Prop} (hrefl : ∀ s, R s s)
    (htrans : ∀ {s t u}, R s t → R t u → R s u)
    (hstep : ∀ request s answer s', execute request s = .ok (answer, s') → R s s')
    (session : Session σ ρ α) (requests : List ρ) :
    R session.state (submitAll execute session requests).state := by
  induction requests generalizing session with
  | nil => exact hrefl _
  | cons request rest ih =>
      rw [submitAll_cons]
      refine htrans ?_ (ih _)
      rcases submit_cases execute session request with ⟨answer, state, hrun, heq⟩ | heq
      · rw [heq]
        exact hstep request _ answer state hrun
      · rw [heq]
        exact hrefl _

/-- A condition that is lost is lost at one of the requests. -/
theorem exists_loss {p : σ → Prop} {requests : List ρ} (hbefore : p session.state)
    (hafter : ¬ p (submitAll execute session requests).state) :
    ∃ first request second, requests = first ++ request :: second ∧
      p (submitAll execute session first).state ∧
      ¬ p (submit execute (submitAll execute session first) request).state := by
  induction requests generalizing session with
  | nil => exact absurd hbefore hafter
  | cons request rest ih =>
      by_cases hnext : p (submit execute session request).state
      · obtain ⟨first, lost, second, rfl, hkept, hlost⟩ := ih hnext hafter
        exact ⟨request :: first, lost, second, rfl, hkept, hlost⟩
      · exact ⟨[], request, rest, rfl, hbefore, hnext⟩

/-- A state that every request leaves alone is kept. -/
theorem submitAll_state_eq {requests : List ρ}
    (h : ∀ first request second, requests = first ++ request :: second →
      (submitAll execute session first).state = session.state →
      (submit execute (submitAll execute session first) request).state = session.state) :
    (submitAll execute session requests).state = session.state := by
  by_contra hchanged
  obtain ⟨first, request, second, hsplit, hkept, hlost⟩ :=
    exists_loss (p := fun state => state = session.state) rfl hchanged
  exact hlost (h first request second hsplit hkept)

end Session

end StxShield.Library
