import StxShield.Relayer.Aggregations

/-!
# Roots that stay unpublished

A poller passes over the aggregations that it remembers.  It remembers each one as soon as
its publication is through, whatever became of the transactions.
-/

namespace StxShield.RootPublisher

open Library JavaScript

/-! ## The poller -/

/-- What identifies an aggregation for a poller. -/
abbrev AggregationKey : Type := Nat × Number

instance : LawfulBEq AggregationKey := inferInstanceAs (LawfulBEq (Nat × Number))

def AggregationRoot.key (agg : AggregationRoot) : AggregationKey :=
  (agg.domainId, agg.aggregationId)

/-- A call of `publishRoot` that is under way. -/
structure Publishing where
  agg : AggregationRoot
  /-- The verifiers that the loop is not through with; it is at the first. -/
  remaining : List VerifierName
  /-- The first is sent the root; it has been asked before. -/
  sending : Bool
  deriving DecidableEq

/-- The answer to `get-aggregation`. -/
inductive ReadAnswer where
  | failed
  | answered (isPosted : Bool)

/-- `isAggregationPosted` -/
def ReadAnswer.posted : ReadAnswer → Bool
  | .failed => false
  | .answered isPosted => isPosted

/-- What becomes of `submitRaw`. -/
inductive SubmitOutcome where
  | accepted
  /-- It throws, whether or not the network has taken the transaction. -/
  | threw (taken : Bool)
  deriving DecidableEq

def SubmitOutcome.taken : SubmitOutcome → Bool
  | .accepted => true
  | .threw taken => taken

structure Poller where
  /-- The poller has subscribed to receipts, and does not poll. -/
  subscribed : Bool
  seen : Seen
  publishing : List Publishing
  /-- The receipts of a poll that the loop has not come to. -/
  receipts : List (Nat × Record)
  /-- What the verifiers have recorded. -/
  recorded : List (VerifierName × AggregationKey)
  /-- The publications that the network has taken. -/
  accepted : List (VerifierName × AggregationKey)

/-- What may happen next. -/
inductive PollerEvent where
  /-- A receipt of a domain is reported to the subscriber. -/
  | reported (domainId : Nat) (ev : Record)
  /-- The latest receipts of a domain are there, or the poll fails. -/
  | fetched (domainId : Nat) (receipts : Except String (List Record))
  /-- The verifier that a publication is at answers. -/
  | asked (position : Nat) (answer : ReadAnswer)
  /-- The submission of a publication is through. -/
  | submitted (position : Nat) (outcome : SubmitOutcome)
  /-- A verifier records an aggregation. -/
  | recorded (verifier : VerifierName) (key : AggregationKey)

namespace Poller

variable (poller : Poller)

/-- `publish`, up to its first `await`. -/
def begin (agg : AggregationRoot) : Poller :=
  if agg.key ∈ poller.seen then poller
  else { poller with publishing := poller.publishing ++ [⟨agg, verifiers, false⟩] }

/-- The loop over the receipts of a poll, up to the next publication; a receipt that throws
ends it. -/
def goOn : List (Nat × Record) → Poller
  | [] => { poller with receipts := [] }
  | (domainId, ev) :: rest =>
      match toAggregationRoot domainId ev with
      | .error () => { poller with receipts := [] }
      | .ok none => goOn rest
      | .ok (some agg) =>
          if agg.key ∈ poller.seen then goOn rest
          else { poller.begin agg with receipts := rest }

/-- A publication is through, and the aggregation is remembered. -/
def finish (position : Nat) (agg : AggregationRoot) : Poller :=
  let finished :=
    { poller with
      seen := remember poller.seen agg.key
      publishing := poller.publishing.eraseIdx position }
  finished.goOn finished.receipts

/-- The publication is through with a verifier. -/
def advance (position : Nat) (agg : AggregationRoot) : List VerifierName → Poller
  | [] => poller.finish position agg
  | remaining => { poller with publishing := poller.publishing.set position ⟨agg, remaining, false⟩ }

/-- One event; nothing happens where it is out of place. -/
def step (clUint : Number → Option Nat) : PollerEvent → Poller
  | .reported domainId ev =>
      if poller.subscribed = true then
        match toAggregationRoot domainId ev with
        | .ok (some agg) => poller.begin agg
        | _ => poller
      else poller
  | .fetched domainId receipts =>
      if poller.subscribed = true ∨ poller.publishing ≠ [] then poller
      else
        match receipts with
        | .error _ => poller
        | .ok receipts => poller.goOn (receipts.map fun ev => (domainId, ev))
  | .asked position answer =>
      match poller.publishing[position]? with
      | some ⟨agg, verifier :: rest, false⟩ =>
          -- no verifier has what it has not recorded
          if answer.posted = true then
            if (verifier, agg.key) ∈ poller.recorded then poller.advance position agg rest
            else poller
          else
            { poller with
              publishing := poller.publishing.set position ⟨agg, verifier :: rest, true⟩ }
      | _ => poller
  | .submitted position outcome =>
      match poller.publishing[position]? with
      | some ⟨agg, verifier :: rest, true⟩ =>
          let sent :=
            if (submission clUint agg).isSome ∧ outcome.taken = true then
              { poller with accepted := (verifier, agg.key) :: poller.accepted }
            else poller
          sent.advance position agg rest
      | _ => poller
  | .recorded verifier key => { poller with recorded := (verifier, key) :: poller.recorded }

/-- A poller that is started. -/
def started (subscribed : Bool) : Poller where
  subscribed := subscribed
  seen := []
  publishing := []
  receipts := []
  recorded := []
  accepted := []

def run (clUint : Number → Option Nat) (poller : Poller) (events : List PollerEvent) : Poller :=
  events.foldl (fun poller event => poller.step clUint event) poller

/-- A verifier has recorded an aggregation, or a publication of it has been taken. -/
def Reached (verifier : VerifierName) (key : AggregationKey) : Prop :=
  (verifier, key) ∈ poller.recorded ∨ (verifier, key) ∈ poller.accepted

instance (verifier : VerifierName) (key : AggregationKey) :
    Decidable (poller.Reached verifier key) := instDecidableOr

/-- Every submission is taken unless the verifier has been reached. -/
def Delivered (clUint : Number → Option Nat) : PollerEvent → Prop
  | .submitted position outcome =>
      ∀ agg verifier rest, poller.publishing[position]? = some ⟨agg, verifier :: rest, true⟩ →
        (submission clUint agg).isSome ∧ outcome.taken = true ∨ poller.Reached verifier agg.key
  | _ => True

/-- Every submission of a run is. -/
def AllDelivered (clUint : Number → Option Nat) : Poller → List PollerEvent → Prop
  | _, [] => True
  | poller, event :: rest =>
      poller.Delivered clUint event ∧ AllDelivered clUint (poller.step clUint event) rest

end Poller

/-! ## What is remembered -/

namespace Poller

variable {poller : Poller} {clUint : Number → Option Nat} {agg : AggregationRoot}
  {key : AggregationKey} {verifier : VerifierName}

/-- What is remembered has reached both verifiers, and a publication is through with the
verifiers that its aggregation has reached. -/
structure Careful (poller : Poller) : Prop where
  seen : ∀ key ∈ poller.seen, ∀ verifier, poller.Reached verifier key
  publishing : ∀ publishing ∈ poller.publishing, ∀ verifier, verifier ∉ publishing.remaining →
    poller.Reached verifier publishing.agg.key

theorem mem_verifiers (verifier : VerifierName) : verifier ∈ verifiers := by
  cases verifier with
  | zkVerifier => exact List.mem_cons_self
  | sip10ZkVerifier => exact List.mem_cons_of_mem _ List.mem_cons_self

theorem mem_remember {seen : Seen} {other : AggregationKey} (h : other ∈ remember seen key) :
    other ∈ seen ∨ other = key := by
  have hlatest (added : Seen)
      (hmem : other ∈ if seenLimit < added.length then added.tail else added) : other ∈ added := by
    split at hmem
    · exact List.mem_of_mem_tail hmem
    · exact hmem
  have hadded := hlatest _ h
  split at hadded
  · exact .inl hadded
  · exact (List.mem_append.mp hadded).imp_right List.mem_singleton.mp

namespace Careful

theorem begin (h : poller.Careful) (agg : AggregationRoot) : (poller.begin agg).Careful := by
  unfold Poller.begin
  split
  · exact h
  · refine ⟨h.seen, fun publishing hmem verifier hthrough => ?_⟩
    rcases List.mem_append.mp hmem with hold | hnew
    · exact h.publishing publishing hold verifier hthrough
    · obtain rfl := List.mem_singleton.mp hnew
      exact absurd (mem_verifiers verifier) hthrough

theorem withReceipts (h : poller.Careful) (receipts : List (Nat × Record)) :
    { poller with receipts := receipts }.Careful :=
  ⟨h.seen, h.publishing⟩

theorem goOn (h : poller.Careful) (receipts : List (Nat × Record)) :
    (poller.goOn receipts).Careful := by
  induction receipts with
  | nil => exact h.withReceipts []
  | cons receipt rest ih =>
      unfold Poller.goOn
      split
      · exact h.withReceipts []
      · exact ih
      · split
        · exact ih
        · exact (h.begin _).withReceipts rest

/-- An aggregation that has reached both verifiers may be remembered. -/
theorem finish (h : poller.Careful) (position : Nat)
    (hreached : ∀ verifier, poller.Reached verifier agg.key) :
    (poller.finish position agg).Careful := by
  unfold Poller.finish
  apply goOn
  refine ⟨fun key hkey verifier => ?_, fun publishing hmem => ?_⟩
  · rcases mem_remember hkey with hold | rfl
    · exact h.seen key hold verifier
    · exact hreached verifier
  · exact h.publishing publishing (List.mem_of_mem_eraseIdx hmem)

theorem advance (h : poller.Careful) (position : Nat) {rest : List VerifierName}
    (hreached : ∀ verifier, verifier ∉ rest → poller.Reached verifier agg.key) :
    (poller.advance position agg rest).Careful := by
  unfold Poller.advance
  split
  · exact h.finish position fun verifier => hreached verifier List.not_mem_nil
  · refine ⟨h.seen, fun publishing hmem verifier hthrough => ?_⟩
    rcases List.mem_or_eq_of_mem_set hmem with hold | rfl
    · exact h.publishing publishing hold verifier hthrough
    · exact hreached verifier hthrough

/-- The verifier that a publication is at is reached. -/
theorem advance_reached (h : poller.Careful) (position : Nat) {rest : List VerifierName}
    {sending : Bool} (hat : poller.publishing[position]? = some ⟨agg, verifier :: rest, sending⟩)
    (hreached : poller.Reached verifier agg.key) : (poller.advance position agg rest).Careful := by
  refine h.advance position fun other hother => ?_
  by_cases hsame : other = verifier
  · rw [hsame]
    exact hreached
  · refine h.publishing _ (List.mem_of_getElem? hat) other fun hmem => ?_
    exact (List.mem_cons.mp hmem).elim hsame hother

/-- More may be recorded, or accepted. -/
theorem mono {later : Poller} (h : poller.Careful) (hseen : later.seen = poller.seen)
    (hpublishing : later.publishing = poller.publishing)
    (hreached : ∀ verifier key, poller.Reached verifier key → later.Reached verifier key) :
    later.Careful where
  seen key hkey verifier := hreached _ _ (h.seen key (hseen ▸ hkey) verifier)
  publishing publishing hmem verifier hthrough :=
    hreached _ _ (h.publishing publishing (hpublishing ▸ hmem) verifier hthrough)

theorem step (h : poller.Careful) {event : PollerEvent}
    (hdelivered : poller.Delivered clUint event) : (poller.step clUint event).Careful := by
  cases event with
  | reported domainId ev =>
      simp only [Poller.step]
      split
      · split
        · exact h.begin _
        · exact h
      · exact h
  | fetched domainId receipts =>
      simp only [Poller.step]
      split
      · exact h
      · split
        · exact h
        · exact h.goOn _
  | asked position answer =>
      simp only [Poller.step]
      split
      case h_1 agg verifier rest hat =>
        split
        · split
          case isTrue hrecorded => exact h.advance_reached position hat (.inl hrecorded)
          case isFalse => exact h
        · refine ⟨h.seen, fun publishing hmem other hthrough => ?_⟩
          rcases List.mem_or_eq_of_mem_set hmem with hold | rfl
          · exact h.publishing publishing hold other hthrough
          · exact h.publishing _ (List.mem_of_getElem? hat) other hthrough
      case h_2 => exact h
  | submitted position outcome =>
      simp only [Poller.step]
      split
      case h_1 agg verifier rest hat =>
        have hreached := hdelivered agg verifier rest hat
        split
        case isTrue htaken =>
          have hadded : { poller with
              accepted := (verifier, agg.key) :: poller.accepted }.Careful :=
            h.mono rfl rfl fun _ _ hbefore => hbefore.imp_right (List.mem_cons_of_mem _)
          exact hadded.advance_reached position hat (.inr List.mem_cons_self)
        case isFalse hlost =>
          exact h.advance_reached position hat (hreached.resolve_left hlost)
      case h_2 => exact h
  | recorded verifier key =>
      exact h.mono rfl rfl fun _ _ hbefore => hbefore.imp_left (List.mem_cons_of_mem _)

theorem started (subscribed : Bool) : (Poller.started subscribed).Careful where
  seen _ hkey := absurd hkey List.not_mem_nil
  publishing _ hmem := absurd hmem List.not_mem_nil

theorem run {events : List PollerEvent} (h : poller.Careful)
    (hdelivered : AllDelivered clUint poller events) : (poller.run clUint events).Careful := by
  induction events generalizing poller with
  | nil => exact h
  | cons event rest ih =>
      obtain ⟨hfirst, hrest⟩ := hdelivered
      exact ih (h.step hfirst) hrest

end Careful

/-! ## Another round -/

theorem goOn_seen (receipts : List (Nat × Record)) : (poller.goOn receipts).seen = poller.seen := by
  induction receipts with
  | nil => rfl
  | cons receipt rest ih =>
      unfold goOn
      split
      · rfl
      · exact ih
      · split
        · exact ih
        case isFalse h =>
          unfold begin
          rw [if_neg h]

/-- The oldest key makes room for a new one. -/
theorem remember_spec {seen : Seen} (hroom : seen.length ≤ seenLimit) (key : AggregationKey) :
    key ∈ remember seen key ∧ (remember seen key).length ≤ seenLimit := by
  unfold remember
  by_cases hknown : key ∈ seen
  · rw [if_pos hknown, if_neg (Nat.not_lt.mpr hroom)]
    exact ⟨hknown, hroom⟩
  · rw [if_neg hknown]
    dsimp only
    split
    case isTrue hfull =>
      cases seen with
      | nil => exact absurd hfull (Nat.not_lt.mpr (Nat.succ_le_succ (Nat.zero_le _)))
      | cons first rest => exact ⟨List.mem_append_right rest List.mem_cons_self, by simpa using hroom⟩
    case isFalse hfits => exact ⟨List.mem_append_right seen List.mem_cons_self, Nat.not_lt.mp hfits⟩

/-- A receipt of the aggregation starts its publication, reported or polled. -/
structure Retries (poller : Poller) (clUint : Number → Option Nat) (agg : AggregationRoot) :
    Prop where
  reported : ∀ domainId ev, toAggregationRoot domainId ev = .ok (some agg) →
    poller.subscribed = true →
      ⟨agg, verifiers, false⟩ ∈ (poller.step clUint (.reported domainId ev)).publishing
  polled : ∀ domainId ev rest, toAggregationRoot domainId ev = .ok (some agg) →
    ⟨agg, verifiers, false⟩ ∈ (poller.goOn ((domainId, ev) :: rest)).publishing

theorem mem_begin (h : agg.key ∉ poller.seen) :
    ⟨agg, verifiers, false⟩ ∈ (poller.begin agg).publishing := by
  unfold begin
  rw [if_neg h]
  exact List.mem_append_right _ List.mem_cons_self

theorem retries_of_not_mem_seen (h : agg.key ∉ poller.seen) : poller.Retries clUint agg where
  reported domainId ev hagg hsubscribed := by
    simp only [step, hsubscribed, hagg, if_true]
    exact mem_begin h
  polled domainId ev rest hagg := by
    unfold goOn
    rw [hagg]
    dsimp only
    rw [if_neg h]
    exact mem_begin h

theorem begin_seen : (poller.begin agg).seen = poller.seen := by
  unfold begin
  split
  · rfl
  · rfl

theorem finish_seen (position : Nat) :
    (poller.finish position agg).seen = remember poller.seen agg.key := by
  unfold finish
  dsimp only
  rw [goOn_seen]

theorem advance_room (hroom : poller.seen.length ≤ seenLimit) (position : Nat)
    (rest : List VerifierName) : (poller.advance position agg rest).seen.length ≤ seenLimit := by
  unfold advance
  split
  · rw [finish_seen]
    exact (remember_spec hroom _).2
  · exact hroom

/-- No event makes a poller remember more than it has room for. -/
theorem step_room (hroom : poller.seen.length ≤ seenLimit) (event : PollerEvent) :
    (poller.step clUint event).seen.length ≤ seenLimit := by
  cases event with
  | reported domainId ev =>
      simp only [step]
      split
      · split
        · rw [begin_seen]
          exact hroom
        · exact hroom
      · exact hroom
  | fetched domainId receipts =>
      simp only [step]
      split
      · exact hroom
      · split
        · exact hroom
        · rw [goOn_seen]
          exact hroom
  | asked position answer =>
      simp only [step]
      split
      · split
        · split
          · exact advance_room hroom _ _
          · exact hroom
        · exact hroom
      · exact hroom
  | submitted position outcome =>
      simp only [step]
      split
      · apply advance_room
        split
        · exact hroom
        · exact hroom
      · exact hroom
  | recorded verifier key => exact hroom

theorem run_room (hroom : poller.seen.length ≤ seenLimit) (events : List PollerEvent) :
    (poller.run clUint events).seen.length ≤ seenLimit := by
  induction events generalizing poller with
  | nil => exact hroom
  | cons event rest ih => exact ih (step_room hroom event)

/-- At its last verifier a publication is remembered, whatever comes of the submission. -/
theorem submitted_remembered {subscribed : Bool} {events : List PollerEvent} {position : Nat}
    {outcome : SubmitOutcome}
    (hat : ((started subscribed).run clUint events).publishing[position]? =
      some ⟨agg, [verifier], true⟩) :
    agg.key ∈ (((started subscribed).run clUint events).step clUint
      (.submitted position outcome)).seen := by
  have hroom : ((started subscribed).run clUint events).seen.length ≤ seenLimit :=
    run_room (Nat.zero_le _) events
  simp only [step, hat, advance, finish_seen]
  split
  · exact (remember_spec hroom _).1
  · exact (remember_spec hroom _).1

end Poller

namespace Sample

/-- A round of the poll whose submissions both come to the same. -/
def round (outcome : SubmitOutcome) : List PollerEvent :=
  [.fetched 0 (.ok [receipt counted]), .asked 0 .failed, .submitted 0 outcome, .asked 0 .failed,
    .submitted 0 outcome]

/-- An aggregation with a natural number for an id is taken. -/
theorem delivered_accepted {poller : Poller} {position : Nat}
    (h : (poller.publishing[position]?).map (fun publishing =>
      (submission clUint publishing.agg).isSome) = some true) :
    poller.Delivered clUint (.submitted position .accepted) := by
  intro agg verifier rest hat
  rw [hat] at h
  exact .inl ⟨Option.some.inj h, rfl⟩

theorem round_delivered :
    Poller.AllDelivered clUint (Poller.started false) (round .accepted) :=
  ⟨trivial, trivial, delivered_accepted (by decide +kernel), trivial,
    delivered_accepted (by decide +kernel), trivial⟩

end Sample

end StxShield.RootPublisher
