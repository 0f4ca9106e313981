import Mathlib.Data.List.Chain
import StxShield.Library.PromiseChain
import StxShield.Relayer.JobQueue

/-!
# The sequence of nonces

Operations and root publications call `submitRaw` whenever they come, for one account.  Each
call is chained to the one before it, so that one at a time asks for the counter of nonces.
-/

namespace StxShield.Relay

open Library

/-! ## Calls of `submitRaw` -/

/-- What a call of `submitRaw` waits for. -/
inductive Stage where
  /-- Its callback has not been called. -/
  | waiting
  /-- `fetchNonce` -/
  | fetching
  /-- `makeContractCall`, for the nonce that it was called with. -/
  | signing (nonce : Nat)
  /-- `broadcastTransaction` -/
  | broadcasting (tx : Transaction)
  | settled (result : Except String Transaction)

namespace Stage

/-- The promise of the callback. -/
def promise : Stage → PromiseState
  | .settled (.ok _) => .fulfilled
  | .settled (.error _) => .rejected
  | _ => .pending

def Settled (stage : Stage) : Prop := ∃ result, stage = .settled result

def Begun (stage : Stage) : Prop := stage ≠ .waiting

/-- The nonce that a call is at work with. -/
def nonce? : Stage → Option Nat
  | .signing nonce => some nonce
  | .broadcasting tx => some tx.nonce
  | _ => none

/-- How many answers a call may still wait for. -/
def rank : Stage → Nat
  | .waiting => 4
  | .fetching => 3
  | .signing _ => 2
  | .broadcasting _ => 1
  | .settled _ => 0

end Stage

/-- A call of `submitRaw`, with what it waits for. -/
structure Enqueued where
  call : ContractCall
  stage : Stage

/-- What the counter has been through. -/
inductive NonceMark where
  /-- The counter is set to what the network answered. -/
  | fetched (nonce : Nat)
  /-- A broadcast is reported successful. -/
  | reported (nonce : Nat)
  deriving DecidableEq

namespace NonceMark

/-- The counter after a mark. -/
def next : NonceMark → Nat
  | .fetched nonce => nonce
  | .reported nonce => nonce + 1

def reported? : NonceMark → Option Nat
  | .fetched _ => none
  | .reported nonce => some nonce

/-- A broadcast is reported with the nonce that the mark before it leaves. -/
def Follows (first second : NonceMark) : Prop := ∀ nonce, second = .reported nonce → nonce = first.next

end NonceMark

/-- The relayer's account: the calls in the order of their arrival, what the network has
accepted, and what has become of the counter. -/
structure Account where
  manager : TransactionManager
  calls : List Enqueued
  accepted : List Transaction
  marks : List NonceMark

/-- What may happen next. -/
inductive AccountEvent where
  | submitRaw (call : ContractCall)
  /-- The promise that a call is chained to calls back. -/
  | begin (position : Nat)
  | fetched (position : Nat) (answer : Except String Nat)
  | signed (position : Nat) (answer : Except String Unit)
  | broadcast (position : Nat) (answer : BroadcastAnswer)

namespace Account

variable (account : Account)

/-- `this.chain` as a call finds it: `run.catch(() => undefined)` of the call before it. -/
def chain : Nat → PromiseState
  | 0 => .fulfilled
  | position + 1 =>
      (account.calls[position]?).elim .pending fun previous => previous.stage.promise.caught

/-- A call gets on. -/
def put (position : Nat) (call : ContractCall) (stage : Stage) : Account :=
  { account with calls := account.calls.set position ⟨call, stage⟩ }

/-- The nonces that the network has accepted are below. -/
def Above (nonce : Nat) : Prop := ∀ tx ∈ account.accepted, tx.nonce < nonce

instance (nonce : Nat) : Decidable (account.Above nonce) :=
  inferInstanceAs (Decidable (∀ tx ∈ account.accepted, tx.nonce < nonce))

def begin (position : Nat) (call : ContractCall) : Account :=
  match account.manager.nonce with
  | none => account.put position call .fetching
  | some nonce => account.put position call (.signing nonce)

/-- `fetchNonce` returns; the endpoint's nonce is above every accepted one. -/
def fetched (position : Nat) (call : ContractCall) : Except String Nat → Account
  | .error message => account.put position call (.settled (.error message))
  | .ok nonce =>
      if account.Above nonce then
        { account.put position call (.signing nonce) with
          manager := { account.manager with nonce := some nonce }
          marks := account.marks ++ [.fetched nonce] }
      else account

def signed (position : Nat) (call : ContractCall) (nonce : Nat) : Except String Unit → Account
  | .error message => account.put position call (.settled (.error message))
  | .ok () => account.put position call (.broadcasting ⟨nonce, call⟩)

def broadcast (position : Nat) (call : ContractCall) (tx : Transaction) :
    BroadcastAnswer → Account
  | .threw taken message =>
      { account.put position call (.settled (.error message)) with
        accepted := if taken then tx :: account.accepted else account.accepted }
  | .rejected reason =>
      { account.put position call
          (.settled (.error (TransactionManager.brokenNonce reason))) with
        manager := { account.manager with nonce := none } }
  | .accepted =>
      { account.put position call (.settled (.ok tx)) with
        manager :=
          { account.manager with nonce := account.manager.nonce.map (· + 1) }.remember tx
        accepted := tx :: account.accepted
        marks := account.marks ++ [.reported tx.nonce] }

/-- One event; nothing happens where it is out of place. -/
def step : AccountEvent → Account
  | .submitRaw call => { account with calls := account.calls ++ [⟨call, .waiting⟩] }
  | .begin position =>
      match account.calls[position]? with
      | some ⟨call, .waiting⟩ =>
          if (account.chain position).CallsBack then account.begin position call else account
      | _ => account
  | .fetched position answer =>
      match account.calls[position]? with
      | some ⟨call, .fetching⟩ => account.fetched position call answer
      | _ => account
  | .signed position answer =>
      match account.calls[position]? with
      | some ⟨call, .signing nonce⟩ => account.signed position call nonce answer
      | _ => account
  | .broadcast position answer =>
      match account.calls[position]? with
      | some ⟨call, .broadcasting tx⟩ => account.broadcast position call tx answer
      | _ => account

def run (account : Account) (events : List AccountEvent) : Account := events.foldl step account

/-- A manager just constructed, on any network. -/
def opened (accepted : List Transaction) : Account where
  manager := { nonce := none, signed := [] }
  calls := []
  accepted := accepted
  marks := []

/-- The nonces of the broadcasts that were reported successful, in order. -/
def reportedNonces : List Nat := account.marks.filterMap NonceMark.reported?

/-- How much is left to wait for. -/
def left : Nat := (account.calls.map fun enqueued => enqueued.stage.rank).sum

end Account

/-! ## The counter -/

/-- What the counter, if it is known, has to do with the marks and with what is accepted. -/
structure Counted (nonce : Option Nat) (marks : List NonceMark) (accepted : List Transaction) :
    Prop where
  above : ∀ next, nonce = some next → ∀ old ∈ marks.filterMap NonceMark.reported?, old < next
  last : ∀ next, nonce = some next → ∃ mark ∈ marks.getLast?, mark.next = next
  accepted : ∀ old ∈ marks.filterMap NonceMark.reported?, ∃ tx ∈ accepted, tx.nonce = old
  increasing : (marks.filterMap NonceMark.reported?).Pairwise (· < ·)
  follows : marks.IsChain NonceMark.Follows

namespace Counted

variable {nonce : Option Nat} {marks : List NonceMark} {accepted : List Transaction}

theorem opened (accepted : List Transaction) : Counted none [] accepted where
  above _ hnext := by cases hnext
  last _ hnext := by cases hnext
  accepted _ hold := absurd hold List.not_mem_nil
  increasing := List.Pairwise.nil
  follows := List.IsChain.nil

/-- The counter is forgotten. -/
theorem reset (h : Counted nonce marks accepted) : Counted none marks accepted where
  above _ hnext := by cases hnext
  last _ hnext := by cases hnext
  accepted := h.accepted
  increasing := h.increasing
  follows := h.follows

theorem accept (h : Counted nonce marks accepted) (tx : Transaction) :
    Counted nonce marks (tx :: accepted) where
  above := h.above
  last := h.last
  accepted old hold := by
    obtain ⟨found, hfound, heq⟩ := h.accepted old hold
    exact ⟨found, List.mem_cons_of_mem _ hfound, heq⟩
  increasing := h.increasing
  follows := h.follows

/-- The counter is set to a nonce above every accepted one. -/
theorem fetch (h : Counted nonce marks accepted) {next : Nat}
    (habove : ∀ tx ∈ accepted, tx.nonce < next) :
    Counted (some next) (marks ++ [.fetched next]) accepted := by
  have hsame : (marks ++ [NonceMark.fetched next]).filterMap NonceMark.reported? =
      marks.filterMap NonceMark.reported? := by
    rw [List.filterMap_append]
    exact List.append_nil _
  refine ⟨?_, ?_, ?_, ?_, ?_⟩
  · intro found hfound old hold
    obtain rfl := Option.some.inj hfound
    rw [hsame] at hold
    obtain ⟨tx, htx, rfl⟩ := h.accepted old hold
    exact habove tx htx
  · intro found hfound
    obtain rfl := Option.some.inj hfound
    exact ⟨.fetched next, by simp, rfl⟩
  · rw [hsame]
    exact h.accepted
  · rw [hsame]
    exact h.increasing
  · refine h.follows.append (List.IsChain.singleton _) fun first _ second hsecond => ?_
    obtain rfl := Option.some.inj hsecond
    intro reported hreported
    cases hreported

/-- A broadcast with the counter's nonce is reported. -/
theorem report {tx : Transaction} (h : Counted (some tx.nonce) marks accepted) :
    Counted (some (tx.nonce + 1)) (marks ++ [.reported tx.nonce]) (tx :: accepted) := by
  have hadded : (marks ++ [NonceMark.reported tx.nonce]).filterMap NonceMark.reported? =
      marks.filterMap NonceMark.reported? ++ [tx.nonce] := by
    rw [List.filterMap_append]
    rfl
  refine ⟨?_, ?_, ?_, ?_, ?_⟩
  · intro found hfound old hold
    obtain rfl := Option.some.inj hfound
    rw [hadded] at hold
    rcases List.mem_append.mp hold with hbefore | hnew
    · exact Nat.lt_succ_of_lt (h.above _ rfl old hbefore)
    · obtain rfl := List.mem_singleton.mp hnew
      exact Nat.lt_succ_self _
  · intro found hfound
    obtain rfl := Option.some.inj hfound
    exact ⟨.reported tx.nonce, by simp, rfl⟩
  · rw [hadded]
    intro old hold
    rcases List.mem_append.mp hold with hbefore | hnew
    · obtain ⟨found, hfound, heq⟩ := h.accepted old hbefore
      exact ⟨found, List.mem_cons_of_mem _ hfound, heq⟩
    · obtain rfl := List.mem_singleton.mp hnew
      exact ⟨tx, List.mem_cons_self, rfl⟩
  · rw [hadded]
    refine List.pairwise_append.mpr
      ⟨h.increasing, List.pairwise_singleton _ _, fun old hold new hnew => ?_⟩
    obtain rfl := List.mem_singleton.mp hnew
    exact h.above _ rfl old hold
  · refine h.follows.append (List.IsChain.singleton _) fun first hfirst second hsecond => ?_
    obtain rfl := Option.some.inj hsecond
    obtain ⟨mark, hmark, hnext⟩ := h.last _ rfl
    obtain rfl := Option.some.inj (hfirst.symm.trans hmark)
    intro reported hreported
    rw [← NonceMark.reported.inj hreported]
    exact hnext.symm

end Counted

/-! ## One call at a time -/

namespace Account

variable {account : Account} {position : Nat} {enqueued : Enqueued} {call : ContractCall}
  {stage : Stage}

/-- No call has begun before the ones ahead of it are settled. -/
def OneAtATime (account : Account) : Prop :=
  InTurn (fun enqueued : Enqueued => enqueued.stage.Begun)
    (fun enqueued : Enqueued => enqueued.stage.Settled) account.calls

/-- All calls before a position are settled. -/
def Turn (account : Account) (position : Nat) : Prop :=
  ∀ j, j < position → ∀ other, account.calls[j]? = some other → other.stage.Settled

/-- A call that is at work uses the counter's nonce. -/
structure Orderly (account : Account) : Prop where
  oneAtATime : account.OneAtATime
  working : ∀ (position : Nat) (enqueued : Enqueued), account.calls[position]? = some enqueued →
    ∀ nonce, enqueued.stage.nonce? = some nonce → account.manager.nonce = some nonce
  counted : Counted account.manager.nonce account.marks account.accepted

end Account

theorem Stage.Settled.begun {stage : Stage} (h : stage.Settled) : stage.Begun := by
  obtain ⟨result, rfl⟩ := h
  intro heq
  cases heq

theorem Stage.Settled.nonce? {stage : Stage} (h : stage.Settled) : stage.nonce? = none := by
  obtain ⟨result, rfl⟩ := h
  rfl

theorem Stage.settled_of_promise {stage : Stage} (h : stage.promise ≠ .pending) :
    stage.Settled := by
  cases stage with
  | settled result => exact ⟨result, rfl⟩
  | _ => exact absurd rfl h

namespace Account

variable {account : Account} {position : Nat} {enqueued : Enqueued} {call : ContractCall}
  {stage : Stage}

/-- The chain calls back once all calls before are settled. -/
theorem turn_of_callsBack (h : account.OneAtATime)
    (hchain : (account.chain position).CallsBack) : account.Turn position := by
  refine InTurn.turn_of_previous h (fun _ => Stage.Settled.begun) fun k hk => ?_
  subst hk
  simp only [chain] at hchain
  cases hprevious : account.calls[k]? with
  | none =>
      rw [hprevious] at hchain
      exact absurd rfl hchain
  | some previous =>
      rw [hprevious] at hchain
      exact ⟨previous, rfl,
        Stage.settled_of_promise (PromiseState.caught_callsBack.mp hchain)⟩

/-- In turn no other call is at work. -/
theorem others_idle (h : account.OneAtATime) (hi : account.calls[position]? = some enqueued)
    (hopen : ¬ enqueued.stage.Settled) (hturn : account.Turn position) {j : Nat} {other : Enqueued}
    (hj : account.calls[j]? = some other) (hne : j ≠ position) : other.stage.nonce? = none := by
  rcases Nat.lt_or_gt_of_ne hne with hlt | hgt
  · exact (hturn j hlt other hj).nonce?
  · have hwaiting := InTurn.after h hi hopen hgt hj
    have heq : other.stage = .waiting := not_not.mp hwaiting
    rw [heq]
    rfl

/-- A call gets on in turn, with what becomes of the counter. -/
theorem Orderly.put (h : account.Orderly) (hi : account.calls[position]? = some enqueued)
    (hopen : ¬ enqueued.stage.Settled) (hturn : account.Turn position) {after : Account}
    (hcalls : after.calls = account.calls.set position ⟨call, stage⟩)
    (hnonce : ∀ nonce, stage.nonce? = some nonce → after.manager.nonce = some nonce)
    (hcounted : Counted after.manager.nonce after.marks after.accepted) : after.Orderly where
  oneAtATime := by
    unfold OneAtATime
    rw [hcalls]
    exact InTurn.set h.oneAtATime hi hopen hturn _
  working j other hj nonce hother := by
    rw [hcalls] at hj
    by_cases hsame : position = j
    · subst hsame
      obtain ⟨hlt, -⟩ := List.getElem?_eq_some_iff.mp hi
      rw [List.getElem?_set_self hlt] at hj
      obtain rfl := Option.some.inj hj
      exact hnonce nonce hother
    · rw [List.getElem?_set_ne hsame] at hj
      rw [others_idle h.oneAtATime hi hopen hturn hj (Ne.symm hsame)] at hother
      cases hother
  counted := hcounted

theorem Orderly.turn (h : account.Orderly) (hi : account.calls[position]? = some enqueued)
    (hbegun : enqueued.stage.Begun) : account.Turn position := by
  intro j hlt other hj
  have hbefore := InTurn.before h.oneAtATime hi hbegun hlt hj
  exact hbefore

theorem Orderly.begin (h : account.Orderly)
    (hi : account.calls[position]? = some ⟨call, .waiting⟩)
    (hchain : (account.chain position).CallsBack) : (account.begin position call).Orderly := by
  have hturn := turn_of_callsBack h.oneAtATime hchain
  have hopen : ¬ (Stage.waiting).Settled := by
    rintro ⟨result, heq⟩
    cases heq
  unfold Account.begin
  split
  case h_1 hnone =>
    refine h.put hi hopen hturn rfl (fun _ hnonce => ?_) h.counted
    cases hnonce
  case h_2 nonce hsome =>
    refine h.put hi hopen hturn rfl (fun _ hnonce => ?_) h.counted
    rw [← hnonce]
    exact hsome

theorem Orderly.fetched (h : account.Orderly)
    (hi : account.calls[position]? = some ⟨call, .fetching⟩) (answer : Except String Nat) :
    (account.fetched position call answer).Orderly := by
  have hturn : account.Turn position := h.turn hi fun heq => by cases heq
  have hopen : ¬ (Stage.fetching).Settled := by
    rintro ⟨result, heq⟩
    cases heq
  cases answer with
  | error message =>
      refine h.put hi hopen hturn rfl (fun _ hnonce => ?_) h.counted
      cases hnonce
  | ok nonce =>
      unfold Account.fetched
      dsimp only
      split
      case isTrue habove =>
        exact h.put hi hopen hturn rfl (fun _ hnonce => hnonce) (h.counted.fetch habove)
      case isFalse => exact h

theorem Orderly.signed (h : account.Orderly) {nonce : Nat}
    (hi : account.calls[position]? = some ⟨call, .signing nonce⟩) (answer : Except String Unit) :
    (account.signed position call nonce answer).Orderly := by
  have hturn : account.Turn position := h.turn hi fun heq => by cases heq
  have hopen : ¬ (Stage.signing nonce).Settled := by
    rintro ⟨result, heq⟩
    cases heq
  cases answer with
  | error message =>
      refine h.put hi hopen hturn rfl (fun _ hnonce => ?_) h.counted
      cases hnonce
  | ok done =>
      refine h.put hi hopen hturn rfl (fun found hnonce => ?_) h.counted
      exact h.working position _ hi found hnonce

theorem Orderly.broadcast (h : account.Orderly) {tx : Transaction}
    (hi : account.calls[position]? = some ⟨call, .broadcasting tx⟩) (answer : BroadcastAnswer) :
    (account.broadcast position call tx answer).Orderly := by
  have hturn : account.Turn position := h.turn hi fun heq => by cases heq
  have hopen : ¬ (Stage.broadcasting tx).Settled := by
    rintro ⟨result, heq⟩
    cases heq
  have hknown : account.manager.nonce = some tx.nonce := h.working position _ hi _ rfl
  cases answer with
  | threw taken message =>
      refine h.put hi hopen hturn rfl (fun _ hnonce => ?_) ?_
      · cases hnonce
      · cases taken with
        | true => exact h.counted.accept tx
        | false => exact h.counted
  | rejected reason =>
      refine h.put hi hopen hturn rfl (fun _ hnonce => ?_) h.counted.reset
      cases hnonce
  | accepted =>
      refine h.put hi hopen hturn rfl (fun _ hnonce => ?_) ?_
      · cases hnonce
      · have hcounted := h.counted
        rw [hknown] at hcounted
        have hnext : (account.broadcast position call tx .accepted).manager.nonce =
            some (tx.nonce + 1) := by
          change account.manager.nonce.map (· + 1) = _
          rw [hknown]
          rfl
        rw [hnext]
        exact hcounted.report

theorem Orderly.step (h : account.Orderly) (event : AccountEvent) :
    (account.step event).Orderly := by
  cases event with
  | submitRaw call =>
      refine ⟨InTurn.concat h.oneAtATime fun hbegun => hbegun rfl, ?_, h.counted⟩
      intro position enqueued hi nonce hnonce
      rcases List.mem_append.mp (List.mem_of_getElem? hi) with hold | hnew
      · obtain ⟨j, hj⟩ := List.getElem?_of_mem hold
        exact h.working j enqueued hj nonce hnonce
      · obtain rfl := List.mem_singleton.mp hnew
        cases hnonce
  | begin position =>
      simp only [Account.step]
      split
      case h_1 call hi =>
        split
        case isTrue hchain => exact h.begin hi hchain
        case isFalse => exact h
      case h_2 => exact h
  | fetched position answer =>
      simp only [Account.step]
      split
      case h_1 call hi => exact h.fetched hi answer
      case h_2 => exact h
  | signed position answer =>
      simp only [Account.step]
      split
      case h_1 call nonce hi => exact h.signed hi answer
      case h_2 => exact h
  | broadcast position answer =>
      simp only [Account.step]
      split
      case h_1 call tx hi => exact h.broadcast hi answer
      case h_2 => exact h

theorem Orderly.opened (accepted : List Transaction) : (Account.opened accepted).Orderly where
  oneAtATime := InTurn.nil
  working position enqueued hi := by cases hi
  counted := Counted.opened accepted

theorem Orderly.run (h : account.Orderly) (events : List AccountEvent) :
    (account.run events).Orderly := by
  induction events generalizing account with
  | nil => exact h
  | cons event rest ih => exact ih (h.step event)

/-! ## No call is held up -/

/-- What a call waits for; the endpoint's nonce is above every accepted one. -/
inductive Awaits (account : Account) (position : Nat) : Stage → AccountEvent → Prop where
  | begin : Awaits account position .waiting (.begin position)
  | fetched (answer : Except String Nat) (habove : ∀ nonce, answer = .ok nonce → account.Above nonce) :
      Awaits account position .fetching (.fetched position answer)
  | signed (nonce : Nat) (answer : Except String Unit) :
      Awaits account position (.signing nonce) (.signed position answer)
  | broadcast (tx : Transaction) (answer : BroadcastAnswer) :
      Awaits account position (.broadcasting tx) (.broadcast position answer)

theorem callsBack_of_turn (hi : account.calls[position]? = some enqueued)
    (hturn : account.Turn position) : (account.chain position).CallsBack := by
  cases position with
  | zero =>
      intro h
      cases h
  | succ k =>
      obtain ⟨hlt, -⟩ := List.getElem?_eq_some_iff.mp hi
      have hk : account.calls[k]? = some (account.calls[k]) :=
        List.getElem?_eq_getElem (Nat.lt_of_succ_lt hlt)
      obtain ⟨result, hresult⟩ := hturn k (Nat.lt_succ_self k) _ hk
      simp only [chain, hk, Option.elim_some, hresult]
      refine PromiseState.caught_callsBack.mpr fun h => ?_
      cases result with
      | error message => cases h
      | ok tx => cases h

theorem left_put (hi : account.calls[position]? = some enqueued)
    {after : Account} (hcalls : after.calls = account.calls.set position ⟨call, stage⟩)
    (hrank : stage.rank < enqueued.stage.rank) : after.left < account.left := by
  unfold left
  rw [hcalls]
  exact sum_rank_set_lt (fun enqueued : Enqueued => enqueued.stage.rank) hi hrank

/-- Any answer takes the call whose turn it is further. -/
theorem left_step (hi : account.calls[position]? = some enqueued) (hturn : account.Turn position)
    {event : AccountEvent} (hawaits : account.Awaits position enqueued.stage event) :
    (account.step event).left < account.left := by
  obtain ⟨call, stage⟩ := enqueued
  cases hawaits with
  | begin =>
      have hchain := callsBack_of_turn hi hturn
      simp only [Account.step, hi, hchain, if_true]
      unfold Account.begin
      split
      · exact left_put hi rfl (Nat.lt_succ_self _)
      · exact left_put hi rfl (Nat.lt_add_of_pos_right Nat.two_pos)
  | fetched answer habove =>
      simp only [Account.step, hi]
      cases answer with
      | error message => exact left_put hi rfl (Nat.zero_lt_succ _)
      | ok nonce =>
          simp only [Account.fetched, habove nonce rfl, if_true]
          exact left_put hi rfl (Nat.lt_succ_self _)
  | signed nonce answer =>
      simp only [Account.step, hi]
      cases answer with
      | error message => exact left_put hi rfl (Nat.zero_lt_succ _)
      | ok done => exact left_put hi rfl (Nat.lt_succ_self _)
  | broadcast tx answer =>
      simp only [Account.step, hi]
      cases answer with
      | threw taken message => exact left_put hi rfl (Nat.zero_lt_succ _)
      | rejected reason => exact left_put hi rfl (Nat.zero_lt_succ _)
      | accepted => exact left_put hi rfl (Nat.zero_lt_succ _)

/-! ## A call by itself -/

/-- The events of a call that runs undisturbed. -/
def attempt (position : Nat) (answers : SubmitAnswers) : List AccountEvent :=
  [.begin position, .fetched position answers.nonce, .signed position answers.signing,
    .broadcast position answers.broadcast]

/-- A call has been settled as a submission is. -/
structure Did (before after : Account) (position : Nat) (call : ContractCall)
    (submitted : TransactionManager.Submitted) : Prop where
  manager : after.manager = submitted.manager
  calls : after.calls = before.calls.set position ⟨call, .settled submitted.result⟩
  accepted : after.accepted = submitted.taken.toList ++ before.accepted

theorem getElem?_put {stage' : Stage} (hi : account.calls[position]? = some ⟨call, stage'⟩) :
    (account.put position call stage).calls[position]? = some ⟨call, stage⟩ := by
  obtain ⟨hlt, -⟩ := List.getElem?_eq_some_iff.mp hi
  exact List.getElem?_set_self hlt

/-- Settled calls wait for nothing. -/
theorem step_settled {result : Except String Transaction}
    (hi : account.calls[position]? = some ⟨call, .settled result⟩) (answers : SubmitAnswers) :
    account.step (.signed position answers.signing) = account ∧
      account.step (.broadcast position answers.broadcast) = account := by
  simp only [Account.step, hi, and_self]

theorem did_signing {nonce : Nat} (hi : account.calls[position]? = some ⟨call, .signing nonce⟩)
    (hnonce : account.manager.nonce = some nonce) (answers : SubmitAnswers) :
    account.Did (account.run [.signed position answers.signing,
        .broadcast position answers.broadcast]) position call
      (account.manager.submitRaw call answers) := by
  have hmanager : ({ account.manager with nonce := some nonce } : TransactionManager) =
      account.manager := by rw [← hnonce]
  simp only [run, List.foldl_cons, List.foldl_nil]
  unfold TransactionManager.submitRaw
  rw [hnonce]
  dsimp only [Option.elim_some]
  cases hsigning : answers.signing with
  | error message =>
      have hstep : account.step (.signed position (.error message)) =
          account.put position call (.settled (.error message)) := by
        simp only [Account.step, hi, Account.signed]
      rw [hstep, (step_settled (getElem?_put hi) answers).2]
      exact ⟨hmanager.symm, rfl, rfl⟩
  | ok done =>
      have hstep : account.step (.signed position (.ok done)) =
          account.put position call (.broadcasting ⟨nonce, call⟩) := by
        simp only [Account.step, hi, Account.signed]
      rw [hstep]
      simp only [Account.step, getElem?_put hi]
      cases hbroadcast : answers.broadcast with
      | threw taken message =>
          refine ⟨hmanager.symm, List.set_set .., ?_⟩
          cases taken with
          | true => rfl
          | false => rfl
      | rejected reason => exact ⟨rfl, List.set_set .., rfl⟩
      | accepted =>
          refine ⟨?_, List.set_set .., rfl⟩
          change TransactionManager.remember
            { account.manager with nonce := account.manager.nonce.map (· + 1) } ⟨nonce, call⟩ = _
          rw [hnonce]
          rfl

theorem Did.of_put {started after : Account} {submitted : TransactionManager.Submitted}
    (h : started.Did after position call submitted)
    (hcalls : started.calls = account.calls.set position ⟨call, stage⟩)
    (haccepted : started.accepted = account.accepted) :
    account.Did after position call submitted where
  manager := h.manager
  calls := by rw [h.calls, hcalls, List.set_set]
  accepted := by rw [h.accepted, haccepted]

/-- A call that runs undisturbed does what `submitRaw` does at once. -/
theorem did_attempt (hi : account.calls[position]? = some ⟨call, .waiting⟩)
    (hturn : account.Turn position) (answers : SubmitAnswers)
    (habove : account.manager.nonce = none → ∀ nonce, answers.nonce = .ok nonce →
      account.Above nonce) :
    account.Did (account.run (attempt position answers)) position call
      (account.manager.submitRaw call answers) := by
  have hbegin : account.step (.begin position) = account.begin position call := by
    simp only [Account.step, hi, callsBack_of_turn hi hturn, if_true]
  change account.Did ((account.step (.begin position)).run [.fetched position answers.nonce,
    .signed position answers.signing, .broadcast position answers.broadcast]) position call _
  rw [hbegin]
  unfold Account.begin
  cases hnonce : account.manager.nonce with
  | some nonce =>
      dsimp only
      have hstarted : (account.put position call (.signing nonce)).calls[position]? =
          some ⟨call, .signing nonce⟩ := getElem?_put hi
      have hskip : (account.put position call (.signing nonce)).step
          (.fetched position answers.nonce) = account.put position call (.signing nonce) := by
        simp only [Account.step, hstarted]
      simp only [run, List.foldl_cons]
      rw [hskip]
      exact (did_signing hstarted hnonce answers).of_put rfl rfl
  | none =>
      dsimp only
      have hstarted : (account.put position call .fetching).calls[position]? =
          some ⟨call, .fetching⟩ := getElem?_put hi
      simp only [run, List.foldl_cons, List.foldl_nil]
      cases hanswer : answers.nonce with
      | error message =>
          have hfetched : (account.put position call .fetching).step
              (.fetched position (.error message)) =
                (account.put position call .fetching).put position call
                  (.settled (.error message)) := by
            simp only [Account.step, hstarted, Account.fetched]
          have hfailed : ((account.put position call .fetching).put position call
              (.settled (.error message))).calls[position]? =
                some ⟨call, .settled (.error message)⟩ := getElem?_put hstarted
          have hsettled := step_settled hfailed answers
          rw [hfetched, hsettled.1, hsettled.2]
          unfold TransactionManager.submitRaw
          rw [hnonce, hanswer]
          exact ⟨rfl, List.set_set .., rfl⟩
      | ok nonce =>
          have hfetched : (account.put position call .fetching).step (.fetched position (.ok nonce)) =
              { (account.put position call .fetching).put position call (.signing nonce) with
                manager := { account.manager with nonce := some nonce }
                marks := account.marks ++ [.fetched nonce] } := by
            simp only [Account.step, hstarted, Account.fetched]
            exact if_pos (habove hnonce nonce hanswer)
          have hsame : ({ account.manager with nonce := some nonce } :
              TransactionManager).submitRaw call answers =
                account.manager.submitRaw call answers := by
            unfold TransactionManager.submitRaw
            rw [hnonce, hanswer]
            rfl
          rw [hfetched, ← hsame]
          have hsigning : ((account.put position call .fetching).put position call
              (.signing nonce)).calls[position]? = some ⟨call, .signing nonce⟩ :=
            getElem?_put hstarted
          have hcalls : ((account.put position call .fetching).put position call
              (.signing nonce)).calls = account.calls.set position ⟨call, .signing nonce⟩ :=
            List.set_set ..
          refine (did_signing ?_ rfl answers).of_put hcalls rfl
          exact hsigning

end Account

/-- Whatever comes of the calls, they are processed one at a time in the order of their arrival,
the nonces that are reported increase, one by one between two answers of the endpoint, and
as long as a call is not settled there is one that any answer takes further. -/
structure Account.InSequence (account : Account) : Prop where
  oneAtATime : account.OneAtATime
  increasing : account.reportedNonces.Pairwise (· < ·)
  consecutive : account.marks.IsChain NonceMark.Follows
  progress : (∃ enqueued ∈ account.calls, ¬ enqueued.stage.Settled) →
    ∃ (position : Nat) (enqueued : Enqueued),
      account.calls[position]? = some enqueued ∧ ¬ enqueued.stage.Settled ∧
      account.Turn position ∧
      ∀ event, account.Awaits position enqueued.stage event →
        (account.step event).left < account.left

theorem nonces_in_sequence (accepted : List Transaction) (events : List AccountEvent) :
    ((Account.opened accepted).run events).InSequence := by
  have horderly := (Account.Orderly.opened accepted).run events
  refine ⟨horderly.oneAtATime, horderly.counted.increasing, horderly.counted.follows, fun hopen => ?_⟩
  obtain ⟨position, enqueued, hi, hunsettled, hturn⟩ := exists_turn hopen
  exact ⟨position, enqueued, hi, hunsettled, hturn, fun _ => Account.left_step hi hturn⟩

end StxShield.Relay
