import Mathlib.Data.List.Infix
import StxShield.Relayer.Requests

/-!
# The job queue

A relayer queues what it accepts, broadcasts one transaction after the other from
its account and polls each until it is anchored.  A job whose processing throws is
put back at the end of the queue and processed from the beginning.

The queue is the in-memory one.  A thrown error is kept by its message.
-/

namespace StxShield.Relay

open Library Exec

/-! ## The network -/

/-- A signed transaction of the relayer's account; it stands for its id. -/
structure Transaction where
  nonce : Nat
  call : ContractCall
  deriving DecidableEq

inductive Outcome where
  | success
  | aborted
  deriving DecidableEq

/-- The network's view of the account.  A transaction is anchored in the order of
the nonces, so each nonce is used up once. -/
structure Network where
  /-- Transactions the network has taken. -/
  taken : List Transaction
  /-- The nonce of the transaction that is anchored next. -/
  accountNonce : Nat
  outcomes : DataMap Transaction Outcome
  anchored : ∀ tx, outcomes.lookup tx ≠ none → tx.nonce < accountNonce

namespace Network

variable (network : Network)

/-- The transaction is not anchored, and its nonce is not used up. -/
def CanSucceed (tx : Transaction) : Prop :=
  tx ∈ network.taken ∧ network.accountNonce ≤ tx.nonce

def Succeeded (tx : Transaction) : Prop := network.outcomes.lookup tx = some .success

/-- The nonce is used up and the transaction did not succeed. -/
def Lost (tx : Transaction) : Prop :=
  tx.nonce < network.accountNonce ∧ ¬ network.Succeeded tx

instance (tx : Transaction) : Decidable (network.CanSucceed tx) := instDecidableAnd

instance (tx : Transaction) : Decidable (network.Succeeded tx) :=
  inferInstanceAs (Decidable (_ = _))

instance (tx : Transaction) : Decidable (network.Lost tx) := instDecidableAnd

def take (tx : Transaction) : Network := { network with taken := tx :: network.taken }

def anchor (tx : Transaction) (outcome : Outcome) (h : tx.nonce = network.accountNonce) :
    Network where
  taken := network.taken
  accountNonce := network.accountNonce + 1
  outcomes := network.outcomes.insert tx outcome
  anchored := by
    intro other hother
    by_cases hsame : other = tx
    · rw [hsame, h]
      exact Nat.lt_succ_self _
    · rw [AList.lookup_insert_ne hsame] at hother
      exact Nat.lt_succ_of_lt (network.anchored other hother)

end Network

/-! ## The transaction manager -/

/-- What comes of `broadcastTransaction`. -/
inductive BroadcastAnswer where
  | accepted
  /-- A result with an error: the network has not taken the transaction. -/
  | rejected (reason : String)
  /-- The call throws, whether or not the network has taken the transaction. -/
  | threw (taken : Bool) (message : String)

/-- What the network and the signing library answer during one submission. -/
structure SubmitAnswers where
  /-- `fetchNonce`, asked only when no nonce is known. -/
  nonce : Except String Nat
  /-- `makeContractCall` -/
  signing : Except String Unit
  broadcast : BroadcastAnswer

/-- The counter of nonces and the signed transactions that are retained, oldest
first. -/
structure TransactionManager where
  nonce : Option Nat
  signed : List Transaction

def signedLimit : Nat := 256

namespace TransactionManager

variable (manager : TransactionManager)

def remember (tx : Transaction) : TransactionManager :=
  let signed := if tx ∈ manager.signed then manager.signed else manager.signed ++ [tx]
  { manager with signed := if signedLimit < signed.length then signed.tail else signed }

structure Submitted where
  manager : TransactionManager
  result : Except String Transaction
  /-- The transaction the network has taken, if it has. -/
  taken : Option Transaction

def brokenNonce (reason : String) : String :=
  if "BadNonce".toList <:+: reason.toList then "nonce drift; retry" else reason

def submitRaw (call : ContractCall) (answers : SubmitAnswers) : Submitted :=
  match manager.nonce.elim answers.nonce .ok with
  | .error message => { manager := manager, result := .error message, taken := none }
  | .ok nonce =>
      let manager := { manager with nonce := some nonce }
      match answers.signing with
      | .error message => { manager := manager, result := .error message, taken := none }
      | .ok () =>
          let tx : Transaction := { nonce := nonce, call := call }
          match answers.broadcast with
          | .threw taken message =>
              { manager := manager
                result := .error message
                taken := if taken then some tx else none }
          | .rejected reason =>
              { manager := { manager with nonce := none }
                result := .error (brokenNonce reason)
                taken := none }
          | .accepted =>
              { manager := { manager with nonce := some (nonce + 1) }.remember tx
                result := .ok tx
                taken := some tx }

end TransactionManager

/-! ## The queue -/

inductive JobState where
  | queued
  | validating
  | submitting
  | confirmed
  | failed
  deriving DecidableEq

structure RelayJob where
  request : RelayRequest
  state : JobState
  txid : Option Transaction
  error : Option String
  attempts : Nat

def newJob (request : RelayRequest) : RelayJob where
  request := request
  state := .queued
  txid := none
  error := none
  attempts := 0

abbrev JobId : Type := Nat

structure MemoryQueue where
  jobs : DataMap JobId RelayJob
  pending : List JobId
  dead : List JobId
  closed : Bool

def maxAttempts : Nat := 3

namespace MemoryQueue

variable (queue : MemoryQueue)

def add (id : JobId) (request : RelayRequest) : MemoryQueue :=
  { queue with
    jobs := queue.jobs.insert id (newJob request)
    pending := queue.pending ++ [id] }

def update (id : JobId) (patch : RelayJob → RelayJob) : MemoryQueue :=
  match queue.jobs.lookup id with
  | some job => { queue with jobs := queue.jobs.insert id (patch job) }
  | none => queue

/-- What `drain` does when the handler throws. -/
def retry (id : JobId) (message : String) : MemoryQueue :=
  let attempts := ((queue.jobs.lookup id).elim 0 RelayJob.attempts) + 1
  if attempts < maxAttempts then
    let queue := queue.update id fun job => { job with attempts := attempts, state := .queued }
    { queue with pending := queue.pending ++ [id] }
  else
    let queue := queue.update id fun job =>
      { job with attempts := attempts, state := .failed, error := some message }
    { queue with dead := queue.dead ++ [id] }

end MemoryQueue

/-! ## The relayer -/

/-- Where `drain` is suspended. -/
inductive Worker where
  | idle
  /-- `waitForConfirmation` awaits the answer to a poll. -/
  | polling (id : JobId) (tx : Transaction) (rebroadcasts deadline : Nat)
  /-- A window has passed, and the transaction is sent again. -/
  | rebroadcasting (id : JobId) (tx : Transaction) (rebroadcasts : Nat)

/-- The relayer with the network it works on, and the transactions that the network
took for each job. -/
structure Relayer where
  queue : MemoryQueue
  manager : TransactionManager
  worker : Worker
  network : Network
  broadcast : List (JobId × Transaction)

/-- What comes of one poll. -/
inductive PollAnswer where
  | threw (message : String)
  | notOk
  | status (txStatus : String)

/-- The outcome a status is taken for, if it ends the polling. -/
def PollAnswer.outcome : PollAnswer → Option Outcome
  | .status txStatus =>
      if txStatus = "success" then some .success
      else if "abort".toList.isPrefixOf txStatus.toList then some .aborted
      else none
  | _ => none

/-- The API reports the outcome that a transaction has. -/
def PollAnswer.Truthful (answer : PollAnswer) (network : Network) (tx : Transaction) : Prop :=
  ∀ outcome ∈ answer.outcome, network.outcomes.lookup tx = some outcome

instance (answer : PollAnswer) (network : Network) (tx : Transaction) :
    Decidable (answer.Truthful network tx) := Option.decidableForallMem _

def windowMs : Nat := 900000

def rebroadcastLimit : Nat := 3

namespace Relayer

variable (relayer : Relayer)

/-- The handler throws. -/
def throwing (id : JobId) (message : String) : Relayer :=
  { relayer with queue := relayer.queue.retry id message, worker := .idle }

/-- The end of `run`: polling has returned a status. -/
def settle (id : JobId) (outcome : Outcome) : Relayer :=
  { relayer with
    queue := relayer.queue.update id fun job =>
      match outcome with
      | .success => { job with state := .confirmed, error := none }
      | .aborted =>
          { job with state := .failed, error := some "transaction aborted on chain" }
    worker := .idle }

/-- `run` up to the first poll, of a job just taken from the queue. -/
def run (lib : StacksLibrary) (id : JobId) (request : RelayRequest) (answers : SubmitAnswers)
    (now : Nat) : Relayer :=
  let relayer :=
    { relayer with queue := relayer.queue.update id fun job => { job with state := .submitting } }
  match buildCall lib request with
  | .error message => relayer.throwing id message
  | .ok call =>
      let submitted := relayer.manager.submitRaw call answers
      let relayer :=
        { relayer with
          manager := submitted.manager
          network := submitted.taken.elim relayer.network relayer.network.take
          broadcast := (submitted.taken.toList.map fun tx => (id, tx)) ++ relayer.broadcast }
      match submitted.result with
      | .error message => relayer.throwing id message
      | .ok tx =>
          { relayer with
            queue := relayer.queue.update id fun job => { job with txid := some tx }
            worker := .polling id tx rebroadcastLimit (now + windowMs) }

/-- One turn of the polling loop; the clock is read after the pause. -/
def polled (id : JobId) (tx : Transaction) (rebroadcasts deadline : Nat) (answer : PollAnswer)
    (now : Nat) : Relayer :=
  match answer with
  | .threw message => relayer.throwing id message
  | answer =>
      match answer.outcome with
      | some outcome => relayer.settle id outcome
      | none =>
          if now < deadline then relayer
          else if rebroadcasts = 0 ∨ tx ∉ relayer.manager.signed then relayer.settle id .aborted
          else { relayer with worker := .rebroadcasting id tx rebroadcasts }

/-- A transaction is sent again as it was; only a call that throws counts as a
failure. -/
def rebroadcasted (id : JobId) (tx : Transaction) (rebroadcasts : Nat) (answer : BroadcastAnswer)
    (now : Nat) : Relayer :=
  match answer with
  | .threw _ _ => relayer.settle id .aborted
  | _ => { relayer with worker := .polling id tx (rebroadcasts - 1) (now + windowMs) }

end Relayer

/-- What may happen next. -/
inductive Request where
  /-- A request is accepted, under an id no job has. -/
  | add (id : JobId) (request : RelayRequest)
  /-- The worker takes the next job. -/
  | next (answers : SubmitAnswers) (now : Nat)
  | poll (answer : PollAnswer) (now : Nat)
  | rebroadcast (answer : BroadcastAnswer) (now : Nat)
  /-- A root is published from the same account. -/
  | publish (call : ContractCall) (answers : SubmitAnswers)
  /-- The next transaction of the account is anchored. -/
  | anchor (tx : Transaction) (outcome : Outcome)
  | close

/-- The network takes no transaction whose nonce is used up. -/
def Network.Takes (network : Network) (taken : Option Transaction) : Prop :=
  ∀ tx ∈ taken, network.accountNonce ≤ tx.nonce

instance (network : Network) (taken : Option Transaction) : Decidable (network.Takes taken) :=
  Option.decidableForallMem _

/-- The network takes what it is said to have taken by the next submission. -/
def Relayer.Plausible (relayer : Relayer) (call : Except String ContractCall)
    (answers : SubmitAnswers) : Prop :=
  ∀ made ∈ call.toOption, relayer.network.Takes (relayer.manager.submitRaw made answers).taken

instance (relayer : Relayer) (call : Except String ContractCall) (answers : SubmitAnswers) :
    Decidable (relayer.Plausible call answers) := Option.decidableForallMem _

def serve (lib : StacksLibrary) : Request → Exec Relayer Unit
  | .add id request => do
      let relayer ← read
      require (relayer.queue.jobs.lookup id).isNone 0
      modify fun relayer => { relayer with queue := relayer.queue.add id request }
  | .next answers now => do
      let relayer ← read
      match relayer.worker, relayer.queue.pending with
      | .idle, id :: rest => do
          require (¬ relayer.queue.closed) 0
          modify fun relayer => { relayer with queue := { relayer.queue with pending := rest } }
          match relayer.queue.jobs.lookup id with
          | none => pure ()
          | some job => do
              require (relayer.Plausible (buildCall lib job.request) answers) 0
              modify fun relayer => relayer.run lib id job.request answers now
      | _, _ => fail 0
  | .poll answer now => do
      let relayer ← read
      match relayer.worker with
      | .polling id tx rebroadcasts deadline => do
          require (answer.Truthful relayer.network tx) 0
          modify fun relayer => relayer.polled id tx rebroadcasts deadline answer now
      | _ => fail 0
  | .rebroadcast answer now => do
      let relayer ← read
      match relayer.worker with
      | .rebroadcasting id tx rebroadcasts =>
          modify fun relayer => relayer.rebroadcasted id tx rebroadcasts answer now
      | _ => fail 0
  | .publish call answers => do
      let relayer ← read
      let submitted := relayer.manager.submitRaw call answers
      require (relayer.network.Takes submitted.taken) 0
      modify fun relayer =>
        { relayer with
          manager := submitted.manager
          network := submitted.taken.elim relayer.network relayer.network.take }
  | .anchor tx outcome => do
      let relayer ← read
      if h : tx ∈ relayer.network.taken ∧ tx.nonce = relayer.network.accountNonce then
        modify fun _ => { relayer with network := relayer.network.anchor tx outcome h.2 }
      else fail 0
  | .close =>
      modify fun relayer => { relayer with queue := { relayer.queue with closed := true } }

/-- A relayer just started, on any network. -/
def launched (network : Network) : Relayer where
  queue := { jobs := ∅, pending := [], dead := [], closed := false }
  manager := { nonce := none, signed := [] }
  worker := .idle
  network := network
  broadcast := []

abbrev Run : Type := Session Relayer Request Unit

def runFrom (lib : StacksLibrary) (network : Network) (requests : List Request) : Run :=
  Session.submitAll (serve lib) (Session.start (launched network)) requests

end StxShield.Relay
