import StxShield.Contracts.PrivacyPool
import StxShield.Contracts.Sip10Pool
import StxShield.Contracts.SplitMergeManager

/-!
# Transactions and token code

A token's functions are arbitrary programs that look at the chain, rewrite the
token's own ledger and call back into the protocol, also inside `as-contract`.
Calls nest to a given depth; a call that fails returns its error to the program
that made it and leaves no trace in the state.
-/

namespace StxShield

open Library Exec World

/-- The code of a token function. -/
inductive Program where
  /-- Respond with a value, or with an error. -/
  | reply (response : Except Nat Nat)
  | inspect (next : World → Program)
  | store (write : TokenLedger → TokenLedger) (next : Program)
  /-- Call a public function, inside `as-contract` or not, and go on with its
  error code or the data of its response. -/
  | invoke (asContract : Bool) (call : Call) (next : Except Nat (List Nat) → Program)

/-- What is outside the protocol: the hash functions, and every token's code. -/
structure Env where
  primitives : Primitives
  code : Principal → Ctx → TokenFunction → Program

/-- How calls are executed. -/
abbrev Executor : Type := Ctx → Call → Exec World (List Nat)

/-- The chain as token code sees it: the history is not part of it. -/
def World.visible (w : World) : World := { w with history := [] }

/-- Run the code of `self` in a context. -/
def runProgram (execute : Executor) (self : Principal) (ctx : Ctx) : Program → Exec World Nat
  | .reply (.ok value) => pure value
  | .reply (.error code) => fail code
  | .inspect next => do
      let w ← read
      runProgram execute self ctx (next w.visible)
  | .store write next => do
      modify fun w => { w with tokens := Function.update w.tokens self (write (w.tokens self)) }
      runProgram execute self ctx next
  | .invoke asContract call next => do
      let inner := if asContract then ctx.asContract self else ctx.calledBy self
      let response ← attempt (execute inner call)
      runProgram execute self ctx (next response)

/-- A contract call to a token.  The protocol's own contracts do not implement
the token trait. -/
def callToken (env : Env) (execute : Executor) : TokenCode := fun token ctx function =>
  if token.isProtocol then abort
  else within ctx (function.id token) fun inner =>
    runProgram execute token inner (env.code token inner function)

/-- The public functions of the protocol, and the two kinds of call outside it. -/
def dispatch (env : Env) (tokens : TokenCode) (ctx : Ctx) : Call → Exec World (List Nat)
  | .privacyRegistry call => do
      let index ← onRegistry (PrivacyRegistry.execute ctx call)
      pure index.toList
  | .noteManager call => do
      NoteManager.execute ctx call
      pure []
  | .zkVerifier call => do
      ZkVerifier.execute env.primitives ctx call
      pure []
  | .sip10ZkVerifier call => do
      Sip10ZkVerifier.execute env.primitives ctx call
      pure []
  | .protocolFees call => do
      ProtocolFees.execute ctx call
      pure []
  | .assetRegistry call => do
      let id ← AssetRegistry.execute tokens ctx call
      pure id.toList
  | .sip10ProtocolFees call => do
      Sip10ProtocolFees.execute tokens ctx call
      pure []
  | .privacyPool call => do
      let data ← PrivacyPool.execute env.primitives ctx call
      pure data.toList
  | .splitMergeManager call => SplitMergeManager.execute env.primitives ctx call
  | .sip10Pool call => Sip10Pool.execute env.primitives tokens ctx call
  | .stxTransfer amount sender recipient => do
      stxTransfer ctx amount sender recipient
      pure []
  | .token token function => do
      let value ← tokens token ctx function
      pure [value]

/-- Run a call inside the protocol function it enters, if it enters one. -/
def withinCall {α : Type} (ctx : Ctx) (call : Call) (body : Ctx → Exec World α) : Exec World α :=
  match call.function? with
  | some function => within ctx function body
  | none => body ctx

/-- Execute one call from outside the protocol, given how tokens are called. -/
def execCall (env : Env) (tokens : TokenCode) : Executor := fun ctx call => do
  let start ← read
  let data ← withinCall ctx call fun inner => dispatch env tokens inner call
  record (.called ctx call start.registry.protocolStatistics.totalCommitments)
  pure data

/-- Execute a call from outside the protocol, with calls nested at most `depth`
deep. -/
def exec (env : Env) : Nat → Executor
  | 0 => fun _ _ => abort
  | depth + 1 => execCall env (callToken env (exec env depth))

/-! ## Runs -/

/-- The state after a transaction: a failed one changes nothing. -/
def transact (env : Env) (depth : Nat) (ctx : Ctx) (call : Call) (w : World) : World :=
  match exec env depth ctx call w with
  | .ok (_, w') => w'
  | .error _ => w

/-- A successful execution leads to the state after the transaction. -/
theorem exec_eq_transact {env : Env} {depth : Nat} {ctx : Ctx} {call : Call} {w : World}
    (h : (exec env depth ctx call w).isOk) :
    ∃ data, exec env depth ctx call w = .ok (data, transact env depth ctx call w) := by
  unfold transact
  cases hrun : exec env depth ctx call w with
  | ok result => exact ⟨result.1, rfl⟩
  | error fault =>
      rw [hrun] at h
      cases h

/-- The state after transactions that each send one call in the same context. -/
def transactAll (env : Env) (depth : Nat) (ctx : Ctx) (calls : List Call) (w : World) : World :=
  calls.foldl (fun w call => transact env depth ctx call w) w

/-- The chain when the protocol has just been deployed. -/
def World.deployed (deployer : Principal) (stx : Principal → Nat)
    (tokens : Principal → TokenLedger) : World where
  registry := .deployed deployer
  noteManager := .deployed
  zkVerifier := .deployed
  protocolFees := .deployed
  privacyPool := .deployed
  splitMergeManager := .deployed
  assetRegistry := .deployed
  sip10ProtocolFees := .deployed
  sip10ZkVerifier := .deployed
  sip10Pool := .deployed
  stx := stx
  tokens := tokens
  history := []

/-- The states any sequence of transactions can lead to. -/
inductive Reachable (env : Env) : World → Prop where
  | deployed {deployer : Principal} (hdeployer : deployer.isProtocol = false)
      (stx : Principal → Nat) (tokens : Principal → TokenLedger) :
      Reachable env (World.deployed deployer stx tokens)
  | transact {w : World} (hreach : Reachable env w) {ctx : Ctx} (hctx : ctx.TopLevel)
      (depth : Nat) (call : Call) : Reachable env (transact env depth ctx call w)

theorem Reachable.transactAll {env : Env} {w : World} (h : Reachable env w) {ctx : Ctx}
    (hctx : ctx.TopLevel) (depth : Nat) (calls : List Call) :
    Reachable env (StxShield.transactAll env depth ctx calls w) := by
  induction calls generalizing w with
  | nil => exact h
  | cons call rest ih => exact ih (h.transact hctx depth call)

end StxShield
