import StxShield.Chain.Execution

/-!
# Honest tokens

An honest SIP-010 ledger moves the amount it is asked to move, if the sender is
the transaction sender and has it, and otherwise keeps to itself.  Nothing is
assumed of how it does so, nor when it refuses.
-/

namespace StxShield

open Library Exec World

/-- The code of a token, whatever it is called by and in whatever state. -/
structure HonestToken (env : Env) (token : Principal) : Prop where
  /-- It changes its own ledger only, and takes from the transaction sender only. -/
  ownLedger : ∀ (execute : Executor) ctx function w value w',
    runProgram execute token ctx (env.code token ctx function) w = .ok (value, w') →
    ∃ ledger : TokenLedger, w' = { w with tokens := Function.update w.tokens token ledger } ∧
      ∀ who, who ≠ ctx.txSender → (w.tokens token).balances who ≤ ledger.balances who
  transfer : ∀ (execute : Executor) ctx amount sender recipient w value w',
    runProgram execute token ctx (env.code token ctx (.transfer amount sender recipient)) w =
      .ok (value, w') →
    sender = ctx.txSender ∧ amount ≤ (w.tokens token).balances sender ∧
      ∀ who, (w'.tokens token).balances who + (if who = sender then amount else 0) =
        (w.tokens token).balances who + (if who = recipient then amount else 0)
  getBalance : ∀ (execute : Executor) ctx who w value w',
    runProgram execute token ctx (env.code token ctx (.getBalance who)) w = .ok (value, w') →
    value = (w.tokens token).balances who ∧
      (w'.tokens token).balances = (w.tokens token).balances
  getDecimals : ∀ (execute : Executor) ctx w value w',
    runProgram execute token ctx (env.code token ctx .getDecimals) w = .ok (value, w') →
    (w'.tokens token).balances = (w.tokens token).balances

/-- Every token contract is honest. -/
def HonestTokens (env : Env) : Prop := ∀ token, token.isProtocol = false → HonestToken env token

variable {env : Env} {execute : Executor} {token : Principal} {ctx : Ctx} {w w' : World}
  {value : Nat}

/-- The token called is a contract outside the protocol, and its code ran in the
caller's context but for the stack. -/
theorem callToken_ok {function : TokenFunction}
    (h : callToken env execute token ctx function w = .ok (value, w')) :
    token.isProtocol = false ∧
      runProgram execute token (ctx.entering (function.id token))
        (env.code token (ctx.entering (function.id token)) function) w = .ok (value, w') := by
  unfold callToken at h
  simp only [ite_ok, abort_ok, and_false, within_ok, false_or] at h
  exact ⟨by simpa using h.1, h.2.2⟩

/-- Calling a token changes at most its ledger, and only the transaction sender
has less afterwards. -/
structure LedgerCall (token txSender : Principal) (w w' : World) : Prop where
  world : ∃ ledger, w' = { w with tokens := Function.update w.tokens token ledger }
  balances : ∀ who, who ≠ txSender →
    (w.tokens token).balances who ≤ (w'.tokens token).balances who

namespace HonestToken

theorem call (hhonest : HonestToken env token) {function : TokenFunction}
    (h : callToken env execute token ctx function w = .ok (value, w')) :
    LedgerCall token ctx.txSender w w' := by
  obtain ⟨-, hrun⟩ := callToken_ok h
  obtain ⟨ledger, rfl, hbalances⟩ := hhonest.ownLedger _ _ _ _ _ _ hrun
  refine ⟨⟨ledger, rfl⟩, fun who hwho => ?_⟩
  simpa only [Function.update_self] using hbalances who hwho

theorem transferred (hhonest : HonestToken env token) {amount : Nat} {sender recipient : Principal}
    (h : callToken env execute token ctx (.transfer amount sender recipient) w = .ok (value, w')) :
    sender = ctx.txSender ∧ amount ≤ (w.tokens token).balances sender ∧
      ∀ who, (w'.tokens token).balances who + (if who = sender then amount else 0) =
        (w.tokens token).balances who + (if who = recipient then amount else 0) := by
  obtain ⟨-, hrun⟩ := callToken_ok h
  have hmoved := hhonest.transfer _ _ _ _ _ _ _ _ hrun
  exact hmoved

theorem reported (hhonest : HonestToken env token) {who : Principal}
    (h : callToken env execute token ctx (.getBalance who) w = .ok (value, w')) :
    value = (w.tokens token).balances who ∧
      (w'.tokens token).balances = (w.tokens token).balances := by
  obtain ⟨-, hrun⟩ := callToken_ok h
  exact hhonest.getBalance _ _ _ _ _ _ hrun

theorem described (hhonest : HonestToken env token)
    (h : callToken env execute token ctx .getDecimals w = .ok (value, w')) :
    (w'.tokens token).balances = (w.tokens token).balances := by
  obtain ⟨-, hrun⟩ := callToken_ok h
  exact hhonest.getDecimals _ _ _ _ _ hrun

end HonestToken

namespace HonestTokens

variable (hhonest : HonestTokens env)
include hhonest

theorem call {function : TokenFunction}
    (h : callToken env execute token ctx function w = .ok (value, w')) :
    LedgerCall token ctx.txSender w w' :=
  (hhonest token (callToken_ok h).1).call h

theorem transfer {amount : Nat} {sender recipient : Principal}
    (h : callToken env execute token ctx (.transfer amount sender recipient) w = .ok (value, w')) :
    sender = ctx.txSender ∧ amount ≤ (w.tokens token).balances sender ∧
      ∀ who, (w'.tokens token).balances who + (if who = sender then amount else 0) =
        (w.tokens token).balances who + (if who = recipient then amount else 0) :=
  (hhonest token (callToken_ok h).1).transferred h

theorem getBalance {who : Principal}
    (h : callToken env execute token ctx (.getBalance who) w = .ok (value, w')) :
    value = (w.tokens token).balances who ∧
      (w'.tokens token).balances = (w.tokens token).balances :=
  (hhonest token (callToken_ok h).1).reported h

theorem getDecimals (h : callToken env execute token ctx .getDecimals w = .ok (value, w')) :
    (w'.tokens token).balances = (w.tokens token).balances :=
  (hhonest token (callToken_ok h).1).described h

end HonestTokens

namespace LedgerCall

variable {txSender : Principal}

/-- Nothing else changed. -/
theorem eq_of_tokens (h : LedgerCall token txSender w w') : w' = { w with tokens := w'.tokens } := by
  obtain ⟨ledger, rfl⟩ := h.world
  rfl

/-- Other tokens' ledgers are as before. -/
theorem other (h : LedgerCall token txSender w w') {other : Principal} (hne : other ≠ token) :
    w'.tokens other = w.tokens other := by
  obtain ⟨ledger, rfl⟩ := h.world
  exact Function.update_of_ne hne _ _

/-- Whoever did not send the transaction has not less of any token. -/
theorem balances_le (h : LedgerCall token txSender w w') (other : Principal) {who : Principal}
    (hwho : who ≠ txSender) : (w.tokens other).balances who ≤ (w'.tokens other).balances who := by
  by_cases heq : other = token
  · subst heq
    exact h.balances who hwho
  · rw [h.other heq]

end LedgerCall

end StxShield
