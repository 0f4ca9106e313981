import StxShield.Chain.Execution
import StxShield.Effects.Sip10Operations

/-!
# What token code can do

Token code reaches the chain through its own ledger and through calls.  A
relation that every call respects is therefore respected by all token code, and
by induction on the nesting depth a relation that one call respects, given that
the token code below it does, is respected by every execution.
-/

namespace StxShield

open Library Exec World

variable {env : Env} {rel : World → World → Prop} {admits : Ctx → Prop}

/-- A relation that rewriting a token's ledger stays within. -/
structure Closed (rel : World → World → Prop) : Prop where
  refl : ∀ w, rel w w
  trans : ∀ {u v w}, rel u v → rel v w → rel u w
  store : ∀ (w : World) (self : Principal) (ledger : TokenLedger), self.isProtocol = false →
    rel w { w with tokens := Function.update w.tokens self ledger }

/-- Every call from outside the protocol respects a relation. -/
def CallsRespect (admits : Ctx → Prop) (rel : World → World → Prop) (execute : Executor) : Prop :=
  ∀ ctx call, admits ctx → ctx.contractCaller.isProtocol = false → Respects rel (execute ctx call)

theorem ne_of_isProtocol {self contract : Principal} (hself : self.isProtocol = false)
    (hcontract : contract.isProtocol = true) : self ≠ contract := by
  rintro rfl
  rw [hself] at hcontract
  cases hcontract

/-- Rewriting one token's ledger stays within a relation. -/
def StoresWithin (rel : World → World → Prop) (self : Principal) : Prop :=
  ∀ (w : World) (ledger : TokenLedger),
    rel w { w with tokens := Function.update w.tokens self ledger }

/-- By induction on the program: it does nothing but store and call. -/
theorem runProgram_respects (hrel : Composes rel) (hadmits : Delegable admits)
    {execute : Executor} (hcalls : CallsRespect admits rel execute) {self : Principal}
    (hself : self.isProtocol = false) (hstore : StoresWithin rel self) {ctx : Ctx}
    (hctx : admits ctx) (program : Program) :
    Respects rel (runProgram execute self ctx program) := by
  induction program with
  | reply response =>
      intro w value w' h
      cases response with
      | ok v =>
          obtain ⟨-, rfl⟩ := pure_ok.mp h
          exact hrel.refl w
      | error code => exact (fail_ok.mp h).elim
  | inspect next ih =>
      intro w value w' h
      simp only [runProgram, ↓bind_ok, ↓exists_read] at h
      exact ih _ w value w' h
  | store write next ih =>
      intro w value w' h
      simp only [runProgram, ↓bind_ok, ↓exists_modify] at h
      exact hrel.trans (hstore w _) (ih _ value w' h)
  | invoke asContract call next ih =>
      intro w value w' h
      simp only [runProgram, bind_ok] at h
      obtain ⟨response, mid, hattempt, hrest⟩ := h
      have hinner : admits (if asContract then ctx.asContract self else ctx.calledBy self) := by
        split
        · exact hadmits.asContract (ne_of_isProtocol hself rfl) (ne_of_isProtocol hself rfl) hctx
        · exact hadmits.calledBy self hctx
      have hcaller :
          (if asContract then ctx.asContract self else ctx.calledBy self).contractCaller.isProtocol
            = false := by
        split <;> exact hself
      exact hrel.trans
        (respects_attempt hrel.refl (hcalls _ call hinner hcaller) w response mid hattempt)
        (ih response mid value w' hrest)

/-- Calling a token runs its code in a context that is still admitted. -/
theorem callToken_respects_of_store (hrel : Composes rel) (hadmits : Delegable admits)
    {execute : Executor} (hcalls : CallsRespect admits rel execute) {token : Principal}
    (hstore : token.isProtocol = false → StoresWithin rel token) :
    TokenRespects admits rel (callToken env execute token) := by
  intro ctx function hctx w value w' h
  unfold callToken at h
  simp only [ite_ok, within_ok] at h
  rcases h with ⟨-, h⟩ | ⟨hprotocol, -, h⟩
  · exact (abort_ok.mp h).elim
  · have hself : token.isProtocol = false := by simpa using hprotocol
    exact runProgram_respects hrel hadmits hcalls hself (hstore hself) (hadmits.entering _ hctx) _
      w value w' h

/-- All tokens' code respects a relation that rewriting any ledger stays within. -/
theorem callToken_respects (hclosed : Closed rel) (hadmits : Delegable admits)
    {execute : Executor} (hcalls : CallsRespect admits rel execute) :
    TokensRespect admits rel (callToken env execute) := fun token =>
  callToken_respects_of_store ⟨hclosed.refl, hclosed.trans⟩ hadmits hcalls
    fun hself w ledger => hclosed.store w token ledger hself

/-- The induction over the nesting depth. -/
theorem exec_respects (hclosed : Closed rel) (hadmits : Delegable admits)
    (hcall : ∀ depth, TokensRespect admits rel (callToken env (exec env depth)) →
      CallsRespect admits rel (execCall env (callToken env (exec env depth)))) (depth : Nat) :
    CallsRespect admits rel (exec env depth) := by
  induction depth with
  | zero =>
      intro ctx call _ _ w data w' h
      simp only [exec, abort_ok] at h
  | succ depth ih => exact hcall depth (callToken_respects hclosed hadmits ih)

/-- A successful call: what it did, and the record of it. -/
theorem execCall_ok {tokens : TokenCode} {ctx : Ctx} {call : Call} {w w' : World}
    {data : List Nat} :
    execCall env tokens ctx call w = .ok (data, w') ↔
      ∃ mid, withinCall ctx call (fun inner => dispatch env tokens inner call) w = .ok (data, mid) ∧
        { mid with
          history := .called ctx call w.registry.protocolStatistics.totalCommitments ::
            mid.history } = w' := by
  unfold execCall
  simp only [↓bind_ok, ↓exists_read, record_ok, pure_ok]
  constructor
  · rintro ⟨_, mid, hrun, _, _, rfl, rfl, rfl⟩
    exact ⟨mid, hrun, rfl⟩
  · rintro ⟨mid, hrun, rfl⟩
    exact ⟨data, mid, hrun, (), _, rfl, rfl, rfl⟩

/-- A call runs in its own context, perhaps with its function on the stack. -/
def RunsIn (ctx : Ctx) (call : Call) (inner : Ctx) : Prop :=
  inner = ctx ∧ call.function? = none ∨
    ∃ function, call.function? = some function ∧ function ∉ ctx.stack ∧
      inner = ctx.entering function

namespace RunsIn

variable {ctx inner : Ctx} {call : Call} (h : RunsIn ctx call inner)
include h

theorem admitted (hentering : ∀ {ctx : Ctx} (function : FunctionId), admits ctx →
    admits (ctx.entering function)) (hctx : admits ctx) : admits inner := by
  rcases h with ⟨rfl, -⟩ | ⟨function, -, -, rfl⟩
  · exact hctx
  · exact hentering function hctx

theorem txSender : inner.txSender = ctx.txSender := by
  rcases h with ⟨rfl, -⟩ | ⟨function, -, -, rfl⟩ <;> rfl

theorem contractCaller : inner.contractCaller = ctx.contractCaller := by
  rcases h with ⟨rfl, -⟩ | ⟨function, -, -, rfl⟩ <;> rfl

/-- A call that enters a function has entered it. -/
theorem entered {function : FunctionId} (hfunction : call.function? = some function) :
    function ∉ ctx.stack ∧ inner = ctx.entering function := by
  rcases h with ⟨-, hnone⟩ | ⟨other, hother, hfree, hinner⟩
  · cases hnone.symm.trans hfunction
  · obtain rfl := Option.some.inj (hother.symm.trans hfunction)
    exact ⟨hfree, hinner⟩

end RunsIn

theorem withinCall_ok {α : Type} {ctx : Ctx} {call : Call} {body : Ctx → Exec World α}
    {w w' : World} {a : α} (h : withinCall ctx call body w = .ok (a, w')) :
    ∃ inner : Ctx, body inner w = .ok (a, w') ∧ RunsIn ctx call inner := by
  cases hfunction : call.function? with
  | some function =>
      simp only [withinCall, hfunction, within_ok] at h
      exact ⟨_, h.2, .inr ⟨function, hfunction, h.1, rfl⟩⟩
  | none =>
      simp only [withinCall, hfunction] at h
      exact ⟨ctx, h, .inl ⟨rfl, hfunction⟩⟩

end StxShield
