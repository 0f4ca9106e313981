import StxShield.Effects.Writes
import StxShield.Protocol.Bookkeeping

/-!
# What every run keeps

A relation that each write stays within, and the registration of an asset, is
one that no run leaves, whatever the token code in the middle of it does.
-/

namespace StxShield

open Library Exec World

/-- A relation that nothing the system does leaves. -/
structure KeptByRuns (rel : World → World → Prop) : Prop extends Closed rel where
  writes : ∀ {call w w'}, Writes call w w' → rel w w'
  registers : ∀ {args w w'}, RegistersAsset args w w' → rel w w'
  called : ∀ (w : World) (event : Event), rel w { w with history := event :: w.history }

namespace KeptByRuns

variable {rel : World → World → Prop} {env : Env} {w w' : World} (hrel : KeptByRuns rel)
include hrel

theorem covers (call : Call) : Covers call rel where
  refl := hrel.refl
  trans := hrel.trans
  writes := hrel.writes

theorem callWrites {ctx : Ctx} {call : Call} (h : CallWrites rel ctx call w w') : rel w w' := by
  cases h with
  | covered hmid => exact hrel.trans hmid (hrel.called _ _)
  | registerAsset _ hmid hregisters =>
      exact hrel.trans (hrel.trans hmid (hrel.registers hregisters)) (hrel.called _ _)

theorem exec (env : Env) (depth : Nat) : CallsRespect StxSafe rel (exec env depth) := by
  refine exec_respects hrel.toClosed stxSafe_delegable ?_ depth
  intro depth htokens ctx call hctx _ w data w' h
  exact hrel.callWrites (execCall_writes (hrel.covers call) htokens hctx h)

theorem continues (h : Continues env w w') : rel w w' := by
  induction h with
  | refl => exact hrel.refl w
  | tail _ hstep ih =>
      obtain ⟨ctx, hctx, depth, call, rfl⟩ := hstep
      exact hrel.trans ih (transact_respects Ctx.TopLevel.stxSafe hrel.refl (hrel.exec env depth) hctx call _)

end KeptByRuns

end StxShield
