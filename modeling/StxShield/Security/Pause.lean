import StxShield.Effects.Paused
import StxShield.Security.Solvency

/-!
# A pause is total

The activity check is repeated in every entry point of eight contracts, by hand
or through a nested call.  While the registry is not active no sequence of calls
registers, spends, verifies or collects anything, and no pool pays out.
-/

namespace StxShield

open Library Exec World

/-- A transaction between two states in which the protocol is not active. -/
structure PausedStep (env : Env) (w w' : World) : Prop where
  before : w.registry.protocolState ≠ .active
  transacts : Transacts env w w'
  after : w'.registry.protocolState ≠ .active

/-- One transaction sent while the protocol is not active. -/
theorem transact_held {env : Env} (hhonest : HonestTokens env) {w : World}
    (hpaused : w.registry.protocolState ≠ .active) {ctx : Ctx} (hctx : ctx.TopLevel) (depth : Nat)
    (call : Call) : Held w (transact env depth ctx call w) := by
  unfold transact
  split
  case h_2 => exact .refl w
  case h_1 data w' h =>
    cases depth with
    | zero =>
        simp only [exec, abort_ok] at h
    | succ depth =>
        obtain ⟨mid, hrun, rfl⟩ := execCall_ok.mp h
        obtain ⟨inner, hdispatch, hinner⟩ := withinCall_ok hrun
        have hpool : ¬ inner.txSender.isPool := fun hpool => by
          rw [hinner.txSender] at hpool
          have hprotocol := Principal.isProtocol_of_isPool hpool
          rw [hctx.sender] at hprotocol
          cases hprotocol
        have htokens : KeepLedgers (callToken env (exec env depth)) :=
          fun _ _ _ _ _ _ hcall => hhonest.call hcall
        exact (dispatch_held hpaused htokens hpool hdispatch).trans (held_of_standing rfl rfl rfl)

/-- In every run of transactions between which the protocol is never active, with
honest tokens, the commitments and nullifiers, all statistics of the registry,
the roots, the notes that are registered, spent and withdrawn, the verified
proofs and their counts, the collected fees and the shielded totals stand still,
and no pool loses STX or tokens. -/
theorem pause_is_total {env : Env} (hhonest : HonestTokens env) {w w' : World}
    (hrun : Relation.ReflTransGen (PausedStep env) w w') : Held w w' := by
  induction hrun with
  | refl => exact .refl w
  | tail _ hstep ih =>
      obtain ⟨ctx, hctx, depth, call, rfl⟩ := hstep.transacts
      exact ih.trans (transact_held hhonest hstep.before hctx depth call)

namespace Sample

/-- A token that moves what it is asked to move, or refuses. -/
def honestCode (self : Principal) (ctx : Ctx) : TokenFunction → Program
  | .transfer amount sender recipient =>
      .inspect fun w =>
        if sender = ctx.txSender ∧ sender ≠ recipient ∧
            amount ≤ (w.tokens self).balances sender then
          .store (fun ledger =>
              { ledger with balances := moved ledger.balances amount sender recipient })
            (.reply (.ok 1))
        else .reply (.error 1)
  | .getBalance who => .inspect fun w => .reply (.ok ((w.tokens self).balances who))
  | .getDecimals => .reply (.ok 6)
  | .other _ => .reply (.ok 0)

def honestEnv : Env where
  primitives := primitives
  code := honestCode

end Sample

/-- A successful transfer of the sample token. -/
theorem Sample.honestCode_transfer {execute : Executor} {token : Principal} {ctx : Ctx}
    {amount value : Nat} {sender recipient : Principal} {w w' : World}
    (h : runProgram execute token ctx (honestCode token ctx (.transfer amount sender recipient)) w =
      .ok (value, w')) :
    sender = ctx.txSender ∧ sender ≠ recipient ∧ amount ≤ (w.tokens token).balances sender ∧
      w' =
        { w with
          tokens := Function.update w.tokens token
            { w.tokens token with
              balances := moved (w.tokens token).balances amount sender recipient } } := by
  simp only [honestCode, runProgram, ↓bind_ok, ↓exists_read] at h
  split at h
  case isTrue hguard =>
    simp only [runProgram, ↓bind_ok, ↓exists_modify, pure_ok] at h
    exact ⟨hguard.1, hguard.2.1, hguard.2.2, h.2.symm⟩
  case isFalse => simp only [runProgram, fail_ok] at h

theorem Sample.honestTokens : HonestTokens honestEnv := fun token _ => by
  have hsame (w : World) :
      w = { w with tokens := Function.update w.tokens token (w.tokens token) } := by
    rw [Function.update_eq_self]
  refine ⟨fun execute ctx function w value w' h => ?_,
    fun execute ctx amount sender recipient w value w' h => ?_,
    fun execute ctx who w value w' h => ?_, fun execute ctx w value w' h => ?_⟩
  · cases function with
    | transfer amount sender recipient =>
        obtain ⟨rfl, -, -, rfl⟩ := honestCode_transfer h
        refine ⟨_, rfl, fun who hwho => ?_⟩
        simp only [moved, if_neg hwho]
        split <;> omega
    | getBalance who =>
        simp only [honestEnv, honestCode, runProgram, ↓bind_ok, ↓exists_read, pure_ok] at h
        obtain ⟨-, rfl⟩ := h
        exact ⟨_, hsame w, fun _ _ => Nat.le_refl _⟩
    | getDecimals =>
        simp only [honestEnv, honestCode, runProgram, pure_ok] at h
        obtain ⟨-, rfl⟩ := h
        exact ⟨_, hsame w, fun _ _ => Nat.le_refl _⟩
    | other selector =>
        simp only [honestEnv, honestCode, runProgram, pure_ok] at h
        obtain ⟨-, rfl⟩ := h
        exact ⟨_, hsame w, fun _ _ => Nat.le_refl _⟩
  · obtain ⟨hsender, hne, hle, rfl⟩ := honestCode_transfer h
    refine ⟨hsender, hle, fun who => ?_⟩
    simp only [Function.update_self, moved]
    rcases eq_or_ne who sender with rfl | hwho
    · simp [hne, Nat.sub_add_cancel hle]
    · rcases eq_or_ne who recipient with rfl | hto
      · simp [hwho]
      · simp [hwho, hto]
  · simp only [honestEnv, honestCode, runProgram, ↓bind_ok, ↓exists_read, pure_ok] at h
    obtain ⟨hvalue, rfl⟩ := h
    exact ⟨hvalue.symm, rfl⟩
  · simp only [honestEnv, honestCode, runProgram, pure_ok] at h
    obtain ⟨-, rfl⟩ := h
    rfl

namespace Sample

/-- The owner has paused the protocol. -/
def paused : World := transact honestEnv 1 (sentBy owner) (.privacyRegistry .pauseProtocol) start

/-- Somebody sends STX to the pool all the same. -/
def donated : World := transact honestEnv 1 (sentBy alice) (.stxTransfer 5 alice .privacyPool) paused

end Sample

/-- STX sent to the pool while the protocol is paused arrive, and are not counted
as shielded. -/
theorem pause_is_total_donated :
    Sample.paused.registry.protocolState = .paused ∧
      Sample.paused.stx .privacyPool + 5 = Sample.donated.stx .privacyPool ∧
      Held Sample.paused Sample.donated :=
  ⟨by decide +kernel, by decide +kernel,
    pause_is_total Sample.honestTokens (.single
      { before := by decide +kernel
        transacts := ⟨_, Sample.alice_topLevel, 1, .stxTransfer 5 Sample.alice .privacyPool, rfl⟩
        after := by decide +kernel })⟩

end StxShield
