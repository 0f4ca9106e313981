import StxShield.Assets.Conservation

/-!
# Assets kept from another's token

The pool and the fee contract pay out as themselves, so on that path a token's code
has their authority over every other token.  Whatever the code does, it can take of
another, honest token only by a call that names that token: a call of the token itself
as one of the two, or an operation that pays that token out.
-/

namespace StxShield

open Library Exec World PrivacyRegistry

/-! ## What can take a token -/

/-- The two contracts that hold the tokens. -/
abbrev Custodian (who : Principal) : Prop := who = .sip10Pool ∨ who = .sip10ProtocolFees

/-- A call that may leave a custodian with less of the token: one that pays it out, or
one that moves it as a custodian. -/
def Call.debits (token : Principal) (ctx : Ctx) : Call → Bool
  | .sip10Pool (.withdraw called _ _) | .sip10ProtocolFees (.withdrawFees _ _ called) =>
      called = token
  | .sip10Pool (.shield called _ _) | .sip10Pool (.transfer called _ _)
  | .sip10Pool (.split called _ _) | .sip10Pool (.mergeNotes called _ _)
  | .sip10ProtocolFees (.collectFee _ _ _ called)
  | .token called (.transfer _ _ _) | .token called (.other _) =>
      called = token ∧ Custodian ctx.txSender
  | _ => false

/-- It depends on the transaction sender only. -/
theorem Call.debits_of_sender {token : Principal} {ctx ctx' : Ctx} {call : Call}
    (h : ctx.txSender = ctx'.txSender) : call.debits token ctx = call.debits token ctx' := by
  simp only [debits, h]

/-- The call names the token. -/
theorem Call.token?_of_debits {token : Principal} {ctx : Ctx} {call : Call}
    (h : call.debits token ctx = true) : call.token? = some token := by
  unfold debits at h
  split at h
  all_goals first
    | cases h
    | obtain rfl := of_decide_eq_true h
      rfl
    | obtain ⟨rfl, -⟩ := of_decide_eq_true h
      rfl

def Event.debits (token : Principal) : Event → Bool
  | .called ctx call _ => call.debits token ctx
  | _ => false

/-- What was recorded since an earlier state. -/
def World.since (later earlier : World) : List Event :=
  later.history.take (later.history.length - earlier.history.length)

/-- The custodians have not less of the token. -/
def Kept (token : Principal) (w w' : World) : Prop :=
  ∀ who, Custodian who → (w.tokens token).balances who ≤ (w'.tokens token).balances who

/-- What was recorded from one state to the next explains what is missing. -/
def Accounts (token : Principal) (w w' : World) : Prop :=
  ∃ events, w'.history = events ++ w.history ∧
    ((∀ event ∈ events, event.debits token = false) → Kept token w w')

variable {env : Env} {execute : Executor} {ctx : Ctx} {w w' : World} {token : Principal}
  {call : Call}

theorem since_of_append {events : List Event} (h : w'.history = events ++ w.history) :
    w'.since w = events := by
  rw [World.since, h, List.length_append, Nat.add_sub_cancel, List.take_left']
  rfl

theorem Kept.of_eq (h : w'.tokens token = w.tokens token) : Kept token w w' := fun _ _ => by
  rw [h]

/-- Nothing is recorded, or events that take nothing. -/
theorem accounts_of_eq {events : List Event} (hhistory : w'.history = events ++ w.history)
    (h : w'.tokens token = w.tokens token) : Accounts token w w' :=
  ⟨events, hhistory, fun _ => .of_eq h⟩

theorem accounts_composes (token : Principal) : Composes (Accounts token) where
  refl _ := accounts_of_eq (List.nil_append _).symm rfl
  trans huv hvw := by
    obtain ⟨first, hfirst, hkept⟩ := huv
    obtain ⟨second, hsecond, hkept'⟩ := hvw
    refine ⟨second ++ first, by rw [hsecond, hfirst, List.append_assoc], fun hnone who hwho => ?_⟩
    have hbefore := hkept fun event hevent => hnone event (List.mem_append_right _ hevent)
    have hafter := hkept' fun event hevent => hnone event (List.mem_append_left _ hevent)
    exact (hbefore who hwho).trans (hafter who hwho)

/-- The contracts' own storage is not a token's. -/
theorem accounts_covers (token : Principal) (call : Call) : Covers call (Accounts token) where
  toComposes := accounts_composes token
  writes h := by
    cases h with
    | noteManager hrun =>
        obtain ⟨registry, manager, rfl, -⟩ := NoteManager.execute_frame hrun
        exact accounts_of_eq (List.nil_append _).symm rfl
    | verified => exact accounts_of_eq (List.singleton_append).symm rfl
    | completed => exact accounts_of_eq (List.singleton_append).symm rfl
    | _ => exact accounts_of_eq (List.nil_append _).symm rfl

/-! ## Other tokens -/

/-- Code of another token accounts for what is missing if the calls it makes do. -/
theorem callToken_accounts (hcalls : CallsRespect StxSafe (Accounts token) execute)
    {called : Principal} (hne : called ≠ token) :
    TokenRespects StxSafe (Accounts token) (callToken env execute called) :=
  callToken_respects_of_store (accounts_composes token) stxSafe_delegable hcalls
    fun _ _ _ => accounts_of_eq (List.nil_append _).symm (Function.update_of_ne hne.symm _ _)

/-- A call only ever calls the token that it names. -/
theorem dispatch_named {tokens : TokenCode} {called : Principal}
    (h : call.token? = some called) :
    dispatch env (fun _ => tokens called) ctx call = dispatch env tokens ctx call := by
  unfold Call.token? at h
  split at h <;> cases h <;> rfl

/-- Without one it does not matter what tokens do. -/
theorem dispatch_unnamed {tokens tokens' : TokenCode} (h : call.token? = none) :
    dispatch env tokens ctx call = dispatch env tokens' ctx call := by
  cases call with
  | sip10Pool poolCall =>
      cases poolCall with
      | setOperationEnabled op enabled => rfl
      | _ => cases h
  | sip10ProtocolFees feeCall =>
      cases feeCall with
      | collectFee assetId feeType amount called => cases h
      | withdrawFees assetId amount called => cases h
      | _ => rfl
  | assetRegistry assetCall =>
      cases assetCall with
      | registerAsset args => cases h
      | _ => rfl
  | token called function => cases h
  | _ => rfl

/-- A call that names another token, or none, accounts for what is missing. -/
theorem dispatch_accounts (hcalls : CallsRespect StxSafe (Accounts token) execute)
    (hctx : StxSafe ctx) (hne : call.token? ≠ some token)
    (hregister : ∀ args, call ≠ .assetRegistry (.registerAsset args)) :
    Respects (Accounts token) (dispatch env (callToken env execute) ctx call) := by
  have hcovers := accounts_covers token call
  cases hcalled : call.token? with
  | some called =>
      have hother : called ≠ token := fun heq => hne (heq ▸ hcalled)
      have hwalks : Walks call (Accounts token) StxSafe fun _ => callToken env execute called :=
        hcovers.walks stxSafe_delegable fun _ => callToken_accounts hcalls hother
      rw [← dispatch_named hcalled]
      exact dispatch_covered hwalks hctx hctx.fees hregister
  | none =>
      have hwalks : Walks call (Accounts token) StxSafe fun _ _ _ => abort :=
        hcovers.walks stxSafe_delegable fun _ _ _ _ _ _ _ h => (abort_ok.mp h).elim
      have hsame : dispatch env (callToken env execute) ctx call =
          dispatch env (fun _ _ _ => abort) ctx call := dispatch_unnamed hcalled
      rw [hsame]
      exact dispatch_covered hwalks hctx hctx.fees hregister

/-! ## The token itself -/

theorem Moves.kept {id : Nat} {payer : Principal} {gain : ℤ} (h : Moves id token payer gain w w')
    (hpayer : ¬ Custodian payer) : Kept token w w' := fun who hwho =>
  h.spared who fun heq => hpayer (heq ▸ hwho)

theorem LedgerCall.kept {txSender : Principal} (h : LedgerCall token txSender w w')
    (hsender : ¬ Custodian txSender) : Kept token w w' := fun who hwho =>
  h.balances who fun heq => hsender (heq ▸ hwho)

theorem Kept.of_balances (h : (w'.tokens token).balances = (w.tokens token).balances) :
    Kept token w w' := fun who _ => (congrFun h who).ge

section Honest

variable (hhonest : HonestToken env token) {data : List Nat}
include hhonest

/-- Neither of the two is the transaction sender of an operation that may debit it. -/
theorem Sip10Pool.execute_kept {P : Primitives} {poolCall : Sip10Pool.Call}
    (hnamed : Call.token? (.sip10Pool poolCall) = some token)
    (hdebits : Call.debits token ctx (.sip10Pool poolCall) = false)
    (h : Sip10Pool.execute P (callToken env execute) ctx poolCall w = .ok (data, w')) :
    Kept token w w' := by
  cases poolCall with
  | setOperationEnabled op enabled => cases hnamed
  | withdraw called args inclusion =>
      obtain rfl := Option.some.inj hnamed
      simp [Call.debits] at hdebits
  | shield called args inclusion =>
      obtain rfl := Option.some.inj hnamed
      have hsender : ¬ Custodian ctx.txSender := by simpa [Call.debits] using hdebits
      simp only [Sip10Pool.execute, bind_ok, pure_ok] at h
      obtain ⟨_, _, hrun, -, rfl⟩ := h
      obtain ⟨id, -, hmoves⟩ := shield_moves (fun _ _ => hhonest) (fun heq => hsender (.inl heq)) hrun
      exact hmoves.kept hsender
  | transfer called args inclusion =>
      obtain rfl := Option.some.inj hnamed
      have hsender : ¬ Custodian ctx.txSender := by simpa [Call.debits] using hdebits
      simp only [Sip10Pool.execute, bind_ok, pure_ok] at h
      obtain ⟨_, _, hrun, -, rfl⟩ := h
      obtain ⟨id, -, hmoves⟩ :=
        transfer_moves (fun _ _ => hhonest) (fun heq => hsender (.inl heq)) hrun
      exact hmoves.kept hsender
  | split called args inclusion =>
      obtain rfl := Option.some.inj hnamed
      have hsender : ¬ Custodian ctx.txSender := by simpa [Call.debits] using hdebits
      simp only [Sip10Pool.execute, bind_ok, pure_ok] at h
      obtain ⟨_, _, hrun, -, rfl⟩ := h
      obtain ⟨id, -, hmoves⟩ := split_moves (fun _ _ => hhonest) (fun heq => hsender (.inl heq)) hrun
      exact hmoves.kept hsender
  | mergeNotes called args inclusion =>
      obtain rfl := Option.some.inj hnamed
      have hsender : ¬ Custodian ctx.txSender := by simpa [Call.debits] using hdebits
      simp only [Sip10Pool.execute, bind_ok, pure_ok] at h
      obtain ⟨_, _, hrun, -, rfl⟩ := h
      obtain ⟨id, -, hmoves⟩ :=
        mergeNotes_moves (fun _ _ => hhonest) (fun heq => hsender (.inl heq)) hrun
      exact hmoves.kept hsender

/-- A call that names the token and debits no custodian. -/
theorem dispatch_kept (hnamed : call.token? = some token)
    (hdebits : call.debits token ctx = false)
    (h : dispatch env (callToken env execute) ctx call w = .ok (data, w')) : Kept token w w' := by
  cases call with
  | sip10Pool poolCall => exact Sip10Pool.execute_kept hhonest hnamed hdebits h
  | sip10ProtocolFees feeCall =>
      simp only [dispatch, Sip10ProtocolFees.execute, ↓bind_ok, ↓exists_read, pure_ok] at h
      cases feeCall with
      | collectFee assetId feeType amount called =>
          obtain rfl := Option.some.inj hnamed
          have hsender : ¬ Custodian ctx.txSender := by simpa [Call.debits] using hdebits
          simp only [bind_ok, pure_ok] at h
          obtain ⟨_, _, ⟨_, _, hrun, -, rfl⟩, -, rfl⟩ := h
          exact (Sip10ProtocolFees.collectFee_moves hhonest hrun).kept hsender
      | withdrawFees assetId amount called =>
          obtain rfl := Option.some.inj hnamed
          simp [Call.debits] at hdebits
      | _ => cases hnamed
  | assetRegistry assetCall =>
      cases assetCall with
      | registerAsset args =>
          obtain rfl := Option.some.inj hnamed
          simp only [dispatch, AssetRegistry.execute, bind_ok, pure_ok] at h
          obtain ⟨_, _, ⟨_, _, hrun, -, rfl⟩, -, rfl⟩ := h
          have hmoves : Moves _ args.token .burnAddress 0 w _ :=
            AssetRegistry.registerAsset_moves hhonest hrun
          exact hmoves.kept (by decide)
      | _ => cases hnamed
  | token called function =>
      obtain rfl := Option.some.inj hnamed
      simp only [dispatch, bind_ok, pure_ok] at h
      obtain ⟨_, _, hrun, -, rfl⟩ := h
      cases function with
      | getBalance who => exact .of_balances (hhonest.reported hrun).2
      | getDecimals => exact .of_balances (hhonest.described hrun)
      | transfer amount sender recipient =>
          have hsender : ¬ Custodian ctx.txSender := by simpa [Call.debits] using hdebits
          exact (hhonest.call hrun).kept hsender
      | other selector =>
          have hsender : ¬ Custodian ctx.txSender := by simpa [Call.debits] using hdebits
          exact (hhonest.call hrun).kept hsender
  | _ => cases hnamed

end Honest

/-! ## Executions -/

theorem grows_kept : KeptByRuns fun w w' => w.history <:+ w'.history where
  refl _ := List.suffix_rfl
  trans := List.IsSuffix.trans
  store _ _ _ _ := List.suffix_rfl
  writes h := by
    cases h with
    | noteManager hrun =>
        obtain ⟨registry, manager, rfl, -⟩ := NoteManager.execute_frame hrun
        exact List.suffix_rfl
    | verified => exact List.suffix_cons _ _
    | completed => exact List.suffix_cons _ _
    | _ => exact List.suffix_rfl
  registers h := by rw [h.written]
  called _ _ := List.suffix_cons _ _

/-- A successful call is among what was recorded. -/
theorem CallWrites.recorded (h : CallWrites (fun w w' => w.history <:+ w'.history) ctx call w w') :
    ∃ events registered, w'.history = .called ctx call registered :: events ++ w.history := by
  cases h with
  | covered hgrows =>
      obtain ⟨events, hevents⟩ := hgrows
      exact ⟨events, _, congrArg (_ :: ·) hevents.symm⟩
  | registerAsset _ hgrows hregisters =>
      obtain ⟨events, hevents⟩ := hgrows
      rw [hregisters.written]
      exact ⟨events, _, congrArg (_ :: ·) hevents.symm⟩

/-- A successful call is the last event that was recorded. -/
theorem exec_recorded {depth : Nat} {data : List Nat} (hctx : StxSafe ctx)
    (h : exec env depth ctx call w = .ok (data, w')) :
    ∃ events registered, w'.history = .called ctx call registered :: events ++ w.history := by
  cases depth with
  | zero => cases h
  | succ depth =>
      have htokens : TokensRespect StxSafe _ (callToken env (exec env depth)) :=
        callToken_respects grows_kept.toClosed stxSafe_delegable (grows_kept.exec env depth)
      exact (execCall_writes (grows_kept.covers call) htokens hctx h).recorded

/-- Registering another token runs its code. -/
theorem registerAsset_accounts (hcalls : CallsRespect StxSafe (Accounts token) execute)
    (hctx : StxSafe ctx) {args : RegisterAssetArgs} (hne : args.token ≠ token) :
    Respects (Accounts token) (AssetRegistry.registerAsset (callToken env execute) ctx args) := by
  intro w id w' h
  obtain ⟨_, mid, hasked, hsame, hhistory, -⟩ := AssetRegistry.registerAsset_asks h
  have haccounts : Accounts token w mid :=
    callToken_accounts hcalls hne _ _ (stxSafe_delegable.calledBy _ hctx) _ _ _ hasked
  have htokens : w'.tokens = mid.tokens := congrArg Holdings.tokens hsame
  exact (accounts_composes token).trans haccounts
    (accounts_of_eq (hhistory.trans (List.nil_append _).symm) (congrFun htokens token))

/-- Every call accounts for what it takes of an honest token, if the calls of other
tokens' code do. -/
theorem execCall_accounts (hhonest : HonestToken env token) (depth : Nat)
    (hcalls : CallsRespect StxSafe (Accounts token) (exec env depth)) :
    CallsRespect StxSafe (Accounts token) (execCall env (callToken env (exec env depth))) := by
  intro ctx call hctx _ w data w' h
  have hexec : exec env (depth + 1) ctx call w = .ok (data, w') := h
  obtain ⟨events, registered, hevents⟩ := exec_recorded hctx hexec
  by_cases hdebits : call.debits token ctx = true
  · refine ⟨_, hevents, fun hnone => ?_⟩
    have hcalled := hnone _ List.mem_cons_self
    rw [Event.debits, hdebits] at hcalled
    cases hcalled
  obtain ⟨mid, hrun, rfl⟩ := execCall_ok.mp h
  obtain ⟨inner, hdispatch, hinner⟩ := withinCall_ok hrun
  by_cases hnamed : call.token? = some token
  · have hspares : call.debits token inner = false := by
      rw [Call.debits_of_sender hinner.txSender]
      exact Bool.eq_false_of_not_eq_true hdebits
    have hkept : Kept token w mid := dispatch_kept hhonest hnamed hspares hdispatch
    exact ⟨_, hevents, fun _ => hkept⟩
  · have hsafe : StxSafe inner := hinner.admitted stxSafe_delegable.entering hctx
    refine (accounts_composes token).trans ?_ (accounts_of_eq List.singleton_append.symm rfl)
    by_cases hregister : ∃ args, call = .assetRegistry (.registerAsset args)
    · obtain ⟨args, rfl⟩ := hregister
      simp only [dispatch, AssetRegistry.execute, bind_ok, pure_ok] at hdispatch
      obtain ⟨_, _, ⟨_, _, hregistered, -, rfl⟩, -, rfl⟩ := hdispatch
      have hother : args.token ≠ token := fun heq => hnamed (congrArg some heq)
      exact registerAsset_accounts hcalls hsafe hother _ _ _ hregistered
    · exact dispatch_accounts hcalls hsafe hnamed (fun args heq => hregister ⟨args, heq⟩) _ _ _
        hdispatch

theorem exec_accounts (hhonest : HonestToken env token) (depth : Nat) :
    CallsRespect StxSafe (Accounts token) (exec env depth) := by
  induction depth with
  | zero =>
      intro ctx call _ _ w data w' h
      cases h
  | succ depth ih => exact execCall_accounts hhonest depth ih

/-- A call that names another token debits that one, if any. -/
theorem Call.debits_of_named {other : Principal} (hnamed : call.token? = some other)
    (hne : other ≠ token) : call.debits token ctx = false := by
  refine Bool.eq_false_of_not_eq_true fun hdebits => hne ?_
  exact Option.some.inj (hnamed.symm.trans (token?_of_debits hdebits))

/-- In every state, for every call that names another token, and whatever the code of
that token and of all others is: if no call that token code makes in it, and that is
not undone, debits an honest token, then the pool and the fee contract have not less of
the honest token than before. -/
theorem token_isolated (hhonest : HonestToken env token) (hctx : ctx.TopLevel) (depth : Nat)
    {other : Principal} (hnamed : call.token? = some other) (hne : other ≠ token)
    (hspares : ∀ event ∈ ((transact env depth ctx call w).since w).tail,
      event.debits token = false)
    (who : Principal) (hwho : who = .sip10Pool ∨ who = .sip10ProtocolFees) :
    (w.tokens token).balances who ≤ ((transact env depth ctx call w).tokens token).balances who := by
  by_cases hok : (exec env depth ctx call w).isOk
  · obtain ⟨data, hrun⟩ := exec_eq_transact hok
    obtain ⟨events, registered, hrecorded⟩ := exec_recorded hctx.stxSafe hrun
    obtain ⟨since, hsince, hkept⟩ :=
      exec_accounts hhonest depth ctx call hctx.stxSafe hctx.caller _ _ _ hrun
    obtain rfl : since = .called ctx call registered :: events :=
      List.append_cancel_right (hsince.symm.trans hrecorded)
    rw [since_of_append hsince, List.tail_cons] at hspares
    refine hkept (fun event hevent => ?_) who hwho
    rcases List.mem_cons.mp hevent with rfl | hinside
    · exact Call.debits_of_named hnamed hne
    · exact hspares event hinside
  · rw [transact_of_failed hok]

/-! ## A token that takes another -/

namespace Sample

def drain : Principal := .account 3
def thief : Principal := .account 4

/-- Before it transfers anything it sends the thief three of the other token, as the
transaction sender. -/
def drainCode (self : Principal) (ctx : Ctx) : TokenFunction → Program
  | .transfer amount sender recipient =>
      .invoke false (.token Sample.token (.transfer 3 ctx.txSender thief)) fun _ =>
        honestCode self ctx (.transfer amount sender recipient)
  | function => honestCode self ctx function

def drainEnv : Env where
  primitives := primitives
  code self := if self = drain then drainCode self else honestCode self

/-- The other token is not that one. -/
theorem drainEnv_honest : HonestToken drainEnv Sample.token :=
  have hhonest : HonestToken honestEnv Sample.token := honestTokens Sample.token rfl
  { ownLedger := hhonest.ownLedger
    transfer := hhonest.transfer
    getBalance := hhonest.getBalance
    getDecimals := hhonest.getDecimals }

/-- The fee contract holds five of the other token, and the token is registered. -/
def drainReady : World :=
  transactAll drainEnv 2 (sentBy owner)
    [.assetRegistry (.registerAsset
        { token := drain, name := [68], decimals := 6, minShield := 1, maxShield := 1000,
          minNote := 1, maxNote := 0, feeRecipient := owner, version := 1 }),
      .privacyRegistry (.addAuthorizedCaller owner)]
    (feePaid drainEnv)

def collectDrain : Call := .sip10ProtocolFees (.collectFee 2 feeTypeShield 10 drain)

def withdrawDrain : Call := .sip10ProtocolFees (.withdrawFees 2 5 drain)

/-- The fee contract holds fees of both. -/
def bothPaid : World := transact drainEnv 2 (sentBy owner) collectDrain drainReady

def drained : World := transact drainEnv 2 (sentBy owner) withdrawDrain bothPaid

theorem drainReady_reachable : Reachable drainEnv drainReady :=
  (feePaid_reachable drainEnv).transactAll owner_topLevel 2 _

theorem bothPaid_reachable : Reachable drainEnv bothPaid :=
  drainReady_reachable.transact owner_topLevel 2 _

end Sample

/-- A fee is collected from the owner: the token takes three of the other from the
owner, and the fee contract keeps what it has. -/
theorem token_isolated_bothPaid :
    (Sample.drainReady.tokens Sample.token).balances .sip10ProtocolFees ≤
      (Sample.bothPaid.tokens Sample.token).balances .sip10ProtocolFees := by
  have hspares : (Sample.bothPaid.since Sample.drainReady).tail.all
      (fun event => event.debits Sample.token = false) = true := by decide +kernel
  unfold Sample.bothPaid at hspares ⊢
  exact token_isolated Sample.drainEnv_honest Sample.owner_topLevel 2 rfl (by decide)
    (fun event hevent => of_decide_eq_true (List.all_eq_true.mp hspares event hevent)) _ (.inr rfl)

/-- Paying out the fees of the one token takes three of the five of the other. -/
theorem token_isolated_drained :
    Reachable Sample.drainEnv Sample.bothPaid ∧
      HonestToken Sample.drainEnv Sample.token ∧
      Sample.bothPaid.assetRegistry.getAssetIdByPrincipal Sample.token = some 1 ∧
      Sample.bothPaid.assetRegistry.getAssetIdByPrincipal Sample.drain = some 2 ∧
      (exec Sample.drainEnv 2 (Sample.sentBy Sample.owner) Sample.withdrawDrain
        Sample.bothPaid).isOk ∧
      (Sample.drained.tokens Sample.token).balances .sip10ProtocolFees = 2 ∧
      (Sample.bothPaid.tokens Sample.token).balances .sip10ProtocolFees = 5 := by
  refine ⟨Sample.bothPaid_reachable, Sample.drainEnv_honest, ?_, ?_, ?_, ?_, ?_⟩
  all_goals decide +kernel

end StxShield
