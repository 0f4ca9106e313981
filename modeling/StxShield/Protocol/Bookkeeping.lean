import StxShield.Effects.Postings
import StxShield.Protocol.Refinement

/-!
# Every run keeps the books

Whatever a transaction does, with whatever token code in the middle of it, takes
the books through the steps that the protocol allows.
-/

namespace StxShield

open Library Exec World PrivacyRegistry

variable {env : Env} {w w' : World} {ctx : Ctx}

/-! ## Calls from outside -/

namespace NoteManager

/-- Counting a note in or out of a state leaves the number of notes alone. -/
theorem adjust_totalRegistered {stats stats' : NoteStatistics} {state : NoteState}
    {change : Nat → Exec NoteManager Nat} {manager manager' : NoteManager}
    (h : NoteStatistics.adjust stats state change manager = .ok (stats', manager')) :
    stats'.totalRegistered = stats.totalRegistered := by
  cases state with
  | active | spent | withdrawn | frozen | deprecated =>
      simp only [NoteStatistics.adjust, bind_ok, pure_ok] at h
      obtain ⟨_, _, _, rfl, _⟩ := h
      rfl

theorem adjust_sub_ok {stats stats' : NoteStatistics} {state : NoteState}
    {manager manager' : NoteManager}
    (h : NoteStatistics.adjust stats state (fun n => subUint n 1) manager =
      .ok (stats', manager')) : manager' = manager := by
  cases state with
  | active | spent | withdrawn | frozen | deprecated =>
      simp only [NoteStatistics.adjust, ↓bind_ok, ↓exists_subUint, pure_ok] at h
      exact h.2.2.symm

theorem adjust_add_ok {stats stats' : NoteStatistics} {state : NoteState}
    {manager manager' : NoteManager}
    (h : NoteStatistics.adjust stats state (fun n => addUint n 1) manager =
      .ok (stats', manager')) : manager' = manager := by
  cases state with
  | active | spent | withdrawn | frozen | deprecated =>
      simp only [NoteStatistics.adjust, ↓bind_ok, ↓exists_addUint, pure_ok] at h
      exact h.2.2.symm

/-- Moving a note replaces its record, and the number of notes stays. -/
theorem moveNote_ok {noteId : Buff32} {note : NoteRecord} {counted newState : NoteState}
    {manager manager' : NoteManager} {u : Unit}
    (h : moveNote ctx noteId note counted newState manager = .ok (u, manager')) :
    isValidNoteTransition note.state newState ∧
    ∃ stats : NoteStatistics, stats.totalRegistered = manager.noteStatistics.totalRegistered ∧
      manager' =
        { notes := manager.notes.insert noteId
            { note with state := newState, updatedAt := ctx.height }
          noteStatistics := stats } := by
  unfold moveNote at h
  simp only [↓bind_ok, ↓exists_read, ↓exists_require, modify_ok] at h
  obtain ⟨hvalid, fewer, mid, hfewer, stats, mid', hstats, rfl⟩ := h
  obtain rfl := adjust_sub_ok hfewer
  obtain rfl := adjust_add_ok hstats
  exact ⟨hvalid, stats, (adjust_totalRegistered hstats).trans (adjust_totalRegistered hfewer), rfl⟩

theorem administerNote_step {authorized : Prop} [Decidable authorized] {noteId : Buff32}
    {counted newState : NoteState} {u : Unit} {H : List Event}
    (hstate : newState = .frozen ∨ newState = .active ∨ newState = .deprecated)
    (h : onNoteManager (administerNote authorized ctx noteId counted newState) w = .ok (u, w')) :
    w'.history = w.history ∧ BookStep H w.books w'.books := by
  obtain ⟨manager, hrun, rfl⟩ := onNoteManager_ok.mp h
  unfold administerNote at hrun
  simp only [↓bind_ok, ↓exists_read, ↓exists_require, ↓exists_unwrap] at hrun
  obtain ⟨-, -, note, hlookup, hmove⟩ := hrun
  obtain ⟨-, stats, hstats, rfl⟩ := moveNote_ok hmove
  exact ⟨rfl, .administer hlookup hstate hstats⟩

theorem consumeNote_authorized {registry : PrivacyRegistry} {noteId : Buff32}
    {newState : NoteState} {manager manager' : NoteManager} {u : Unit}
    (h : consumeNote registry ctx noteId newState manager = .ok (u, manager')) :
    registry.isAuthorizedCaller ctx.contractCaller := by
  unfold consumeNote at h
  simp only [↓bind_ok, ↓exists_read, ↓exists_require] at h
  exact h.1

/-- A call of the note manager from outside the protocol. -/
theorem execute_step {call : Call} {u : Unit} (hcaller : ctx.contractCaller.isProtocol = false)
    (h : NoteManager.execute ctx call w = .ok (u, w')) {H : List Event} :
    w'.history = w.history ∧ BookStep H w.books w'.books := by
  simp only [execute, ↓bind_ok, ↓exists_read] at h
  cases call with
  | registerNote noteId ownerCommitment metadata version =>
      unfold registerNote at h
      simp only [↓bind_ok, ↓exists_read, ↓exists_onRegistry, ↓exists_checkActive,
        ↓exists_require, ↓exists_unwrap, ↓exists_addUint, onNoteManager_ok, modify_ok] at h
      obtain ⟨-, hauth, -, -, -, -, _, registry, -, notes, -, -, -, _, rfl, rfl⟩ := h
      exact ⟨rfl, .foreign hcaller hauth⟩
  | spendNote noteId =>
      simp only [spendNote, ↓bind_ok, ↓exists_onRegistry, ↓exists_checkActive, ↓exists_read] at h
      obtain ⟨-, hspend⟩ := h
      obtain ⟨manager, hrun, rfl⟩ := onNoteManager_ok.mp hspend
      exact ⟨rfl, .foreign hcaller (consumeNote_authorized hrun)⟩
  | withdrawNote noteId =>
      simp only [withdrawNote, ↓bind_ok, ↓exists_onRegistry, ↓exists_checkActive,
        ↓exists_read] at h
      obtain ⟨-, hspend⟩ := h
      obtain ⟨manager, hrun, rfl⟩ := onNoteManager_ok.mp hspend
      exact ⟨rfl, .foreign hcaller (consumeNote_authorized hrun)⟩
  | freezeNote noteId => exact administerNote_step (.inl rfl) h
  | reactivateNote noteId => exact administerNote_step (.inr (.inl rfl)) h
  | deprecateNote noteId => exact administerNote_step (.inr (.inr rfl)) h

end NoteManager

/-- A call of the registry from outside the protocol. -/
theorem PrivacyRegistry.Performed.steps {call : PrivacyRegistry.Call} {data : Option Nat}
    {registry : PrivacyRegistry} (hcaller : ctx.contractCaller.isProtocol = false)
    (h : Performed ctx w.registry call data registry) {H : List Event} {caller : Ctx}
    {registered : Nat} (hcalled : Event.called caller (.privacyRegistry call) registered ∈ H) :
    BookSteps H w.books { w with registry := registry }.books := by
  cases h with
  | registerCommitment _ hauth => exact .single (.foreign hcaller hauth)
  | registerNullifier _ hauth => exact .single (.foreign hcaller hauth)
  | recordShield _ hauth => exact .single (.foreign hcaller hauth)
  | recordWithdrawal _ hauth => exact .single (.foreign hcaller hauth)
  | recordTransfer _ hauth => exact .single (.foreign hcaller hauth)
  | recordNoteCreated _ hauth => exact .single (.foreign hcaller hauth)
  | @addAuthorizedCaller caller howner hfresh =>
      refine .single (.allowlist fun who hwho => ?_)
      by_cases heq : who = caller
      · subst heq
        exact .inr ⟨_, _, hcalled⟩
      · left
        simpa [isAuthorizedCaller, World.books, AList.lookup_insert_ne heq] using hwho
  | @removeAuthorizedCaller caller howner hauthorized =>
      refine .single (.allowlist fun who hwho => .inl ?_)
      by_cases heq : who = caller
      · subst heq
        simp [isAuthorizedCaller] at hwho
      · simpa [isAuthorizedCaller, World.books, AList.lookup_erase_ne heq] using hwho
  | updateRoot | setRootStatus | transition | versions | limits | grantRole | revokeRole
  | transferOwnership | acceptOwnership | cancelOwnershipTransfer => exact .refl

/-! ## Calls -/

/-- What a successful call did to the books. -/
inductive BookRun (rel : World → World → Prop) (ctx : Ctx) (call : Call) (w w' : World) : Prop where
  | respects (h : rel w w')
  | registry {registryCall : PrivacyRegistry.Call} {data : Option Nat}
      {registry : PrivacyRegistry} (hcall : call = .privacyRegistry registryCall)
      (h : Performed ctx w.registry registryCall data registry)
      (hw' : w' = { w with registry := registry })
  | noteManager {managerCall : NoteManager.Call} {u : Unit}
      (h : NoteManager.execute ctx managerCall w = .ok (u, w'))
  | operation {op : Operation} (hcall : call.operation? = some op) (hrun : PostingRun rel op w w')

section Dispatch

variable {P : Primitives} {rel : World → World → Prop} {admits : Ctx → Prop} {tokens : TokenCode}
  {data : List Nat}

theorem ZkVerifier.execute_disregarded (hrel : Disregards rel) (call : Verifier.Call) :
    Respects rel (ZkVerifier.execute P ctx call) := by
  intro w value w' h
  cases call with
  | verifyProof proofType version inputsHash inclusion =>
      simp only [ZkVerifier.execute, bind_ok, pure_ok] at h
      obtain ⟨_, _, hverify, -, rfl⟩ := h
      exact hrel.accepts (zkVerifier_verifyProof_accepts hverify)
  | _ =>
      simp only [ZkVerifier.execute, ↓bind_ok, ↓exists_read] at h
      exact hrel.untouched (untouched_onZkVerifier h)

theorem Sip10ZkVerifier.execute_disregarded (hrel : Disregards rel) (call : Sip10Verifier.Call) :
    Respects rel (Sip10ZkVerifier.execute P ctx call) := by
  intro w value w' h
  cases call with
  | common call =>
      cases call with
      | verifyProof proofType version inputsHash inclusion =>
          simp only [Sip10ZkVerifier.execute, bind_ok, pure_ok] at h
          obtain ⟨_, _, hverify, -, rfl⟩ := h
          exact hrel.accepts (sip10ZkVerifier_verifyProof_accepts hverify)
      | _ =>
          simp only [Sip10ZkVerifier.execute, ↓bind_ok, ↓exists_read] at h
          exact hrel.untouched (untouched_onSip10ZkVerifier h)
  | setCircuitVersion version =>
      simp only [Sip10ZkVerifier.execute, ↓bind_ok, ↓exists_read] at h
      exact hrel.untouched (untouched_onSip10ZkVerifier h)
  | setAuthorizedPool pool =>
      simp only [Sip10ZkVerifier.execute, ↓bind_ok, ↓exists_read] at h
      exact hrel.untouched (untouched_onSip10ZkVerifier h)

theorem ProtocolFees.execute_disregarded (hrel : Disregards rel) (call : ProtocolFees.Call) :
    Respects rel (ProtocolFees.execute ctx call) := by
  intro w value w' h
  simp only [ProtocolFees.execute, ↓bind_ok, ↓exists_read] at h
  cases call with
  | collectFee feeType amount =>
      simp only [bind_ok, pure_ok] at h
      obtain ⟨_, _, hcollect, -, rfl⟩ := h
      exact hrel.untouched (untouched_collectFee hcollect)
  | withdrawFees amount recipient => exact hrel.untouched (untouched_withdrawFees h)
  | _ => exact hrel.untouched (untouched_onProtocolFees h)

theorem Sip10ProtocolFees.execute_disregarded (hrel : Disregards rel) (hadmits : Delegable admits)
    (htokens : TokensRespect admits rel tokens) (hctx : admits ctx)
    (call : Sip10ProtocolFees.Call) : Respects rel (Sip10ProtocolFees.execute tokens ctx call) := by
  intro w value w' h
  simp only [Sip10ProtocolFees.execute, ↓bind_ok, ↓exists_read] at h
  cases call with
  | collectFee assetId feeType amount token =>
      simp only [bind_ok, pure_ok] at h
      obtain ⟨_, _, hcollect, -, rfl⟩ := h
      exact collectFee_disregarded hrel hadmits.toAdmissible htokens hctx _ _ _ _ _ _ hcollect
  | withdrawFees assetId amount token =>
      exact withdrawFees_disregarded hrel hadmits htokens hctx _ _ _ _ _ h
  | _ => exact hrel.untouched (untouched_onSip10ProtocolFees h)

theorem AssetRegistry.execute_disregarded (hrel : Disregards rel) (hadmits : Admissible admits)
    (htokens : TokensRespect admits rel tokens) (hctx : admits ctx) (call : AssetRegistry.Call) :
    Respects rel (AssetRegistry.execute tokens ctx call) := by
  intro w value w' h
  cases call with
  | registerAsset args =>
      simp only [execute, bind_ok, pure_ok] at h
      obtain ⟨_, _, hregister, -, rfl⟩ := h
      unfold registerAsset at hregister
      simp only [↓bind_ok, ↓exists_read, ↓exists_require, ↓orError_ok, ↓exists_addUint,
        pure_ok] at hregister
      obtain ⟨-, -, -, -, -, -, -, -, _, mid, hdecimals, -, -, -, _, _, hstored, -, rfl⟩ := hregister
      exact hrel.trans (htokens _ _ _ (hadmits.calledBy _ hctx) _ _ _ hdecimals)
        (hrel.untouched (untouched_onAssetRegistry hstored))
  | _ =>
      simp only [execute, ↓bind_ok, ↓exists_read, pure_ok] at h
      obtain ⟨_, _, hrun, -, rfl⟩ := h
      exact hrel.untouched (untouched_onAssetRegistry hrun)

theorem PrivacyPool.execute_bookRun (hrel : Disregards rel) {call : PrivacyPool.Call}
    {value : Option Nat} (h : PrivacyPool.execute P ctx call w = .ok (value, w')) :
    BookRun rel ctx (.privacyPool call) w w' := by
  simp only [execute, ↓bind_ok, ↓exists_read] at h
  cases call with
  | shield args inclusion =>
      simp only [bind_ok, pure_ok] at h
      obtain ⟨_, _, hrun, -, rfl⟩ := h
      exact .operation rfl (shield_posts hrel hrun)
  | transfer args inclusion =>
      simp only [bind_ok, pure_ok] at h
      obtain ⟨_, _, hrun, -, rfl⟩ := h
      exact .operation rfl (transfer_posts hrel hrun)
  | withdraw args inclusion =>
      simp only [bind_ok, pure_ok] at h
      obtain ⟨_, _, hrun, -, rfl⟩ := h
      exact .operation rfl (withdraw_posts hrel hrun)
  | _ =>
      simp only [bind_ok, pure_ok] at h
      obtain ⟨_, _, hrun, -, rfl⟩ := h
      exact .respects (hrel.untouched (untouched_onPrivacyPool hrun))

theorem SplitMergeManager.execute_bookRun (hrel : Disregards rel) {call : SplitMergeManager.Call}
    (h : SplitMergeManager.execute P ctx call w = .ok (data, w')) :
    BookRun rel ctx (.splitMergeManager call) w w' := by
  simp only [execute, ↓bind_ok, ↓exists_read] at h
  cases call with
  | splitNote args inclusion =>
      simp only [bind_ok, pure_ok] at h
      obtain ⟨_, _, hrun, -, rfl⟩ := h
      exact .operation rfl (splitNote_posts hrel hrun)
  | mergeNotes args inclusion =>
      simp only [bind_ok, pure_ok] at h
      obtain ⟨_, _, hrun, -, rfl⟩ := h
      exact .operation rfl (mergeNotes_posts hrel hrun)
  | _ =>
      simp only [bind_ok, pure_ok] at h
      obtain ⟨_, _, hrun, -, rfl⟩ := h
      exact .respects (hrel.untouched (untouched_onSplitMergeManager hrun))

theorem Sip10Pool.execute_bookRun (hrel : Disregards rel) (hadmits : Delegable admits)
    (htokens : TokensRespect admits rel tokens) (hctx : admits ctx) {call : Sip10Pool.Call}
    (h : Sip10Pool.execute P tokens ctx call w = .ok (data, w')) :
    BookRun rel ctx (.sip10Pool call) w w' := by
  cases call with
  | shield token args inclusion =>
      simp only [execute, bind_ok, pure_ok] at h
      obtain ⟨_, _, hrun, -, rfl⟩ := h
      exact .operation rfl (shield_posts hrel hadmits.toAdmissible htokens hctx hrun)
  | transfer token args inclusion =>
      simp only [execute, bind_ok, pure_ok] at h
      obtain ⟨_, _, hrun, -, rfl⟩ := h
      exact .operation rfl (transfer_posts hrel hadmits.toAdmissible htokens hctx hrun)
  | split token args inclusion =>
      simp only [execute, bind_ok, pure_ok] at h
      obtain ⟨_, _, hrun, -, rfl⟩ := h
      exact .operation rfl (split_posts hrel hadmits.toAdmissible htokens hctx hrun)
  | mergeNotes token args inclusion =>
      simp only [execute, bind_ok, pure_ok] at h
      obtain ⟨_, _, hrun, -, rfl⟩ := h
      exact .operation rfl (mergeNotes_posts hrel hadmits.toAdmissible htokens hctx hrun)
  | withdraw token args inclusion =>
      simp only [execute, bind_ok, pure_ok] at h
      obtain ⟨_, _, hrun, -, rfl⟩ := h
      exact .operation rfl (withdraw_posts hrel hadmits htokens hctx hrun)
  | setOperationEnabled op enabled =>
      simp only [execute, ↓bind_ok, ↓exists_read, pure_ok] at h
      obtain ⟨_, _, hrun, -, rfl⟩ := h
      exact .respects (hrel.untouched (untouched_onSip10Pool hrun))

theorem dispatch_bookRun (hrel : Disregards rel) (hadmits : Delegable admits)
    (htokens : TokensRespect admits rel tokens) (hctx : admits ctx) {call : Call}
    (h : dispatch env tokens ctx call w = .ok (data, w')) : BookRun rel ctx call w w' := by
  cases call with
  | privacyRegistry call =>
      simp only [dispatch, bind_ok, onRegistry_ok, pure_ok] at h
      obtain ⟨_, _, ⟨registry, hrun, rfl⟩, -, rfl⟩ := h
      exact .registry rfl (execute_performed hrun) rfl
  | noteManager call =>
      simp only [dispatch, bind_ok, pure_ok] at h
      obtain ⟨_, _, hrun, -, rfl⟩ := h
      exact .noteManager hrun
  | zkVerifier call =>
      simp only [dispatch, bind_ok, pure_ok] at h
      obtain ⟨_, _, hrun, -, rfl⟩ := h
      exact .respects (ZkVerifier.execute_disregarded hrel call _ _ _ hrun)
  | sip10ZkVerifier call =>
      simp only [dispatch, bind_ok, pure_ok] at h
      obtain ⟨_, _, hrun, -, rfl⟩ := h
      exact .respects (Sip10ZkVerifier.execute_disregarded hrel call _ _ _ hrun)
  | protocolFees call =>
      simp only [dispatch, bind_ok, pure_ok] at h
      obtain ⟨_, _, hrun, -, rfl⟩ := h
      exact .respects (ProtocolFees.execute_disregarded hrel call _ _ _ hrun)
  | assetRegistry call =>
      simp only [dispatch, bind_ok, pure_ok] at h
      obtain ⟨_, _, hrun, -, rfl⟩ := h
      exact .respects
        (AssetRegistry.execute_disregarded hrel hadmits.toAdmissible htokens hctx call _ _ _ hrun)
  | sip10ProtocolFees call =>
      simp only [dispatch, bind_ok, pure_ok] at h
      obtain ⟨_, _, hrun, -, rfl⟩ := h
      exact .respects
        (Sip10ProtocolFees.execute_disregarded hrel hadmits htokens hctx call _ _ _ hrun)
  | privacyPool call =>
      simp only [dispatch, bind_ok, pure_ok] at h
      obtain ⟨_, _, hrun, -, rfl⟩ := h
      exact PrivacyPool.execute_bookRun hrel hrun
  | splitMergeManager call => exact SplitMergeManager.execute_bookRun hrel h
  | sip10Pool call => exact Sip10Pool.execute_bookRun hrel hadmits htokens hctx h
  | stxTransfer amount sender recipient =>
      simp only [dispatch, bind_ok, pure_ok] at h
      obtain ⟨_, _, hrun, -, rfl⟩ := h
      exact .respects (hrel.untouched (untouched_stxTransfer hrun))
  | token token function =>
      simp only [dispatch, bind_ok, pure_ok] at h
      obtain ⟨_, _, hrun, -, rfl⟩ := h
      exact .respects (htokens token ctx function hctx _ _ _ hrun)

end Dispatch

/-! ## Executions -/

/-- The history grew, and the books went through steps of any run that contains
the later state. -/
structure Booked (w w' : World) : Prop where
  grows : w.history <:+ w'.history
  steps : ∀ H, w'.history ⊆ H → BookSteps H w.books w'.books

theorem booked_trans {u v w : World} (huv : Booked u v) (hvw : Booked v w) : Booked u w where
  grows := huv.grows.trans hvw.grows
  steps H hH := (huv.steps H (List.Subset.trans hvw.grows.subset hH)).trans (hvw.steps H hH)

theorem booked_of_eq (hgrows : w.history <:+ w'.history) (hbooks : w'.books = w.books) :
    Booked w w' where
  grows := hgrows
  steps H _ := by rw [hbooks]

theorem booked_disregards : Disregards Booked where
  trans := booked_trans
  untouched h := booked_of_eq (h.history ▸ List.suffix_rfl) h.books
  accepts h := by
    obtain ⟨_, _, _, hhistory⟩ := h.history
    exact booked_of_eq (hhistory ▸ List.suffix_cons _ _) h.books

theorem booked_closed : Closed Booked where
  refl _ := booked_of_eq List.suffix_rfl rfl
  trans := booked_trans
  store _ _ _ _ := booked_of_eq List.suffix_rfl rfl

/-- Posting an operation is one step. -/
theorem Posted.booked {op : Operation} (h : Posted op w w') : Booked w w' := by
  obtain ⟨version, height, circuitVersion, hbooks, hhistory⟩ := h.entered
  refine ⟨hhistory ▸ List.suffix_cons _ _, fun H hH => .single ?_⟩
  rw [hbooks]
  refine @BookStep.post _ _ _ circuitVersion _ _ (hH ?_) h.nodup h.fresh
  rw [hhistory]
  exact List.mem_cons_self

theorem PostingRun.booked {op : Operation} (h : PostingRun Booked op w w') : Booked w w' := by
  obtain ⟨u, v, hbefore, hposted, hafter⟩ := h
  exact booked_trans hbefore (booked_trans hposted.booked hafter)

/-- A call keeps the books if the token code in it does. -/
theorem execCall_booked (env : Env) (depth : Nat)
    (htokens : TokensRespect PoolSafe Booked (callToken env (exec env depth))) :
    CallsRespect PoolSafe Booked (execCall env (callToken env (exec env depth))) := by
  intro ctx call hctx hcaller w data w' h
  obtain ⟨mid, hrun, rfl⟩ := execCall_ok.mp h
  obtain ⟨inner, hdispatch, hinner⟩ := withinCall_ok hrun
  have hsafe : PoolSafe inner ∧ inner.contractCaller = ctx.contractCaller :=
    ⟨hinner.admitted poolSafe_delegable.entering hctx, hinner.contractCaller⟩
  have hexternal : inner.contractCaller.isProtocol = false := hsafe.2 ▸ hcaller
  have hrecorded (registered : Nat) :
      Booked mid { mid with history := .called ctx call registered :: mid.history } :=
    booked_of_eq (List.suffix_cons _ _) rfl
  cases dispatch_bookRun booked_disregards poolSafe_delegable htokens hsafe.1 hdispatch with
  | respects hrel => exact booked_trans hrel (hrecorded _)
  | registry hcall hperformed hmid =>
      subst hcall hmid
      exact ⟨List.suffix_cons _ _, fun H hH => hperformed.steps hexternal (hH List.mem_cons_self)⟩
  | noteManager hmanager =>
      refine booked_trans ⟨?_, fun H _ => .single ?_⟩ (hrecorded _)
      · have hhistory := (NoteManager.execute_step (H := w.history) hexternal hmanager).1
        exact hhistory ▸ List.suffix_rfl
      · exact (NoteManager.execute_step hexternal hmanager).2
  | operation hcall hposted => exact booked_trans hposted.booked (hrecorded _)

theorem exec_booked (env : Env) (depth : Nat) : CallsRespect PoolSafe Booked (exec env depth) :=
  exec_respects booked_closed poolSafe_delegable (execCall_booked env) depth

/-! ## Runs -/

/-- One transaction, whoever sends it. -/
def Transacts (env : Env) (w w' : World) : Prop :=
  ∃ ctx : Ctx, ctx.TopLevel ∧ ∃ depth call, transact env depth ctx call w = w'

/-- Any sequence of transactions. -/
abbrev Continues (env : Env) : World → World → Prop := Relation.ReflTransGen (Transacts env)

theorem Reachable.continues (h : Reachable env w) (hlater : Continues env w w') :
    Reachable env w' := by
  induction hlater with
  | refl => exact h
  | tail _ hstep ih =>
      obtain ⟨ctx, hctx, depth, call, rfl⟩ := hstep
      exact ih.transact hctx depth call

theorem Continues.transact (h : Continues env w w') {ctx : Ctx} (hctx : ctx.TopLevel) (depth : Nat)
    (call : Call) : Continues env w (StxShield.transact env depth ctx call w') :=
  h.tail ⟨ctx, hctx, depth, call, rfl⟩

theorem Continues.transactAll (h : Continues env w w') {ctx : Ctx} (hctx : ctx.TopLevel)
    (depth : Nat) (calls : List Call) :
    Continues env w (StxShield.transactAll env depth ctx calls w') := by
  induction calls generalizing w' with
  | nil => exact h
  | cons call rest ih => exact ih (h.transact hctx depth call)

theorem Continues.booked (h : Continues env w w') : Booked w w' := by
  induction h with
  | refl => exact booked_closed.refl w
  | tail _ hstep ih =>
      obtain ⟨ctx, hctx, depth, call, rfl⟩ := hstep
      exact booked_trans ih
        (transact_respects Ctx.TopLevel.poolSafe booked_closed.refl (exec_booked env depth) hctx call _)

/-- Every reachable state comes from a deployment. -/
theorem Reachable.exists_deployed (h : Reachable env w) :
    ∃ deployer stx tokens, Continues env (World.deployed deployer stx tokens) w := by
  induction h with
  | @deployed deployer hdeployer stx tokens => exact ⟨deployer, stx, tokens, .refl⟩
  | transact hreach hctx depth call ih =>
      obtain ⟨deployer, stx, tokens, hrun⟩ := ih
      exact ⟨deployer, stx, tokens, hrun.tail ⟨_, hctx, depth, call, rfl⟩⟩

theorem agree_deployed (deployer : Principal) (stx : Principal → Nat)
    (tokens : Principal → TokenLedger) : (World.deployed deployer stx tokens).books.Agree where
  guarded := nofun
  notes id := by simp [World.deployed, World.books, NoteManager.deployed, leaves,
    PrivacyRegistry.deployed]
  totalCommitments := rfl
  totalNullifiers := rfl
  totalNotes := rfl
  totalRegistered := rfl

/-- In every run of a guarded deployment the two books agree. -/
theorem Reachable.agree (h : Reachable env w) (hguarded : Guarded w.history) : w.books.Agree := by
  obtain ⟨deployer, stx, tokens, hrun⟩ := h.exists_deployed
  exact (agree_deployed deployer stx tokens).run hguarded
    (hrun.booked.steps _ (List.Subset.refl _))

/-- Every note in them was created by a completed operation, and none is marked
spent or withdrawn. -/
theorem Reachable.described (h : Reachable env w) (hguarded : Guarded w.history) :
    w.books.Described w.history := by
  obtain ⟨deployer, stx, tokens, hrun⟩ := h.exists_deployed
  exact Books.Described.run hguarded (agree_deployed deployer stx tokens) ⟨nofun, nofun⟩
    (hrun.booked.steps _ (List.Subset.refl _))

end StxShield
