import StxShield.Effects.Treasury
import StxShield.Protocol.Refinement
import StxShield.Registry.Calls
import StxShield.Verifiers.Calls

/-!
# What an execution writes

Each function writes in one contract's storage at a time, and every call of the
protocol is a sequence of such writes, with token code in between.  A relation
that token code and the writes stay within is respected by the call.
-/

namespace StxShield

open Library Exec World PrivacyRegistry

/-! ## Writes -/

/-- One write of a call.  Storage that only its own contract's administration
and the call itself can change is described by what may be written there. -/
inductive Writes (call : Call) (w : World) : World → Prop where
  | registry {ctx : Ctx} {registryCall : PrivacyRegistry.Call} {data : Option Nat}
      {registry : PrivacyRegistry} (h : Performed ctx w.registry registryCall data registry) :
      Writes call w { w with registry := registry }
  | noteManager {ctx : Ctx} {managerCall : NoteManager.Call} {u : Unit} {w' : World}
      (h : NoteManager.execute ctx managerCall w = .ok (u, w')) : Writes call w w'
  | zkVerifier {registry : PrivacyRegistry} {ctx : Ctx} {verifierCall : Verifier.Call}
      {storage : Verifier}
      (h : Verifier.Performed registry ctx w.zkVerifier verifierCall storage) :
      Writes call w { w with zkVerifier := storage }
  | protocolFees {fees : ProtocolFees} {stx : Principal → Nat}
      (h : ProtocolFees.Performed w.protocolFees w.stx fees stx) :
      Writes call w { w with protocolFees := fees, stx := stx }
  | privacyPool (storage : PrivacyPool) : Writes call w { w with privacyPool := storage }
  | splitMergeManager (storage : SplitMergeManager) :
      Writes call w { w with splitMergeManager := storage }
  | assetRegistry {registry : PrivacyRegistry} {ctx : Ctx} {assetCall : AssetRegistry.Call}
      {u : Unit} {storage : AssetRegistry} (hcall : call = .assetRegistry assetCall)
      (h : AssetRegistry.administer registry ctx assetCall w.assetRegistry = .ok (u, storage)) :
      Writes call w { w with assetRegistry := storage }
  | sip10ProtocolFees (storage : Sip10ProtocolFees) :
      Writes call w { w with sip10ProtocolFees := storage }
  /-- The circuit version is the call's own business. -/
  | sip10ZkVerifier (storage : Sip10Verifier)
      (hversion : storage.circuitVersion = w.sip10ZkVerifier.circuitVersion)
      (h : Verifier.Changes w.sip10ZkVerifier.verifier storage.verifier) :
      Writes call w { w with sip10ZkVerifier := storage }
  | setCircuitVersion {ctx : Ctx} {version : Nat} {u : Unit} {storage : Sip10Verifier}
      (hcall : call = .sip10ZkVerifier (.setCircuitVersion version))
      (h : Sip10ZkVerifier.setCircuitVersion w.registry ctx version w.sip10ZkVerifier =
        .ok (u, storage)) :
      Writes call w { w with sip10ZkVerifier := storage }
  | sip10Pool (storage : Sip10Pool) : Writes call w { w with sip10Pool := storage }
  /-- Only a plain transfer gives STX to the treasury. -/
  | stx {amount : Nat} {sender recipient : Principal} (hsender : sender ≠ .protocolFees)
      (hgift : recipient ≠ .protocolFees ∨ call = .stxTransfer amount sender recipient)
      (hpaid : amount ≤ w.stx sender) :
      Writes call w { w with stx := moved w.stx amount sender recipient }
  | verified (verifier : Principal) (proofType : Nat) (inputsHash : Buff32) :
      Writes call w { w with history := .proofVerified verifier proofType inputsHash :: w.history }
  | completed (op : Operation) (circuitVersion : Nat) :
      Writes call w { w with history := .completed op circuitVersion :: w.history }

/-- Besides its own storage the note manager writes in the registry, where it
counts a note. -/
theorem NoteManager.execute_frame {ctx : Ctx} {call : NoteManager.Call} {u : Unit} {w w' : World}
    (h : NoteManager.execute ctx call w = .ok (u, w')) :
    ∃ registry manager, w' = { w with registry := registry, noteManager := manager } ∧
      (registry = w.registry ∨
        Performed (ctx.calledBy .noteManager) w.registry .recordNoteCreated none registry) := by
  have hconsume {newState : NoteState} {noteId : Buff32} {w' : World}
      (h : (onRegistry checkActive >>= fun _ => read >>= fun w =>
        onNoteManager (consumeNote w.registry ctx noteId newState)) w = .ok (u, w')) :
      ∃ manager, w' = { w with noteManager := manager } := by
    simp only [↓exists_onRegistry, ↓exists_checkActive, ↓bind_ok, ↓exists_read,
      onNoteManager_ok] at h
    obtain ⟨-, manager, -, rfl⟩ := h
    exact ⟨manager, rfl⟩
  simp only [execute, ↓bind_ok, ↓exists_read] at h
  cases call with
  | registerNote noteId ownerCommitment metadata version =>
      simp only [registerNote, ↓bind_ok, ↓exists_read, ↓exists_onRegistry, ↓exists_checkActive,
        ↓exists_require, ↓exists_unwrap, ↓exists_addUint, onNoteManager_ok, modify_ok] at h
      obtain ⟨-, -, -, -, -, -, _, registry, hcount, notes, -, -, -, _, rfl, rfl⟩ := h
      have hexecute : PrivacyRegistry.execute (ctx.calledBy .noteManager) .recordNoteCreated
          w.registry = .ok (none, registry) :=
        bind_ok.mpr ⟨_, _, hcount, pure_ok.mpr ⟨rfl, rfl⟩⟩
      exact ⟨registry, _, rfl, .inr (execute_performed hexecute)⟩
  | spendNote noteId =>
      obtain ⟨manager, rfl⟩ := hconsume h
      exact ⟨w.registry, manager, rfl, .inl rfl⟩
  | withdrawNote noteId =>
      obtain ⟨manager, rfl⟩ := hconsume h
      exact ⟨w.registry, manager, rfl, .inl rfl⟩
  | _ =>
      obtain ⟨manager, -, rfl⟩ := onNoteManager_ok.mp h
      exact ⟨w.registry, manager, rfl, .inl rfl⟩

theorem NoteManager.execute_keeps_fees {ctx : Ctx} {call : NoteManager.Call} {u : Unit}
    {w w' : World} (h : NoteManager.execute ctx call w = .ok (u, w')) :
    w'.sip10ProtocolFees = w.sip10ProtocolFees := by
  obtain ⟨registry, manager, rfl, -⟩ := NoteManager.execute_frame h
  rfl

/-- A relation that composes and the writes of a call stay within. -/
structure Covers (call : Call) (rel : World → World → Prop) : Prop extends Composes rel where
  writes : ∀ {w w'}, Writes call w w' → rel w w'

/-- The writes of a call outside the treasury of the SIP-10 family, and the calls of
tokens and of that treasury as a whole, stay within a relation that composes. -/
structure Walks (call : Call) (rel : World → World → Prop) (admits : Ctx → Prop)
    (tokens : TokenCode) : Prop extends Composes rel where
  writes : ∀ {w w'}, Writes call w w' → w'.sip10ProtocolFees = w.sip10ProtocolFees → rel w w'
  calledBy : ∀ {ctx} (contract : Principal), admits ctx → admits (ctx.calledBy contract)
  entering : ∀ {ctx} (function : FunctionId), admits ctx → admits (ctx.entering function)
  asPool : ∀ {ctx}, admits ctx → admits (ctx.asContract .sip10Pool)
  asked : TokensRespect admits rel tokens
  collects : ∀ {ctx}, admits ctx → ∀ assetId feeType amount token,
    Respects rel (Sip10ProtocolFees.collectFee tokens ctx assetId feeType amount token)
  administers : ∀ {ctx}, admits ctx → ∀ feeCall,
    Respects rel (Sip10ProtocolFees.execute tokens ctx feeCall)

variable {env : Env} {call : StxShield.Call} {rel : World → World → Prop} {admits : Ctx → Prop}
  {P : Primitives} {tokens : TokenCode} {ctx : Ctx} {inclusion : Inclusion} {α : Type}

namespace Walks

variable (hrel : Walks call rel admits tokens)
include hrel

/-! ## Single contracts -/

theorem onZkVerifier {m : Exec Verifier α} {registry : PrivacyRegistry}
    {verifierCall : Verifier.Call}
    (hm : ∀ verifier value verifier', m verifier = .ok (value, verifier') →
      Verifier.Performed registry ctx verifier verifierCall verifier') :
    Respects rel (onZkVerifier m) := by
  intro w value w' h
  obtain ⟨storage, hrun, rfl⟩ := onZkVerifier_ok.mp h
  exact hrel.writes (.zkVerifier (hm _ _ _ hrun)) rfl

theorem onPrivacyPool (m : Exec PrivacyPool α) : Respects rel (onPrivacyPool m) := by
  intro w value w' h
  obtain ⟨storage, -, rfl⟩ := onPrivacyPool_ok.mp h
  exact hrel.writes (.privacyPool storage) rfl

theorem onSplitMergeManager (m : Exec SplitMergeManager α) :
    Respects rel (onSplitMergeManager m) := by
  intro w value w' h
  obtain ⟨storage, -, rfl⟩ := onSplitMergeManager_ok.mp h
  exact hrel.writes (.splitMergeManager storage) rfl

theorem onSip10Pool (m : Exec Sip10Pool α) : Respects rel (onSip10Pool m) := by
  intro w value w' h
  obtain ⟨storage, -, rfl⟩ := onSip10Pool_ok.mp h
  exact hrel.writes (.sip10Pool storage) rfl

/-- A function of the common part. -/
theorem onSip10ZkVerifier {m : Exec Verifier α} {registry : PrivacyRegistry}
    {verifierCall : Verifier.Call}
    (hm : ∀ verifier value verifier', m verifier = .ok (value, verifier') →
      Verifier.Performed registry ctx verifier verifierCall verifier') :
    Respects rel (onSip10ZkVerifier
      (zoom Sip10Verifier.verifier (fun verifier storage => { storage with verifier := verifier })
        m)) := by
  intro w value w' h
  obtain ⟨_, hrun, rfl⟩ := onSip10ZkVerifier_ok.mp h
  obtain ⟨verifier, hverifier, rfl⟩ := zoom_ok.mp hrun
  exact hrel.writes (.sip10ZkVerifier _ rfl (.performed (hm _ _ _ hverifier))) rfl

theorem administer (registry : PrivacyRegistry) {assetCall : AssetRegistry.Call}
    (hcall : call = .assetRegistry assetCall) :
    Respects rel (onAssetRegistry (AssetRegistry.administer registry ctx assetCall)) := by
  intro w value w' h
  obtain ⟨storage, hrun, rfl⟩ := onAssetRegistry_ok.mp h
  exact hrel.writes (.assetRegistry hcall hrun) rfl

/-- A check of the registry's, which writes nothing. -/
theorem checks {m : Exec PrivacyRegistry α} (hm : Keeps id m) : Respects rel (onRegistry m) := by
  intro w value w' h
  obtain ⟨registry, hrun, rfl⟩ := onRegistry_ok.mp h
  obtain rfl : registry = w.registry := hm _ _ _ hrun
  exact hrel.refl w

theorem checkActive : Respects rel (onRegistry checkActive) := hrel.checks (keeps_checkActive _)

/-- A function of the registry's, called by another contract. -/
theorem registers {m : Exec PrivacyRegistry α} (registryCall : PrivacyRegistry.Call)
    (answer : α → Option Nat)
    (hm : PrivacyRegistry.execute ctx registryCall = m >>= fun value => pure (answer value)) :
    Respects rel (onRegistry m) := by
  intro w value w' h
  obtain ⟨registry, hrun, rfl⟩ := onRegistry_ok.mp h
  have hexecute : PrivacyRegistry.execute ctx registryCall w.registry =
      .ok (answer value, registry) := by
    rw [hm]
    exact bind_ok.mpr ⟨_, _, hrun, pure_ok.mpr ⟨rfl, rfl⟩⟩
  exact hrel.writes (.registry (execute_performed hexecute)) rfl

theorem stxTransfer {amount : Nat} {sender recipient : Principal}
    (hctx : ctx.txSender ≠ .protocolFees)
    (hgift : recipient ≠ .protocolFees ∨ call = .stxTransfer amount sender recipient) :
    Respects rel (stxTransfer ctx amount sender recipient) := by
  intro w value w' h
  obtain ⟨-, -, hsender, hpaid, rfl⟩ := stxTransfer_ok.mp h
  exact hrel.writes (.stx (hsender ▸ hctx) hgift hpaid) rfl

theorem performs {m : Exec World α}
    (hm : ∀ w value w', m w = .ok (value, w') → ProtocolFees.Performs w w') : Respects rel m := by
  intro w value w' h
  obtain ⟨fees, stx, hperformed, rfl⟩ := hm w value w' h
  exact hrel.writes (.protocolFees hperformed) rfl

theorem recordVerified (verifier : Principal) (proofType : Nat) (inputsHash : Buff32) :
    Respects rel (record (.proofVerified verifier proofType inputsHash)) := by
  intro w value w' h
  obtain rfl := record_ok.mp h
  exact hrel.writes (.verified verifier proofType inputsHash) rfl

theorem recordCompleted (op : Operation) (circuitVersion : Nat) :
    Respects rel (record (.completed op circuitVersion)) := by
  intro w value w' h
  obtain rfl := record_ok.mp h
  exact hrel.writes (.completed op circuitVersion) rfl

/-! ## Calls between the contracts -/

theorem checkCurrentRoot (declared : Buff32) (stale unknown : Nat) :
    Respects rel (PoolCalls.checkCurrentRoot declared stale unknown) :=
  hrel.bind hrel.read fun _ => hrel.bind hrel.require fun _ => hrel.require

theorem registerNullifier (nullifier : Buff32) :
    Respects rel (PoolCalls.registerNullifier ctx nullifier) :=
  hrel.registers (.registerNullifier nullifier) (fun _ => none) rfl

theorem registerCommitment (commitment : Buff32) :
    Respects rel (PoolCalls.registerCommitment ctx commitment) :=
  hrel.bind hrel.read fun w =>
    hrel.registers (.registerCommitment commitment w.registry.protocolVersions.commitment) some rfl

theorem updateRoot (newRoot : Buff32) : Respects rel (PoolCalls.updateRoot ctx newRoot) :=
  hrel.bind hrel.read fun w =>
    hrel.registers (.updateRoot newRoot w.registry.protocolVersions.root) (fun _ => none) rfl

theorem recordShield (amount : Nat) : Respects rel (onRegistry (recordShield ctx amount)) :=
  hrel.registers (.recordShield amount) (fun _ => none) rfl

theorem recordWithdrawal (amount : Nat) :
    Respects rel (onRegistry (recordWithdrawal ctx amount)) :=
  hrel.registers (.recordWithdrawal amount) (fun _ => none) rfl

theorem recordTransfer : Respects rel (onRegistry (recordTransfer ctx)) :=
  hrel.registers .recordTransfer (fun _ => none) rfl

theorem registerNote (noteId ownerCommitment metadata : Buff32) :
    Respects rel (PoolCalls.registerNote ctx noteId ownerCommitment metadata) := by
  refine hrel.bind hrel.read fun w => ?_
  intro m value m' h
  have hexecute : NoteManager.execute ctx (.registerNote noteId ownerCommitment metadata
      w.registry.protocolVersions.note) m = .ok (value, m') := h
  exact hrel.writes (.noteManager hexecute) (NoteManager.execute_keeps_fees hexecute)

theorem calculateFee (feeType amount : Nat) :
    Respects rel (ProtocolFees.calculateFee feeType amount) :=
  hrel.of_keeps (keeps_calculateFee _ _ _)

theorem sip10CalculateFee (assetId feeType amount : Nat) :
    Respects rel (Sip10ProtocolFees.calculateFee assetId feeType amount) :=
  hrel.of_keeps (keeps_sip10CalculateFee _ _ _ _)

theorem verifyProof (proofType version : Nat) (inputsHash : Buff32) :
    Respects rel (ZkVerifier.verifyProof P ctx proofType version inputsHash inclusion) := by
  refine hrel.bind hrel.checkActive fun _ => hrel.bind hrel.read fun w =>
    hrel.bind (hrel.onZkVerifier fun _ _ _ h =>
      Verifier.verifyProof_performed w.registry h) fun _ => ?_
  exact hrel.bind (hrel.recordVerified _ _ _) fun _ => hrel.pure _

theorem sip10VerifyProof (proofType version : Nat) (inputsHash : Buff32) :
    Respects rel (Sip10ZkVerifier.verifyProof P ctx proofType version inputsHash inclusion) := by
  refine hrel.bind hrel.checkActive fun _ => hrel.bind hrel.read fun w =>
    hrel.bind (hrel.onSip10ZkVerifier fun _ _ _ h =>
      Verifier.verifyProof_performed w.registry h) fun _ => ?_
  exact hrel.bind (hrel.recordVerified _ _ _) fun _ => hrel.pure _

theorem collectFee (feeType amount : Nat) :
    Respects rel (ProtocolFees.collectFee ctx feeType amount) :=
  hrel.performs fun _ _ _ => ProtocolFees.collectFee_performs

theorem payFee (feeType fee : Nat) : Respects rel (ProtocolFees.payFee ctx feeType fee) :=
  respects_ite (hrel.bind (hrel.collectFee feeType fee) fun _ => hrel.pure _) (hrel.pure _)

end Walks

/-! ## STX operations -/

namespace PrivacyPool

variable (hrel : Walks call rel admits tokens)
include hrel

theorem shield_covered (hctx : ctx.txSender ≠ .protocolFees) (args : ShieldArgs) :
    Respects rel (shield P ctx args inclusion) := by
  refine hrel.bind hrel.read fun w => hrel.bind hrel.checkActive fun _ =>
    hrel.bind hrel.require fun _ =>
    hrel.bind (hrel.checks (keeps_validateShieldAmount _ _)) fun _ =>
    hrel.bind (hrel.checkCurrentRoot _ _ _) fun _ => hrel.bind (hrel.calculateFee _ _) fun fee =>
    hrel.bind (hrel.verifyProof _ _ _) fun _ => ?_
  refine hrel.bind (respects_orError (hrel.stxTransfer hctx (.inl (by decide)))) fun _ =>
    hrel.bind (hrel.payFee _ _) fun _ => hrel.bind (hrel.registerNote _ _ _) fun _ =>
    hrel.bind (hrel.registerCommitment _) fun index => hrel.bind hrel.require fun _ => ?_
  exact hrel.bind (hrel.updateRoot _) fun _ => hrel.bind (hrel.recordShield _) fun _ =>
    hrel.bind (hrel.recordCompleted _ _) fun _ => hrel.pure _

theorem transfer_covered (args : TransferArgs) : Respects rel (transfer P ctx args inclusion) := by
  refine hrel.bind hrel.read fun w => hrel.bind hrel.checkActive fun _ =>
    hrel.bind hrel.require fun _ => hrel.bind (hrel.checkCurrentRoot _ _ _) fun _ =>
    hrel.bind (hrel.calculateFee _ _) fun fee => hrel.bind (hrel.verifyProof _ _ _) fun _ => ?_
  refine hrel.bind (hrel.payFee _ _) fun _ => hrel.bind (hrel.registerNullifier _) fun _ =>
    hrel.bind (hrel.registerCommitment _) fun index => hrel.bind hrel.require fun _ =>
    hrel.bind (hrel.registerNote _ _ _) fun _ => ?_
  exact hrel.bind (hrel.updateRoot _) fun _ => hrel.bind hrel.recordTransfer fun _ =>
    hrel.bind (hrel.recordCompleted _ _) fun _ => hrel.pure _

theorem withdraw_covered (args : WithdrawArgs) : Respects rel (withdraw P ctx args inclusion) := by
  refine hrel.bind hrel.read fun w => hrel.bind hrel.checkActive fun _ =>
    hrel.bind hrel.require fun _ =>
    hrel.bind (hrel.checks (keeps_validateWithdrawalAmount _ _)) fun _ =>
    hrel.bind hrel.require fun _ => respects_require_bind fun hrecipient =>
    hrel.bind (hrel.calculateFee _ _) fun fee => hrel.bind hrel.require fun _ =>
    hrel.bind (hrel.verifyProof _ _ _) fun _ => ?_
  have hpool : Principal.privacyPool ≠ .protocolFees := by decide
  refine hrel.bind (hrel.registerNullifier _) fun _ => hrel.bind (hrel.recordWithdrawal _) fun _ =>
    hrel.bind (hrel.recordCompleted _ _) fun _ => hrel.bind (hrel.payFee _ _) fun _ => ?_
  exact hrel.bind (respects_orError (hrel.stxTransfer hpool (.inl hrecipient.2.2)))
    fun _ => hrel.pure _

theorem execute_covered (hctx : ctx.txSender ≠ .protocolFees) (poolCall : PrivacyPool.Call) :
    Respects rel (PrivacyPool.execute P ctx poolCall) := by
  refine hrel.bind hrel.read fun w => ?_
  cases poolCall with
  | shield args inclusion => exact hrel.bind (shield_covered hrel hctx args) fun _ => hrel.pure _
  | transfer args inclusion => exact hrel.bind (transfer_covered hrel args) fun _ => hrel.pure _
  | withdraw args inclusion => exact hrel.bind (withdraw_covered hrel args) fun _ => hrel.pure _
  | _ => exact hrel.bind (hrel.onPrivacyPool _) fun _ => hrel.pure _

end PrivacyPool

namespace SplitMergeManager

variable (hrel : Walks call rel admits tokens)
include hrel

theorem splitNote_covered (args : SplitArgs) :
    Respects rel (splitNote P ctx args inclusion) := by
  refine hrel.bind hrel.read fun w => hrel.bind hrel.checkActive fun _ =>
    hrel.bind hrel.require fun _ => hrel.bind hrel.require fun _ =>
    hrel.bind hrel.require fun _ => hrel.bind (hrel.checkCurrentRoot _ _ _) fun _ =>
    hrel.bind (hrel.calculateFee _ _) fun fee => hrel.bind (hrel.verifyProof _ _ _) fun _ => ?_
  refine hrel.bind (hrel.payFee _ _) fun _ => hrel.bind (hrel.registerNullifier _) fun _ =>
    hrel.bind (hrel.registerCommitment _) fun first => hrel.bind hrel.require fun _ =>
    hrel.bind (hrel.registerNote _ _ _) fun _ => ?_
  refine hrel.bind (hrel.registerCommitment _) fun second => hrel.bind hrel.addUint fun _ =>
    hrel.bind hrel.require fun _ => hrel.bind (hrel.registerNote _ _ _) fun _ => ?_
  exact hrel.bind (hrel.updateRoot _) fun _ =>
    hrel.bind (hrel.recordCompleted _ _) fun _ => hrel.pure _

theorem mergeNotes_covered (args : MergeArgs) :
    Respects rel (mergeNotes P ctx args inclusion) := by
  refine hrel.bind hrel.read fun w => hrel.bind hrel.checkActive fun _ =>
    hrel.bind hrel.require fun _ => hrel.bind hrel.require fun _ =>
    hrel.bind hrel.require fun _ => hrel.bind (hrel.checkCurrentRoot _ _ _) fun _ =>
    hrel.bind (hrel.calculateFee _ _) fun fee => hrel.bind (hrel.verifyProof _ _ _) fun _ => ?_
  refine hrel.bind (hrel.payFee _ _) fun _ => hrel.bind (hrel.registerNullifier _) fun _ =>
    hrel.bind (hrel.registerNullifier _) fun _ =>
    hrel.bind (hrel.registerCommitment _) fun index => hrel.bind hrel.require fun _ =>
    hrel.bind (hrel.registerNote _ _ _) fun _ => ?_
  exact hrel.bind (hrel.updateRoot _) fun _ =>
    hrel.bind (hrel.recordCompleted _ _) fun _ => hrel.pure _

theorem execute_covered (managerCall : SplitMergeManager.Call) :
    Respects rel (SplitMergeManager.execute P ctx managerCall) := by
  refine hrel.bind hrel.read fun w => ?_
  cases managerCall with
  | splitNote args inclusion => exact hrel.bind (splitNote_covered hrel args) fun _ => hrel.pure _
  | mergeNotes args inclusion =>
      exact hrel.bind (mergeNotes_covered hrel args) fun _ => hrel.pure _
  | _ => exact hrel.bind (hrel.onSplitMergeManager _) fun _ => hrel.pure _

end SplitMergeManager

/-! ## SIP-10 operations -/

theorem respects_within {function : FunctionId} {body : Ctx → Exec World α}
    (h : Respects rel (body (ctx.entering function))) :
    Respects rel (within ctx function body) := by
  intro w value w' hrun
  exact h w value w' (within_ok.mp hrun).2

namespace Sip10Pool

variable (hrel : Walks call rel admits tokens)
include hrel

theorem poolBalance_covered (hctx : admits ctx) (token : Principal) :
    Respects rel (poolBalance tokens ctx token) :=
  respects_within (respects_orError
    (hrel.asked _ _ _ (hrel.calledBy _ (hrel.entering _ hctx))))

theorem payFee_covered (hctx : admits ctx) (assetUid feeType fee : Nat) (token : Principal) :
    Respects rel (payFee tokens ctx assetUid feeType fee token) := by
  refine respects_ite (hrel.bind (respects_within ?_) fun _ => hrel.pure _) (hrel.pure _)
  exact hrel.collects (hrel.entering _ hctx) _ _ _ _

theorem checkSpendable_covered (token : Principal) (op : Nat) :
    Respects rel (checkSpendable token op) :=
  hrel.bind hrel.read fun _ => hrel.bind hrel.unwrap fun _ => hrel.bind hrel.checkActive fun _ =>
    hrel.bind hrel.require fun _ => hrel.bind hrel.require fun _ => hrel.pure _

theorem shield_covered (hctx : admits ctx) (token : Principal) (args : ShieldArgs) :
    Respects rel (shield P tokens ctx token args inclusion) := by
  have hcaller : admits (ctx.calledBy .sip10Pool) := hrel.calledBy _ hctx
  refine hrel.bind hrel.read fun w => hrel.bind hrel.unwrap fun assetUid =>
    hrel.bind hrel.checkActive fun _ => hrel.bind hrel.require fun _ =>
    hrel.bind hrel.require fun _ => hrel.bind hrel.unwrap fun asset =>
    hrel.bind hrel.require fun _ => hrel.bind (hrel.checkCurrentRoot _ _ _) fun _ =>
    hrel.bind (hrel.sip10CalculateFee _ _ _) fun fee => ?_
  refine hrel.bind (poolBalance_covered hrel hctx _) fun _ =>
    hrel.bind (hrel.sip10VerifyProof _ _ _) fun _ =>
    hrel.bind (respects_orError (hrel.asked _ _ _ hcaller)) fun _ =>
    hrel.bind (poolBalance_covered hrel hctx _) fun _ =>
    hrel.bind hrel.addUint fun _ => hrel.bind hrel.require fun _ =>
    hrel.bind (payFee_covered hrel hcaller _ _ _ _) fun _ => ?_
  refine hrel.bind (hrel.registerNote _ _ _) fun _ => hrel.bind (hrel.registerCommitment _) fun _ =>
    hrel.bind hrel.require fun _ => hrel.bind (hrel.updateRoot _) fun _ =>
    hrel.bind hrel.read fun after => hrel.bind hrel.addUint fun _ => ?_
  exact hrel.bind (hrel.onSip10Pool _) fun _ => hrel.bind (hrel.recordCompleted _ _) fun _ =>
    hrel.pure _

theorem transfer_covered (hctx : admits ctx) (token : Principal) (args : TransferArgs) :
    Respects rel (transfer P tokens ctx token args inclusion) := by
  have hcaller : admits (ctx.calledBy .sip10Pool) := hrel.calledBy _ hctx
  refine hrel.bind (checkSpendable_covered hrel _ _) fun assetUid =>
    hrel.bind (hrel.checkCurrentRoot _ _ _) fun _ =>
    hrel.bind (hrel.sip10CalculateFee _ _ _) fun fee =>
    hrel.bind (hrel.sip10VerifyProof _ _ _) fun _ =>
    hrel.bind (payFee_covered hrel hcaller _ _ _ _) fun _ => ?_
  exact hrel.bind (hrel.registerNullifier _) fun _ => hrel.bind (hrel.registerCommitment _) fun _ =>
    hrel.bind hrel.require fun _ => hrel.bind (hrel.registerNote _ _ _) fun _ =>
    hrel.bind (hrel.updateRoot _) fun _ => hrel.bind (hrel.recordCompleted _ _) fun _ =>
    hrel.pure _

theorem split_covered (hctx : admits ctx) (token : Principal) (args : SplitArgs) :
    Respects rel (split P tokens ctx token args inclusion) := by
  have hcaller : admits (ctx.calledBy .sip10Pool) := hrel.calledBy _ hctx
  refine hrel.bind (checkSpendable_covered hrel _ _) fun assetUid =>
    hrel.bind (hrel.checkCurrentRoot _ _ _) fun _ =>
    hrel.bind (hrel.sip10CalculateFee _ _ _) fun fee =>
    hrel.bind (hrel.sip10VerifyProof _ _ _) fun _ =>
    hrel.bind (payFee_covered hrel hcaller _ _ _ _) fun _ => ?_
  refine hrel.bind (hrel.registerNullifier _) fun _ =>
    hrel.bind (hrel.registerCommitment _) fun first =>
    hrel.bind (hrel.registerCommitment _) fun second => hrel.bind hrel.require fun _ =>
    hrel.bind hrel.addUint fun _ => hrel.bind hrel.require fun _ => ?_
  exact hrel.bind (hrel.registerNote _ _ _) fun _ => hrel.bind (hrel.registerNote _ _ _) fun _ =>
    hrel.bind (hrel.updateRoot _) fun _ => hrel.bind (hrel.recordCompleted _ _) fun _ =>
    hrel.pure _

theorem mergeNotes_covered (hctx : admits ctx) (token : Principal) (args : MergeArgs) :
    Respects rel (mergeNotes P tokens ctx token args inclusion) := by
  have hcaller : admits (ctx.calledBy .sip10Pool) := hrel.calledBy _ hctx
  refine hrel.bind (checkSpendable_covered hrel _ _) fun assetUid =>
    hrel.bind (hrel.checkCurrentRoot _ _ _) fun _ =>
    hrel.bind (hrel.sip10CalculateFee _ _ _) fun fee =>
    hrel.bind (hrel.sip10VerifyProof _ _ _) fun _ =>
    hrel.bind (payFee_covered hrel hcaller _ _ _ _) fun _ => ?_
  exact hrel.bind (hrel.registerNullifier _) fun _ => hrel.bind (hrel.registerNullifier _) fun _ =>
    hrel.bind (hrel.registerCommitment _) fun _ => hrel.bind hrel.require fun _ =>
    hrel.bind (hrel.registerNote _ _ _) fun _ => hrel.bind (hrel.updateRoot _) fun _ =>
    hrel.bind (hrel.recordCompleted _ _) fun _ => hrel.pure _

theorem withdraw_covered (hctx : admits ctx) (token : Principal) (args : WithdrawArgs) :
    Respects rel (withdraw P tokens ctx token args inclusion) := by
  have hcontract : admits (ctx.asContract .sip10Pool) :=
    hrel.asPool hctx
  refine hrel.bind hrel.read fun w => hrel.bind (checkSpendable_covered hrel _ _) fun assetUid =>
    hrel.bind hrel.require fun _ => hrel.bind hrel.require fun _ =>
    hrel.bind (hrel.sip10CalculateFee _ _ _) fun fee =>
    hrel.bind (poolBalance_covered hrel hctx _) fun _ =>
    hrel.bind hrel.read fun before => hrel.bind hrel.require fun _ =>
    hrel.bind hrel.require fun _ => hrel.bind (hrel.sip10VerifyProof _ _ _) fun _ => ?_
  refine hrel.bind (hrel.registerNullifier _) fun _ => hrel.bind hrel.read fun after =>
    hrel.bind hrel.subUint fun _ => hrel.bind (hrel.onSip10Pool _) fun _ =>
    hrel.bind (hrel.recordCompleted _ _) fun _ =>
    hrel.bind (payFee_covered hrel hcontract _ _ _ _) fun _ => ?_
  exact hrel.bind (respects_orError (hrel.asked _ _ _ hcontract)) fun _ =>
    hrel.bind (poolBalance_covered hrel hctx _) fun _ =>
    hrel.bind hrel.subUint fun _ => hrel.bind hrel.require fun _ => hrel.pure _

theorem execute_covered (hctx : admits ctx) (poolCall : Sip10Pool.Call) :
    Respects rel (Sip10Pool.execute P tokens ctx poolCall) := by
  cases poolCall with
  | shield token args inclusion =>
      exact hrel.bind (shield_covered hrel hctx _ _) fun _ => hrel.pure _
  | transfer token args inclusion =>
      exact hrel.bind (transfer_covered hrel hctx _ _) fun _ => hrel.pure _
  | split token args inclusion =>
      exact hrel.bind (split_covered hrel hctx _ _) fun _ => hrel.pure _
  | mergeNotes token args inclusion =>
      exact hrel.bind (mergeNotes_covered hrel hctx _ _) fun _ => hrel.pure _
  | withdraw token args inclusion =>
      exact hrel.bind (withdraw_covered hrel hctx _ _) fun _ => hrel.pure _
  | setOperationEnabled op enabled =>
      exact hrel.bind hrel.read fun w => hrel.bind (hrel.onSip10Pool _) fun _ => hrel.pure _

end Sip10Pool

/-! ## Calls -/

section Dispatch

variable (hrel : Walks call rel admits tokens)
include hrel

theorem ZkVerifier.execute_covered (verifierCall : Verifier.Call) :
    Respects rel (ZkVerifier.execute P ctx verifierCall) := by
  cases verifierCall with
  | verifyProof proofType version inputsHash inclusion =>
      exact hrel.bind (hrel.verifyProof _ _ _) fun _ => hrel.pure _
  | _ =>
      exact hrel.bind hrel.read fun w => hrel.onZkVerifier fun _ _ _ =>
        Verifier.administer_performed

theorem Sip10ZkVerifier.execute_covered (verifierCall : Sip10Verifier.Call)
    (hcall : ∀ version, verifierCall = .setCircuitVersion version →
      call = .sip10ZkVerifier (.setCircuitVersion version)) :
    Respects rel (Sip10ZkVerifier.execute P ctx verifierCall) := by
  cases verifierCall with
  | common common =>
      cases common with
      | verifyProof proofType version inputsHash inclusion =>
          exact hrel.bind (hrel.sip10VerifyProof _ _ _) fun _ => hrel.pure _
      | _ =>
          exact hrel.bind hrel.read fun w => hrel.onSip10ZkVerifier fun _ _ _ =>
            Verifier.administer_performed
  | setCircuitVersion version =>
      intro w value w' h
      simp only [execute, ↓bind_ok, ↓exists_read, onSip10ZkVerifier_ok] at h
      obtain ⟨storage, hrun, rfl⟩ := h
      exact hrel.writes (.setCircuitVersion (hcall version rfl) hrun) rfl
  | setAuthorizedPool pool =>
      intro w value w' h
      simp only [execute, setAuthorizedPool, ↓bind_ok, ↓exists_read, onSip10ZkVerifier_ok,
        ↓exists_require, modify_ok] at h
      obtain ⟨_, ⟨-, -, rfl⟩, rfl⟩ := h
      exact hrel.writes (.sip10ZkVerifier _ rfl .unchanged) rfl

theorem ProtocolFees.execute_covered (feeCall : ProtocolFees.Call) :
    Respects rel (ProtocolFees.execute ctx feeCall) :=
  hrel.performs fun _ _ _ => ProtocolFees.execute_performs

/-- Registering an asset is left out: its id was read before the token ran. -/
theorem dispatch_covered (hctx : admits ctx) (hsender : ctx.txSender ≠ .protocolFees)
    (hregister : ∀ args, call ≠ .assetRegistry (.registerAsset args)) :
    Respects rel (dispatch env tokens ctx call) := by
  cases call with
  | privacyRegistry registryCall =>
      intro w value w' h
      simp only [dispatch, bind_ok, onRegistry_ok, pure_ok] at h
      obtain ⟨_, _, ⟨registry, hrun, rfl⟩, -, rfl⟩ := h
      exact hrel.writes (.registry (execute_performed hrun)) rfl
  | noteManager managerCall =>
      intro w value w' h
      simp only [dispatch, bind_ok, pure_ok] at h
      obtain ⟨_, _, hrun, -, rfl⟩ := h
      exact hrel.writes (.noteManager hrun) (NoteManager.execute_keeps_fees hrun)
  | zkVerifier verifierCall =>
      exact hrel.bind (ZkVerifier.execute_covered hrel _) fun _ => hrel.pure _
  | sip10ZkVerifier verifierCall =>
      refine hrel.bind (Sip10ZkVerifier.execute_covered hrel _ fun version hcall => ?_)
        fun _ => hrel.pure _
      rw [hcall]
  | protocolFees feeCall =>
      exact hrel.bind (ProtocolFees.execute_covered hrel _) fun _ => hrel.pure _
  | assetRegistry assetCall =>
      refine hrel.bind ?_ fun _ => hrel.pure _
      cases assetCall with
      | registerAsset args => exact absurd rfl (hregister args)
      | _ =>
          exact hrel.bind hrel.read fun w => hrel.bind (hrel.administer _ rfl) fun _ => hrel.pure _
  | sip10ProtocolFees feeCall =>
      exact hrel.bind (hrel.administers hctx _) fun _ => hrel.pure _
  | privacyPool poolCall =>
      exact hrel.bind (PrivacyPool.execute_covered hrel hsender _) fun _ => hrel.pure _
  | splitMergeManager managerCall => exact SplitMergeManager.execute_covered hrel _
  | sip10Pool poolCall => exact Sip10Pool.execute_covered hrel hctx _
  | stxTransfer amount sender recipient =>
      exact hrel.bind (hrel.stxTransfer hsender (.inr rfl)) fun _ => hrel.pure _
  | token token function => exact hrel.bind (hrel.asked token _ _ hctx) fun _ => hrel.pure _

end Dispatch

/-! ## Relations that all writes stay within -/

section Covers

variable (hrel : Covers call rel) (hadmits : Delegable admits)
  (htokens : TokensRespect admits rel tokens)
include hrel

theorem Covers.onSip10ProtocolFees (m : Exec Sip10ProtocolFees α) :
    Respects rel (onSip10ProtocolFees m) := by
  intro w value w' h
  obtain ⟨storage, -, rfl⟩ := onSip10ProtocolFees_ok.mp h
  exact hrel.writes (.sip10ProtocolFees storage)

theorem Covers.checkActive : Respects rel (onRegistry checkActive) := by
  intro w value w' h
  obtain ⟨registry, hrun, rfl⟩ := onRegistry_ok.mp h
  obtain rfl : registry = w.registry := keeps_checkActive id _ _ _ hrun
  exact hrel.refl w

include hadmits htokens

namespace Sip10ProtocolFees

theorem collectFee_covered (hctx : admits ctx) (assetId feeType amount : Nat) (token : Principal) :
    Respects rel (collectFee tokens ctx assetId feeType amount token) := by
  refine hrel.bind hrel.read fun w => hrel.bind hrel.unwrap fun asset =>
    hrel.bind hrel.checkActive fun _ => hrel.bind hrel.require fun _ =>
    hrel.bind hrel.require fun _ => hrel.bind hrel.require fun _ =>
    hrel.bind hrel.require fun _ => hrel.bind hrel.require fun _ => ?_
  refine hrel.bind (respects_orError (htokens _ _ _ (hadmits.calledBy _ hctx))) fun _ =>
    hrel.bind hrel.addUint fun _ => hrel.bind hrel.addUint fun _ =>
    hrel.bind hrel.addUint fun _ => ?_
  exact hrel.bind (hrel.onSip10ProtocolFees _) fun _ => hrel.pure _

theorem withdrawFees_covered (hctx : admits ctx) (assetId amount : Nat) (token : Principal) :
    Respects rel (withdrawFees tokens ctx assetId amount token) := by
  have hcontract : admits (ctx.asContract .sip10ProtocolFees) :=
    hadmits.asContract (by decide) (by decide) hctx
  refine hrel.bind hrel.read fun w => hrel.bind hrel.unwrap fun asset =>
    hrel.bind hrel.require fun _ => hrel.bind hrel.require fun _ =>
    hrel.bind hrel.require fun _ => hrel.bind hrel.require fun _ =>
    hrel.bind hrel.require fun _ => ?_
  exact hrel.bind (respects_orError (htokens _ _ _ hcontract)) fun _ =>
    hrel.bind hrel.addUint fun _ => hrel.bind hrel.subUint fun _ => hrel.onSip10ProtocolFees _

theorem execute_covered (hctx : admits ctx) (feeCall : Sip10ProtocolFees.Call) :
    Respects rel (Sip10ProtocolFees.execute tokens ctx feeCall) := by
  refine hrel.bind hrel.read fun w => ?_
  cases feeCall with
  | collectFee assetId feeType amount token =>
      exact hrel.bind (collectFee_covered hrel hadmits htokens hctx _ _ _ _) fun _ => hrel.pure _
  | withdrawFees assetId amount token =>
      exact withdrawFees_covered hrel hadmits htokens hctx _ _ _
  | _ => exact hrel.onSip10ProtocolFees _

end Sip10ProtocolFees

theorem Covers.walks : Walks call rel admits tokens where
  toComposes := hrel.toComposes
  writes h _ := hrel.writes h
  calledBy := hadmits.calledBy
  entering := hadmits.entering
  asPool := hadmits.asContract (by decide) (by decide)
  asked := htokens
  collects hctx := Sip10ProtocolFees.collectFee_covered hrel hadmits htokens hctx
  administers hctx := Sip10ProtocolFees.execute_covered hrel hadmits htokens hctx

end Covers

/-! ## Executions -/

/-- What `register-asset` writes once the token has answered. -/
structure RegistersAsset (args : RegisterAssetArgs) (w w' : World) : Prop where
  version : args.version = AssetRegistry.supportedAssetVersion
  decimals : args.decimals ≤ AssetRegistry.maxDecimals
  limits : AssetRegistry.validLimits args.minShield args.maxShield args.minNote args.maxNote
  recipient : args.feeRecipient ≠ .burnAddress
  fresh : w.assetRegistry.principalToId.lookup args.token = none
  next : w.assetRegistry.nextAssetId + 1 < uintBound
  written : w' =
    { w with
      assetRegistry := AssetRegistry.withAsset w.assetRegistry w.assetRegistry.nextAssetId args
        (w.assetRegistry.nextAssetId + 1) (w.assetRegistry.assetCount + 1) }

/-- What a call did, before and after it was recorded. -/
inductive CallWrites (rel : World → World → Prop) (ctx : Ctx) (call : Call) (w : World) :
    World → Prop where
  | covered {mid : World} {registered : Nat} (h : rel w mid) :
      CallWrites rel ctx call w { mid with history := .called ctx call registered :: mid.history }
  | registerAsset {args : RegisterAssetArgs} {mid after : World} {registered : Nat}
      (hcall : call = .assetRegistry (.registerAsset args)) (h : rel w mid)
      (hregisters : RegistersAsset args mid after) :
      CallWrites rel ctx call w
        { after with history := .called ctx call registered :: after.history }

/-- Contexts in which no STX can be sent from the pool or from the treasury. -/
structure StxSafe (ctx : Ctx) : Prop where
  pool : PoolSafe ctx
  fees : ctx.txSender ≠ .protocolFees

theorem stxSafe_delegable : Delegable StxSafe where
  sender h := h.pool
  calledBy _ h := ⟨h.pool, h.fees⟩
  entering _ h := ⟨h.pool, h.fees⟩
  asContract hpool hfees _ := ⟨hpool, hfees⟩

theorem Ctx.TopLevel.stxSafe {ctx : Ctx} (h : ctx.TopLevel) : StxSafe ctx :=
  ⟨h.external.sender_ne_pool, h.external.sender_ne_fees⟩

variable {w w' : World} {data : List Nat} {depth : Nat}

/-- The token was asked in between, and no other asset was registered meanwhile. -/
theorem registerAsset_writes {args : RegisterAssetArgs} {id : Nat}
    (htokens : TokensRespect admits rel (callToken env (exec env depth)))
    (hctx : RegisteringAsset ctx) (hcaller : admits (ctx.calledBy .assetRegistry))
    (h : AssetRegistry.registerAsset (callToken env (exec env depth)) ctx args w = .ok (id, w')) :
    ∃ mid, rel w mid ∧ RegistersAsset args mid w' := by
  unfold AssetRegistry.registerAsset at h
  simp only [↓bind_ok, ↓exists_read, ↓exists_require, ↓orError_ok, ↓exists_addUint,
    onAssetRegistry_ok, modify_ok, pure_ok, Option.isNone_iff_eq_none] at h
  obtain ⟨-, hversion, -, hdecimals, -, hfresh, hlimits, hrecipient, _, mid, hasked, -, hnext, -,
    _, _, ⟨_, rfl, rfl⟩, -, rfl⟩ := h
  have hcalled : RegisteringAsset (ctx.calledBy .assetRegistry) := hctx
  have htable : mid.assetRegistry.table = w.assetRegistry.table :=
    (callToken_respects keepsIds_closed registeringAsset_delegable (exec_keepsIds env depth)
      _ _ _ hcalled _ _ _ hasked).assets
  have hid : mid.assetRegistry.nextAssetId = w.assetRegistry.nextAssetId :=
    congrArg AssetTable.nextId htable
  have hunknown : mid.assetRegistry.principalToId.lookup args.token = none :=
    (congrFun (congrArg AssetTable.idOf htable) args.token).trans hfresh
  have hrelated : rel w mid := htokens _ _ _ hcaller _ _ _ hasked
  refine ⟨mid, hrelated, hversion, hdecimals, hlimits, hrecipient, hunknown, hid ▸ hnext, ?_⟩
  rw [hid]

/-- Every call is a sequence of writes, with token code in between. -/
theorem execCall_walks (hrel : Walks call rel admits (callToken env (exec env depth)))
    (hctx : admits ctx) (hsafe : StxSafe ctx)
    (h : execCall env (callToken env (exec env depth)) ctx call w = .ok (data, w')) :
    CallWrites rel ctx call w w' := by
  obtain ⟨mid, hrun, rfl⟩ := execCall_ok.mp h
  obtain ⟨inner, hdispatch, hinner⟩ := withinCall_ok hrun
  have hadmitted : admits inner ∧ StxSafe inner :=
    ⟨hinner.admitted hrel.entering hctx, hinner.admitted stxSafe_delegable.entering hsafe⟩
  by_cases hregister : ∃ args, call = .assetRegistry (.registerAsset args)
  · obtain ⟨args, rfl⟩ := hregister
    have hregistering : RegisteringAsset inner := by
      obtain ⟨-, rfl⟩ := hinner.entered rfl
      exact ⟨List.mem_cons_self, hsafe.pool⟩
    simp only [dispatch, AssetRegistry.execute, bind_ok, pure_ok] at hdispatch
    obtain ⟨_, _, ⟨_, _, hregistered, -, rfl⟩, -, rfl⟩ := hdispatch
    obtain ⟨asked, hasked, hregisters⟩ :=
      registerAsset_writes hrel.asked hregistering (hrel.calledBy _ hadmitted.1) hregistered
    exact .registerAsset rfl hasked hregisters
  · exact .covered (dispatch_covered hrel hadmitted.1 hadmitted.2.fees
      (fun args hcall => hregister ⟨args, hcall⟩) _ _ _ hdispatch)

theorem execCall_writes (hrel : Covers call rel)
    (htokens : TokensRespect StxSafe rel (callToken env (exec env depth))) (hctx : StxSafe ctx)
    (h : execCall env (callToken env (exec env depth)) ctx call w = .ok (data, w')) :
    CallWrites rel ctx call w w' :=
  execCall_walks (hrel.walks stxSafe_delegable htokens) hctx hctx h

end StxShield
