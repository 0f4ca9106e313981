import StxShield.Library.Lockstep
import StxShield.Protocol.Presentation

/-!
# An operation submitted twice

Two calls that perform the same operation, with other metadata and another
inclusion proof, are run side by side.  They leave the same state but for the
metadata of the notes they register.  This is so even if different accounts
submit them, as long as the code of a token does not tell the two apart to the
protocol: an honest token does not.
-/

namespace StxShield

open Library Exec World

/-! ## States that differ in metadata -/

/-- Metadata by note id, for the notes whose metadata is given. -/
abbrev Labels : Type := Buff32 → Option Buff32

def unlabelled : Labels := fun _ => none

def label (given : Labels) (noteId metadata : Buff32) : Labels := fun other =>
  if other = noteId then some metadata else given other

def NoteRecord.relabel (metadata : Option Buff32) (note : NoteRecord) : NoteRecord :=
  { note with metadata := metadata.getD note.metadata }

/-- The metadata an operation gives to the notes it registers. -/
def Operation.labels (op : Operation) : Labels :=
  match op.action with
  | .shield args => label unlabelled args.commitment args.metadata
  | .transfer args => label unlabelled args.newCommitment args.newMetadata
  | .withdraw _ => unlabelled
  | .split args =>
      label (label unlabelled args.commitment1 args.metadata1) args.commitment2 args.metadata2
  | .merge args => label unlabelled args.commitment args.metadata

/-- The second state is the first with the given metadata; the STX of accounts
outside the protocol are left open, and for some tokens all but the protocol's
holdings. -/
structure Alike (loose : Set Principal) (given : Labels) (s t : World) : Prop where
  registry : s.registry = t.registry
  zkVerifier : s.zkVerifier = t.zkVerifier
  protocolFees : s.protocolFees = t.protocolFees
  privacyPool : s.privacyPool = t.privacyPool
  splitMergeManager : s.splitMergeManager = t.splitMergeManager
  assetRegistry : s.assetRegistry = t.assetRegistry
  sip10ProtocolFees : s.sip10ProtocolFees = t.sip10ProtocolFees
  sip10ZkVerifier : s.sip10ZkVerifier = t.sip10ZkVerifier
  sip10Pool : s.sip10Pool = t.sip10Pool
  tokens : ∀ token, token ∉ loose → s.tokens token = t.tokens token
  held : ∀ token who, who.isProtocol = true →
    (s.tokens token).balances who = (t.tokens token).balances who
  noteStatistics : s.noteManager.noteStatistics = t.noteManager.noteStatistics
  notes : ∀ noteId, t.noteManager.notes.lookup noteId =
    (s.noteManager.notes.lookup noteId).map (NoteRecord.relabel (given noteId))
  stx : ∀ who : Principal, who.isProtocol = true → s.stx who = t.stx who

theorem alike_refl (loose : Set Principal) (w : World) : Alike loose unlabelled w w where
  registry := rfl
  zkVerifier := rfl
  protocolFees := rfl
  privacyPool := rfl
  splitMergeManager := rfl
  assetRegistry := rfl
  sip10ProtocolFees := rfl
  sip10ZkVerifier := rfl
  sip10Pool := rfl
  tokens _ _ := rfl
  held _ _ _ := rfl
  noteStatistics := rfl
  notes noteId := by
    have hid : NoteRecord.relabel (unlabelled noteId) = id := rfl
    rw [hid, Option.map_id]
    rfl
  stx _ _ := rfl

/-- From one state the two sides start alike. -/
theorem lockstep_of_alike {α : Type} {m m' : Exec World α} {post : World → World → Prop}
    {loose : Set Principal} (h : Lockstep (Alike loose unlabelled) m m' post) :
    Lockstep Eq m m' post :=
  h.weaken (fun s _ hst => hst ▸ alike_refl loose s) fun _ _ hend => hend

/-! ## What the contexts have in common -/

/-- Two callers that the contracts called next cannot tell apart, except that
they send from different accounts. -/
structure SameCaller (c c' : Ctx) : Prop where
  contractCaller : c.contractCaller = c'.contractCaller
  height : c.height = c'.height

theorem SameCaller.eq {c c' : Ctx} (h : SameCaller c c') :
    c' = { c with txSender := c'.txSender, stack := c'.stack } := by
  rw [h.contractCaller, h.height]

theorem sameCaller_calledBy {ctx ctx' : Ctx} (hheight : ctx.height = ctx'.height)
    (contract : Principal) : SameCaller (ctx.calledBy contract) (ctx'.calledBy contract) :=
  ⟨rfl, hheight⟩

/-- Two principals that STX are sent from: the same, or both outside the
protocol. -/
def SameSource (sender sender' : Principal) : Prop :=
  sender = sender' ∨ sender.isProtocol = false ∧ sender'.isProtocol = false

/-! ## Pieces -/

section Pieces

variable {loose : Set Principal} {given : Labels} {α : Type} {c c' : Ctx}

theorem alike_onRegistry {m m' : Exec PrivacyRegistry α} (hm : m = m') :
    Lockstep (Alike loose given) (onRegistry m) (onRegistry m') (Alike loose given) := by
  subst hm
  exact .zoom_both (.refl m) (fun _ _ h => h.registry) fun _ _ _ h => { h with registry := rfl }

theorem alike_onProtocolFees {m : Exec ProtocolFees α} :
    Lockstep (Alike loose given) (onProtocolFees m) (onProtocolFees m) (Alike loose given) :=
  .zoom_both (.refl m) (fun _ _ h => h.protocolFees) fun _ _ _ h => { h with protocolFees := rfl }

theorem alike_onSip10Pool {m : Exec Sip10Pool α} :
    Lockstep (Alike loose given) (onSip10Pool m) (onSip10Pool m) (Alike loose given) :=
  .zoom_both (.refl m) (fun _ _ h => h.sip10Pool) fun _ _ _ h => { h with sip10Pool := rfl }

/-- Events are not part of the contracts' states. -/
theorem alike_record {event event' : Event} :
    Lockstep (Alike loose given) (record event) (record event') (Alike loose given) :=
  .modify_related fun _ _ h => { h with }

theorem alike_checkCurrentRoot {declared : Buff32} {errStaleRoot errUnknownRoot : Nat} :
    Lockstep (Alike loose given) (PoolCalls.checkCurrentRoot declared errStaleRoot errUnknownRoot)
      (PoolCalls.checkCurrentRoot declared errStaleRoot errUnknownRoot) (Alike loose given) :=
  .read_bind fun _ _ _ => .require_bind fun _ _ => .require_both

theorem alike_calculateFee {feeType amount : Nat} :
    Lockstep (Alike loose given) (ProtocolFees.calculateFee feeType amount)
      (ProtocolFees.calculateFee feeType amount) (Alike loose given) := by
  refine .read_bind fun s t hst => ?_
  rw [hst.registry, hst.protocolFees]
  refine .unwrap_bind fun config config' hconfig hconfig' => ?_
  obtain rfl := Option.some.inj (hconfig.symm.trans hconfig')
  exact .ite_same (.bind .mulUint_same fun _ => .addUint_same) .pure_same

/-- The inclusion proof is checked and not stored. -/
theorem lockstep_verifyProof {P : Primitives} {errorBase currentVersion : Nat}
    {authorized : Prop} [Decidable authorized] (hcaller : SameCaller c c')
    {proofType circuitVersion : Nat} {publicInputsHash : Buff32}
    {inclusion inclusion' : Inclusion} :
    Lockstep Eq
      (Verifier.verifyProof P errorBase authorized currentVersion c proofType circuitVersion
        publicInputsHash inclusion)
      (Verifier.verifyProof P errorBase authorized currentVersion c' proofType circuitVersion
        publicInputsHash inclusion') Eq := by
  unfold Verifier.verifyProof
  refine .read_bind fun verifier verifier' hverifier => ?_
  subst hverifier
  refine .require_bind fun _ _ => .require_bind fun _ _ => .require_bind fun _ _ =>
    .require_bind fun _ _ => .require_bind fun _ _ => ?_
  refine .unwrap_bind fun vkey vkey' _ _ => .unwrap_bind fun agg agg' _ _ => ?_
  refine .require_bind fun _ _ => .require_bind fun _ _ => ?_
  refine .unwrap_bind fun binding binding' hbinding hbinding' => ?_
  obtain rfl := Option.some.inj (hbinding.symm.trans hbinding')
  refine .require_bind fun _ _ => .require_bind fun _ _ => .require_bind fun _ _ => ?_
  rw [hcaller.height]
  refine .unwrap_bind fun proofs proofs' hproofs hproofs' => ?_
  obtain rfl := Option.some.inj (hproofs.symm.trans hproofs')
  refine .bind (.refl _) fun stats => .bind (.modify_related ?_) fun _ => .pure_same
  rintro verifier _ rfl
  rfl

theorem alike_verifyProof {P : Primitives} (hcaller : SameCaller c c')
    {proofType circuitVersion : Nat} {publicInputsHash : Buff32}
    {inclusion inclusion' : Inclusion} :
    Lockstep (Alike loose given)
      (ZkVerifier.verifyProof P c proofType circuitVersion publicInputsHash inclusion)
      (ZkVerifier.verifyProof P c' proofType circuitVersion publicInputsHash inclusion')
      (Alike loose given) := by
  refine .bind (alike_onRegistry rfl) fun _ => .read_bind fun s t hst => ?_
  rw [hst.registry, hcaller.contractCaller]
  refine .bind (.zoom_both (lockstep_verifyProof hcaller) (fun _ _ h => h.zkVerifier) ?_) fun _ =>
    .bind alike_record fun _ => .pure_same
  intro _ _ _ h
  exact { h with zkVerifier := rfl }

/-- What leaves an account outside the protocol is not compared. -/
theorem alike_stxTransfer {amount : Nat} {sender sender' recipient : Principal}
    (hsource : SameSource sender sender') :
    Lockstep (Alike loose given) (stxTransfer c amount sender recipient)
      (stxTransfer c' amount sender' recipient) (Alike loose given) := by
  refine .read_bind fun _ _ _ => .require_bind fun _ _ => .require_bind fun _ _ =>
    .require_bind fun _ _ => .require_bind fun _ _ => .modify_related ?_
  intro s t hst
  refine { hst with stx := ?_ }
  intro who hwho
  have hsame := hst.stx who hwho
  rcases hsource with rfl | ⟨hsender, hsender'⟩
  · simp only [moved, hsame]
  · have hne : who ≠ sender := by
      rintro rfl
      cases hsender.symm.trans hwho
    have hne' : who ≠ sender' := by
      rintro rfl
      cases hsender'.symm.trans hwho
    simp only [moved, if_neg hne, if_neg hne', hsame]

theorem alike_payFee {feeType fee : Nat}
    (hsource : SameSource c.txSender c'.txSender) :
    Lockstep (Alike loose given) (ProtocolFees.payFee c feeType fee) (ProtocolFees.payFee c' feeType fee)
      (Alike loose given) := by
  refine .ite_same (.bind ?_ fun _ => .pure_same) .pure_same
  refine .read_bind fun s t hst => ?_
  rw [hst.protocolFees]
  refine .bind (alike_onRegistry rfl) fun _ => .require_bind fun _ _ => .require_bind fun _ _ =>
    .require_bind fun _ _ => .require_bind fun _ _ => ?_
  refine .bind (.orError_both (alike_stxTransfer hsource)) fun _ => ?_
  refine .bind .addUint_same fun _ => .bind .addUint_same fun _ => .bind .addUint_same fun _ => ?_
  exact .bind alike_onProtocolFees fun _ => .pure_same

/-! ### Registration -/

theorem alike_registerNullifier (hcaller : SameCaller c c') {nullifier : Buff32} :
    Lockstep (Alike loose given) (PoolCalls.registerNullifier c nullifier)
      (PoolCalls.registerNullifier c' nullifier) (Alike loose given) := by
  refine alike_onRegistry ?_
  rw [hcaller.eq]
  rfl

theorem alike_registerCommitment (hcaller : SameCaller c c') {commitment : Buff32} :
    Lockstep (Alike loose given) (PoolCalls.registerCommitment c commitment)
      (PoolCalls.registerCommitment c' commitment) (Alike loose given) := by
  refine .read_bind fun s t hst => alike_onRegistry ?_
  rw [hst.registry, hcaller.eq]
  rfl

theorem alike_updateRoot (hcaller : SameCaller c c') {newRoot : Buff32} :
    Lockstep (Alike loose given) (PoolCalls.updateRoot c newRoot) (PoolCalls.updateRoot c' newRoot)
      (Alike loose given) := by
  refine .read_bind fun s t hst => alike_onRegistry ?_
  rw [hst.registry, hcaller.eq]
  rfl

/-- A note with other metadata is registered on the second side. -/
theorem alike_registerNote (hcaller : SameCaller c c')
    {noteId ownerCommitment metadata metadata' : Buff32} :
    Lockstep (Alike loose given) (PoolCalls.registerNote c noteId ownerCommitment metadata)
      (PoolCalls.registerNote c' noteId ownerCommitment metadata')
      (Alike loose (label given noteId metadata')) := by
  refine .read_bind fun s t hst => ?_
  rw [hst.registry]
  refine .read_bind fun s t hst => ?_
  refine .bind (alike_onRegistry rfl) fun _ => .require_bind fun _ _ => .require_bind fun _ _ =>
    .require_bind fun _ _ => .require_bind fun _ _ => .require_bind fun _ _ => ?_
  refine .bind (alike_onRegistry rfl) fun _ => ?_
  refine .unwrap_bind fun notes notes' hnotes hnotes' => ?_
  obtain ⟨-, rfl⟩ := DataMap.insertNew?_eq_some.mp hnotes
  obtain ⟨-, rfl⟩ := DataMap.insertNew?_eq_some.mp hnotes'
  rw [hst.noteStatistics]
  refine .bind .addUint_same fun _ => .bind .addUint_same fun _ => ?_
  intro u v huv a u' b v' h h'
  obtain ⟨manager, hmodify, rfl⟩ := onNoteManager_ok.mp h
  obtain ⟨manager', hmodify', rfl⟩ := onNoteManager_ok.mp h'
  obtain rfl := modify_ok.mp hmodify
  obtain rfl := modify_ok.mp hmodify'
  refine ⟨rfl, { huv with noteStatistics := rfl, notes := ?_ }⟩
  intro other
  by_cases hother : other = noteId
  · subst hother
    simp [label, NoteRecord.relabel, hcaller.height]
  · simp only [label, if_neg hother, AList.lookup_insert_ne hother]
    exact hst.notes other

end Pieces

/-! ## STX operations -/

section Stx

variable {P : Primitives} {ctx ctx' : Ctx} (hheight : ctx.height = ctx'.height)
  (hsender : ctx.txSender.isProtocol = false) (hsender' : ctx'.txSender.isProtocol = false)
  {loose : Set Principal} {inclusion inclusion' : Inclusion}
include hheight hsender hsender'

theorem PrivacyPool.shield_alike {args : ShieldArgs} {metadata : Buff32} :
    Lockstep (Alike loose unlabelled) (shield P ctx args inclusion)
      (shield P ctx' { args with metadata := metadata } inclusion')
      (Alike loose (label unlabelled args.commitment metadata)) := by
  have hcaller := sameCaller_calledBy hheight .privacyPool
  have hsource : SameSource ctx.txSender ctx'.txSender := .inr ⟨hsender, hsender'⟩
  refine .read_bind fun s t hst => ?_
  rw [hst.registry, hst.privacyPool]
  refine .bind (alike_onRegistry rfl) fun _ => .require_bind fun _ _ =>
    .bind (alike_onRegistry rfl) fun _ => .bind alike_checkCurrentRoot fun _ =>
    .bind alike_calculateFee fun fee => .bind (alike_verifyProof hcaller) fun _ => ?_
  refine .bind (.orError_both (alike_stxTransfer hsource)) fun _ =>
    .bind (alike_payFee hsource) fun _ => ?_
  refine .bind (alike_registerNote hcaller) fun _ =>
    .bind (alike_registerCommitment hcaller) fun index => .require_bind fun _ _ =>
    .bind (alike_updateRoot hcaller) fun _ => .bind (alike_onRegistry rfl) fun _ => ?_
  exact .bind alike_record fun _ => .pure_same

theorem PrivacyPool.transfer_alike {args : TransferArgs} {metadata : Buff32} :
    Lockstep (Alike loose unlabelled) (transfer P ctx args inclusion)
      (transfer P ctx' { args with newMetadata := metadata } inclusion')
      (Alike loose (label unlabelled args.newCommitment metadata)) := by
  have hcaller := sameCaller_calledBy hheight .privacyPool
  have hsource : SameSource ctx.txSender ctx'.txSender := .inr ⟨hsender, hsender'⟩
  refine .read_bind fun s t hst => ?_
  rw [hst.registry, hst.privacyPool]
  refine .bind (alike_onRegistry rfl) fun _ => .require_bind fun _ _ =>
    .bind alike_checkCurrentRoot fun _ => .bind alike_calculateFee fun fee =>
    .bind (alike_verifyProof hcaller) fun _ => .bind (alike_payFee hsource) fun _ => ?_
  refine .bind (alike_registerNullifier hcaller) fun _ =>
    .bind (alike_registerCommitment hcaller) fun index => .require_bind fun _ _ =>
    .bind (alike_registerNote hcaller) fun _ => .bind (alike_updateRoot hcaller) fun _ =>
    .bind (alike_onRegistry rfl) fun _ => ?_
  exact .bind alike_record fun _ => .pure_same

omit hsender hsender' in
/-- Fee and payout are sent by the pool, whoever submits the call. -/
theorem PrivacyPool.withdraw_alike {args : WithdrawArgs} :
    Lockstep (Alike loose unlabelled) (withdraw P ctx args inclusion) (withdraw P ctx' args inclusion')
      (Alike loose unlabelled) := by
  have hcaller := sameCaller_calledBy hheight .privacyPool
  refine .read_bind fun s t hst => ?_
  rw [hst.registry, hst.privacyPool]
  refine .bind (alike_onRegistry rfl) fun _ => .require_bind fun _ _ =>
    .bind (alike_onRegistry rfl) fun _ => .require_bind fun _ _ => .require_bind fun _ _ =>
    .bind alike_calculateFee fun fee => .require_bind fun _ _ =>
    .bind (alike_verifyProof hcaller) fun _ => ?_
  refine .bind (alike_registerNullifier hcaller) fun _ => .bind (alike_onRegistry rfl) fun _ =>
    .bind alike_record fun _ => .bind (alike_payFee (.inl rfl)) fun _ => ?_
  exact .bind (.orError_both (alike_stxTransfer (.inl rfl))) fun _ => .pure_same

theorem SplitMergeManager.splitNote_alike {args : SplitArgs} {metadata1 metadata2 : Buff32} :
    Lockstep (Alike loose unlabelled) (splitNote P ctx args inclusion)
      (splitNote P ctx' { args with metadata1 := metadata1, metadata2 := metadata2 } inclusion')
      (Alike loose (label (label unlabelled args.commitment1 metadata1) args.commitment2
        metadata2)) := by
  have hcaller := sameCaller_calledBy hheight .splitMergeManager
  have hsource : SameSource ctx.txSender ctx'.txSender := .inr ⟨hsender, hsender'⟩
  refine .read_bind fun s t hst => ?_
  rw [hst.registry, hst.splitMergeManager]
  refine .bind (alike_onRegistry rfl) fun _ => .require_bind fun _ _ => .require_bind fun _ _ =>
    .require_bind fun _ _ => .bind alike_checkCurrentRoot fun _ =>
    .bind alike_calculateFee fun fee => .bind (alike_verifyProof hcaller) fun _ =>
    .bind (alike_payFee hsource) fun _ => .bind (alike_registerNullifier hcaller) fun _ => ?_
  refine .bind (alike_registerCommitment hcaller) fun leaf1 => .require_bind fun _ _ =>
    .bind (alike_registerNote hcaller) fun _ => .bind (alike_registerCommitment hcaller)
    fun leaf2 => .bind .addUint_same fun _ => .require_bind fun _ _ =>
    .bind (alike_registerNote hcaller) fun _ => .bind (alike_updateRoot hcaller) fun _ => ?_
  exact .bind alike_record fun _ => .pure_same

theorem SplitMergeManager.mergeNotes_alike {args : MergeArgs} {metadata : Buff32} :
    Lockstep (Alike loose unlabelled) (mergeNotes P ctx args inclusion)
      (mergeNotes P ctx' { args with metadata := metadata } inclusion')
      (Alike loose (label unlabelled args.commitment metadata)) := by
  have hcaller := sameCaller_calledBy hheight .splitMergeManager
  have hsource : SameSource ctx.txSender ctx'.txSender := .inr ⟨hsender, hsender'⟩
  refine .read_bind fun s t hst => ?_
  rw [hst.registry, hst.splitMergeManager]
  refine .bind (alike_onRegistry rfl) fun _ => .require_bind fun _ _ => .require_bind fun _ _ =>
    .require_bind fun _ _ => .bind alike_checkCurrentRoot fun _ =>
    .bind alike_calculateFee fun fee => .bind (alike_verifyProof hcaller) fun _ =>
    .bind (alike_payFee hsource) fun _ => ?_
  refine .bind (alike_registerNullifier hcaller) fun _ =>
    .bind (alike_registerNullifier hcaller) fun _ =>
    .bind (alike_registerCommitment hcaller) fun index => .require_bind fun _ _ =>
    .bind (alike_registerNote hcaller) fun _ => .bind (alike_updateRoot hcaller) fun _ => ?_
  exact .bind alike_record fun _ => .pure_same

end Stx

end StxShield
