import StxShield.Effects.Clearance
import StxShield.Protocol.Spending

/-!
# Operations that nothing stops

What an operation that spends notes has to find: its switch on, a known root, the
current one if it adds leaves, unused and different nullifiers, and its statement in a
published aggregation.  Where it finds all of this none of the checks stops it, and
where it takes effect it has found it.
-/

namespace StxShield

open Library Exec World

/-! ## The state an operation finds -/

/-- Whether the operation's own switch is on. -/
def World.enables (w : World) (op : Operation) : Bool :=
  match op.currency, op.action with
  | .stx, .shield _ => w.privacyPool.shieldEnabled
  | .stx, .transfer _ => w.privacyPool.transferEnabled
  | .stx, .withdraw _ => w.privacyPool.withdrawEnabled
  | .stx, .split _ => w.splitMergeManager.splitEnabled
  | .stx, .merge _ => w.splitMergeManager.mergeEnabled
  | .sip10 _, _ => Sip10Pool.isOperationEnabled w.sip10Pool op.proofType

/-- The storage of the verifier that an operation presents its statement to. -/
def World.verifierOf (w : World) : Currency → Verifier
  | .stx => w.zkVerifier
  | .sip10 _ => w.sip10ZkVerifier.verifier

/-- The statement of an operation is included where it says. -/
def World.includes (P : Primitives) (w : World) (op : Operation) (inclusion : Inclusion) : Bool :=
  (w.verifierOf op.currency).includes P op.proofType (op.circuitVersion w)
    (P.keccak256 (op.inputs P (op.circuitVersion w))) inclusion

/-- What an operation's own arguments have to meet, besides unused nullifiers and a
known root. -/
abbrev World.Admits (P : Primitives) (w : World) (op : Operation) (inclusion : Inclusion) : Prop :=
  w.enables op = true ∧
    (op.extension.isSome → op.declaredRoot = w.registry.currentRoot.root) ∧
    op.nullifiers.Nodup ∧ w.includes P op inclusion = true

/-- Nothing stops the operation. -/
structure Unobstructed (P : Primitives) (w : World) (op : Operation) (inclusion : Inclusion) :
    Prop where
  registry : w.registry.Open op.nullifiers
  known : w.registry.isKnownRoot op.declaredRoot = true
  published : ((w.verifierOf op.currency).aggregations.lookup
    (inclusion.domainId, inclusion.aggregationId)).isSome
  admits : w.Admits P op inclusion

namespace Unobstructed

variable {P : Primitives} {w : World} {op : Operation} {inclusion : Inclusion}
  (h : Unobstructed P w op inclusion)
include h

theorem enabled : w.enables op = true := h.admits.1

/-- New leaves are added to the current tree only. -/
theorem current : op.extension.isSome → op.declaredRoot = w.registry.currentRoot.root := h.admits.2.1

theorem distinct : op.nullifiers.Nodup := h.admits.2.2.1

theorem included : w.includes P op inclusion = true := h.admits.2.2.2

end Unobstructed

variable {α β : Type} {P : Primitives} {ctx : Ctx} {w w' : World} {inclusion : Inclusion}
  {post : β → World → Prop}

/-! ## Operations on STX -/

theorem PrivacyPool.transfer_clears {args : TransferArgs}
    (h : Unobstructed P w ⟨.stx, .transfer args⟩ inclusion) :
    Clears obstructions (transfer P ctx args inclusion) (fun _ _ => True) w := by
  apply Clears.read_bind
  apply World.checkActive_clears h.registry
  refine .require_bind (fun _ => h.enabled) fun _ => ?_
  apply PoolCalls.checkCurrentRoot_clears (h.current rfl) h.known
  refine ProtocolFees.calculateFee_clears fun fee => ?_
  apply (ZkVerifier.verifyProof_clears h.registry h.published h.included).bind
  intro _ verified hopen
  apply (ProtocolFees.payFee_clears hopen _ _).bind
  intro _ paid hopen
  apply (PoolCalls.registerNullifier_clears hopen rfl List.not_mem_nil).bind
  intro _ spent hopen
  apply (PoolCalls.registerCommitment_clears hopen _).bind
  intro index registered hopen
  refine .check_bind (by decide) fun _ => ?_
  apply (PoolCalls.registerNote_clears hopen _ _ _).bind
  intro _ noted hopen
  apply (PoolCalls.updateRoot_clears hopen _).bind
  intro _ rooted hopen
  apply (onRegistry_clears (PrivacyRegistry.recordTransfer_clears hopen)).bind
  intro _ counted _
  exact .modify_bind (.pure trivial)

/-- Once the nullifier is registered, only an active protocol is needed. -/
theorem PrivacyPool.withdraw_clears {args : WithdrawArgs}
    (h : Unobstructed P w ⟨.stx, .withdraw args⟩ inclusion) :
    Clears obstructions (withdraw P ctx args inclusion) (fun _ _ => True) w := by
  apply Clears.read_bind
  apply World.checkActive_clears h.registry
  refine .require_bind (fun _ => h.enabled) fun _ => ?_
  have hrange : Spares obstructions (PrivacyRegistry.validateWithdrawalAmount args.amount) :=
    spares_bind spares_read fun _ => spares_bind (spares_require (by decide)) fun _ =>
      spares_require (by decide)
  refine .spared_bind (spares_onRegistry hrange)
    (keeps_zoom_of_keeps (PrivacyRegistry.keeps_validateWithdrawalAmount id _)
      fun registry v (heq : registry = v.registry) =>
        show { v with registry := registry } = v from heq ▸ rfl) fun _ => ?_
  refine .require_bind (fun _ => h.known) fun _ => .check_bind (by decide) fun _ => ?_
  refine ProtocolFees.calculateFee_clears fun fee => .check_bind (by decide) fun _ => ?_
  apply (ZkVerifier.verifyProof_clears h.registry h.published h.included).bind
  intro _ verified hopen
  apply (PoolCalls.registerNullifier_clears hopen rfl List.not_mem_nil).bind
  intro _ spent hopen
  apply (onRegistry_clears (PrivacyRegistry.recordWithdrawal_clears hopen _)).bind
  intro _ counted hopen
  apply (Clears.of_registry hopen (spares_record _) (keeps_modify fun _ => rfl)).bind
  intro _ recorded hopen
  apply (ProtocolFees.payFee_clears hopen _ _).bind
  intro _ paid _
  exact .of_spares (spares_bind (spares_orError (by decide)) fun _ => spares_pure _)
    fun _ _ _ => trivial

theorem SplitMergeManager.splitNote_clears {args : SplitArgs}
    (h : Unobstructed P w ⟨.stx, .split args⟩ inclusion) :
    Clears obstructions (splitNote P ctx args inclusion) (fun _ _ => True) w := by
  apply Clears.read_bind
  apply World.checkActive_clears h.registry
  refine .require_bind (fun _ => h.enabled) fun _ => .check_bind (by decide) fun _ =>
    .check_bind (by decide) fun _ => ?_
  apply PoolCalls.checkCurrentRoot_clears (h.current rfl) h.known
  refine ProtocolFees.calculateFee_clears fun fee => ?_
  apply (ZkVerifier.verifyProof_clears h.registry h.published h.included).bind
  intro _ verified hopen
  apply (ProtocolFees.payFee_clears hopen _ _).bind
  intro _ paid hopen
  apply (PoolCalls.registerNullifier_clears hopen rfl List.not_mem_nil).bind
  intro _ spent hopen
  apply (PoolCalls.registerCommitment_clears hopen _).bind
  intro leaf1 registered hopen
  refine .check_bind (by decide) fun _ => ?_
  apply (PoolCalls.registerNote_clears hopen _ _ _).bind
  intro _ noted hopen
  apply (PoolCalls.registerCommitment_clears hopen _).bind
  intro leaf2 registered' hopen
  refine .spared_bind spares_addUint keeps_addUint fun _ => .check_bind (by decide) fun _ => ?_
  apply (PoolCalls.registerNote_clears hopen _ _ _).bind
  intro _ noted' hopen
  apply (PoolCalls.updateRoot_clears hopen _).bind
  intro _ rooted _
  exact .modify_bind (.pure trivial)

theorem SplitMergeManager.mergeNotes_clears {args : MergeArgs}
    (h : Unobstructed P w ⟨.stx, .merge args⟩ inclusion) :
    Clears obstructions (mergeNotes P ctx args inclusion) (fun _ _ => True) w := by
  have hdistinct : args.nullifier1 ∉ [args.nullifier2] := (List.nodup_cons.mp h.distinct).1
  apply Clears.read_bind
  apply World.checkActive_clears h.registry
  refine .require_bind (fun _ => h.enabled) fun _ => .check_bind (by decide) fun _ =>
    .require_bind (fun _ heq => hdistinct (List.mem_singleton.mpr heq)) fun _ => ?_
  apply PoolCalls.checkCurrentRoot_clears (h.current rfl) h.known
  refine ProtocolFees.calculateFee_clears fun fee => ?_
  apply (ZkVerifier.verifyProof_clears h.registry h.published h.included).bind
  intro _ verified hopen
  apply (ProtocolFees.payFee_clears hopen _ _).bind
  intro _ paid hopen
  apply (PoolCalls.registerNullifier_clears hopen rfl hdistinct).bind
  intro _ spent hopen
  apply (PoolCalls.registerNullifier_clears hopen rfl List.not_mem_nil).bind
  intro _ spent' hopen
  apply (PoolCalls.registerCommitment_clears hopen _).bind
  intro index registered hopen
  refine .check_bind (by decide) fun _ => ?_
  apply (PoolCalls.registerNote_clears hopen _ _ _).bind
  intro _ noted hopen
  apply (PoolCalls.updateRoot_clears hopen _).bind
  intro _ rooted _
  exact .modify_bind (.pure trivial)

/-! ## Operations on tokens -/

namespace Sip10Pool

variable {tokens : TokenCode} {token : Principal} {action : Action}

theorem checkSpendable_clears (h : Unobstructed P w ⟨.sip10 token, action⟩ inclusion) {op : Nat}
    (hop : op = Operation.proofType ⟨.sip10 token, action⟩) {next : Nat → Exec World β}
    (hnext : ∀ assetUid, Clears obstructions (next assetUid) post w) :
    Clears obstructions (checkSpendable token op >>= next) post w := by
  have hspendable : Clears obstructions (checkSpendable token op) (fun _ after => after = w) w := by
    apply Clears.read_bind
    refine .found_bind (by decide) fun assetUid _ => ?_
    apply World.checkActive_clears h.registry
    refine .require_bind (fun _ => hop ▸ h.enabled) fun _ => .check_bind (by decide) fun _ => ?_
    exact .pure rfl
  apply hspendable.bind
  rintro assetUid _ rfl
  exact hnext assetUid

variable (htoken : KeepsToItself tokens token)
include htoken

theorem transfer_clears {args : TransferArgs}
    (h : Unobstructed P w ⟨.sip10 token, .transfer args⟩ inclusion) :
    Clears obstructions (transfer P tokens ctx token args inclusion) (fun _ _ => True) w := by
  refine checkSpendable_clears h rfl fun assetUid => ?_
  apply PoolCalls.checkCurrentRoot_clears (h.current rfl) h.known
  refine Sip10ProtocolFees.calculateFee_clears fun fee => ?_
  apply (Sip10ZkVerifier.verifyProof_clears h.registry h.published h.included).bind
  intro _ verified hopen
  apply (payFee_clears htoken hopen _ _ _).bind
  intro _ paid hopen
  apply (PoolCalls.registerNullifier_clears hopen rfl List.not_mem_nil).bind
  intro _ spent hopen
  apply (PoolCalls.registerCommitment_clears hopen _).bind
  intro index registered hopen
  refine .check_bind (by decide) fun _ => ?_
  apply (PoolCalls.registerNote_clears hopen _ _ _).bind
  intro _ noted hopen
  apply (PoolCalls.updateRoot_clears hopen _).bind
  intro _ rooted _
  exact .modify_bind (.pure trivial)

theorem split_clears {args : SplitArgs}
    (h : Unobstructed P w ⟨.sip10 token, .split args⟩ inclusion) :
    Clears obstructions (split P tokens ctx token args inclusion) (fun _ _ => True) w := by
  refine checkSpendable_clears h rfl fun assetUid => ?_
  apply PoolCalls.checkCurrentRoot_clears (h.current rfl) h.known
  refine Sip10ProtocolFees.calculateFee_clears fun fee => ?_
  apply (Sip10ZkVerifier.verifyProof_clears h.registry h.published h.included).bind
  intro _ verified hopen
  apply (payFee_clears htoken hopen _ _ _).bind
  intro _ paid hopen
  apply (PoolCalls.registerNullifier_clears hopen rfl List.not_mem_nil).bind
  intro _ spent hopen
  apply (PoolCalls.registerCommitment_clears hopen _).bind
  intro leaf1 registered hopen
  apply (PoolCalls.registerCommitment_clears hopen _).bind
  intro leaf2 registered' hopen
  refine .check_bind (by decide) fun _ => .spared_bind spares_addUint keeps_addUint fun _ =>
    .check_bind (by decide) fun _ => ?_
  apply (PoolCalls.registerNote_clears hopen _ _ _).bind
  intro _ noted hopen
  apply (PoolCalls.registerNote_clears hopen _ _ _).bind
  intro _ noted' hopen
  apply (PoolCalls.updateRoot_clears hopen _).bind
  intro _ rooted _
  exact .modify_bind (.pure trivial)

theorem mergeNotes_clears {args : MergeArgs}
    (h : Unobstructed P w ⟨.sip10 token, .merge args⟩ inclusion) :
    Clears obstructions (mergeNotes P tokens ctx token args inclusion) (fun _ _ => True) w := by
  have hdistinct : args.nullifier1 ∉ [args.nullifier2] := (List.nodup_cons.mp h.distinct).1
  refine checkSpendable_clears h rfl fun assetUid => ?_
  apply PoolCalls.checkCurrentRoot_clears (h.current rfl) h.known
  refine Sip10ProtocolFees.calculateFee_clears fun fee => ?_
  apply (Sip10ZkVerifier.verifyProof_clears h.registry h.published h.included).bind
  intro _ verified hopen
  apply (payFee_clears htoken hopen _ _ _).bind
  intro _ paid hopen
  apply (PoolCalls.registerNullifier_clears hopen rfl hdistinct).bind
  intro _ spent hopen
  apply (PoolCalls.registerNullifier_clears hopen rfl List.not_mem_nil).bind
  intro _ spent' hopen
  apply (PoolCalls.registerCommitment_clears hopen _).bind
  intro index registered hopen
  refine .check_bind (by decide) fun _ => ?_
  apply (PoolCalls.registerNote_clears hopen _ _ _).bind
  intro _ noted hopen
  apply (PoolCalls.updateRoot_clears hopen _).bind
  intro _ rooted _
  exact .modify_bind (.pure trivial)

/-- The balance is asked for before the statement is presented. -/
theorem withdraw_clears {args : WithdrawArgs}
    (h : Unobstructed P w ⟨.sip10 token, .withdraw args⟩ inclusion) :
    Clears obstructions (withdraw P tokens ctx token args inclusion) (fun _ _ => True) w := by
  apply Clears.read_bind
  refine checkSpendable_clears h rfl fun assetUid => ?_
  refine .require_bind (fun _ => h.known) fun _ => .check_bind (by decide) fun _ => ?_
  refine Sip10ProtocolFees.calculateFee_clears fun fee => ?_
  apply (poolBalance_clears htoken w).bind
  intro balBefore asked hasked
  have hopen : asked.registry.Open (Operation.nullifiers ⟨.sip10 token, .withdraw args⟩) := by
    rw [hasked]
    exact h.registry
  have hverifier : asked.sip10ZkVerifier = w.sip10ZkVerifier := by rw [hasked]
  apply Clears.read_bind
  refine .check_bind (by decide) fun _ => .check_bind (by decide) fun _ => ?_
  have hpublished := h.published
  have hincluded := h.included
  simp only [World.includes, World.verifierOf, ← hverifier] at hpublished hincluded
  apply (Sip10ZkVerifier.verifyProof_clears hopen hpublished hincluded).bind
  intro _ verified hopen
  apply (PoolCalls.registerNullifier_clears hopen rfl List.not_mem_nil).bind
  intro _ spent hopen
  apply Clears.read_bind
  refine .spared_bind spares_subUint keeps_subUint fun _ => ?_
  apply (Clears.of_registry hopen (spares_onSip10Pool spares_modify)
    (keeps_zoom fun _ _ => rfl)).bind
  intro _ counted hopen
  apply (Clears.of_registry hopen (spares_record _) (keeps_modify fun _ => rfl)).bind
  intro _ recorded hopen
  apply (payFee_clears htoken hopen _ _ _).bind
  intro _ paid _
  refine .of_spares (spares_bind (spares_orError (by decide)) fun _ => ?_) fun _ _ _ => trivial
  refine spares_bind (spares_within (spares_orError (by decide))) fun _ =>
    spares_bind spares_subUint fun _ => spares_bind (spares_require (by decide)) fun _ => ?_
  exact spares_pure _

end Sip10Pool

/-! ## Operations that took effect -/

theorem Verifier.verifyProof_includes {verifier verifier' : Verifier} {errorBase : Nat}
    {authorized : Prop} [Decidable authorized] {currentVersion proofType circuitVersion : Nat}
    {publicInputsHash leaf : Buff32}
    (h : verifyProof P errorBase authorized currentVersion ctx proofType circuitVersion
      publicInputsHash inclusion verifier = .ok (leaf, verifier')) :
    verifier.includes P proofType circuitVersion publicInputsHash inclusion = true := by
  unfold verifyProof at h
  simp only [↓bind_ok, ↓exists_read, ↓exists_require, ↓exists_unwrap] at h
  obtain ⟨-, -, -, -, -, _, -, agg, hagg, -, hindex, binding, hbinding, -, -, hroot, -⟩ := h
  simp only [includes, hagg, hbinding, Option.all_some, hindex, hroot, decide_true, Bool.and_self]

theorem ZkVerifier.verifyProof_includes {proofType version : Nat} {inputsHash leaf : Buff32}
    (h : verifyProof P ctx proofType version inputsHash inclusion w = .ok (leaf, w')) :
    w.zkVerifier.includes P proofType version inputsHash inclusion = true := by
  unfold verifyProof at h
  simp only [↓bind_ok, ↓exists_onRegistry, ↓PrivacyRegistry.exists_checkActive, ↓exists_read,
    onZkVerifier_ok] at h
  obtain ⟨-, _, _, ⟨_, hrun, -⟩, -⟩ := h
  exact Verifier.verifyProof_includes hrun

theorem Sip10ZkVerifier.verifyProof_includes {proofType version : Nat}
    {inputsHash leaf : Buff32}
    (h : verifyProof P ctx proofType version inputsHash inclusion w = .ok (leaf, w')) :
    w.sip10ZkVerifier.verifier.includes P proofType version inputsHash inclusion = true := by
  unfold verifyProof at h
  simp only [↓bind_ok, ↓exists_onRegistry, ↓PrivacyRegistry.exists_checkActive, ↓exists_read,
    onSip10ZkVerifier_ok, zoom_ok] at h
  obtain ⟨-, _, _, ⟨_, ⟨_, hrun, -⟩, -⟩, -⟩ := h
  exact Verifier.verifyProof_includes hrun

theorem distinct_pair {first second : Buff32} (h : first ≠ second) : [first, second].Nodup :=
  List.nodup_cons.mpr ⟨fun hmem => h (List.mem_singleton.mp hmem), List.nodup_singleton _⟩

theorem PrivacyPool.transfer_admits {args : TransferArgs} {index : Nat}
    (h : transfer P ctx args inclusion w = .ok (index, w')) :
    w.Admits P ⟨.stx, .transfer args⟩ inclusion := by
  unfold transfer at h
  simp only [↓bind_ok, ↓exists_read, ↓exists_onRegistry, ↓PrivacyRegistry.exists_checkActive,
    ↓exists_require, ↓PoolCalls.exists_checkCurrentRoot] at h
  obtain ⟨-, henabled, ⟨hcurrent, -⟩, fee, w1, hfee, leaf, w2, hverify, -⟩ := h
  obtain rfl : w1 = w := keeps_calculateFee id _ _ _ _ _ hfee
  exact ⟨henabled, fun _ => hcurrent, List.nodup_singleton _,
    ZkVerifier.verifyProof_includes hverify⟩

theorem PrivacyPool.withdraw_admits {args : WithdrawArgs} {paid : Nat}
    (h : withdraw P ctx args inclusion w = .ok (paid, w')) :
    w.Admits P ⟨.stx, .withdraw args⟩ inclusion := by
  unfold withdraw at h
  simp only [↓bind_ok, ↓exists_read, ↓exists_onRegistry, ↓PrivacyRegistry.exists_checkActive,
    ↓exists_require] at h
  obtain ⟨-, henabled, _, registry, hlimits, -, -, fee, w1, hfee, -, leaf, w2, hverify, -⟩ := h
  obtain rfl : registry = w.registry :=
    PrivacyRegistry.keeps_validateWithdrawalAmount id _ _ _ _ hlimits
  obtain rfl : w1 = w := keeps_calculateFee id _ _ _ _ _ hfee
  exact ⟨henabled, fun hnone => absurd hnone Bool.false_ne_true, List.nodup_singleton _,
    ZkVerifier.verifyProof_includes hverify⟩

theorem SplitMergeManager.splitNote_admits {args : SplitArgs} {leaves : Nat × Nat}
    (h : splitNote P ctx args inclusion w = .ok (leaves, w')) :
    w.Admits P ⟨.stx, .split args⟩ inclusion := by
  unfold splitNote at h
  simp only [↓bind_ok, ↓exists_read, ↓exists_onRegistry, ↓PrivacyRegistry.exists_checkActive,
    ↓exists_require, ↓PoolCalls.exists_checkCurrentRoot] at h
  obtain ⟨-, henabled, -, -, ⟨hcurrent, -⟩, fee, w1, hfee, leaf, w2, hverify, -⟩ := h
  obtain rfl : w1 = w := keeps_calculateFee id _ _ _ _ _ hfee
  exact ⟨henabled, fun _ => hcurrent, List.nodup_singleton _,
    ZkVerifier.verifyProof_includes hverify⟩

theorem SplitMergeManager.mergeNotes_admits {args : MergeArgs} {index : Nat}
    (h : mergeNotes P ctx args inclusion w = .ok (index, w')) :
    w.Admits P ⟨.stx, .merge args⟩ inclusion := by
  unfold mergeNotes at h
  simp only [↓bind_ok, ↓exists_read, ↓exists_onRegistry, ↓PrivacyRegistry.exists_checkActive,
    ↓exists_require, ↓PoolCalls.exists_checkCurrentRoot] at h
  obtain ⟨-, henabled, -, hne, ⟨hcurrent, -⟩, fee, w1, hfee, leaf, w2, hverify, -⟩ := h
  obtain rfl : w1 = w := keeps_calculateFee id _ _ _ _ _ hfee
  exact ⟨henabled, fun _ => hcurrent, distinct_pair hne,
    ZkVerifier.verifyProof_includes hverify⟩

/-- One nullifier is not registered twice. -/
theorem PoolCalls.registerNullifier_ne {first second : Buff32} {u v : Unit} {mid : World}
    (hfirst : registerNullifier ctx first w = .ok (u, mid))
    (hsecond : registerNullifier ctx second mid = .ok (v, w')) : first ≠ second := by
  rintro rfl
  obtain ⟨registry, hrun, rfl⟩ := onRegistry_ok.mp hfirst
  obtain ⟨registry', hrun', -⟩ := onRegistry_ok.mp hsecond
  obtain ⟨-, -, -, -, -, -, -, rfl⟩ := PrivacyRegistry.registerNullifier_ok.mp hrun
  obtain ⟨-, -, -, -, -, hunused, -, -⟩ := PrivacyRegistry.registerNullifier_ok.mp hrun'
  rw [AList.lookup_insert] at hunused
  cases hunused

namespace Sip10Pool

variable {tokens : TokenCode} {token : Principal}

theorem checkSpendable_enabled {op assetUid : Nat}
    (h : checkSpendable token op w = .ok (assetUid, w')) :
    isOperationEnabled w.sip10Pool op = true ∧ w' = w := by
  unfold checkSpendable at h
  simp only [↓bind_ok, ↓exists_read, ↓exists_unwrap, ↓exists_onRegistry,
    ↓PrivacyRegistry.exists_checkActive, ↓exists_require, pure_ok] at h
  obtain ⟨_, -, -, henabled, -, -, rfl⟩ := h
  exact ⟨henabled, rfl⟩

theorem transfer_admits {args : TransferArgs} {index : Nat}
    (h : transfer P tokens ctx token args inclusion w = .ok (index, w')) :
    w.Admits P ⟨.sip10 token, .transfer args⟩ inclusion := by
  unfold transfer at h
  simp only [↓bind_ok, ↓PoolCalls.exists_checkCurrentRoot] at h
  obtain ⟨assetUid, w0, hspendable, ⟨hcurrent, -⟩, fee, w1, hfee, leaf, w2, hverify, -⟩ := h
  obtain ⟨henabled, rfl⟩ := checkSpendable_enabled hspendable
  obtain rfl : w1 = w0 := keeps_sip10CalculateFee id _ _ _ _ _ _ hfee
  exact ⟨henabled, fun _ => hcurrent, List.nodup_singleton _,
    Sip10ZkVerifier.verifyProof_includes hverify⟩

theorem split_admits {args : SplitArgs} {leaves : Nat × Nat}
    (h : split P tokens ctx token args inclusion w = .ok (leaves, w')) :
    w.Admits P ⟨.sip10 token, .split args⟩ inclusion := by
  unfold split at h
  simp only [↓bind_ok, ↓PoolCalls.exists_checkCurrentRoot] at h
  obtain ⟨assetUid, w0, hspendable, ⟨hcurrent, -⟩, fee, w1, hfee, leaf, w2, hverify, -⟩ := h
  obtain ⟨henabled, rfl⟩ := checkSpendable_enabled hspendable
  obtain rfl : w1 = w0 := keeps_sip10CalculateFee id _ _ _ _ _ _ hfee
  exact ⟨henabled, fun _ => hcurrent, List.nodup_singleton _,
    Sip10ZkVerifier.verifyProof_includes hverify⟩

theorem mergeNotes_admits {args : MergeArgs} {index : Nat}
    (h : mergeNotes P tokens ctx token args inclusion w = .ok (index, w')) :
    w.Admits P ⟨.sip10 token, .merge args⟩ inclusion := by
  unfold mergeNotes at h
  simp only [↓bind_ok, ↓PoolCalls.exists_checkCurrentRoot] at h
  obtain ⟨assetUid, w0, hspendable, ⟨hcurrent, -⟩, fee, w1, hfee, leaf, w2, hverify, _, w3, -, _,
    w4, hfirst, _, w5, hsecond, -⟩ := h
  obtain ⟨henabled, rfl⟩ := checkSpendable_enabled hspendable
  obtain rfl : w1 = w0 := keeps_sip10CalculateFee id _ _ _ _ _ _ hfee
  have hne := PoolCalls.registerNullifier_ne hfirst hsecond
  exact ⟨henabled, fun _ => hcurrent, distinct_pair hne,
    Sip10ZkVerifier.verifyProof_includes hverify⟩

/-- The token was asked for the pool's balance first. -/
theorem withdraw_admits (htoken : KeepsToItself tokens token) {args : WithdrawArgs} {paid : Nat}
    (h : withdraw P tokens ctx token args inclusion w = .ok (paid, w')) :
    w.Admits P ⟨.sip10 token, .withdraw args⟩ inclusion := by
  unfold withdraw at h
  simp only [↓bind_ok, ↓exists_read, ↓exists_require] at h
  obtain ⟨assetUid, w0, hspendable, -, -, fee, w1, hfee, balance, w2, hasks, -, -, leaf, w3,
    hverify, -⟩ := h
  obtain ⟨henabled, rfl⟩ := checkSpendable_enabled hspendable
  obtain rfl : w1 = w0 := keeps_sip10CalculateFee id _ _ _ _ _ _ hfee
  have hasked := (poolBalance_clears htoken w1).returns _ _ hasks
  have hincluded := Sip10ZkVerifier.verifyProof_includes hverify
  rw [hasked] at hincluded
  exact ⟨henabled, fun hnone => absurd hnone Bool.false_ne_true, List.nodup_singleton _,
    hincluded⟩

end Sip10Pool

/-! ## Calls -/

/-- An operation for a token names the token. -/
theorem Operation.token?_call {op : Operation} {token : Principal} (inclusion : Inclusion)
    (h : op.currency = .sip10 token) : (op.call inclusion).token? = some token := by
  obtain ⟨currency, action⟩ := op
  cases h
  cases action <;> rfl

/-- A call says which operation it performs, and with which aggregation. -/
theorem Operation.call_inj {op op' : Operation} {inclusion inclusion' : Inclusion}
    (h : op.call inclusion = op'.call inclusion') : op = op' ∧ inclusion = inclusion' := by
  have hop : some op = some op' := by
    rw [← op.call_operation? inclusion, h, op'.call_operation?]
  obtain rfl := Option.some.inj hop
  obtain ⟨currency, action⟩ := op
  cases currency <;> cases action <;> cases h <;> exact ⟨rfl, rfl⟩

section Calls

variable {env : Env} {tokens : TokenCode} {op : Operation} (hspends : op.nullifiers ≠ [])
  (htoken : ∀ token, op.currency = .sip10 token → KeepsToItself tokens token)
include hspends htoken

theorem dispatch_clears (h : Unobstructed env.primitives w op inclusion) :
    Clears obstructions (dispatch env tokens ctx (op.call inclusion)) (fun _ _ => True) w := by
  obtain ⟨currency, action⟩ := op
  cases currency with
  | stx =>
      cases action with
      | shield args => exact absurd rfl hspends
      | transfer args =>
          exact (Clears.read_bind (PrivacyPool.transfer_clears h).bind_pure).bind_pure
      | withdraw args =>
          exact (Clears.read_bind (PrivacyPool.withdraw_clears h).bind_pure).bind_pure
      | split args => exact Clears.read_bind (SplitMergeManager.splitNote_clears h).bind_pure
      | merge args => exact Clears.read_bind (SplitMergeManager.mergeNotes_clears h).bind_pure
  | sip10 token =>
      have hquiet := htoken token rfl
      cases action with
      | shield args => exact absurd rfl hspends
      | transfer args => exact (Sip10Pool.transfer_clears hquiet h).bind_pure
      | withdraw args => exact (Sip10Pool.withdraw_clears hquiet h).bind_pure
      | split args => exact (Sip10Pool.split_clears hquiet h).bind_pure
      | merge args => exact (Sip10Pool.mergeNotes_clears hquiet h).bind_pure

/-- An unobstructed operation fails with none of the errors. -/
theorem execCall_spares (h : Unobstructed env.primitives w op inclusion) :
    ∀ code ∈ obstructions,
      execCall env tokens ctx (op.call inclusion) w ≠ .error (.err code) := by
  intro code hcode hfail
  exact (dispatch_clears hspends htoken h).spares code hcode (execCall_error hfail)

/-- An operation that took effect was admitted. -/
theorem execCall_admits {data : List Nat}
    (h : execCall env tokens ctx (op.call inclusion) w = .ok (data, w')) :
    w.Admits env.primitives op inclusion := by
  obtain ⟨mid, hrun, -⟩ := execCall_ok.mp h
  obtain ⟨inner, hdispatch, -⟩ := withinCall_ok hrun
  obtain ⟨currency, action⟩ := op
  cases currency with
  | stx =>
      cases action with
      | shield args => exact absurd rfl hspends
      | transfer args =>
          simp only [Operation.call, dispatch, PrivacyPool.execute, ↓bind_ok, ↓exists_read] at hdispatch
          obtain ⟨_, _, ⟨_, _, htransfer, -⟩, -⟩ := hdispatch
          exact PrivacyPool.transfer_admits htransfer
      | withdraw args =>
          simp only [Operation.call, dispatch, PrivacyPool.execute, ↓bind_ok, ↓exists_read] at hdispatch
          obtain ⟨_, _, ⟨_, _, hwithdraw, -⟩, -⟩ := hdispatch
          exact PrivacyPool.withdraw_admits hwithdraw
      | split args =>
          simp only [Operation.call, dispatch, SplitMergeManager.execute, ↓bind_ok, ↓exists_read] at hdispatch
          obtain ⟨_, _, hsplit, -⟩ := hdispatch
          exact SplitMergeManager.splitNote_admits hsplit
      | merge args =>
          simp only [Operation.call, dispatch, SplitMergeManager.execute, ↓bind_ok, ↓exists_read] at hdispatch
          obtain ⟨_, _, hmerge, -⟩ := hdispatch
          exact SplitMergeManager.mergeNotes_admits hmerge
  | sip10 token =>
      cases action with
      | shield args => exact absurd rfl hspends
      | transfer args =>
          simp only [Operation.call, dispatch, Sip10Pool.execute, ↓bind_ok] at hdispatch
          obtain ⟨_, _, htransfer, -⟩ := hdispatch
          exact Sip10Pool.transfer_admits htransfer
      | withdraw args =>
          simp only [Operation.call, dispatch, Sip10Pool.execute, ↓bind_ok] at hdispatch
          obtain ⟨_, _, hwithdraw, -⟩ := hdispatch
          exact Sip10Pool.withdraw_admits (htoken token rfl) hwithdraw
      | split args =>
          simp only [Operation.call, dispatch, Sip10Pool.execute, ↓bind_ok] at hdispatch
          obtain ⟨_, _, hsplit, -⟩ := hdispatch
          exact Sip10Pool.split_admits hsplit
      | merge args =>
          simp only [Operation.call, dispatch, Sip10Pool.execute, ↓bind_ok] at hdispatch
          obtain ⟨_, _, hmerge, -⟩ := hdispatch
          exact Sip10Pool.mergeNotes_admits hmerge

end Calls

end StxShield
