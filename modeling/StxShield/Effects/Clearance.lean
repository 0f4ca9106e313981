import StxShield.Effects.Failures
import StxShield.Effects.HonestTokens
import StxShield.Library.Clearance
import StxShield.Registry.Calls

/-!
# What stops an operation

An operation that spends notes is stopped by an inactive protocol or its own switch, by
a root that is unknown or out of date, by a nullifier that is used already, and by a
statement that no published aggregation includes.  A state in which none of this applies
lets the operation past all of these checks, wherever the contracts make them.
-/

namespace StxShield

open Library Exec World

/-- The errors of those checks. -/
def obstructions : List Nat :=
  [PrivacyRegistry.errProtocolPaused, PrivacyRegistry.errProtocolEmergency,
    PrivacyRegistry.errProtocolUpgrading, PrivacyRegistry.errProtocolDeprecated] ++
  [PrivacyPool.errOperationDisabled, SplitMergeManager.errOperationDisabled,
    Sip10Pool.errOperationDisabled] ++
  [PrivacyPool.errStaleRoot, SplitMergeManager.errStaleRoot, Sip10Pool.errStaleRoot,
    PrivacyPool.errUnknownRoot, SplitMergeManager.errUnknownRoot, Sip10Pool.errUnknownRoot] ++
  [PrivacyRegistry.errDuplicateNullifier, SplitMergeManager.errDuplicateInput] ++
  [ZkVerifier.errorBase, Sip10ZkVerifier.errorBase].flatMap fun base =>
    [base + Verifier.errAggregationNotFound, base + Verifier.errInvalidLeafIndex,
      base + Verifier.errProofNotAggregated]

/-! ## What the checks find -/

/-- Whether the statement with this hash is where it is said to be, in the aggregation
it is said to be in and for the key that is bound; what is not there includes all. -/
def Verifier.includes (P : Primitives) (verifier : Verifier) (proofType circuitVersion : Nat)
    (publicInputsHash : Buff32) (inclusion : Inclusion) : Bool :=
  (verifier.aggregations.lookup (inclusion.domainId, inclusion.aggregationId)).all fun agg =>
    inclusion.aggLeafIndex < agg.leafCount &&
      (verifier.bindings.lookup (proofType, circuitVersion)).all fun binding =>
        computeMerkleRoot P
          (statementLeaf P verifier.contextHash binding.zkvVkeyHash binding.versionHash
            publicInputsHash)
          inclusion.merklePath.val inclusion.aggLeafIndex agg.leafCount = agg.root

/-- The protocol is active, and none of the nullifiers is used. -/
structure PrivacyRegistry.Open (pending : List Buff32) (registry : PrivacyRegistry) : Prop where
  active : registry.protocolState = .active
  unused : ∀ nullifier ∈ pending, registry.nullifiers.lookup nullifier = none

variable {α β : Type} {P : Primitives} {ctx : Ctx} {w : World} {pending : List Buff32}
  {inclusion : Inclusion} {post : β → World → Prop}

/-! ## The registry and the note manager -/

namespace PrivacyRegistry

variable {registry : PrivacyRegistry} (h : registry.Open pending)
include h

/-- An active protocol passes its gate. -/
theorem gate_clears {codes : List Nat} :
    Clears codes checkActive (fun _ after => after = registry) registry := by
  constructor
  · intro code _ hfail
    simp only [checkActive, bind_error, read_error, false_or, ↓exists_read, h.active,
      pure_error] at hfail
  · intro _ after hrun
    exact (checkActive_ok.mp hrun).2.symm

theorem checkActive_clears {codes : List Nat} {β : Type} {post : β → PrivacyRegistry → Prop}
    {next : Unit → Exec PrivacyRegistry β} (hnext : Clears codes (next ()) post registry) :
    Clears codes (checkActive >>= next) post registry := by
  apply (gate_clears h).bind
  rintro _ after rfl
  exact hnext

theorem registerCommitment_clears (commitment : Buff32) (version : Nat) :
    Clears obstructions (registerCommitment ctx commitment version) (fun _ => Open pending)
      registry := by
  apply Clears.read_bind
  apply checkActive_clears h
  refine .check_bind (by decide) fun _ => .check_bind (by decide) fun _ =>
    .check_bind (by decide) fun _ => .check_bind (by decide) fun _ =>
    .found_bind (by decide) fun commitments _ => ?_
  apply Clears.spared_bind spares_addUint keeps_addUint
  intro next
  apply Clears.modify_bind
  exact .pure ⟨h.active, h.unused⟩

theorem updateRoot_clears (newRoot : Buff32) (version : Nat) :
    Clears obstructions (updateRoot ctx newRoot version) (fun _ => Open pending) registry := by
  apply checkActive_clears h
  apply Clears.read_bind
  refine .check_bind (by decide) fun _ => .check_bind (by decide) fun _ =>
    .check_bind (by decide) fun _ => .found_bind (by decide) fun merkleRoots _ => ?_
  exact .modify ⟨h.active, h.unused⟩

theorem recordTransfer_clears :
    Clears obstructions (recordTransfer ctx) (fun _ => Open pending) registry := by
  apply Clears.read_bind
  apply checkActive_clears h
  refine .check_bind (by decide) fun _ => .spared_bind spares_addUint keeps_addUint fun _ => ?_
  exact .modify ⟨h.active, h.unused⟩

theorem recordNoteCreated_clears :
    Clears obstructions (recordNoteCreated ctx) (fun _ => Open pending) registry := by
  apply Clears.read_bind
  apply checkActive_clears h
  refine .check_bind (by decide) fun _ => .check_bind (by decide) fun _ =>
    .spared_bind spares_addUint keeps_addUint fun _ => ?_
  exact .modify ⟨h.active, h.unused⟩

theorem recordWithdrawal_clears (amount : Nat) :
    Clears obstructions (recordWithdrawal ctx amount) (fun _ => Open pending) registry := by
  apply Clears.read_bind
  apply checkActive_clears h
  refine .check_bind (by decide) fun _ => .check_bind (by decide) fun _ =>
    .check_bind (by decide) fun _ => .check_bind (by decide) fun _ =>
    .spared_bind spares_subUint keeps_subUint fun _ =>
    .spared_bind spares_addUint keeps_addUint fun _ => ?_
  exact .modify ⟨h.active, h.unused⟩

end PrivacyRegistry

/-- A used nullifier is what its own registration must not meet. -/
theorem PrivacyRegistry.registerNullifier_clears {registry : PrivacyRegistry} {nullifier : Buff32}
    (h : registry.Open (nullifier :: pending)) (hnew : nullifier ∉ pending) :
    Clears obstructions (registerNullifier ctx nullifier) (fun _ => Open pending) registry := by
  have hunused : registry.nullifiers.lookup nullifier = none :=
    h.unused nullifier List.mem_cons_self
  apply Clears.read_bind
  apply checkActive_clears h
  refine .check_bind (by decide) fun _ => .check_bind (by decide) fun _ =>
    .require_bind (fun _ => Option.isNone_iff_eq_none.mpr hunused) fun _ =>
    .check_bind (by decide) fun _ => .unwrap_bind (fun _ => ?_) fun nullifiers hinsert => ?_
  · rw [DataMap.insertNew?_eq_some.mpr ⟨hunused, rfl⟩]
    rfl
  · refine .spared_bind spares_addUint keeps_addUint fun _ => .modify ⟨h.active, ?_⟩
    obtain ⟨-, rfl⟩ := DataMap.insertNew?_eq_some.mp hinsert
    intro other hother
    have hne : other ≠ nullifier := fun heq => hnew (heq ▸ hother)
    exact (AList.lookup_insert_ne hne).trans (h.unused other (List.mem_cons_of_mem _ hother))

/-- Refusing to enter a function aborts. -/
theorem within_clears {codes : List Nat} {function : FunctionId} {body : Ctx → Exec World β}
    (h : function ∉ ctx.stack → Clears codes (body (ctx.entering function)) post w) :
    Clears codes (within ctx function body) post w := by
  constructor
  · intro code hcode hrun
    by_cases hrunning : function ∈ ctx.stack
    · simp only [within, if_pos hrunning] at hrun
      cases hrun
    · exact (h hrunning).spares code hcode (within_error hrun)
  · intro value w' hrun
    obtain ⟨hentered, hbody⟩ := within_ok.mp hrun
    exact (h hentered).returns value w' hbody

/-! ## Calls to the registry -/

theorem onRegistry_clears {codes : List Nat} {m : Exec PrivacyRegistry α}
    (h : Clears codes m (fun _ => PrivacyRegistry.Open pending) w.registry) :
    Clears codes (onRegistry m) (fun _ after => after.registry.Open pending) w := .zoom h

section Calls

variable (h : w.registry.Open pending)
include h

/-- An active protocol is past the gate of every contract. -/
theorem World.checkActive_clears {codes : List Nat} {next : Unit → Exec World β}
    (hnext : Clears codes (next ()) post w) :
    Clears codes (onRegistry PrivacyRegistry.checkActive >>= next) post w := by
  have hgate : Clears codes (onRegistry PrivacyRegistry.checkActive) (fun _ after => after = w) w :=
    .zoom ((PrivacyRegistry.gate_clears h).mono fun _ after hsame => hsame ▸ rfl)
  apply hgate.bind
  rintro _ after rfl
  exact hnext

/-- Nothing but the registry can close it. -/
theorem Clears.of_registry {m : Exec World α} (hm : Spares obstructions m)
    (hkeeps : Keeps World.registry m) :
    Clears obstructions m (fun _ after => after.registry.Open pending) w := by
  refine .of_spares hm fun value w' hrun => ?_
  rw [hkeeps w value w' hrun]
  exact h

theorem PoolCalls.registerCommitment_clears (commitment : Buff32) :
    Clears obstructions (registerCommitment ctx commitment)
      (fun _ after => after.registry.Open pending) w := by
  apply Clears.read_bind
  exact onRegistry_clears (PrivacyRegistry.registerCommitment_clears h _ _)

theorem PoolCalls.updateRoot_clears (newRoot : Buff32) :
    Clears obstructions (updateRoot ctx newRoot)
      (fun _ after => after.registry.Open pending) w := by
  apply Clears.read_bind
  exact onRegistry_clears (PrivacyRegistry.updateRoot_clears h _ _)

theorem PoolCalls.registerNote_clears (noteId ownerCommitment metadata : Buff32) :
    Clears obstructions (registerNote ctx noteId ownerCommitment metadata)
      (fun _ after => after.registry.Open pending) w := by
  apply Clears.read_bind
  apply Clears.read_bind
  apply World.checkActive_clears h
  refine .check_bind (by decide) fun _ => .check_bind (by decide) fun _ =>
    .check_bind (by decide) fun _ => .check_bind (by decide) fun _ =>
    .check_bind (by decide) fun _ => ?_
  apply (onRegistry_clears (PrivacyRegistry.recordNoteCreated_clears h)).bind
  intro _ counted hopen
  refine .found_bind (by decide) fun notes _ =>
    .spared_bind spares_addUint keeps_addUint fun _ =>
    .spared_bind spares_addUint keeps_addUint fun _ => ?_
  exact .zoom (.modify hopen)

theorem PoolCalls.registerNullifier_clears {nullifier : Buff32} {rest : List Buff32}
    (hpending : pending = nullifier :: rest) (hnew : nullifier ∉ rest) :
    Clears obstructions (registerNullifier ctx nullifier)
      (fun _ after => after.registry.Open rest) w := by
  subst hpending
  exact onRegistry_clears (PrivacyRegistry.registerNullifier_clears h hnew)

end Calls

/-- The current root, if it is known, is what new leaves are added to. -/
theorem PoolCalls.checkCurrentRoot_clears {declared : Buff32} {stale unknown : Nat}
    {next : Unit → Exec World β} (hcurrent : declared = w.registry.currentRoot.root)
    (hknown : w.registry.isKnownRoot declared = true)
    (hnext : Clears obstructions (next ()) post w) :
    Clears obstructions (checkCurrentRoot declared stale unknown >>= next) post w := by
  have hroot : Clears obstructions (checkCurrentRoot declared stale unknown)
      (fun _ after => after = w) w := by
    apply Clears.read_bind
    refine .require_bind (fun _ => hcurrent) fun _ => ?_
    exact (Clears.require hknown).mono fun _ after hsame => hsame
  apply hroot.bind
  rintro _ after rfl
  exact hnext

/-! ## Statements -/

namespace Verifier

variable {verifier : Verifier}

/-- The guards of the two verifiers that are made of other stuff. -/
theorem others_not_obstructions {errorBase : Nat}
    (hbase : errorBase ∈ [ZkVerifier.errorBase, Sip10ZkVerifier.errorBase]) :
    ∀ offset ∈ [errVerificationFrozen, errUnauthorizedCaller, errUnknownProofType,
      errVersionMismatch, errInvalidPublicInputs, errVkeyNotFound, errVkeyDisabled,
      errBindingNotSet, errProofAlreadyVerified], errorBase + offset ∉ obstructions := by
  simp only [List.mem_cons, List.not_mem_nil, or_false] at hbase
  rcases hbase with rfl | rfl
  · decide
  · decide

/-- A statement that is included is not refused for its place. -/
theorem verifyProof_clears {errorBase : Nat}
    (hbase : errorBase ∈ [ZkVerifier.errorBase, Sip10ZkVerifier.errorBase])
    {authorized : Prop} [Decidable authorized] {currentVersion proofType circuitVersion : Nat}
    {publicInputsHash : Buff32}
    (hpublished : (verifier.aggregations.lookup
      (inclusion.domainId, inclusion.aggregationId)).isSome)
    (hincluded : verifier.includes P proofType circuitVersion publicInputsHash inclusion = true) :
    Clears obstructions (verifyProof P errorBase authorized currentVersion ctx proofType
      circuitVersion publicInputsHash inclusion) (fun _ _ => True) verifier := by
  have hother := others_not_obstructions hbase
  obtain ⟨agg, hagg⟩ := Option.isSome_iff_exists.mp hpublished
  simp only [includes, hagg, Option.all_some, Bool.and_eq_true, decide_eq_true_eq] at hincluded
  obtain ⟨hindex, hroot⟩ := hincluded
  apply Clears.read_bind
  refine .check_bind (hother _ (by decide)) fun _ => .check_bind (hother _ (by decide)) fun _ =>
    .check_bind (hother _ (by decide)) fun _ => .check_bind (hother _ (by decide)) fun _ =>
    .check_bind (hother _ (by decide)) fun _ => .found_bind (hother _ (by decide)) fun vkey _ =>
    .unwrap_bind (fun _ => hpublished) fun agg' hagg' => ?_
  obtain rfl : agg = agg' := Option.some.inj (hagg.symm.trans hagg')
  refine .check_bind (hother _ (by decide)) fun _ => .require_bind (fun _ => hindex) fun _ =>
    .found_bind (hother _ (by decide)) fun binding hbinding => ?_
  rw [hbinding, Option.all_some, decide_eq_true_eq] at hroot
  refine .check_bind (hother _ (by decide)) fun _ => .check_bind (hother _ (by decide)) fun _ =>
    .require_bind (fun _ => hroot) fun _ => .found_bind (hother _ (by decide)) fun proofs _ => ?_
  exact .of_spares (spares_bind (countVerified_spares _ _) fun _ =>
    spares_bind spares_modify fun _ => spares_pure _) fun _ _ _ => trivial

end Verifier

section Statements

variable (h : w.registry.Open pending) {proofType version : Nat} {inputsHash : Buff32}
include h

theorem ZkVerifier.verifyProof_clears
    (hpublished : (w.zkVerifier.aggregations.lookup
      (inclusion.domainId, inclusion.aggregationId)).isSome)
    (hincluded : w.zkVerifier.includes P proofType version inputsHash inclusion = true) :
    Clears obstructions (verifyProof P ctx proofType version inputsHash inclusion)
      (fun _ after => after.registry.Open pending) w := by
  apply World.checkActive_clears h
  apply Clears.read_bind
  have hverified : Clears obstructions (onZkVerifier (Verifier.verifyProof P errorBase
      (w.registry.isAuthorizedCaller ctx.contractCaller) w.registry.protocolVersions.circuit ctx
      proofType version inputsHash inclusion)) (fun _ after => after.registry.Open pending) w :=
    .zoom ((Verifier.verifyProof_clears (by decide) hpublished hincluded).mono fun _ _ _ => h)
  apply hverified.bind
  intro leaf verified hopen
  apply Clears.modify_bind
  exact .pure hopen

theorem Sip10ZkVerifier.verifyProof_clears
    (hpublished : (w.sip10ZkVerifier.verifier.aggregations.lookup
      (inclusion.domainId, inclusion.aggregationId)).isSome)
    (hincluded : w.sip10ZkVerifier.verifier.includes P proofType version inputsHash inclusion =
      true) :
    Clears obstructions (verifyProof P ctx proofType version inputsHash inclusion)
      (fun _ after => after.registry.Open pending) w := by
  apply World.checkActive_clears h
  apply Clears.read_bind
  have hverified : Clears obstructions (onSip10ZkVerifier
      (zoom Sip10Verifier.verifier (fun verifier storage => { storage with verifier := verifier })
        (Verifier.verifyProof P errorBase
          (some ctx.contractCaller = w.sip10ZkVerifier.authorizedPool)
          w.sip10ZkVerifier.circuitVersion ctx proofType version inputsHash inclusion)))
      (fun _ after => after.registry.Open pending) w :=
    .zoom (.zoom ((Verifier.verifyProof_clears (by decide) hpublished hincluded).mono
      fun _ _ _ => h))
  apply hverified.bind
  intro leaf verified hopen
  apply Clears.modify_bind
  exact .pure hopen

/-! ## Fees -/

theorem ProtocolFees.payFee_clears (feeType fee : Nat) :
    Clears obstructions (payFee ctx feeType fee) (fun _ after => after.registry.Open pending) w := by
  refine .ite (fun _ => ?_) fun _ => .pure h
  have hcollected : Clears obstructions (collectFee ctx feeType fee)
      (fun _ after => after.registry.Open pending) w := by
    apply Clears.read_bind
    apply World.checkActive_clears h
    refine .check_bind (by decide) fun _ => .check_bind (by decide) fun _ =>
      .check_bind (by decide) fun _ => .check_bind (by decide) fun _ => ?_
    have hpaid : Clears obstructions
        (orError (stxTransfer ctx fee ctx.txSender .protocolFees) errStxTransferFailed)
        (fun _ after => after.registry.Open pending) w := by
      refine .orError (by decide) fun _ after hrun => ?_
      obtain ⟨-, -, -, -, rfl⟩ := stxTransfer_ok.mp hrun
      exact h
    apply hpaid.bind
    intro _ paid hopen
    refine .spared_bind spares_addUint keeps_addUint fun _ =>
      .spared_bind spares_addUint keeps_addUint fun _ =>
      .spared_bind spares_addUint keeps_addUint fun _ => ?_
    exact .zoom_modify_bind (.pure hopen)
  apply hcollected.bind
  intro _ _ hopen
  exact .pure hopen

end Statements

/-! ## Tokens

A token that keeps to itself is no obstacle, and puts none in the way. -/

/-- The token's code changes nothing but the token's own ledger. -/
def KeepsToItself (tokens : TokenCode) (token : Principal) : Prop :=
  ∀ ctx function w value w', tokens token ctx function w = .ok (value, w') →
    w' = { w with tokens := w'.tokens }

section Tokens

variable {tokens : TokenCode} {token : Principal} (htoken : KeepsToItself tokens token)
include htoken

/-- Whatever a call to the token answers, the protocol is where it was. -/
theorem askToken_clears {function : TokenFunction} {code : Nat} (hcode : code ∉ obstructions)
    (w : World) :
    Clears obstructions (orError (tokens token ctx function) code)
      (fun _ after => after = { w with tokens := after.tokens }) w :=
  .orError hcode fun value after hrun => htoken ctx function w value after hrun

theorem Sip10Pool.poolBalance_clears (w : World) :
    Clears obstructions (poolBalance tokens ctx token)
      (fun _ after => after = { w with tokens := after.tokens }) w := by
  refine .of_spares (spares_within (spares_orError (by decide))) fun value after hrun => ?_
  obtain ⟨-, hanswer⟩ := within_ok.mp hrun
  exact htoken _ _ w value after (orError_ok.mp hanswer)

theorem Sip10Pool.payFee_clears (h : w.registry.Open pending) (assetUid feeType fee : Nat) :
    Clears obstructions (payFee tokens ctx assetUid feeType fee token)
      (fun _ after => after.registry.Open pending) w := by
  refine .ite (fun _ => ?_) fun _ => .pure h
  have hcollected (inner : Ctx) : Clears obstructions
      (Sip10ProtocolFees.collectFee tokens inner assetUid feeType fee token)
      (fun _ after => after.registry.Open pending) w := by
    apply Clears.read_bind
    refine .found_bind (by decide) fun asset _ => ?_
    apply World.checkActive_clears h
    refine .check_bind (by decide) fun _ => .check_bind (by decide) fun _ =>
      .check_bind (by decide) fun _ => .check_bind (by decide) fun _ =>
      .check_bind (by decide) fun _ => ?_
    apply (askToken_clears htoken (by decide) w).bind
    intro _ paid hpaid
    have hopen : paid.registry.Open pending := by
      rw [hpaid]
      exact h
    refine .spared_bind spares_addUint keeps_addUint fun _ =>
      .spared_bind spares_addUint keeps_addUint fun _ =>
      .spared_bind spares_addUint keeps_addUint fun _ => ?_
    exact .zoom_modify_bind (.pure hopen)
  have hentered : Clears obstructions
      (within ctx (.function .sip10ProtocolFees 0) fun inner =>
        Sip10ProtocolFees.collectFee tokens inner assetUid feeType fee token)
      (fun _ after => after.registry.Open pending) w :=
    within_clears fun _ => hcollected _
  apply hentered.bind
  intro _ _ hopen
  exact .pure hopen

end Tokens

theorem ProtocolFees.calculateFee_clears {feeType amount : Nat} {next : Nat → Exec World β}
    (hnext : ∀ fee, Clears obstructions (next fee) post w) :
    Clears obstructions (calculateFee feeType amount >>= next) post w :=
  .spared_bind (spares_bind spares_read fun _ => spares_bind (spares_unwrap (by decide)) fun _ =>
    configuredFee_spares _ _ _) (keeps_calculateFee _ _ _) hnext

theorem Sip10ProtocolFees.calculateFee_clears {assetUid feeType amount : Nat}
    {next : Nat → Exec World β} (hnext : ∀ fee, Clears obstructions (next fee) post w) :
    Clears obstructions (calculateFee assetUid feeType amount >>= next) post w :=
  .spared_bind (spares_bind spares_read fun _ => spares_bind (spares_unwrap (by decide)) fun _ =>
    ProtocolFees.configuredFee_spares _ _ _) (keeps_sip10CalculateFee _ _ _ _) hnext

end StxShield
