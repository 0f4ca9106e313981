import StxShield.Relayer.RootPublisher
import StxShield.Security.Aggregation
import StxShield.Verifiers.KeyBinding

/-!
# Published aggregations

Whatever the relayers publish is what the verifiers record, and it is recorded
for ever.  It is right as long as every receipt tells the number of leaves.
-/

namespace StxShield.RootPublisher

open Library Exec World JavaScript

/-! ## What zkVerify aggregated -/

/-- A finalized aggregation; paths of 32 siblings reach into it. -/
structure Finalized (P : Primitives) where
  leaves : List Buff32
  root : Buff32
  root_eq : Verifier.aggregationRoot P leaves = some root
  length_le : leaves.length ≤ 2 ^ 32

/-- zkVerify's aggregations, by domain and id. -/
abbrev Finality (P : Primitives) : Type := Nat → Nat → Option (Finalized P)

section

variable {P : Primitives} (truth : Finality P)

/-- A receipt names an aggregation's id and root. -/
structure Describes (ev : Record) (aggregationId : Nat) (aggregation : Finalized P) : Prop where
  id : (aggregationIdOf ev).toNumber = .ofNat aggregationId
  root : ∃ text, rootOf ev = .string text ∧ bufBytes (prefixed text) = aggregation.root.bytes

/-- The first count that a receipt carries is the number of leaves, or there is
one leaf and the receipt carries no positive number. -/
def CountsLeaves (ev : Record) (count : Nat) : Prop :=
  (leavesOf ev).toNumber = .ofNat count ∨
    count = 1 ∧ ¬ ((leavesOf ev).toNumber.isFinite ∧ (leavesOf ev).toNumber.isPositive)

/-- Whatever is published is zkVerify's: receipts name its aggregations, and the
path of a submitted proof comes with the aggregation it leads into. -/
def Request.Honest : Request → Prop
  | .receipt _ domainId ev _ => ∀ agg, toAggregationRoot domainId ev = .ok (some agg) →
      ∃ id aggregation, truth domainId id = some aggregation ∧ Describes ev id aggregation
  | .submitted _ path _ => ∃ id aggregation, truth path.domainId id = some aggregation ∧
      path.aggregationId = .ofNat id ∧ bufBytes path.root = aggregation.root.bytes ∧
      path.leafCount = .ofNat aggregation.leaves.length
  | _ => True

/-- The receipt counts the leaves of the aggregation it names. -/
def Request.Counts : Request → Prop
  | .receipt _ domainId ev _ => ∀ id aggregation, truth domainId id = some aggregation →
      Describes ev id aggregation → CountsLeaves ev aggregation.leaves.length
  | _ => True

/-- The root and the number of leaves of the aggregation it is about. -/
def Submission.Faithful (submission : Submission) : Prop :=
  ∃ aggregation, truth submission.domainId submission.aggregationId = some aggregation ∧
    submission.root = aggregation.root ∧ submission.leafCount = aggregation.leaves.length

/-- What is recorded is true of zkVerify's aggregations. -/
def Recorded (aggregations : DataMap (Nat × Nat) Aggregation) : Prop :=
  ∀ domainId aggregationId record, aggregations.lookup (domainId, aggregationId) = some record →
    ∃ aggregation, truth domainId aggregationId = some aggregation ∧
      record.root = aggregation.root ∧ record.leafCount = aggregation.leaves.length

end

/-! ## Receipts, read -/

section Receipts

variable {P : Primitives} {domainId : Nat} {ev : Record} {agg : AggregationRoot}

theorem toAggregationRoot_ok (h : toAggregationRoot domainId ev = .ok (some agg)) :
    ∃ root, rootOf ev = .string root ∧
      agg =
        { domainId := domainId
          aggregationId := (aggregationIdOf ev).toNumber
          root := prefixed root
          leafCount :=
            if (leavesOf ev).toNumber.isFinite ∧ (leavesOf ev).toNumber.isPositive then
              (leavesOf ev).toNumber
            else .finite 1 } := by
  simp only [toAggregationRoot] at h
  split at h
  · cases h
  · cases hroot : rootOf ev with
    | string root =>
        rw [hroot] at h
        exact ⟨root, rfl, (Option.some.inj (Except.ok.inj h)).symm⟩
    | _ =>
        rw [hroot] at h
        cases h

theorem Number.ofNat_injective {m n : Nat} (h : Number.ofNat m = Number.ofNat n) : m = n :=
  Nat.cast_injective (Number.finite.inj h)

/-- The count of a receipt is the true one exactly when the receipt counts. -/
theorem leafCount_eq_iff {count : Nat} (hcount : 0 < count)
    (h : toAggregationRoot domainId ev = .ok (some agg)) :
    agg.leafCount = .ofNat count ↔ CountsLeaves ev count := by
  obtain ⟨root, -, rfl⟩ := toAggregationRoot_ok h
  unfold CountsLeaves
  have hpositive : (0 : ℚ) < count := Nat.cast_pos.mpr hcount
  by_cases hread : (leavesOf ev).toNumber.isFinite ∧ (leavesOf ev).toNumber.isPositive
  · simp [hread]
  · have hother : (leavesOf ev).toNumber ≠ .ofNat count := by
      intro heq
      rw [heq] at hread
      exact hread ⟨rfl, decide_eq_true hpositive⟩
    simp only [hother, false_or, hread, not_false_eq_true, and_true]
    constructor
    · intro heq
      exact (Number.ofNat_injective (m := 1) (Eq.trans (by simp [Number.ofNat]) heq)).symm
    · rintro rfl
      simp [Number.ofNat]

end Receipts

/-! ## What is recorded -/

/-- A call leaves the recorded aggregations alone, or adds one that is new. -/
def Records (call : Verifier.Call) (before after : DataMap (Nat × Nat) Aggregation) : Prop :=
  after = before ∨
    ∃ domainId aggregationId record,
      call = .submitAggregation domainId aggregationId record.root record.leafCount ∧
      before.lookup (domainId, aggregationId) = none ∧
      after = before.insert (domainId, aggregationId) record

section Verifiers

variable {P : Primitives} {registry : PrivacyRegistry} {ctx : Ctx} {errorBase : Nat} {u : Unit}

theorem verifyProof_aggregations (registry : PrivacyRegistry) {authorized : Prop}
    [Decidable authorized] {currentVersion proofType circuitVersion : Nat}
    {publicInputsHash leaf : Buff32} {inclusion : Inclusion} {verifier verifier' : Verifier}
    (h : Verifier.verifyProof P errorBase authorized currentVersion ctx proofType circuitVersion
      publicInputsHash inclusion verifier = .ok (leaf, verifier')) :
    verifier'.aggregations = verifier.aggregations := by
  cases Verifier.verifyProof_performed registry h
  rfl

theorem administer_records {call : Verifier.Call} {verifier verifier' : Verifier}
    (h : Verifier.administer errorBase registry ctx call verifier = .ok (u, verifier')) :
    Records call verifier.aggregations verifier'.aggregations := by
  cases Verifier.administer_performed h with
  | submitAggregation _ _ _ hfresh => exact .inr ⟨_, _, _, rfl, hfresh, rfl⟩
  | _ => exact .inl rfl

theorem zkVerifier_records {call : Verifier.Call} {w w' : World}
    (h : ZkVerifier.execute P ctx call w = .ok (u, w')) :
    w'.sip10ZkVerifier = w.sip10ZkVerifier ∧
      Records call w.zkVerifier.aggregations w'.zkVerifier.aggregations := by
  cases call with
  | verifyProof proofType circuitVersion publicInputsHash inclusion =>
      simp only [ZkVerifier.execute, ZkVerifier.verifyProof, ↓bind_ok, ↓exists_onRegistry,
        ↓PrivacyRegistry.exists_checkActive, ↓exists_read, onZkVerifier_ok, record_ok,
        pure_ok] at h
      obtain ⟨_, _, ⟨-, _, _, ⟨verifier, hrun, rfl⟩, _, _, rfl, -, rfl⟩, -, rfl⟩ := h
      exact ⟨rfl, .inl (verifyProof_aggregations w.registry hrun)⟩
  | _ =>
      simp only [ZkVerifier.execute, ↓bind_ok, ↓exists_read, onZkVerifier_ok] at h
      obtain ⟨verifier, hrun, rfl⟩ := h
      exact ⟨rfl, administer_records hrun⟩

theorem sip10ZkVerifier_records {call : Sip10Verifier.Call} {w w' : World}
    (h : Sip10ZkVerifier.execute P ctx call w = .ok (u, w')) :
    w'.zkVerifier = w.zkVerifier ∧
      (w'.sip10ZkVerifier.verifier.aggregations = w.sip10ZkVerifier.verifier.aggregations ∨
        ∃ shared, call = .common shared ∧
          Records shared w.sip10ZkVerifier.verifier.aggregations
            w'.sip10ZkVerifier.verifier.aggregations) := by
  cases call with
  | common shared =>
      cases shared with
      | verifyProof proofType circuitVersion publicInputsHash inclusion =>
          simp only [Sip10ZkVerifier.execute, Sip10ZkVerifier.verifyProof, ↓bind_ok,
            ↓exists_onRegistry, ↓PrivacyRegistry.exists_checkActive, ↓exists_read,
            onSip10ZkVerifier_ok, zoom_ok, record_ok, pure_ok] at h
          obtain ⟨_, _, ⟨-, _, _, ⟨_, ⟨verifier, hrun, rfl⟩, rfl⟩, _, _, rfl, -, rfl⟩, -, rfl⟩ := h
          exact ⟨rfl, .inl (verifyProof_aggregations w.registry hrun)⟩
      | _ =>
          simp only [Sip10ZkVerifier.execute, ↓bind_ok, ↓exists_read, onSip10ZkVerifier_ok,
            zoom_ok] at h
          obtain ⟨_, ⟨verifier, hrun, rfl⟩, rfl⟩ := h
          exact ⟨rfl, .inr ⟨_, rfl, administer_records hrun⟩⟩
  | setCircuitVersion newVersion =>
      simp only [Sip10ZkVerifier.execute, Sip10ZkVerifier.setCircuitVersion, ↓bind_ok,
        ↓exists_read, ↓exists_require, onSip10ZkVerifier_ok, modify_ok] at h
      obtain ⟨_, ⟨-, -, rfl⟩, rfl⟩ := h
      exact ⟨rfl, .inl rfl⟩
  | setAuthorizedPool pool =>
      simp only [Sip10ZkVerifier.execute, Sip10ZkVerifier.setAuthorizedPool, ↓bind_ok,
        ↓exists_read, ↓exists_require, onSip10ZkVerifier_ok, modify_ok] at h
      obtain ⟨_, ⟨-, -, rfl⟩, rfl⟩ := h
      exact ⟨rfl, .inl rfl⟩

end Verifiers

/-! ## Runs -/

section Runs

variable {clUint : Number → Option Nat} {P : Primitives} {truth : Finality P}

/-- What every relayer broadcast, and what either verifier recorded, is true of
zkVerify's aggregations. -/
structure Truthful (truth : Finality P) (state : Publication) : Prop where
  broadcast : ∀ sent ∈ state.broadcast, sent.2.2.Faithful truth
  zkVerifier : Recorded truth state.chain.zkVerifier.aggregations
  sip10ZkVerifier : Recorded truth state.chain.sip10ZkVerifier.verifier.aggregations

theorem Recorded.records {call : Verifier.Call} {before after : DataMap (Nat × Nat) Aggregation}
    (h : Recorded truth before) (hrecords : Records call before after)
    (hfaithful : ∀ domainId aggregationId root leafCount,
      call = .submitAggregation domainId aggregationId root leafCount →
      Submission.Faithful truth ⟨domainId, aggregationId, root, leafCount⟩) :
    Recorded truth after := by
  rcases hrecords with rfl | ⟨domainId, aggregationId, record, hcall, -, rfl⟩
  · exact h
  · intro otherDomain otherId found hfound
    by_cases hsame : (otherDomain, otherId) = (domainId, aggregationId)
    · obtain ⟨rfl, rfl⟩ := Prod.mk.inj hsame
      rw [AList.lookup_insert] at hfound
      obtain rfl := Option.some.inj hfound
      exact hfaithful _ _ _ _ hcall
    · rw [AList.lookup_insert_ne hsame] at hfound
      exact h otherDomain otherId found hfound

section Submissions

variable (hclUint : ∀ number n, clUint number = some n → number = .ofNat n)
include hclUint

theorem submission_eq_some {agg : AggregationRoot} {sent : Submission}
    (h : submission clUint agg = some sent) :
    sent.domainId = agg.domainId ∧ agg.aggregationId = .ofNat sent.aggregationId ∧
      sent.root.bytes = bufBytes agg.root ∧ agg.leafCount = .ofNat sent.leafCount := by
  simp only [submission, Option.bind_eq_bind, Option.bind_eq_some_iff] at h
  obtain ⟨domainId, hdomain, aggregationId, hid, leafCount, hcount, h⟩ := h
  split at h
  · obtain rfl := Option.some.inj h
    exact ⟨(Number.ofNat_injective (hclUint _ _ hdomain)).symm, hclUint _ _ hid, rfl,
      hclUint _ _ hcount⟩
  · cases h

/-- A published root is the aggregation's if it has its id, root and count. -/
theorem submission_faithful {agg : AggregationRoot} {sent : Submission} {id : Nat}
    {aggregation : Finalized P} (htruth : truth agg.domainId id = some aggregation)
    (hid : agg.aggregationId = .ofNat id) (hroot : bufBytes agg.root = aggregation.root.bytes)
    (hcount : agg.leafCount = .ofNat aggregation.leaves.length)
    (h : submission clUint agg = some sent) : sent.Faithful truth := by
  obtain ⟨hdomain, hsentId, hsentRoot, hsentCount⟩ := submission_eq_some hclUint h
  have hsame : sent.aggregationId = id := Number.ofNat_injective (hsentId.symm.trans hid)
  refine ⟨aggregation, ?_, Buff32.ext (hsentRoot.trans hroot), ?_⟩
  · rw [hdomain, hsame]
    exact htruth
  · exact Number.ofNat_injective (hsentCount.symm.trans hcount)

theorem publishRoot_faithful {agg : AggregationRoot} {network : Network} {id : Nat}
    {aggregation : Finalized P} (htruth : truth agg.domainId id = some aggregation)
    (hid : agg.aggregationId = .ofNat id) (hroot : bufBytes agg.root = aggregation.root.bytes)
    (hcount : agg.leafCount = .ofNat aggregation.leaves.length) :
    ∀ sent ∈ publishRoot clUint network agg, sent.2.Faithful truth := by
  intro sent hsent
  obtain ⟨verifier, -, hsome⟩ := List.mem_filterMap.mp hsent
  split at hsome
  · cases hsome
  · obtain ⟨found, hfound, rfl⟩ := Option.map_eq_some_iff.mp hsome
    exact submission_faithful hclUint htruth hid hroot hcount hfound

end Submissions

theorem Finalized.leaves_pos (aggregation : Finalized P) : 0 < aggregation.leaves.length := by
  rw [List.length_pos_iff]
  intro hempty
  have hroot := aggregation.root_eq
  rw [hempty] at hroot
  simp [Verifier.aggregationRoot, Verifier.leafNodes, BinaryMerkle.root] at hroot

theorem mem_publishRoot_of_publish {seen : Seen} {network : Network} {agg : AggregationRoot}
    {sent : VerifierName × Submission} (h : sent ∈ (publish clUint seen network agg).2) :
    sent ∈ publishRoot clUint network agg := by
  simp only [publish] at h
  split at h
  · cases h
  · exact h

/-- A receipt that counts the leaves is published as it should be. -/
theorem publish_faithful (hclUint : ∀ number n, clUint number = some n → number = .ofNat n)
    {relayer : Principal} {domainId : Nat} {ev : Record} {network : Network} {seen : Seen}
    {agg : AggregationRoot} (hhonest : Request.Honest truth (.receipt relayer domainId ev network))
    (hcounts : Request.Counts truth (.receipt relayer domainId ev network))
    (hagg : toAggregationRoot domainId ev = .ok (some agg)) :
    ∀ sent ∈ (publish clUint seen network agg).2, sent.2.Faithful truth := by
  obtain ⟨id, aggregation, htruth, hdescribes⟩ := hhonest agg hagg
  have hcount : agg.leafCount = .ofNat aggregation.leaves.length :=
    (leafCount_eq_iff aggregation.leaves_pos hagg).mpr (hcounts id aggregation htruth hdescribes)
  obtain ⟨text, htext, hroot⟩ := hdescribes.root
  obtain ⟨root, hread, heq⟩ := toAggregationRoot_ok hagg
  have hdomain : agg.domainId = domainId := congrArg AggregationRoot.domainId heq
  have hid : agg.aggregationId = .ofNat id :=
    (congrArg AggregationRoot.aggregationId heq).trans hdescribes.id
  have hsame : root = text := Value.string.inj (hread.symm.trans htext)
  have hbytes : bufBytes agg.root = aggregation.root.bytes := by
    rw [congrArg AggregationRoot.root heq, hsame]
    exact hroot
  intro sent hsent
  exact publishRoot_faithful hclUint (hdomain ▸ htruth) hid hbytes hcount sent
    (mem_publishRoot_of_publish hsent)

theorem Truthful.broadcasting {state : Publication} (h : Truthful truth state)
    {relayer : Principal} {submissions : List (VerifierName × Submission)}
    (hfaithful : ∀ sent ∈ submissions, sent.2.Faithful truth) :
    Truthful truth (state.broadcasting relayer submissions) where
  broadcast sent hsent := by
    rcases List.mem_append.mp hsent with hold | hnew
    · exact h.broadcast sent hold
    · obtain ⟨added, hadded, rfl⟩ := List.mem_map.mp hnew
      exact hfaithful added hadded
  zkVerifier := h.zkVerifier
  sip10ZkVerifier := h.sip10ZkVerifier

/-- What is mined had been broadcast. -/
theorem Truthful.sent {state : Publication} (h : Truthful truth state) {verifier : VerifierName}
    {ctx : Ctx} {call : Verifier.Call} (hsent : state.Sent verifier ctx call)
    (domainId aggregationId : Nat) (root : Buff32) (leafCount : Nat)
    (hcall : call = .submitAggregation domainId aggregationId root leafCount) :
    Submission.Faithful truth ⟨domainId, aggregationId, root, leafCount⟩ := by
  rw [hcall] at hsent
  exact h.broadcast _ hsent

theorem Truthful.step (hclUint : ∀ number n, clUint number = some n → number = .ofNat n)
    {state state' : Publication} {request : Request} {u : Unit} (h : Truthful truth state)
    (hhonest : request.Honest truth) (hcounts : request.Counts truth)
    (hrun : serve clUint P request state = .ok (u, state')) : Truthful truth state' := by
  cases request with
  | receipt relayer domainId ev network =>
      simp only [serve, ↓bind_ok, ↓exists_read] at hrun
      cases hagg : toAggregationRoot domainId ev with
      | error _ =>
          rw [hagg] at hrun
          obtain ⟨-, rfl⟩ := pure_ok.mp hrun
          exact h
      | ok parsed =>
          cases parsed with
          | none =>
              rw [hagg] at hrun
              obtain ⟨-, rfl⟩ := pure_ok.mp hrun
              exact h
          | some agg =>
              rw [hagg] at hrun
              obtain rfl := modify_ok.mp hrun
              have hseen : Truthful truth
                  { state with
                    seen := (Function.update state.seen relayer
                      (publish clUint (state.seen relayer) network agg).1) } :=
                ⟨h.broadcast, h.zkVerifier, h.sip10ZkVerifier⟩
              exact hseen.broadcasting (publish_faithful hclUint hhonest hcounts hagg)
  | submitted relayer path network =>
      simp only [serve, ↓modify_ok] at hrun
      obtain rfl := hrun
      obtain ⟨id, aggregation, htruth, hid, hroot, hcount⟩ := hhonest
      exact h.broadcasting (publishRoot_faithful hclUint htruth hid hroot hcount)
  | zkVerifier registry ctx call =>
      simp only [serve, onChain, ↓bind_ok, ↓exists_read, ↓exists_require, zoom_ok,
        ↓exists_modify] at hrun
      obtain ⟨hsent, chain, hexecute, rfl⟩ := hrun
      obtain ⟨hframe, hrecords⟩ := zkVerifier_records hexecute
      refine ⟨h.broadcast, h.zkVerifier.records hrecords (h.sent hsent), ?_⟩
      change Recorded truth chain.sip10ZkVerifier.verifier.aggregations
      rw [hframe]
      exact h.sip10ZkVerifier
  | sip10ZkVerifier registry ctx call =>
      simp only [serve, onChain, ↓bind_ok, ↓exists_read, ↓exists_require, zoom_ok,
        ↓exists_modify] at hrun
      obtain ⟨hsent, chain, hexecute, rfl⟩ := hrun
      obtain ⟨hframe, hrecords⟩ := sip10ZkVerifier_records hexecute
      refine ⟨h.broadcast, ?_, ?_⟩
      · change Recorded truth chain.zkVerifier.aggregations
        rw [hframe]
        exact h.zkVerifier
      · change Recorded truth chain.sip10ZkVerifier.verifier.aggregations
        rcases hrecords with hsame | ⟨shared, rfl, hrecords⟩
        · rw [hsame]
          exact h.sip10ZkVerifier
        · exact h.sip10ZkVerifier.records hrecords (h.sent (hsent shared rfl))

theorem Truthful.launched (deployer : Principal) (stx : Principal → Nat)
    (tokens : Principal → TokenLedger) :
    Truthful truth (launched (World.deployed deployer stx tokens)) where
  broadcast sent hsent := absurd hsent List.not_mem_nil
  zkVerifier domainId aggregationId record hfound := by cases hfound
  sip10ZkVerifier domainId aggregationId record hfound := by cases hfound

/-- By induction on the run: every step keeps what is recorded true. -/
theorem Truthful.run (hclUint : ∀ number n, clUint number = some n → number = .ofNat n)
    {session : Run} {requests : List Request} (h : Truthful truth session.state)
    (hhonest : ∀ request ∈ requests, request.Honest truth)
    (hcounts : ∀ request ∈ requests, request.Counts truth) :
    Truthful truth (Session.submitAll (serve clUint P) session requests).state := by
  induction requests generalizing session with
  | nil => exact h
  | cons request rest ih =>
      rw [Session.submitAll_cons]
      apply ih
      · rcases Session.submit_cases (serve clUint P) session request with
          ⟨u, state, hrun, heq⟩ | heq
        · rw [heq]
          exact h.step hclUint (hhonest request List.mem_cons_self)
            (hcounts request List.mem_cons_self) hrun
        · rw [heq]
          exact h
      · exact fun later hlater => hhonest later (List.mem_cons_of_mem _ hlater)
      · exact fun later hlater => hcounts later (List.mem_cons_of_mem _ hlater)

end Runs

/-! ## Usable aggregations -/

/-- The record a verifier has of an aggregation. -/
def recordOf (w : World) (domainId aggregationId : Nat) : VerifierName → Option Aggregation
  | .zkVerifier => w.zkVerifier.aggregations.lookup (domainId, aggregationId)
  | .sip10ZkVerifier => w.sip10ZkVerifier.verifier.aggregations.lookup (domainId, aggregationId)

/-- The inclusion check of both verifiers. -/
def PassesInclusion (P : Primitives) (record : Aggregation) (leaf : Buff32) (path : List Buff32)
    (index : Nat) : Prop :=
  index < record.leafCount ∧ path.length ≤ 32 ∧
    Verifier.computeMerkleRoot P leaf path index record.leafCount = record.root

/-- What is recorded is the aggregation's own root and number of leaves, and each
leaf passes under its path. -/
def Usable (P : Primitives) (truth : Finality P) (w : World) : Prop :=
  ∀ verifier domainId aggregationId record,
    recordOf w domainId aggregationId verifier = some record →
      ∃ aggregation, truth domainId aggregationId = some aggregation ∧
        record.root = aggregation.root ∧ record.leafCount = aggregation.leaves.length ∧
        ∀ (index : Nat) (leaf : Buff32), aggregation.leaves[index]? = some leaf →
          PassesInclusion P record leaf (Verifier.merklePath P aggregation.leaves index) index

theorem passesInclusion {P : Primitives} {record : Aggregation} {aggregation : Finalized P}
    (hroot : record.root = aggregation.root)
    (hcount : record.leafCount = aggregation.leaves.length) {index : Nat} {leaf : Buff32}
    (hleaf : aggregation.leaves[index]? = some leaf) :
    PassesInclusion P record leaf (Verifier.merklePath P aggregation.leaves index) index := by
  obtain ⟨hindex, -⟩ := List.getElem?_eq_some_iff.mp hleaf
  refine ⟨hcount ▸ hindex, Verifier.length_merklePath_le P index aggregation.length_le, ?_⟩
  rw [hcount, hroot]
  exact Option.some.inj
    ((Verifier.computeMerkleRoot_merklePath P hleaf).trans aggregation.root_eq)

theorem Truthful.usable {P : Primitives} {truth : Finality P} {state : Publication}
    (h : Truthful truth state) : Usable P truth state.chain := by
  intro verifier domainId aggregationId record hrecord
  have hrecorded : ∃ aggregation, truth domainId aggregationId = some aggregation ∧
      record.root = aggregation.root ∧ record.leafCount = aggregation.leaves.length := by
    cases verifier with
    | zkVerifier => exact h.zkVerifier domainId aggregationId record hrecord
    | sip10ZkVerifier => exact h.sip10ZkVerifier domainId aggregationId record hrecord
  obtain ⟨aggregation, htruth, hroot, hcount⟩ := hrecorded
  exact ⟨aggregation, htruth, hroot, hcount, fun _ _ hleaf => passesInclusion hroot hcount hleaf⟩

/-- In every run in which the receipts count the leaves, whatever the verifiers
record is usable. -/
theorem published_aggregations_usable {clUint : Number → Option Nat}
    (hclUint : ∀ number n, clUint number = some n → number = .ofNat n) {P : Primitives}
    {truth : Finality P} (deployer : Principal) (stx : Principal → Nat)
    (tokens : Principal → TokenLedger) {requests : List Request}
    (hhonest : ∀ request ∈ requests, request.Honest truth)
    (hcounts : ∀ request ∈ requests, request.Counts truth) :
    Usable P truth (runFrom clUint P (World.deployed deployer stx tokens) requests).state.chain :=
  ((Truthful.launched deployer stx tokens).run hclUint hhonest hcounts).usable

namespace Sample

open StxShield.Sample

def hexDigit (n : Nat) : Char := Nat.digitChar n

def hexText (bytes : Bytes) : String :=
  String.ofList ('0' :: 'x' :: bytes.flatMap fun byte =>
    [hexDigit (byte.toNat / 16), hexDigit (byte.toNat % 16)])

/-- Two statements in one aggregation. -/
def leaves : List Buff32 := [digest [1], digest [2]]

def root : Buff32 := Verifier.nodeHash primitives (digest (digest [1]).bytes) (digest (digest [2]).bytes)

theorem root_eq : Verifier.aggregationRoot primitives leaves = some root := by
  simp [Verifier.aggregationRoot, Verifier.leafNodes, leaves, root, BinaryMerkle.root,
    BinaryMerkle.nextLevel]
  rfl

def finalized : Finalized primitives where
  leaves := leaves
  root := root
  root_eq := root_eq
  length_le := by decide

def truth : Finality primitives := fun domainId aggregationId =>
  if domainId = 0 ∧ aggregationId = 7 then some finalized else none

/-- The receipt of the aggregation as an event carries it, with some more fields. -/
def receipt (more : Record) : Record := fun field =>
  if field = "aggregationId" then .number (.ofNat 7)
  else if field = "receipt" then .string (hexText root.bytes)
  else more field

def clUint : Number → Option Nat
  | .finite value => if value.den = 1 ∧ 0 ≤ value.num then some value.num.toNat else none
  | _ => none

theorem clUint_eq {number : Number} {n : Nat} (h : clUint number = some n) : number = .ofNat n := by
  cases number with
  | finite value =>
      simp only [clUint] at h
      split at h
      case isTrue hinteger =>
        obtain ⟨hden, hsign⟩ := hinteger
        obtain rfl := Option.some.inj h
        have hvalue : value = value.num := (Rat.coe_int_num_of_den_eq_one hden).symm
        rw [Number.ofNat, hvalue, Rat.num_intCast]
        congr 1
        exact_mod_cast (Int.toNat_of_nonneg hsign).symm
      case isFalse => cases h
  | _ => cases h

/-- Nothing is posted yet, as far as a relayer can see, and all is broadcast. -/
def network : Network := ⟨fun _ => false, fun _ => true⟩

def submit (count : Nat) : Request :=
  .zkVerifier (PrivacyRegistry.deployed owner) (sentBy owner) (.submitAggregation 0 7 root count)

/-- A receipt may carry nothing but an id and a root. -/
def bare : Record := fun _ => .undefined

def counted : Record := fun field => if field = "numberOfLeaves" then .number (.ofNat 2) else .undefined

/-- The owner's poller handles one receipt, another relayer's the same with the
count in it; whatever they broadcast is mined. -/
def requests (first : Record) : List Request :=
  [.receipt owner 0 (receipt first) network, .receipt alice 0 (receipt counted) network,
    submit 1, submit 2]

theorem receipt_describes (more : Record) : Describes (receipt more) 7 finalized where
  id := rfl
  root := ⟨hexText root.bytes, rfl, by decide +kernel⟩

theorem requests_honest (first : Record) : ∀ request ∈ requests first, request.Honest truth := by
  intro request hrequest
  have hreceipt (relayer : Principal) (more : Record) :
      Request.Honest truth (.receipt relayer 0 (receipt more) network) :=
    fun _ _ => ⟨7, finalized, rfl, receipt_describes more⟩
  simp only [requests, List.mem_cons, List.not_mem_nil, or_false] at hrequest
  rcases hrequest with rfl | rfl | rfl | rfl
  · exact hreceipt _ _
  · exact hreceipt _ _
  · trivial
  · trivial

/-- There is only one aggregation. -/
theorem finalized_of_truth {domainId id : Nat} {aggregation : Finalized primitives}
    (h : truth domainId id = some aggregation) : aggregation = finalized := by
  unfold truth at h
  split at h
  · exact (Option.some.inj h).symm
  · cases h

theorem requests_counted : ∀ request ∈ requests counted, request.Counts truth := by
  intro request hrequest
  have hreceipt (relayer : Principal) :
      Request.Counts truth (.receipt relayer 0 (receipt counted) network) := by
    intro id aggregation htruth _
    rw [finalized_of_truth htruth]
    exact .inl rfl
  simp only [requests, List.mem_cons, List.not_mem_nil, or_false] at hrequest
  rcases hrequest with rfl | rfl | rfl | rfl
  · exact hreceipt _
  · exact hreceipt _
  · trivial
  · trivial

def after (first : Record) : World :=
  (runFrom clUint primitives
    (World.deployed owner (fun _ => 10000000) fun _ => { balances := fun _ => 1000, memory := 0 })
    (requests first)).state.chain

end Sample

/-- With the count in both receipts, 2 leaves are recorded. -/
theorem published_aggregations_usable_counted :
    (recordOf (Sample.after Sample.counted) 0 7 .zkVerifier).map Aggregation.leafCount = some 2 ∧
      Usable StxShield.Sample.primitives Sample.truth (Sample.after Sample.counted) := by
  refine ⟨by decide +kernel, ?_⟩
  unfold Sample.after
  exact @published_aggregations_usable Sample.clUint (fun _ _ => Sample.clUint_eq)
    StxShield.Sample.primitives Sample.truth StxShield.Sample.owner _ _
    (Sample.requests Sample.counted) (Sample.requests_honest _) Sample.requests_counted

/-- Without it 1 leaf is recorded, and stays recorded when the other relayer's
transaction is mined: the second leaf passes under no path. -/
theorem published_count_wrong :
    (∀ request ∈ Sample.requests Sample.bare, request.Honest Sample.truth) ∧
      (recordOf (Sample.after Sample.bare) 0 7 .zkVerifier).map Aggregation.leafCount = some 1 ∧
      (∀ record, recordOf (Sample.after Sample.bare) 0 7 .zkVerifier = some record →
        ∀ path, ¬ PassesInclusion StxShield.Sample.primitives record
          (StxShield.Sample.digest [2]) path 1) ∧
      ¬ Usable StxShield.Sample.primitives Sample.truth (Sample.after Sample.bare) := by
  have hcount : (recordOf (Sample.after Sample.bare) 0 7 .zkVerifier).map Aggregation.leafCount =
      some 1 := by decide +kernel
  refine ⟨Sample.requests_honest _, hcount, fun record hrecord path hpasses => ?_, fun h => ?_⟩
  · rw [hrecord, Option.map_some, Option.some.injEq] at hcount
    have hindex := hpasses.1
    omega
  · obtain ⟨record, hrecord, hone⟩ := Option.map_eq_some_iff.mp hcount
    obtain ⟨aggregation, htruth, -, htrue, -⟩ := h .zkVerifier 0 7 record hrecord
    rw [Sample.finalized_of_truth htruth, hone] at htrue
    cases htrue

end StxShield.RootPublisher
