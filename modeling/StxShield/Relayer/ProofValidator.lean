import StxShield.Library.Hexadecimal
import StxShield.Protocol.Clearance
import StxShield.Protocol.Runs
import StxShield.Relayer.ContractArguments
import StxShield.Relayer.JobOutcomes
import StxShield.Security.Solvency

/-!
# The proof validator

Before a job is queued the relayer asks a node whether the operation would succeed: the
protocol's state, the root, the nullifiers and the aggregation are read from the chain.
Whether the operation is switched on, its statement is in the aggregation, its root is
the current one and its nullifiers are different is not asked.
-/

namespace StxShield

open Library Exec World

/-! ## Used nullifiers -/

namespace PrivacyRegistry

/-- `is-nullifier-spent` -/
def isNullifierSpent (registry : PrivacyRegistry) (nullifier : Buff32) : Bool :=
  ((registry.nullifiers.lookup nullifier).map NullifierRecord.registered).getD false

/-- Every record of a nullifier says that it is used. -/
def NullifiersMarked (registry : PrivacyRegistry) : Prop :=
  ∀ nullifier record, registry.nullifiers.lookup nullifier = some record →
    record.registered = true

theorem NullifiersMarked.unused {registry : PrivacyRegistry} (h : registry.NullifiersMarked)
    {nullifier : Buff32} (hspent : registry.isNullifierSpent nullifier = false) :
    registry.nullifiers.lookup nullifier = none := by
  cases hlookup : registry.nullifiers.lookup nullifier with
  | none => rfl
  | some record =>
      have hmarked := h nullifier record hlookup
      simp only [isNullifierSpent, hlookup, Option.map_some, Option.getD_some, hmarked,
        Bool.true_eq_false] at hspent

theorem Performed.nullifiersMarked {ctx : Ctx} {before after : PrivacyRegistry} {call : Call}
    {data : Option Nat} (hmarked : before.NullifiersMarked)
    (h : Performed ctx before call data after) : after.NullifiersMarked := by
  cases h with
  | @registerNullifier nullifier =>
      intro other record hrecord
      rw [DataMap.lookup_insert_eq] at hrecord
      split at hrecord
      case isTrue =>
        cases hrecord
        rfl
      case isFalse => exact hmarked other record hrecord
  | _ => exact hmarked

end PrivacyRegistry

theorem nullifiersMarked_kept : KeptByRuns fun w w' =>
    w.registry.NullifiersMarked → w'.registry.NullifiersMarked where
  refl _ := id
  trans huv hvw := hvw ∘ huv
  store _ _ _ _ := id
  registers h := by
    rw [h.written]
    exact id
  called _ _ := id
  writes h := by
    cases h with
    | registry hperformed => exact fun hmarked => hperformed.nullifiersMarked hmarked
    | noteManager hrun =>
        obtain ⟨registry, manager, rfl, hsame | hcounted⟩ := NoteManager.execute_frame hrun
        · intro hmarked
          rw [← hsame] at hmarked
          exact hmarked
        · exact fun hmarked => hcounted.nullifiersMarked hmarked
    | _ => exact id

theorem Reachable.nullifiersMarked {env : Env} {w : World} (h : Reachable env w) :
    w.registry.NullifiersMarked := by
  obtain ⟨deployer, stx, tokens, hrun⟩ := h.exists_deployed
  refine nullifiersMarked_kept.continues hrun fun nullifier record hrecord => ?_
  have hnone : (∅ : DataMap Buff32 NullifierRecord).lookup nullifier = some record := hrecord
  rw [AList.lookup_empty] at hnone
  cases hnone

namespace Relay

open RootPublisher JavaScript

/-! ## Reading the chain -/

/-- The number of a protocol state. -/
def stateNumber : ProtocolState → Nat
  | .active => 1
  | .paused => 2
  | .emergency => 3
  | .upgrading => 4
  | .deprecated => 5

/-- The read-only functions that are called, with their arguments. -/
inductive ReadOnly where
  | getProtocolState
  | isKnownRoot (root : ClarityValue)
  | isNullifierSpent (nullifier : ClarityValue)
  /-- On `sip10-zk-verifier` or on `zk-verifier`. -/
  | getAggregation (sip10 : Bool) (domainId aggregationId : ClarityValue)

/-- What `unwrap` finds in the JSON of a response: a number as text, `null` for none. -/
inductive Unwrapped where
  | text (digits : String)
  | bool (value : Bool)
  | null
  | tuple (aggregation : Aggregation)

/-- The response in a state of the chain, if the arguments are of the declared types. -/
def respond (w : World) : ReadOnly → Option Unwrapped
  | .getProtocolState => some (.text (toString (stateNumber w.registry.protocolState)))
  | .isKnownRoot root => do
      let root ← root.buff32?
      return .bool (w.registry.isKnownRoot root)
  | .isNullifierSpent nullifier => do
      let nullifier ← nullifier.buff32?
      return .bool (w.registry.isNullifierSpent nullifier)
  | .getAggregation sip10 domainId aggregationId => do
      let domainId ← domainId.uint?
      let aggregationId ← aggregationId.uint?
      let verifier := if sip10 then w.sip10ZkVerifier.verifier else w.zkVerifier
      return (verifier.aggregations.lookup (domainId.val, aggregationId.val)).elim .null .tuple

/-- Why a request is turned down. -/
inductive Refusal where
  | relayError (code message : String) (status : Nat)
  | thrown (message : String)
  deriving DecidableEq

/-- `NodeReader`: each call can fail on the way, and does if the arguments are wrong. -/
structure NodeReader where
  failure : Nat → Option Refusal
  cause : String

def NodeReader.readOnly (reader : NodeReader) (w : World) (k : Nat) (call : ReadOnly) :
    Except Refusal Unwrapped :=
  match reader.failure k, respond w call with
  | some refusal, _ => .error refusal
  | none, some response => .ok response
  | none, none => .error (.relayError "read_failed" reader.cause 502)

/-! ## Validation -/

/-- Which nullifiers an operation consumes. -/
def nullifiersOf : RelayRequest → List String
  | .merge m => [m.nullifier1, m.nullifier2]
  | .transfer t => [t.nullifier]
  | .withdraw w => [w.nullifier]
  | .split s => [s.nullifier]

/-- Which Merkle root an operation proves against. -/
def rootOf : RelayRequest → String
  | .withdraw w => w.root
  | .transfer t => t.currentRoot
  | .split s => s.currentRoot
  | .merge m => m.currentRoot

/-- What `String` makes of a value. -/
def Unwrapped.toText : Unwrapped → String
  | .text digits => digits
  | .bool value => toString value
  | .null => "null"
  | .tuple _ => "[object Object]"

section Validate

variable (lib : StacksLibrary) (reader : NodeReader) (w : World)

def assertProtocolActive : Except Refusal Unit := do
  let state ← reader.readOnly w 0 .getProtocolState
  if state.toText = "1" then pure ()
  else .error (.relayError "protocol_inactive" ("protocol state is " ++ state.toText) 503)

def assertRootKnown (r : RelayRequest) : Except Refusal Unit := do
  let known ← reader.readOnly w 1 (.isKnownRoot (buf (rootOf r)))
  match known with
  | .bool true => pure ()
  | _ => .error (.relayError "unknown_root" ("root " ++ rootOf r ++ " is not valid") 400)

/-- The loop over the nullifiers, at call `k` to the node. -/
def assertUnspent (k : Nat) : List String → Except Refusal Unit
  | [] => pure ()
  | n :: rest => do
      let spent ← reader.readOnly w k (.isNullifierSpent (buf n))
      match spent with
      | .bool true =>
          .error (.relayError "nullifier_spent" ("nullifier " ++ n ++ " already spent") 409)
      | _ => assertUnspent (k + 1) rest

def assertNullifiersUnspent (r : RelayRequest) : Except Refusal Unit :=
  assertUnspent reader w 2 (nullifiersOf r)

def assertAggregationPublished (r : RelayRequest) : Except Refusal Unit := do
  let inclusion := r.base.inclusion
  let domainId ← (lib.uintOfNumber inclusion.domainId).mapError .thrown
  let aggregationId ← (lib.uintOfNumber inclusion.aggregationId).mapError .thrown
  let agg ← reader.readOnly w (2 + (nullifiersOf r).length)
    (.getAggregation r.token?.isSome (.uint domainId) (.uint aggregationId))
  match agg with
  | .null =>
      .error (.relayError "aggregation_not_published"
        ("aggregation " ++ toString inclusion.domainId ++ "/" ++
          toString inclusion.aggregationId ++
          " is not on chain yet — retry once the relayer network publishes it") 409)
  | _ => pure ()

def validate (r : RelayRequest) : Except Refusal Unit := do
  assertProtocolActive reader w
  assertRootKnown reader w r
  assertNullifiersUnspent reader w r
  assertAggregationPublished lib reader w r

end Validate

/-! ## What acceptance says -/

variable {lib : StacksLibrary} {reader : NodeReader} {w : World} {r : RelayRequest}

theorem readOnly_ok {k : Nat} {call : ReadOnly} {response : Unwrapped}
    (h : reader.readOnly w k call = .ok response) : respond w call = some response := by
  unfold NodeReader.readOnly at h
  split at h
  case h_1 => cases h
  case h_2 hresponse =>
    cases h
    exact hresponse
  case h_3 => cases h

/-- The chain, when everything that is asked is answered well. -/
structure Validated (w : World) (r : RelayRequest) : Prop where
  active : w.registry.protocolState = .active
  root : ∃ root : Buff32, root.bytes = bufBytes (rootOf r) ∧ w.registry.isKnownRoot root = true
  unspent : ∀ n ∈ nullifiersOf r, ∃ nullifier : Buff32, nullifier.bytes = bufBytes n ∧
    w.registry.isNullifierSpent nullifier = false
  published :
    ((if r.token?.isSome then w.sip10ZkVerifier.verifier else w.zkVerifier).aggregations.lookup
      (r.base.inclusion.domainId, r.base.inclusion.aggregationId)).isSome

theorem assertProtocolActive_ok (h : assertProtocolActive reader w = .ok ()) :
    w.registry.protocolState = .active := by
  obtain ⟨state, hread, hstate⟩ := except_bind_ok.mp h
  have hresponse := readOnly_ok hread
  cases hresponse
  split at hstate
  case isTrue hone =>
    cases hcurrent : w.registry.protocolState with
    | active => rfl
    | paused | emergency | upgrading | deprecated =>
        rw [hcurrent] at hone
        exact absurd hone (by decide)
  case isFalse => cases hstate

theorem assertRootKnown_ok (h : assertRootKnown reader w r = .ok ()) :
    ∃ root : Buff32, root.bytes = bufBytes (rootOf r) ∧ w.registry.isKnownRoot root = true := by
  obtain ⟨known, hread, hknown⟩ := except_bind_ok.mp h
  obtain ⟨root, hroot, hresponse⟩ := Option.bind_eq_some_iff.mp (readOnly_ok hread)
  cases hresponse
  refine ⟨root, buff32?_buf hroot, ?_⟩
  cases hvalue : w.registry.isKnownRoot root with
  | true => rfl
  | false =>
      rw [hvalue] at hknown
      cases hknown

/-- By induction on the nullifiers that are left. -/
theorem assertUnspent_ok {k : Nat} {nullifiers : List String}
    (h : assertUnspent reader w k nullifiers = .ok ()) :
    ∀ n ∈ nullifiers, ∃ nullifier : Buff32, nullifier.bytes = bufBytes n ∧
      w.registry.isNullifierSpent nullifier = false := by
  induction nullifiers generalizing k with
  | nil => exact fun n hn => absurd hn List.not_mem_nil
  | cons first rest ih =>
      obtain ⟨spent, hread, hspent⟩ := except_bind_ok.mp h
      obtain ⟨nullifier, hnullifier, hresponse⟩ := Option.bind_eq_some_iff.mp (readOnly_ok hread)
      cases hresponse
      cases hvalue : w.registry.isNullifierSpent nullifier with
      | true =>
          rw [hvalue] at hspent
          cases hspent
      | false =>
          rw [hvalue] at hspent
          intro n hn
          rcases List.mem_cons.mp hn with rfl | hrest
          · exact ⟨nullifier, buff32?_buf hnullifier, hvalue⟩
          · exact ih hspent n hrest

theorem mapError_ok {ε ε' α : Type} {f : ε → ε'} {outcome : Except ε α} {value : α}
    (h : outcome.mapError f = .ok value) : outcome = .ok value := by
  cases outcome with
  | ok result =>
      cases h
      rfl
  | error e => cases h

theorem assertAggregationPublished_ok (h : assertAggregationPublished lib reader w r = .ok ()) :
    ((if r.token?.isSome then w.sip10ZkVerifier.verifier else w.zkVerifier).aggregations.lookup
      (r.base.inclusion.domainId, r.base.inclusion.aggregationId)).isSome := by
  obtain ⟨domainId, hdomain, h⟩ := except_bind_ok.mp h
  obtain ⟨aggregationId, haggregation, h⟩ := except_bind_ok.mp h
  obtain ⟨agg, hread, hagg⟩ := except_bind_ok.mp h
  have hresponse := readOnly_ok hread
  cases hresponse
  rw [← lib.uintOfNumber_val _ _ (mapError_ok hdomain),
    ← lib.uintOfNumber_val _ _ (mapError_ok haggregation)]
  cases hlookup : (if r.token?.isSome then w.sip10ZkVerifier.verifier
      else w.zkVerifier).aggregations.lookup (domainId.val, aggregationId.val) with
  | some aggregation => rfl
  | none =>
      rw [hlookup] at hagg
      cases hagg

theorem validate_ok (h : validate lib reader w r = .ok ()) : Validated w r := by
  obtain ⟨_, hactive, h⟩ := except_bind_ok.mp h
  obtain ⟨_, hroot, h⟩ := except_bind_ok.mp h
  obtain ⟨_, hunspent, hpublished⟩ := except_bind_ok.mp h
  exact ⟨assertProtocolActive_ok hactive, assertRootKnown_ok hroot, assertUnspent_ok hunspent,
    assertAggregationPublished_ok hpublished⟩

/-! ## What is asked is about the call -/

section Says

variable {op : StxShield.Operation} (h : r.Says lib op.action)
include h

theorem RelayRequest.Says.spends : op.nullifiers ≠ [] := by
  obtain ⟨currency, action⟩ := op
  cases r <;> cases action <;> first | exact h.elim | exact List.cons_ne_nil _ _

theorem RelayRequest.Says.declaredRoot : op.declaredRoot.bytes = bufBytes (rootOf r) := by
  obtain ⟨currency, action⟩ := op
  cases r with
  | transfer t =>
      cases action with
      | transfer args => exact h.2.2.2.2.1
      | _ => exact h.elim
  | withdraw w =>
      cases action with
      | withdraw args => exact h.2.2.2
      | _ => exact h.elim
  | split s =>
      cases action with
      | split args => exact h.2.2.2.2.2.2.2.1
      | _ => exact h.elim
  | merge m =>
      cases action with
      | merge args => exact h.2.2.2.2.2.1
      | _ => exact h.elim

theorem RelayRequest.Says.nullifiers :
    ∀ nullifier ∈ op.nullifiers, ∃ n ∈ nullifiersOf r, nullifier.bytes = bufBytes n := by
  obtain ⟨currency, action⟩ := op
  cases r with
  | transfer t =>
      cases action with
      | transfer args => exact List.forall_mem_singleton.mpr ⟨_, List.mem_singleton_self _, h.1⟩
      | _ => exact h.elim
  | withdraw w =>
      cases action with
      | withdraw args => exact List.forall_mem_singleton.mpr ⟨_, List.mem_singleton_self _, h.1⟩
      | _ => exact h.elim
  | split s =>
      cases action with
      | split args => exact List.forall_mem_singleton.mpr ⟨_, List.mem_singleton_self _, h.1⟩
      | _ => exact h.elim
  | merge m =>
      cases action with
      | merge args =>
          refine List.forall_mem_cons.mpr ⟨⟨_, List.mem_cons_self, h.1⟩, ?_⟩
          exact List.forall_mem_singleton.mpr
            ⟨_, List.mem_cons_of_mem _ (List.mem_singleton_self _), h.2.1⟩
      | _ => exact h.elim

end Says

/-- The verifier that is asked is the one the operation is sent to. -/
theorem verifierOf_currency {currency : Currency} (h : r.currency? lib = .ok currency) :
    w.verifierOf currency =
      if r.token?.isSome then w.sip10ZkVerifier.verifier else w.zkVerifier := by
  unfold RelayRequest.currency? at h
  cases htoken : r.token? with
  | none =>
      rw [htoken] at h
      cases h
      rfl
  | some text =>
      rw [htoken] at h
      obtain ⟨token, -, rfl⟩ := except_map_ok.mp h
      rfl

/-- An accepted request is for an operation that nothing stops, if it is admitted. -/
theorem Validated.unobstructed (h : Validated w r) {env : Env} (hreach : Reachable env w)
    {op : StxShield.Operation} {inclusion : StxShield.Inclusion}
    (hcurrency : r.currency? lib = .ok op.currency) (htold : r.Says lib op.action)
    (hdomain : inclusion.domainId = r.base.inclusion.domainId)
    (haggregation : inclusion.aggregationId = r.base.inclusion.aggregationId)
    (hadmits : w.Admits env.primitives op inclusion) :
    Unobstructed env.primitives w op inclusion where
  registry :=
    { active := h.active
      unused := by
        intro nullifier hnullifier
        obtain ⟨n, hn, hbytes⟩ := htold.nullifiers nullifier hnullifier
        obtain ⟨asked, hasked, hunspent⟩ := h.unspent n hn
        obtain rfl : asked = nullifier := Buff32.ext (hasked.trans hbytes.symm)
        exact hreach.nullifiersMarked.unused hunspent }
  known := by
    obtain ⟨root, hroot, hknown⟩ := h.root
    obtain rfl : root = op.declaredRoot := Buff32.ext (hroot.trans htold.declaredRoot.symm)
    exact hknown
  published := by
    rw [verifierOf_currency hcurrency, hdomain, haggregation]
    exact h.published
  admits := hadmits

/-! ## Execution -/

/-- The token's code changes its own ledger only, however calls are executed. -/
def OwnLedgerOnly (env : Env) (token : Principal) : Prop :=
  ∀ (execute : Executor) ctx function w value w',
    runProgram execute token ctx (env.code token ctx function) w = .ok (value, w') →
    w' = { w with tokens := w'.tokens }

theorem OwnLedgerOnly.keepsToItself {env : Env} {token : Principal} (h : OwnLedgerOnly env token)
    (execute : Executor) : KeepsToItself (callToken env execute) token := by
  intro ctx function w value w' hrun
  exact h _ _ _ _ _ _ (callToken_ok hrun).2

/-- Executed in the state it was validated in, an accepted request is not stopped if the
operation is admitted there, and never succeeds if it is not. -/
theorem accepted_request_executed {env : Env} (hreach : Reachable env w)
    (hvalid : validate lib reader w r = .ok ()) {contractCall : ContractCall}
    (hbuild : buildCall lib r = .ok contractCall) {call : StxShield.Call}
    (hdecode : contractCall.decode = some call)
    (htoken : ∀ token, call.token? = some token → OwnLedgerOnly env token)
    (ctx : Ctx) (depth : Nat) :
    ∃ op inclusion, call = StxShield.Operation.call inclusion op ∧ r.Says lib op.action ∧
      (w.Admits env.primitives op inclusion →
        ∀ code ∈ obstructions, exec env depth ctx call w ≠ .error (.err code)) ∧
      (¬ w.Admits env.primitives op inclusion →
        ∀ result, exec env depth ctx call w ≠ .ok result) := by
  obtain ⟨op, inclusion, rfl, hcurrency, htold, hdomain, haggregation⟩ :=
    call_of_buildCall hbuild hdecode
  refine ⟨op, inclusion, rfl, htold, ?_⟩
  cases depth with
  | zero =>
      constructor
      · intro _ code _ hrun
        cases hrun
      · intro _ result hrun
        cases hrun
  | succ depth =>
      have hquiet (token : Principal) (hop : op.currency = .sip10 token) :
          KeepsToItself (callToken env (exec env depth)) token :=
        (htoken token (op.token?_call inclusion hop)).keepsToItself _
      constructor
      · intro hadmits
        exact execCall_spares htold.spends hquiet
          ((validate_ok hvalid).unobstructed hreach hcurrency htold hdomain haggregation hadmits)
      · rintro hnot ⟨data, w'⟩ hrun
        exact hnot (execCall_admits htold.spends hquiet hrun)

/-! ## An operation that is switched off -/

namespace Sample

def transferRequest : RelayRequest :=
  .transfer
    { inclusion := { domainId := 0, aggregationId := 7, merklePath := [], leafIndex := 0 }
      token := none
      nullifier := word '1'
      newCommitment := word '2'
      newOwnerCommitment := word '3'
      newMetadata := word '4'
      currentRoot := word '5'
      newRoot := word '6'
      leafIndex := some 0 }

def buff (digit : Char) : Buff32 := ((buf (word digit)).buff32?).getD zeroHash

def transferOperation : StxShield.Operation :=
  ⟨.stx, .transfer
    { nullifier := buff '1', newCommitment := buff '2', newOwnerCommitment := buff '3',
      newMetadata := buff '4', currentRoot := buff '5', newRoot := buff '6', leafIndex := 0 }⟩

/-- The leaf of the operation's statement, for the key that is bound. -/
def transferLeaf : Buff32 :=
  let key := StxShield.Sample.digest [1]
  Verifier.statementLeaf StxShield.Sample.primitives key key key
    (StxShield.Sample.primitives.keccak256
      (transferOperation.inputs StxShield.Sample.primitives 2))

/-- The root is posted, transfers have a key, and an aggregation has the one leaf. -/
def posted : World :=
  let key := StxShield.Sample.digest [1]
  transactAll StxShield.Sample.env 1 (StxShield.Sample.sentBy StxShield.Sample.owner)
    [.privacyRegistry (.addAuthorizedCaller .noteManager),
      .privacyRegistry (.addAuthorizedCaller .privacyPool),
      .privacyRegistry (.updateRoot (buff '5') 1),
      .zkVerifier (.registerVerificationKey proofTypeTransfer 2 key 100),
      .zkVerifier (.setZkverifyContextHash key),
      .zkVerifier (.setZkverifyBinding proofTypeTransfer 2 key key),
      .zkVerifier (.submitAggregation 0 7
        (Verifier.computeMerkleRoot StxShield.Sample.primitives transferLeaf [] 0 1) 1)]
    StxShield.Sample.start

def transfersOff : World :=
  transact StxShield.Sample.env 1 (StxShield.Sample.sentBy StxShield.Sample.owner)
    (.privacyPool (.setTransferEnabled false)) posted

theorem posted_reachable : Reachable StxShield.Sample.env posted :=
  (Reachable.deployed rfl _ _).transactAll StxShield.Sample.owner_topLevel 1 _

theorem transfersOff_reachable : Reachable StxShield.Sample.env transfersOff :=
  posted_reachable.transact StxShield.Sample.owner_topLevel 1 _

/-- A node that always answers. -/
def upright : NodeReader where
  failure _ := none
  cause := ""

/-- What is sent to the chain for the request. -/
def transferCall : ContractCall where
  contract := .privacyPool
  fn := .transfer
  args := (['1', '2', '3', '4', '5', '6'].map fun digit => buf (word digit)) ++
    [.uint 0, .uint 0, .uint 7, .list [], .uint 0]

def sentCall : StxShield.Call := transferOperation.call (StxShield.Sample.inclusion 7)

theorem sentCall_decoded : transferCall.decode = some sentCall := by
  have hbuff : ∀ digit ∈ ['1', '2', '3', '4', '5', '6'],
      (buf (word digit)).buff32? = some (buff digit) :=
    forall_of_all (by decide +kernel)
  simp only [List.forall_mem_cons, List.not_mem_nil, false_implies, implies_true, and_true] at hbuff
  obtain ⟨h1, h2, h3, h4, h5, h6⟩ := hbuff
  simp only [ContractCall.decode, transferCall, List.map_cons, List.map_nil, List.cons_append,
    List.nil_append, transfer?, h1, h2, h3, h4, h5, h6]
  rfl

theorem transferRequest_built : buildCall stacksLibrary transferRequest = .ok transferCall := by
  decide +kernel

end Sample

/-- The fault a computation ended with. -/
def faultOf {α : Type} : Except Fault α → Option Fault
  | .ok _ => none
  | .error fault => some fault

theorem eq_error_of_faultOf {α : Type} {outcome : Except Fault α} {fault : Fault}
    (h : faultOf outcome = some fault) : outcome = .error fault := by
  cases outcome with
  | ok result => cases h
  | error other =>
      cases h
      rfl

/-- While transfers are on the request is accepted, its statement is found under the key
that is bound, and nothing stops it. -/
theorem accepted_request_executed_posted :
    Sample.transferRequest.accepts = true ∧
      (Sample.posted.zkVerifier.bindings.lookup (proofTypeTransfer, 2)).isSome ∧
      ∀ code ∈ obstructions,
        exec StxShield.Sample.env 1 (StxShield.Sample.sentBy StxShield.Sample.alice)
          Sample.sentCall Sample.posted ≠ .error (.err code) := by
  have hvalid : validate Sample.stacksLibrary Sample.upright Sample.posted Sample.transferRequest =
      .ok () := by decide +kernel
  refine ⟨by decide +kernel, by decide +kernel, ?_⟩
  obtain ⟨op, inclusion, hcall, -, hclear, -⟩ := accepted_request_executed
    Sample.posted_reachable hvalid Sample.transferRequest_built Sample.sentCall_decoded
    (fun token htoken => absurd htoken (Option.some_ne_none _).symm)
    (StxShield.Sample.sentBy StxShield.Sample.alice) 1
  obtain ⟨rfl, rfl⟩ := StxShield.Operation.call_inj hcall
  exact hclear (by decide +kernel)

/-- Where transfers are off the same request is accepted, and refused on chain. -/
theorem accepted_request_stopped :
    ¬ ∀ (env : Env) (w : World) (lib : StacksLibrary) (reader : NodeReader) (r : RelayRequest)
        (contractCall : ContractCall) (call : StxShield.Call) (ctx : Ctx) (depth : Nat),
      Reachable env w → ctx.TopLevel → r.accepts = true → validate lib reader w r = .ok () →
      buildCall lib r = .ok contractCall → contractCall.decode = some call →
      ∀ code ∈ obstructions, exec env depth ctx call w ≠ .error (.err code) := by
  intro hanswers
  refine hanswers StxShield.Sample.env Sample.transfersOff Sample.stacksLibrary Sample.upright
    Sample.transferRequest Sample.transferCall Sample.sentCall
    (StxShield.Sample.sentBy StxShield.Sample.alice) 1 Sample.transfersOff_reachable
    StxShield.Sample.alice_topLevel (by decide +kernel) (by decide +kernel)
    Sample.transferRequest_built Sample.sentCall_decoded PrivacyPool.errOperationDisabled
    (by decide) (eq_error_of_faultOf ?_)
  decide +kernel

end Relay

end StxShield
