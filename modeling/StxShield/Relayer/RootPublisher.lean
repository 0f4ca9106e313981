import StxShield.Contracts.Sip10ZkVerifier
import StxShield.Library.JavaScript
import StxShield.Library.Session

/-!
# Publishing aggregation roots

Relayers watch zkVerify for finalized aggregations and submit each root, with
the number of its leaves, to both verifiers.  A verifier records an aggregation
once; what is recorded first stays.
-/

namespace StxShield.RootPublisher

open Library Exec World JavaScript

/-! ## Receipts -/

structure AggregationRoot where
  domainId : Nat
  aggregationId : Number
  root : String
  leafCount : Number
  deriving DecidableEq

/-- `??` over some fields of a receipt. -/
def firstOf (ev : Record) : List String → Value
  | [] => .undefined
  | [field] => ev field
  | field :: rest => (ev field).coalesce (firstOf ev rest)

/-- The fields a receipt may carry its parts under. -/
def aggregationIdOf (ev : Record) : Value := firstOf ev ["aggregationId", "id", "aggregation_id"]

def rootOf (ev : Record) : Value := firstOf ev ["receipt", "root", "aggregationRoot"]

def leavesOf (ev : Record) : Value :=
  (firstOf ev ["leaves", "numberOfLeaves", "size"]).coalesce (.number (.finite 1))

/-- `text.startsWith("0x")` -/
def hasHexMark (text : String) : Bool := ['0', 'x'].isPrefixOf text.toList

def prefixed (root : String) : String := if hasHexMark root then root else "0x" ++ root

/-- `none` for a receipt that is passed over; a root that is there but is not a
string throws. -/
def toAggregationRoot (domainId : Nat) (ev : Record) : Except Unit (Option AggregationRoot) :=
  let aggregationId := (aggregationIdOf ev).toNumber
  let leafCount := (leavesOf ev).toNumber
  if ¬ aggregationId.isFinite ∨ ¬ (rootOf ev).isTruthy then .ok none
  else
    match rootOf ev with
    | .string root =>
        .ok (some
          { domainId := domainId
            aggregationId := aggregationId
            root := prefixed root
            leafCount :=
              if leafCount.isFinite ∧ leafCount.isPositive then leafCount else .finite 1 })
    | _ => .error ()

/-! ## Publication -/

/-- The verifiers a root is published to. -/
inductive VerifierName where
  | zkVerifier
  | sip10ZkVerifier
  deriving DecidableEq

def verifiers : List VerifierName := [.zkVerifier, .sip10ZkVerifier]

/-- `Buffer.from(hex.replace(/^0x/, ""), "hex")` -/
def bufBytes (hex : String) : Bytes :=
  hexPairs (if hasHexMark hex then hex.toList.drop 2 else hex.toList)

/-- How the network answers one publication: what each verifier is found to have
already, and whether a transaction to it is accepted for broadcast. -/
structure Network where
  posted : VerifierName → Bool
  broadcasts : VerifierName → Bool

/-- The arguments of a `submit-aggregation` transaction. -/
structure Submission where
  domainId : Nat
  aggregationId : Nat
  root : Buff32
  leafCount : Nat
  deriving DecidableEq

section Model

variable (clUint : Number → Option Nat)

/-- `clUint` is the conversion of the Stacks library, which throws on what is no
unsigned integer; a root too long for the contract is no transaction either. -/
def submission (agg : AggregationRoot) : Option Submission := do
  let domainId ← clUint (.ofNat agg.domainId)
  let aggregationId ← clUint agg.aggregationId
  let leafCount ← clUint agg.leafCount
  if hroot : (bufBytes agg.root).length ≤ 32 then
    some { domainId, aggregationId, root := ⟨bufBytes agg.root, hroot⟩, leafCount }
  else none

/-- The transactions broadcast for one root. -/
def publishRoot (network : Network) (agg : AggregationRoot) : List (VerifierName × Submission) :=
  verifiers.filterMap fun verifier =>
    if network.posted verifier ∨ ¬ network.broadcasts verifier then none
    else (submission clUint agg).map fun submission => (verifier, submission)

/-- The aggregations a poller has dealt with, oldest first. -/
abbrev Seen : Type := List (Nat × Number)

def seenLimit : Nat := 5000

/-- A key that is there keeps its place. -/
def remember (seen : Seen) (key : Nat × Number) : Seen :=
  let added := if key ∈ seen then seen else seen ++ [key]
  if seenLimit < added.length then added.tail else added

/-- `ZkVerifyPoller.publish` -/
def publish (seen : Seen) (network : Network) (agg : AggregationRoot) :
    Seen × List (VerifierName × Submission) :=
  let key := (agg.domainId, agg.aggregationId)
  if key ∈ seen then (seen, [])
  else (remember seen key, publishRoot clUint network agg)

/-! ## The relayers and the chain -/

/-- The chain, what each relayer has seen, and what the relayers broadcast; a
transaction may be mined at any later time, or never. -/
structure Publication where
  chain : World
  seen : Principal → Seen
  broadcast : List (Principal × VerifierName × Submission)

inductive Request where
  /-- A relayer's poller handles a receipt of a domain. -/
  | receipt (relayer : Principal) (domainId : Nat) (ev : Record) (network : Network)
  /-- A relayer's submitter publishes the aggregation of a proof it submitted. -/
  | submitted (relayer : Principal) (path : AggregationRoot) (network : Network)
  /-- A verifier executes a call, with the registry as it is at the time. -/
  | zkVerifier (registry : PrivacyRegistry) (ctx : Ctx) (call : Verifier.Call)
  | sip10ZkVerifier (registry : PrivacyRegistry) (ctx : Ctx) (call : Sip10Verifier.Call)

def Publication.broadcasting (state : Publication) (relayer : Principal)
    (submissions : List (VerifierName × Submission)) : Publication :=
  { state with broadcast := state.broadcast ++ submissions.map fun sent => (relayer, sent) }

/-- Aggregations are submitted by the relayers only. -/
def Publication.Sent (state : Publication) (verifier : VerifierName) (ctx : Ctx) :
    Verifier.Call → Prop
  | .submitAggregation domainId aggregationId root leafCount =>
      (ctx.contractCaller, verifier, ⟨domainId, aggregationId, root, leafCount⟩) ∈ state.broadcast
  | _ => True

instance decidableSent (state : Publication) (verifier : VerifierName) (ctx : Ctx) :
    ∀ call, Decidable (state.Sent verifier ctx call)
  | .submitAggregation domainId aggregationId root leafCount =>
      inferInstanceAs (Decidable ((ctx.contractCaller, verifier,
        (⟨domainId, aggregationId, root, leafCount⟩ : Submission)) ∈ state.broadcast))
  | .verifyProof .. => isTrue trivial
  | .setZkverifyContextHash _ => isTrue trivial
  | .setZkverifyBinding .. => isTrue trivial
  | .addRelayer _ => isTrue trivial
  | .removeRelayer _ => isTrue trivial
  | .registerVerificationKey .. => isTrue trivial
  | .setVerificationKeyStatus .. => isTrue trivial
  | .freezeVerification => isTrue trivial
  | .unfreezeVerification => isTrue trivial

/-- A call of the SIP-10 verifier that both have in common. -/
def commonCall : Sip10Verifier.Call → Option Verifier.Call
  | .common call => some call
  | _ => none

def onChain (registry : PrivacyRegistry) (m : Exec World Unit) : Exec Publication Unit :=
  zoom Publication.chain (fun chain state => { state with chain := chain }) do
    modify fun w => { w with registry := registry }
    m

def serve (P : Primitives) : Request → Exec Publication Unit
  | .receipt relayer domainId ev network => do
      let state ← read
      match toAggregationRoot domainId ev with
      | .ok (some agg) => do
          let (seen, submissions) := publish clUint (state.seen relayer) network agg
          modify fun state =>
            { state with seen := Function.update state.seen relayer seen }.broadcasting relayer
              submissions
      | _ => pure ()
  | .submitted relayer path network =>
      modify fun state => state.broadcasting relayer (publishRoot clUint network path)
  | .zkVerifier registry ctx call => do
      let state ← read
      require (state.Sent .zkVerifier ctx call) 0
      onChain registry (ZkVerifier.execute P ctx call)
  | .sip10ZkVerifier registry ctx call => do
      let state ← read
      require (∀ shared ∈ commonCall call, state.Sent .sip10ZkVerifier ctx shared) 0
      onChain registry (Sip10ZkVerifier.execute P ctx call)

/-- Nothing seen or broadcast yet. -/
def launched (chain : World) : Publication := { chain := chain, seen := fun _ => [], broadcast := [] }

abbrev Run : Type := Session Publication Request Unit

def runFrom (P : Primitives) (chain : World) (requests : List Request) : Run :=
  Session.submitAll (serve clUint P) (Session.start (launched chain)) requests

end Model

end StxShield.RootPublisher
