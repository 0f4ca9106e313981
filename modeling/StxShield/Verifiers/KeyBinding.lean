import StxShield.Library.Session
import StxShield.Security.Solvency
import StxShield.Verifiers.Calls

/-!
# The verification keys behind accepted proofs

`zk-verifier` promises one key per proof type and circuit version.  The record
it keeps of a key is immutable; the hash that enters the statement leaf comes
from the binding, which `set-zkverify-binding` overwrites.
-/

namespace StxShield

open Library Exec World

namespace Verifier

variable {P : Primitives} {ctx : Ctx} {verifier verifier' : Verifier} {errorBase : Nat}

/-- What an accepted proof found: a binding, and a leaf that commits to its
key. -/
theorem verifyProof_binding {authorized : Prop} [Decidable authorized]
    {currentVersion proofType circuitVersion : Nat} {publicInputsHash leaf : Buff32}
    {inclusion : Inclusion}
    (h : verifyProof P errorBase authorized currentVersion ctx proofType circuitVersion
      publicInputsHash inclusion verifier = .ok (leaf, verifier')) :
    verifier'.bindings = verifier.bindings ∧
      ∃ binding, verifier.bindings.lookup (proofType, circuitVersion) = some binding ∧
        leaf = statementLeaf P verifier.contextHash binding.zkvVkeyHash binding.versionHash
          publicInputsHash := by
  unfold verifyProof at h
  simp only [↓bind_ok, ↓exists_read, ↓exists_require, ↓exists_unwrap, ↓exists_modify, ↓pure_ok,
    DataMap.insertNew?_eq_some] at h
  obtain ⟨-, -, -, -, -, _, -, _, -, -, -, binding, hbinding, -, -, -, _, -, stats, mid, hstats,
    rfl, rfl⟩ := h
  have hmid : mid = verifier := keeps_countVerified id _ _ _ _ _ hstats
  exact ⟨by rw [hmid], binding, hbinding, rfl⟩

/-- The other functions change a binding only through `set-zkverify-binding`. -/
theorem administer_bindings {registry : PrivacyRegistry} {call : Call} {u : Unit}
    (h : administer errorBase registry ctx call verifier = .ok (u, verifier')) :
    verifier'.bindings = verifier.bindings ∨
      ∃ proofType circuitVersion zkvVkeyHash versionHash,
        call = .setZkverifyBinding proofType circuitVersion zkvVkeyHash versionHash ∧
        isVerifierAdmin registry ctx.contractCaller ∧ zkvVkeyHash ≠ zeroHash ∧
        versionHash ≠ zeroHash ∧
        verifier'.bindings = verifier.bindings.insert (proofType, circuitVersion)
          { zkvVkeyHash := zkvVkeyHash, versionHash := versionHash, setAt := ctx.height } := by
  cases administer_performed h with
  | setZkverifyBinding hadmin hkey hversion =>
      exact .inr ⟨_, _, _, _, rfl, hadmin, hkey, hversion, rfl⟩
  | _ => exact .inl rfl

end Verifier

namespace ZkVerifier

/-! ## Runs -/

/-- A call, the context it is made in, and the registry's storage at the time. -/
structure Request where
  registry : PrivacyRegistry
  ctx : Ctx
  call : Verifier.Call

/-- An accepted proof, with its statement leaf and the key hash in it. -/
structure Acceptance where
  proofType : Nat
  circuitVersion : Nat
  leaf : Buff32
  zkvVkeyHash : Buff32

/-- The leaf is that of a statement made for the key. -/
def Acceptance.CommitsToKey (P : Primitives) (acceptance : Acceptance) : Prop :=
  ∃ contextHash versionHash publicInputsHash, acceptance.leaf =
    Verifier.statementLeaf P contextHash acceptance.zkvVkeyHash versionHash publicInputsHash

/-- Serve a request; the answer to `verify-proof` says which key the leaf it
accepted commits to. -/
def serve (P : Primitives) (request : Request) : Exec World (Option Acceptance) := do
  modify fun w => { w with registry := request.registry }
  let w ← read
  match request.call with
  | .verifyProof proofType circuitVersion publicInputsHash inclusion => do
      let leaf ← verifyProof P request.ctx proofType circuitVersion publicInputsHash inclusion
      pure ((w.zkVerifier.bindings.lookup (proofType, circuitVersion)).map fun binding =>
        ⟨proofType, circuitVersion, leaf, binding.zkvVkeyHash⟩)
  | call => do
      execute P request.ctx call
      pure none

/-- The chain, and the requests `zk-verifier` has accepted. -/
abbrev Run : Type := Session World Request (Option Acceptance)

def runFrom (P : Primitives) (w : World) (requests : List Request) : Run :=
  Session.submitAll (serve P) (Session.start w) requests

/-- The proofs accepted in a run, latest first. -/
def acceptances (run : Run) : List Acceptance := run.accepted.filterMap Prod.snd

/-- All proofs accepted for one type and version were made for one key. -/
def KeyNeverSwapped (run : Run) : Prop :=
  ∀ first ∈ acceptances run, ∀ second ∈ acceptances run,
    first.proofType = second.proofType → first.circuitVersion = second.circuitVersion →
    first.zkvVkeyHash = second.zkvVkeyHash

/-- A new binding keeps the key that accepted proofs of its type and version
were made for. -/
def KeepsKey (run : Run) (request : Request) : Prop :=
  match request.call with
  | .setZkverifyBinding proofType circuitVersion zkvVkeyHash versionHash =>
      Verifier.isVerifierAdmin request.registry request.ctx.contractCaller →
        zkvVkeyHash ≠ zeroHash → versionHash ≠ zeroHash →
        ∀ acceptance ∈ acceptances run, acceptance.proofType = proofType →
          acceptance.circuitVersion = circuitVersion → acceptance.zkvVkeyHash = zkvVkeyHash
  | _ => True

instance decidableKeepsKey (run : Run) : ∀ request, Decidable (KeepsKey run request)
  | ⟨registry, ctx, .setZkverifyBinding proofType circuitVersion zkvVkeyHash versionHash⟩ =>
      inferInstanceAs (Decidable (Verifier.isVerifierAdmin registry ctx.contractCaller →
        zkvVkeyHash ≠ zeroHash → versionHash ≠ zeroHash →
        ∀ acceptance ∈ acceptances run, acceptance.proofType = proofType →
          acceptance.circuitVersion = circuitVersion → acceptance.zkvVkeyHash = zkvVkeyHash))
  | ⟨_, _, .verifyProof ..⟩ => isTrue trivial
  | ⟨_, _, .submitAggregation ..⟩ => isTrue trivial
  | ⟨_, _, .setZkverifyContextHash _⟩ => isTrue trivial
  | ⟨_, _, .addRelayer _⟩ => isTrue trivial
  | ⟨_, _, .removeRelayer _⟩ => isTrue trivial
  | ⟨_, _, .registerVerificationKey ..⟩ => isTrue trivial
  | ⟨_, _, .setVerificationKeyStatus ..⟩ => isTrue trivial
  | ⟨_, _, .freezeVerification⟩ => isTrue trivial
  | ⟨_, _, .unfreezeVerification⟩ => isTrue trivial

/-! ## The invariant -/

/-- An accepted proof was made for the key that is bound in a state. -/
structure Acceptance.BoundIn (P : Primitives) (acceptance : Acceptance) (w : World) : Prop where
  bound : ∃ binding,
    w.zkVerifier.bindings.lookup (acceptance.proofType, acceptance.circuitVersion) =
      some binding ∧ acceptance.zkvVkeyHash = binding.zkvVkeyHash
  commits : acceptance.CommitsToKey P

/-- Every accepted proof was made for the key that is bound now. -/
def BoundInvariant (P : Primitives) (run : Run) : Prop :=
  ∀ acceptance ∈ acceptances run, acceptance.BoundIn P run.state

theorem BoundInvariant.keyNeverSwapped {P : Primitives} {run : Run} (h : BoundInvariant P run) :
    KeyNeverSwapped run := by
  intro first hfirst second hsecond htype hversion
  obtain ⟨binding, hlookup, hkey⟩ := (h first hfirst).bound
  obtain ⟨other, hother, hsame⟩ := (h second hsecond).bound
  rw [htype, hversion, hother, Option.some.injEq] at hlookup
  rw [hkey, hsame, hlookup]

variable {P : Primitives} {run : Run} {request : Request} {answer : Option Acceptance} {w : World}

/-- What serving a request does to the bindings, and what it answers. -/
theorem serve_cases (h : serve P request run.state = .ok (answer, w)) :
    (w.zkVerifier.bindings = run.state.zkVerifier.bindings ∧
      ∀ acceptance, answer = some acceptance → acceptance.BoundIn P run.state) ∨
    (answer = none ∧ ∃ proofType circuitVersion zkvVkeyHash versionHash,
      request.call = .setZkverifyBinding proofType circuitVersion zkvVkeyHash versionHash ∧
      Verifier.isVerifierAdmin request.registry request.ctx.contractCaller ∧
      zkvVkeyHash ≠ zeroHash ∧ versionHash ≠ zeroHash ∧
      w.zkVerifier.bindings = run.state.zkVerifier.bindings.insert (proofType, circuitVersion)
        { zkvVkeyHash := zkvVkeyHash, versionHash := versionHash,
          setAt := request.ctx.height }) := by
  unfold serve at h
  simp only [↓bind_ok, ↓exists_modify, ↓exists_read] at h
  cases hcall : request.call with
  | verifyProof proofType circuitVersion publicInputsHash inclusion =>
      simp only [hcall, bind_ok, pure_ok] at h
      obtain ⟨leaf, mid, hverify, rfl, rfl⟩ := h
      unfold verifyProof at hverify
      simp only [↓bind_ok, ↓exists_onRegistry, ↓PrivacyRegistry.exists_checkActive, ↓exists_read,
        onZkVerifier_ok, record_ok, pure_ok] at hverify
      obtain ⟨-, _, _, ⟨verifier, hrun, rfl⟩, _, _, rfl, rfl, rfl⟩ := hverify
      obtain ⟨hsame, binding, hbinding, hleaf⟩ := Verifier.verifyProof_binding hrun
      refine .inl ⟨hsame, ?_⟩
      rw [hbinding]
      rintro acceptance ⟨⟩
      exact ⟨⟨binding, hbinding, rfl⟩, _, _, _, hleaf⟩
  | _ =>
      simp only [hcall, bind_ok, pure_ok] at h
      obtain ⟨_, mid, hexecute, rfl, rfl⟩ := h
      simp only [execute, ↓bind_ok, ↓exists_read, onZkVerifier_ok] at hexecute
      obtain ⟨verifier, hrun, rfl⟩ := hexecute
      rcases Verifier.administer_bindings hrun with hsame | hset
      · exact .inl ⟨hsame, fun _ hsome => absurd hsome (Option.some_ne_none _).symm⟩
      · exact .inr ⟨rfl, hset⟩

theorem BoundInvariant.step (hinv : BoundInvariant P run) (hkeeps : KeepsKey run request)
    (h : serve P request run.state = .ok (answer, w)) :
    BoundInvariant P ⟨w, (request, answer) :: run.accepted⟩ := by
  intro acceptance hmem
  rcases serve_cases h with ⟨hsame, hanswer⟩ | ⟨rfl, proofType, version, key, versionHash, hcall,
    hadmin, hkey, hversionHash, hset⟩
  · have hold : acceptance ∈ acceptances run ∨ answer = some acceptance := by
      cases answer with
      | none => exact .inl hmem
      | some new =>
          rcases List.mem_cons.mp hmem with rfl | hrest
          · exact .inr rfl
          · exact .inl hrest
    have hbound : acceptance.BoundIn P run.state := by
      rcases hold with hold | hnew
      · exact hinv acceptance hold
      · exact hanswer acceptance hnew
    refine ⟨?_, hbound.commits⟩
    rw [hsame]
    exact hbound.bound
  · have hold : acceptance ∈ acceptances run := hmem
    refine ⟨?_, (hinv acceptance hold).commits⟩
    rw [hset]
    by_cases heq : (acceptance.proofType, acceptance.circuitVersion) = (proofType, version)
    · rw [heq]
      refine ⟨_, AList.lookup_insert _, ?_⟩
      unfold KeepsKey at hkeeps
      rw [hcall] at hkeeps
      obtain ⟨htype, hversion⟩ := Prod.mk.inj heq
      exact hkeeps hadmin hkey hversionHash acceptance hold htype hversion
    · rw [AList.lookup_insert_ne heq]
      exact (hinv acceptance hold).bound

namespace Sample

open StxShield.Sample

/-- A registry that lets `alice` present proofs. -/
def registry : PrivacyRegistry :=
  { PrivacyRegistry.deployed owner with
    authorizedCallers := (∅ : DataMap Principal Bool).insert alice true }

/-- The owner has the only leaf of an aggregation published, and its proof is
presented. -/
def prove (aggregationId : Nat) (key publicInputsHash : Buff32) : List Request :=
  let leaf := Verifier.statementLeaf primitives (digest [1]) key (digest [1]) publicInputsHash
  [⟨registry, sentBy owner,
      .submitAggregation 0 aggregationId (Verifier.computeMerkleRoot primitives leaf [] 0 1) 1⟩,
    ⟨registry, sentBy alice, .verifyProof 1 2 publicInputsHash (inclusion aggregationId)⟩]

/-- A circuit is bound to one key, then to another. -/
def rebinding (first second : Buff32) : List Request :=
  [⟨registry, sentBy owner, .registerVerificationKey 1 2 first 100⟩,
    ⟨registry, sentBy owner, .setZkverifyContextHash (digest [1])⟩,
    ⟨registry, sentBy owner, .setZkverifyBinding 1 2 first (digest [1])⟩] ++
  (prove 1 first (digest [3]) ++
    ⟨registry, sentBy owner, .setZkverifyBinding 1 2 second (digest [1])⟩ ::
      prove 2 second (digest [4]))

/-- The key hashes of the proofs accepted from deployment on. -/
def keysOf (requests : List Request) : List Buff32 :=
  (acceptances (runFrom primitives StxShield.Sample.start requests)).map Acceptance.zkvVkeyHash

end Sample

end ZkVerifier

end StxShield
