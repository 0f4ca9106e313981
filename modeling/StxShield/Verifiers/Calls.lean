import StxShield.Contracts.Sip10ZkVerifier

/-!
# The verifiers' functions, write by write

Both contracts run the same functions on their own storage.  `Performed` says what each
of them writes in the storage it finds when it succeeds.
-/

namespace StxShield

open Library Exec

/-! ## Statistics -/

/-- The counters of the types together. -/
def VerificationStats.sum (stats : VerificationStats) : Nat :=
  stats.shield + stats.transfer + stats.withdrawal + stats.other

namespace Verifier

/-- One more proof is counted, under its type. -/
structure Tallied (stats after : VerificationStats) : Prop where
  total : after.totalVerified = stats.totalVerified + 1
  sum : after.sum = stats.sum + 1

/-- Counting changes nothing yet. -/
theorem keeps_countVerified {β : Type} (f : Verifier → β) (stats : VerificationStats)
    (proofType : Nat) : Keeps f (countVerified stats proofType) := by
  unfold countVerified
  repeat first
    | refine keeps_bind ?_ fun _ => ?_
    | refine keeps_ite ?_ ?_
    | simp

/-- A proof of one of the five types is in exactly one of the counters. -/
theorem tallied_of_countVerified {stats after : VerificationStats} {proofType : Nat}
    {verifier verifier' : Verifier} (htype : isValidProofType proofType)
    (h : countVerified stats proofType verifier = .ok (after, verifier')) :
    Tallied stats after := by
  rcases htype with rfl | rfl | rfl | rfl | rfl
  all_goals
    simp +decide only [countVerified, ↓exists_addUint, ↓bind_ok, ↓pure_ok, if_true, if_false,
      and_assoc, exists_and_left, exists_eq_left'] at h
    obtain ⟨-, -, rfl, -⟩ := h
    refine ⟨rfl, ?_⟩
    simp only [VerificationStats.sum]
    omega

/-! ## Writes -/

/-- What a function of a verifier does to its storage when it succeeds. -/
inductive Performed (registry : PrivacyRegistry) (ctx : Ctx) (verifier : Verifier) :
    Call → Verifier → Prop where
  | verifyProof {proofType circuitVersion : Nat} {publicInputsHash leaf : Buff32}
      {inclusion : Inclusion} {stats : VerificationStats}
      (hnew : verifier.verifiedProofs.lookup leaf = none)
      (hstats : Tallied verifier.verificationStats stats) :
      Performed registry ctx verifier
        (.verifyProof proofType circuitVersion publicInputsHash inclusion)
        { verifier with
          verifiedProofs := verifier.verifiedProofs.insert leaf
            { proofType := proofType, verifiedAt := ctx.height }
          verificationStats := stats }
  | submitAggregation {domainId aggregationId leafCount : Nat} {root : Buff32}
      (hrelayer : verifier.isRelayer registry ctx.contractCaller) (hroot : root ≠ zeroHash)
      (hleaves : 0 < leafCount)
      (hnew : verifier.aggregations.lookup (domainId, aggregationId) = none) :
      Performed registry ctx verifier (.submitAggregation domainId aggregationId root leafCount)
        { verifier with
          aggregations := verifier.aggregations.insert (domainId, aggregationId)
            { root := root, leafCount := leafCount, postedAt := ctx.height,
              postedBy := ctx.contractCaller }
          aggregationCount := verifier.aggregationCount + 1 }
  | setZkverifyContextHash {contextHash : Buff32}
      (hadmin : isVerifierAdmin registry ctx.contractCaller) (hcontext : contextHash ≠ zeroHash) :
      Performed registry ctx verifier (.setZkverifyContextHash contextHash)
        { verifier with contextHash := contextHash }
  | setZkverifyBinding {proofType circuitVersion : Nat} {zkvVkeyHash versionHash : Buff32}
      (hadmin : isVerifierAdmin registry ctx.contractCaller) (hkey : zkvVkeyHash ≠ zeroHash)
      (hversion : versionHash ≠ zeroHash) :
      Performed registry ctx verifier
        (.setZkverifyBinding proofType circuitVersion zkvVkeyHash versionHash)
        { verifier with
          bindings := verifier.bindings.insert (proofType, circuitVersion)
            { zkvVkeyHash := zkvVkeyHash, versionHash := versionHash, setAt := ctx.height } }
  | addRelayer {who : Principal} (hadmin : isVerifierAdmin registry ctx.contractCaller)
      (hnew : verifier.relayers.lookup who = none) :
      Performed registry ctx verifier (.addRelayer who)
        { verifier with
          relayers := verifier.relayers.insert who { enabled := true, addedAt := ctx.height }
          relayerCount := verifier.relayerCount + 1 }
  | removeRelayer {who : Principal} (hadmin : isVerifierAdmin registry ctx.contractCaller)
      (hknown : (verifier.relayers.lookup who).isSome = true) :
      Performed registry ctx verifier (.removeRelayer who)
        { verifier with
          relayers := verifier.relayers.erase who, relayerCount := verifier.relayerCount - 1 }
  | registerVerificationKey {proofType circuitVersion proofLength : Nat} {vkeyHash : Buff32}
      (hadmin : isVerifierAdmin registry ctx.contractCaller)
      (hnew : verifier.verificationKeys.lookup (proofType, circuitVersion) = none) :
      Performed registry ctx verifier
        (.registerVerificationKey proofType circuitVersion vkeyHash proofLength)
        { verifier with
          verificationKeys := verifier.verificationKeys.insert (proofType, circuitVersion)
            { vkeyHash := vkeyHash, proofLength := proofLength, enabled := true,
              registeredAt := ctx.height } }
  | setVerificationKeyStatus {proofType circuitVersion : Nat} {enabled : Bool}
      {vkey : VerificationKey}
      (hknown : verifier.verificationKeys.lookup (proofType, circuitVersion) = some vkey) :
      Performed registry ctx verifier (.setVerificationKeyStatus proofType circuitVersion enabled)
        { verifier with
          verificationKeys := verifier.verificationKeys.insert (proofType, circuitVersion)
            { vkey with enabled := enabled } }
  | freezeVerification (hadmin : isEmergencyAdmin registry ctx.contractCaller) :
      Performed registry ctx verifier .freezeVerification
        { verifier with verificationFrozen := true }
  | unfreezeVerification (hadmin : isEmergencyAdmin registry ctx.contractCaller) :
      Performed registry ctx verifier .unfreezeVerification
        { verifier with verificationFrozen := false }

/-- A function was performed, or nothing was. -/
inductive Changes (verifier : Verifier) : Verifier → Prop where
  | unchanged : Changes verifier verifier
  | performed {registry : PrivacyRegistry} {ctx : Ctx} {call : Call} {verifier' : Verifier}
      (h : Performed registry ctx verifier call verifier') : Changes verifier verifier'

variable {P : Primitives} {ctx : Ctx} {errorBase : Nat} {verifier verifier' : Verifier}

theorem verifyProof_performed (registry : PrivacyRegistry) {authorized : Prop}
    [Decidable authorized] {currentVersion proofType circuitVersion : Nat}
    {publicInputsHash leaf : Buff32} {inclusion : Inclusion}
    (h : verifyProof P errorBase authorized currentVersion ctx proofType circuitVersion
      publicInputsHash inclusion verifier = .ok (leaf, verifier')) :
    Performed registry ctx verifier
      (.verifyProof proofType circuitVersion publicInputsHash inclusion) verifier' := by
  unfold verifyProof at h
  simp only [↓bind_ok, ↓exists_read, ↓exists_require, ↓exists_unwrap, ↓exists_modify, ↓pure_ok,
    DataMap.insertNew?_eq_some] at h
  obtain ⟨-, -, htype, -, -, _, -, _, -, -, -, _, -, -, -, -, _, ⟨hnew, rfl⟩, stats, mid, hstats,
    rfl, rfl⟩ := h
  obtain rfl : mid = verifier := keeps_countVerified id _ _ _ _ _ hstats
  exact .verifyProof hnew (tallied_of_countVerified htype hstats)

theorem administer_performed {registry : PrivacyRegistry} {call : Call} {u : Unit}
    (h : administer errorBase registry ctx call verifier = .ok (u, verifier')) :
    Performed registry ctx verifier call verifier' := by
  cases call with
  | verifyProof => simp only [administer, abort_ok] at h
  | submitAggregation domainId aggregationId root leafCount =>
      simp only [administer, submitAggregation, ↓bind_ok, ↓exists_read, ↓exists_require,
        ↓exists_unwrap, ↓exists_addUint, ↓modify_ok, DataMap.insertNew?_eq_some] at h
      obtain ⟨hrelayer, hroot, hleaves, _, ⟨hnew, rfl⟩, -, rfl⟩ := h
      exact .submitAggregation hrelayer hroot hleaves hnew
  | setZkverifyContextHash contextHash =>
      simp only [administer, setZkverifyContextHash, ↓bind_ok, ↓exists_require, ↓modify_ok] at h
      obtain ⟨hadmin, hcontext, rfl⟩ := h
      exact .setZkverifyContextHash hadmin hcontext
  | setZkverifyBinding proofType circuitVersion zkvVkeyHash versionHash =>
      simp only [administer, setZkverifyBinding, ↓bind_ok, ↓exists_read, ↓exists_require,
        ↓modify_ok] at h
      obtain ⟨hadmin, -, hkey, hversion, -, rfl⟩ := h
      exact .setZkverifyBinding hadmin hkey hversion
  | addRelayer who =>
      simp only [administer, addRelayer, ↓bind_ok, ↓exists_read, ↓exists_require, ↓exists_unwrap,
        ↓exists_addUint, ↓modify_ok, DataMap.insertNew?_eq_some] at h
      obtain ⟨hadmin, _, ⟨hnew, rfl⟩, -, rfl⟩ := h
      exact .addRelayer hadmin hnew
  | removeRelayer who =>
      simp only [administer, removeRelayer, ↓bind_ok, ↓exists_read, ↓exists_require,
        ↓exists_subUint, ↓modify_ok] at h
      obtain ⟨hadmin, hknown, -, rfl⟩ := h
      exact .removeRelayer hadmin hknown
  | registerVerificationKey proofType circuitVersion vkeyHash proofLength =>
      simp only [administer, registerVerificationKey, ↓bind_ok, ↓exists_read, ↓exists_require,
        ↓exists_unwrap, ↓modify_ok, DataMap.insertNew?_eq_some] at h
      obtain ⟨hadmin, -, -, -, _, ⟨hnew, rfl⟩, rfl⟩ := h
      exact .registerVerificationKey hadmin hnew
  | setVerificationKeyStatus proofType circuitVersion enabled =>
      simp only [administer, setVerificationKeyStatus, ↓bind_ok, ↓exists_read, ↓exists_require,
        ↓exists_unwrap, ↓modify_ok] at h
      obtain ⟨_, hknown, -, -, rfl⟩ := h
      exact .setVerificationKeyStatus hknown
  | freezeVerification =>
      simp only [administer, setVerificationFrozen, ↓bind_ok, ↓exists_require, ↓modify_ok] at h
      obtain ⟨hadmin, rfl⟩ := h
      exact .freezeVerification hadmin
  | unfreezeVerification =>
      simp only [administer, setVerificationFrozen, ↓bind_ok, ↓exists_require, ↓modify_ok] at h
      obtain ⟨hadmin, rfl⟩ := h
      exact .unfreezeVerification hadmin

end Verifier

end StxShield
