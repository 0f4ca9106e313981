import StxShield.Library.CountedMap
import StxShield.Library.Failure
import StxShield.Verifiers.CircuitVersion

/-!
# The ledgers of the verifiers

Beside each of its maps a verifier keeps a counter: of the accepted statements, by type,
of the posted aggregations, of the relayers.  Accepted statements, aggregations and keys
are never overwritten, relayers come and go.
-/

namespace StxShield

open Library Exec World DataMap

/-- The immutable part of a verification key. -/
def VerificationKey.SameKey (key key' : VerificationKey) : Prop :=
  key' = { key with enabled := key'.enabled }

namespace VerificationKey.SameKey

theorem refl (key : VerificationKey) : key.SameKey key := rfl

theorem trans {first second third : VerificationKey} (h : first.SameKey second)
    (h' : second.SameKey third) : first.SameKey third := by
  unfold SameKey at h h' ⊢
  rw [h', h]

end VerificationKey.SameKey

namespace Verifier

variable {P : Primitives} {registry : PrivacyRegistry} {ctx : Ctx} {errorBase : Nat}
  {verifier verifier' verifier'' : Verifier} {call : Call}

/-! ## Counters -/

/-- The counters agree with the records. -/
structure Consistent (verifier : Verifier) : Prop where
  types : verifier.verificationStats.totalVerified = verifier.verificationStats.sum
  proofs : verifier.verificationStats.totalVerified = size verifier.verifiedProofs
  aggregations : verifier.aggregationCount = size verifier.aggregations
  relayers : verifier.relayerCount = size verifier.relayers

theorem consistent_deployed : Consistent deployed := ⟨rfl, rfl, rfl, rfl⟩

/-- Every function counts what it enters and what it removes. -/
theorem Consistent.performed (hright : verifier.Consistent)
    (h : Performed registry ctx verifier call verifier') : verifier'.Consistent := by
  cases h with
  | verifyProof hnew hstats =>
      refine ⟨?_, ?_, hright.aggregations, hright.relayers⟩
      · rw [hstats.total, hstats.sum, hright.types]
      · rw [hstats.total, size_insert_new _ hnew, hright.proofs]
  | submitAggregation _ _ _ hnew =>
      refine ⟨hright.types, hright.proofs, ?_, hright.relayers⟩
      rw [size_insert_new _ hnew, hright.aggregations]
  | addRelayer _ hnew =>
      refine ⟨hright.types, hright.proofs, hright.aggregations, ?_⟩
      rw [size_insert_new _ hnew, hright.relayers]
  | removeRelayer _ hknown =>
      refine ⟨hright.types, hright.proofs, hright.aggregations, ?_⟩
      rw [hright.relayers]
      exact Nat.sub_eq_of_eq_add (size_erase hknown).symm
  | _ => exact ⟨hright.types, hright.proofs, hright.aggregations, hright.relayers⟩

/-- A relayer that is known is counted, so removing it cannot underflow. -/
theorem Consistent.removeRelayer_ne_abort (hright : verifier.Consistent) {who : Principal} :
    removeRelayer errorBase registry ctx who verifier ≠ .error .abort := by
  intro h
  simp only [removeRelayer, bind_error, read_ok, require_ok, require_error, subUint_error,
    reduceCtorEq, and_false, false_or, read_error, and_true] at h
  obtain ⟨_, _, ⟨rfl, rfl⟩, _, _, ⟨-, rfl⟩, _, _, ⟨hknown, rfl⟩, hunderflow | ⟨_, _, -, h⟩⟩ := h
  · have hcounted := size_erase hknown
    rw [hright.relayers] at hunderflow
    omega
  · cases h

/-! ## Records -/

/-- What is recorded stays recorded; of a key only the status may change. -/
structure Preserves (verifier verifier' : Verifier) : Prop where
  aggregations : Extends Eq verifier.aggregations verifier'.aggregations
  proofs : Extends Eq verifier.verifiedProofs verifier'.verifiedProofs
  keys : Extends VerificationKey.SameKey verifier.verificationKeys verifier'.verificationKeys

theorem Preserves.refl (verifier : Verifier) : Preserves verifier verifier where
  aggregations := .refl Eq.refl _
  proofs := .refl Eq.refl _
  keys := .refl VerificationKey.SameKey.refl _

theorem Preserves.trans (h : Preserves verifier verifier') (h' : Preserves verifier' verifier'') :
    Preserves verifier verifier'' where
  aggregations := h.aggregations.trans Eq.trans h'.aggregations
  proofs := h.proofs.trans Eq.trans h'.proofs
  keys := h.keys.trans VerificationKey.SameKey.trans h'.keys

/-- A function enters records under new keys, or switches a verification key. -/
theorem Performed.preserves (h : Performed registry ctx verifier call verifier') :
    Preserves verifier verifier' := by
  have hsame := Preserves.refl verifier
  cases h with
  | verifyProof hnew => exact ⟨hsame.aggregations, .insert_new Eq.refl hnew, hsame.keys⟩
  | submitAggregation _ _ _ hnew =>
      exact ⟨.insert_new Eq.refl hnew, hsame.proofs, hsame.keys⟩
  | registerVerificationKey _ hnew =>
      exact ⟨hsame.aggregations, hsame.proofs, .insert_new VerificationKey.SameKey.refl hnew⟩
  | setVerificationKeyStatus hknown =>
      exact ⟨hsame.aggregations, hsame.proofs,
        .insert_same VerificationKey.SameKey.refl hknown rfl⟩
  | _ => exact ⟨hsame.aggregations, hsame.proofs, hsame.keys⟩

/-! ## Steps -/

/-- The counters stay right, and the records stay. -/
structure Evolves (verifier verifier' : Verifier) : Prop where
  consistent : verifier.Consistent → verifier'.Consistent
  preserves : Preserves verifier verifier'

theorem Evolves.refl (verifier : Verifier) : Evolves verifier verifier := ⟨id, .refl verifier⟩

theorem Evolves.trans (h : Evolves verifier verifier') (h' : Evolves verifier' verifier'') :
    Evolves verifier verifier'' :=
  ⟨h'.consistent ∘ h.consistent, h.preserves.trans h'.preserves⟩

theorem Performed.evolves (h : Performed registry ctx verifier call verifier') :
    Evolves verifier verifier' := ⟨fun hright => hright.performed h, h.preserves⟩

theorem Changes.evolves (h : Changes verifier verifier') : Evolves verifier verifier' := by
  cases h with
  | unchanged => exact .refl verifier
  | performed h => exact h.evolves

end Verifier

/-! ## Runs -/

section Runs

variable {env : Env} {w w' : World}

/-- Both verifiers went through steps of theirs. -/
structure VerifiersEvolve (w w' : World) : Prop where
  zkVerifier : Verifier.Evolves w.zkVerifier w'.zkVerifier
  sip10ZkVerifier : Verifier.Evolves w.sip10ZkVerifier.verifier w'.sip10ZkVerifier.verifier

theorem verifiersEvolve_kept : KeptByRuns VerifiersEvolve where
  refl w := ⟨.refl _, .refl _⟩
  trans h h' :=
    ⟨h.zkVerifier.trans h'.zkVerifier, h.sip10ZkVerifier.trans h'.sip10ZkVerifier⟩
  store _ _ _ _ := ⟨.refl _, .refl _⟩
  registers h := by
    rw [h.written]
    exact ⟨.refl _, .refl _⟩
  called _ _ := ⟨.refl _, .refl _⟩
  writes h := by
    cases h with
    | zkVerifier h => exact ⟨h.evolves, .refl _⟩
    | sip10ZkVerifier storage _ h => exact ⟨.refl _, h.evolves⟩
    | setCircuitVersion _ h =>
        obtain ⟨-, -, rfl⟩ := Sip10ZkVerifier.setCircuitVersion_ok.mp h
        exact ⟨.refl _, .refl _⟩
    | noteManager h =>
        obtain ⟨registry, manager, rfl, -⟩ := NoteManager.execute_frame h
        exact ⟨.refl _, .refl _⟩
    | _ => exact ⟨.refl _, .refl _⟩

/-- In every reachable state the counters of both verifiers are right. -/
theorem Reachable.verifiers_consistent (h : Reachable env w) :
    w.zkVerifier.Consistent ∧ w.sip10ZkVerifier.verifier.Consistent := by
  obtain ⟨deployer, stx, tokens, hrun⟩ := h.exists_deployed
  have hevolve := verifiersEvolve_kept.continues hrun
  exact ⟨hevolve.zkVerifier.consistent Verifier.consistent_deployed,
    hevolve.sip10ZkVerifier.consistent Verifier.consistent_deployed⟩

theorem ZkVerifier.removeRelayer_ne_abort {P : Primitives} {ctx : Ctx} {who : Principal}
    (hright : w.zkVerifier.Consistent) :
    execute P ctx (.removeRelayer who) w ≠ .error .abort := by
  intro h
  rcases bind_error.mp h with hread | ⟨_, _, hread, h⟩
  · cases hread
  · obtain ⟨rfl, rfl⟩ := read_ok.mp hread
    exact hright.removeRelayer_ne_abort (zoom_error.mp h)

theorem Sip10ZkVerifier.removeRelayer_ne_abort {P : Primitives} {ctx : Ctx} {who : Principal}
    (hright : w.sip10ZkVerifier.verifier.Consistent) :
    execute P ctx (.common (.removeRelayer who)) w ≠ .error .abort := by
  intro h
  rcases bind_error.mp h with hread | ⟨_, _, hread, h⟩
  · cases hread
  · obtain ⟨rfl, rfl⟩ := read_ok.mp hread
    exact hright.removeRelayer_ne_abort (zoom_error.mp (zoom_error.mp h))

/-- What the verifiers promise of their ledgers, of a state and every later one. -/
structure LedgersKept (P : Primitives) (w w' : World) : Prop where
  zkVerifier : w.zkVerifier.Consistent
  sip10ZkVerifier : w.sip10ZkVerifier.verifier.Consistent
  /-- Removing a relayer never aborts. -/
  removals : ∀ ctx who, ZkVerifier.execute P ctx (.removeRelayer who) w ≠ .error .abort ∧
    Sip10ZkVerifier.execute P ctx (.common (.removeRelayer who)) w ≠ .error .abort
  zkVerifierRecords : w.zkVerifier.Preserves w'.zkVerifier
  sip10ZkVerifierRecords : w.sip10ZkVerifier.verifier.Preserves w'.sip10ZkVerifier.verifier

/-- In every run the counters are right, and what is recorded stays. -/
theorem verifier_ledgers (P : Primitives) (hreach : Reachable env w)
    (hlater : Continues env w w') : LedgersKept P w w' := by
  obtain ⟨hzk, hsip10⟩ := hreach.verifiers_consistent
  have hevolve := verifiersEvolve_kept.continues hlater
  exact
    { zkVerifier := hzk
      sip10ZkVerifier := hsip10
      removals := fun _ _ => ⟨ZkVerifier.removeRelayer_ne_abort hzk,
        Sip10ZkVerifier.removeRelayer_ne_abort hsip10⟩
      zkVerifierRecords := hevolve.zkVerifier.preserves
      sip10ZkVerifierRecords := hevolve.sip10ZkVerifier.preserves }

end Runs

namespace Sample

/-- After STX and tokens have been shielded, alice becomes a relayer. -/
def relayerAdded : World :=
  transact env 1 (sentBy owner) (.zkVerifier (.addRelayer alice)) interleaved

/-- And is removed again. -/
def relayerRemoved : World :=
  transact env 1 (sentBy owner) (.zkVerifier (.removeRelayer alice)) relayerAdded

end Sample

theorem verifier_ledgers_relayerRemoved :
    LedgersKept Sample.primitives Sample.relayerAdded Sample.relayerRemoved ∧
      Sample.relayerAdded.zkVerifier.relayerCount = 1 ∧
      Sample.relayerRemoved.zkVerifier.relayerCount = 0 ∧
      Sample.relayerRemoved.zkVerifier.verificationStats.totalVerified = 1 :=
  ⟨verifier_ledgers _ (Sample.interleaved_reachable.transact Sample.owner_topLevel 1 _)
    (.single ⟨_, Sample.owner_topLevel, 1, .zkVerifier (.removeRelayer Sample.alice), rfl⟩),
    by decide +kernel⟩

end StxShield
