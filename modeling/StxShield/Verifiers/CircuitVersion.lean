import StxShield.Protocol.Runs
import StxShield.Protocol.Spending
import StxShield.Security.Solvency

/-!
# The circuit version of the SIP-10 family

The pool stamps a constant on every statement, the verifier holds it against a
variable of its own that its administrators advance.  The two agree exactly as
long as the variable was last set to the constant.
-/

namespace StxShield

open Library Exec World Circuit

variable {env : Env} {w w' : World} {op : Operation} {P : Primitives} {inclusion : Inclusion}
  {ctx : Ctx}

/-! ## What was last set -/

/-- The version of the last `set-circuit-version` that succeeded, or the one the
verifier is deployed with. -/
def lastCircuitVersion : List Event → Nat
  | .called _ (.sip10ZkVerifier (.setCircuitVersion version)) _ :: _ => version
  | _ :: earlier => lastCircuitVersion earlier
  | [] => 1

theorem lastCircuitVersion_called {call : Call} {registered : Nat} {H : List Event}
    (hcall : ∀ version, call ≠ .sip10ZkVerifier (.setCircuitVersion version)) :
    lastCircuitVersion (.called ctx call registered :: H) = lastCircuitVersion H := by
  cases call with
  | sip10ZkVerifier verifierCall =>
      cases verifierCall with
      | setCircuitVersion version => exact absurd rfl (hcall version)
      | _ => rfl
  | _ => rfl

/-- The variable is what was last set, and never moves back. -/
structure TracksVersion (w w' : World) : Prop where
  last : w.sip10ZkVerifier.circuitVersion = lastCircuitVersion w.history →
    w'.sip10ZkVerifier.circuitVersion = lastCircuitVersion w'.history
  grows : w.sip10ZkVerifier.circuitVersion ≤ w'.sip10ZkVerifier.circuitVersion

theorem tracksVersion_of_eq
    (hversion : w'.sip10ZkVerifier.circuitVersion = w.sip10ZkVerifier.circuitVersion)
    (hhistory : lastCircuitVersion w'.history = lastCircuitVersion w.history) :
    TracksVersion w w' where
  last h := (hversion.trans h).trans hhistory.symm
  grows := hversion.ge

theorem tracksVersion_closed : Closed TracksVersion where
  refl _ := tracksVersion_of_eq rfl rfl
  trans huv hvw := ⟨hvw.last ∘ huv.last, huv.grows.trans hvw.grows⟩
  store _ _ _ _ := tracksVersion_of_eq rfl rfl

/-- Only `set-circuit-version` writes the variable. -/
theorem tracksVersion_covers {call : Call}
    (hcall : ∀ version, call ≠ .sip10ZkVerifier (.setCircuitVersion version)) :
    Covers call TracksVersion where
  refl := tracksVersion_closed.refl
  trans := tracksVersion_closed.trans
  writes h := by
    cases h with
    | sip10ZkVerifier storage hversion _ => exact tracksVersion_of_eq hversion rfl
    | setCircuitVersion heq => exact absurd heq (hcall _)
    | noteManager hrun =>
        obtain ⟨registry, manager, rfl, -⟩ := NoteManager.execute_frame hrun
        exact tracksVersion_of_eq rfl rfl
    | _ => exact tracksVersion_of_eq rfl rfl

theorem Sip10ZkVerifier.setCircuitVersion_ok {registry : PrivacyRegistry} {version : Nat}
    {storage storage' : Sip10Verifier} {u : Unit} :
    setCircuitVersion registry ctx version storage = .ok (u, storage') ↔
      Verifier.isVerifierAdmin registry ctx.contractCaller ∧ storage.circuitVersion < version ∧
        { storage with circuitVersion := version } = storage' := by
  unfold setCircuitVersion
  simp only [↓bind_ok, ↓exists_read, ↓exists_require, ↓modify_ok]

/-- The call that moves the variable, and what is recorded of it. -/
theorem setCircuitVersion_tracksVersion {tokens : TokenCode} {version : Nat} {data : List Nat}
    (h : execCall env tokens ctx (.sip10ZkVerifier (.setCircuitVersion version)) w =
      .ok (data, w')) : TracksVersion w w' := by
  obtain ⟨mid, hrun, rfl⟩ := execCall_ok.mp h
  obtain ⟨inner, hdispatch, -⟩ := withinCall_ok hrun
  simp only [dispatch, Sip10ZkVerifier.execute, ↓bind_ok, ↓exists_read, onSip10ZkVerifier_ok,
    Sip10ZkVerifier.setCircuitVersion_ok, pure_ok] at hdispatch
  obtain ⟨_, _, ⟨_, ⟨-, hgrows, rfl⟩, rfl⟩, -, rfl⟩ := hdispatch
  exact ⟨fun _ => rfl, hgrows.le⟩

theorem exec_tracksVersion (env : Env) (depth : Nat) :
    CallsRespect StxSafe TracksVersion (exec env depth) := by
  refine exec_respects tracksVersion_closed stxSafe_delegable ?_ depth
  intro depth htokens ctx call hctx _ w data w' h
  by_cases hset : ∃ version, call = .sip10ZkVerifier (.setCircuitVersion version)
  · obtain ⟨version, rfl⟩ := hset
    exact setCircuitVersion_tracksVersion h
  · have hcall : ∀ version, call ≠ .sip10ZkVerifier (.setCircuitVersion version) :=
      fun version heq => hset ⟨version, heq⟩
    cases execCall_writes (tracksVersion_covers hcall) htokens hctx h with
    | covered hmid =>
        exact tracksVersion_closed.trans hmid
          (tracksVersion_of_eq rfl (lastCircuitVersion_called hcall))
    | registerAsset _ hmid hregisters =>
        refine tracksVersion_closed.trans hmid (tracksVersion_of_eq ?_ ?_)
        · rw [hregisters.written]
        · rw [lastCircuitVersion_called hcall, hregisters.written]

theorem Continues.tracksVersion (h : Continues env w w') : TracksVersion w w' := by
  induction h with
  | refl => exact tracksVersion_closed.refl w
  | tail _ hstep ih =>
      obtain ⟨ctx, hctx, depth, call, rfl⟩ := hstep
      exact tracksVersion_closed.trans ih
        (transact_respects Ctx.TopLevel.stxSafe tracksVersion_closed.refl (exec_tracksVersion env depth) hctx call _)

theorem Reachable.circuitVersion_eq_last (h : Reachable env w) :
    w.sip10ZkVerifier.circuitVersion = lastCircuitVersion w.history := by
  obtain ⟨deployer, stx, tokens, hrun⟩ := h.exists_deployed
  exact hrun.tracksVersion.last rfl

/-! ## The two versions -/

theorem Operation.circuitVersion_of_sip10 (hop : op.currency ≠ .stx) :
    op.circuitVersion w = Sip10Pool.sip10CircuitVersion := by
  obtain ⟨currency, action⟩ := op
  cases currency with
  | stx => exact absurd rfl hop
  | sip10 token => rfl

/-- The verifier accepts nothing that carries another version than its own. -/
theorem Operation.version_of_verified (hop : op.currency ≠ .stx) {version : Nat}
    (h : (op.verify P inclusion ctx version w).isOk) :
    version = w.sip10ZkVerifier.circuitVersion := by
  obtain ⟨currency, action⟩ := op
  cases currency with
  | stx => exact absurd rfl hop
  | sip10 token =>
      cases hverify : Operation.verify P inclusion ctx version ⟨.sip10 token, action⟩ w with
      | error fault =>
          rw [hverify] at h
          cases h
      | ok result =>
          obtain ⟨leaf, after⟩ := result
          simp only [Operation.verify, Sip10ZkVerifier.verifyProof, ↓bind_ok, ↓exists_read,
            ↓exists_onRegistry, ↓PrivacyRegistry.exists_checkActive, onSip10ZkVerifier_ok,
            zoom_ok] at hverify
          obtain ⟨-, _, _, ⟨_, ⟨_, hrun, -⟩, -⟩, -⟩ := hverify
          simp only [Verifier.verifyProof, ↓bind_ok, ↓exists_read, ↓exists_require] at hrun
          exact hrun.2.2.2.1

/-- In every reachable state the version that the pool stamps is the one that the
verifier accepts if and only if the last `set-circuit-version` was for it.  Until
then, and after any other, no statement of the pool's verifies. -/
theorem circuit_versions_agree_iff (hreach : Reachable env w) (hop : op.currency ≠ .stx) :
    (op.circuitVersion w = w.sip10ZkVerifier.circuitVersion ↔
        lastCircuitVersion w.history = Sip10Pool.sip10CircuitVersion) ∧
      (lastCircuitVersion w.history ≠ Sip10Pool.sip10CircuitVersion →
        ∀ inclusion ctx, ¬ (op.verify env.primitives inclusion ctx (op.circuitVersion w) w).isOk) := by
  rw [← hreach.circuitVersion_eq_last, Operation.circuitVersion_of_sip10 hop]
  refine ⟨eq_comm, fun hother inclusion ctx hverified => hother ?_⟩
  exact (Operation.version_of_verified hop hverified).symm

/-- Past the pool's version there is no way back. -/
theorem circuit_version_passed (hlater : Continues env w w')
    (hpassed : Sip10Pool.sip10CircuitVersion < w.sip10ZkVerifier.circuitVersion)
    (hop : op.currency ≠ .stx) :
    ¬ (op.verify P inclusion ctx (op.circuitVersion w') w').isOk := by
  intro hverified
  have hsame := Operation.version_of_verified hop hverified
  rw [Operation.circuitVersion_of_sip10 hop] at hsame
  have hgrows := hlater.tracksVersion.grows
  omega

namespace Sample

def tokenDeposit : Operation :=
  ⟨.sip10 token, .shield (shieldArgs (shieldPublic tokenCoin true))⟩

/-- The same deposit, proved for version 3 of its circuit. -/
def shieldTokenUpgraded : Statement :=
  ⟨some tokenField, .shield { shieldPublic tokenCoin true with circuitVersion := 3 }⟩

/-- The key and its binding are registered at version 3, and the new proof is
published, before the version is activated. -/
def upgrade : List Call :=
  let key := digest [1]
  let leaf :=
    Verifier.statementLeaf primitives key key key (digest shieldTokenUpgraded.encode)
  let root := Verifier.computeMerkleRoot primitives leaf [] 0 1
  [.sip10ZkVerifier (.common (.registerVerificationKey proofTypeShield 3 key 100)),
    .sip10ZkVerifier (.common (.setZkverifyBinding proofTypeShield 3 key key)),
    .sip10ZkVerifier (.common (.submitAggregation 0 4 root 1)),
    .sip10ZkVerifier (.setCircuitVersion 3)]

def upgraded : World := transactAll Sample.env 1 (sentBy owner) upgrade ready

theorem upgraded_reachable : Reachable Sample.env upgraded :=
  ready_reachable.transactAll owner_topLevel 1 upgrade

end Sample

/-- The verifier accepts the proof made for its version, and nothing that the
pool presents. -/
theorem circuit_upgrade_strands :
    Reachable Sample.env Sample.upgraded ∧ Sample.upgraded.sip10ZkVerifier.circuitVersion = 3 ∧
      (Sip10ZkVerifier.verifyProof Sample.primitives ((Sample.sentBy Sample.alice).calledBy .sip10Pool)
        proofTypeShield 3 (Sample.digest Sample.shieldTokenUpgraded.encode) (Sample.inclusion 4)
        Sample.upgraded).isOk ∧
      Sample.tokenDeposit.circuitVersion Sample.upgraded = 2 ∧
      ∀ later, Continues Sample.env Sample.upgraded later → ∀ op : Operation,
        op.currency ≠ .stx → ∀ inclusion ctx,
          ¬ (op.verify Sample.primitives inclusion ctx (op.circuitVersion later) later).isOk := by
  have hversion : Sample.upgraded.sip10ZkVerifier.circuitVersion = 3 := by decide +kernel
  refine ⟨Sample.upgraded_reachable, hversion, by decide +kernel, by decide +kernel, ?_⟩
  intro later hlater op hop inclusion ctx
  have hpassed : Sip10Pool.sip10CircuitVersion < Sample.upgraded.sip10ZkVerifier.circuitVersion :=
    hversion ▸ Nat.lt_succ_self 2
  exact circuit_version_passed hlater hpassed hop

/-- Once the version has been set to the pool's, the two agree. -/
theorem circuit_versions_agree_iff_ready :
    Sample.tokenDeposit.circuitVersion Sample.ready =
      Sample.ready.sip10ZkVerifier.circuitVersion :=
  (circuit_versions_agree_iff Sample.ready_reachable (by decide)).1.mpr (by decide +kernel)

end StxShield
