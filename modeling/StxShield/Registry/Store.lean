import StxShield.Library.Session
import StxShield.Registry.Calls

/-!
# The registry's store

In whatever order the registry's functions are called, and by whomever, its
counters count its maps, its limits stay well formed and above the counters,
and nothing that was registered disappears.
-/

namespace StxShield.PrivacyRegistry

open Library Exec

/-- A call of a public function, in some context. -/
abbrev Request : Type := Ctx × Call

/-- A call that `who` sends in a transaction of its own. -/
def sentFrom (who : Principal) : Ctx :=
  { txSender := who, contractCaller := who, height := 0, stack := [] }

/-- The registry and the calls it has accepted. -/
abbrev Run : Type := Session PrivacyRegistry Request (Option Nat)

/-- Serve one request. -/
def serve (request : Request) : Exec PrivacyRegistry (Option Nat) :=
  execute request.1 request.2

/-- The registry after a sequence of requests, successful and failed. -/
def runOf (deployer : Principal) (requests : List Request) : Run :=
  Session.submitAll serve (Session.start (deployed deployer)) requests

/-! ## What a run has recorded -/

/-- The indexes `register-commitment` returned, in order. -/
def returnedIndexes (run : Run) : List Nat := (run.accepted.filterMap Prod.snd).reverse

def Call.shieldedAmount : Call → Nat
  | .recordShield amount => amount
  | _ => 0

def Call.withdrawnAmount : Call → Nat
  | .recordWithdrawal amount => amount
  | _ => 0

/-- All STX recorded as entering the shielded pool. -/
def recordedShields (run : Run) : Nat := (run.accepted.map fun entry => entry.1.2.shieldedAmount).sum

/-- All STX recorded as leaving it. -/
def recordedWithdrawals (run : Run) : Nat :=
  (run.accepted.map fun entry => entry.1.2.withdrawnAmount).sum

/-! ## The invariant -/

structure StoreInvariant (run : Run) : Prop where
  commitments : run.state.protocolStatistics.totalCommitments = run.state.commitments.keys.length
  nullifiers : run.state.protocolStatistics.totalNullifiers = run.state.nullifiers.keys.length
  nullifiers_le : run.state.protocolStatistics.totalNullifiers ≤
    run.state.protocolStatistics.totalCommitments
  commitments_le : run.state.protocolStatistics.totalCommitments ≤
    run.state.protocolLimits.maxCommitments
  maxCommitments_le : run.state.protocolLimits.maxCommitments ≤ 2 ^ 20
  notes_le : run.state.protocolStatistics.totalNotes ≤ run.state.protocolLimits.maxNotes
  maxNotes_le : run.state.protocolLimits.maxNotes ≤ 2 ^ 20
  limits : LimitsWellFormed run.state.protocolLimits
  shielded_le : run.state.protocolStatistics.totalShieldedStx ≤ stxSupplyCeiling
  /-- The total never fell below zero on the way: it is what came in less what
  went out. -/
  shielded_eq : run.state.protocolStatistics.totalShieldedStx + recordedWithdrawals run =
    recordedShields run
  indexes : returnedIndexes run = List.range run.state.protocolStatistics.totalCommitments
  /-- Once a root is posted the current one is registered. -/
  current : (∃ root, root ∈ run.state.merkleRoots) →
    run.state.currentRoot.root ∈ run.state.merkleRoots

/-- What an earlier registry's maps hold, a later one's hold too; of a root only
its status can change. -/
structure Extends (earlier later : PrivacyRegistry) : Prop where
  commitments : ∀ commitment record, earlier.commitments.lookup commitment = some record →
    later.commitments.lookup commitment = some record
  nullifiers : ∀ nullifier record, earlier.nullifiers.lookup nullifier = some record →
    later.nullifiers.lookup nullifier = some record
  roots : ∀ root record, earlier.merkleRoots.lookup root = some record →
    ∃ active, later.merkleRoots.lookup root = some { record with active := active }

namespace Extends

variable {first second third : PrivacyRegistry}

theorem refl (registry : PrivacyRegistry) : Extends registry registry where
  commitments _ _ h := h
  nullifiers _ _ h := h
  roots _ record h := ⟨record.active, h⟩

theorem trans (h : Extends first second) (h' : Extends second third) : Extends first third where
  commitments commitment record hmem := h'.commitments _ _ (h.commitments _ _ hmem)
  nullifiers nullifier record hmem := h'.nullifiers _ _ (h.nullifiers _ _ hmem)
  roots root record hmem := by
    obtain ⟨active, hsecond⟩ := h.roots root record hmem
    obtain ⟨active', hthird⟩ := h'.roots root _ hsecond
    exact ⟨active', hthird⟩

/-- An entry under a new key leaves the others alone. -/
theorem lookup_insert_fresh {V : Type} {map : DataMap Buff32 V} {key other : Buff32}
    {value record : V} (hfresh : map.lookup key = none) (hmem : map.lookup other = some record) :
    (map.insert key value).lookup other = some record := by
  have hne : other ≠ key := by
    rintro rfl
    rw [hfresh] at hmem
    cases hmem
  rw [AList.lookup_insert_ne hne]
  exact hmem

end Extends

variable {ctx : Ctx} {registry registry' : PrivacyRegistry} {call : Call} {data : Option Nat}

/-- No call removes an entry. -/
theorem Performed.extends (h : Performed ctx registry call data registry') :
    Extends registry registry' := by
  have hsame := Extends.refl registry
  cases h with
  | registerCommitment _ _ _ hfresh =>
      exact { hsame with commitments := fun _ _ hmem => Extends.lookup_insert_fresh hfresh hmem }
  | registerNullifier _ _ _ hfresh =>
      exact { hsame with nullifiers := fun _ _ hmem => Extends.lookup_insert_fresh hfresh hmem }
  | updateRoot _ _ hfresh =>
      exact
        { hsame with
          roots := fun _ record hmem =>
            ⟨record.active, Extends.lookup_insert_fresh hfresh hmem⟩ }
  | @setRootStatus root active info _ _ hinfo _ =>
      refine { hsame with roots := fun other record hmem => ?_ }
      by_cases heq : other = root
      · subst heq
        obtain rfl := Option.some.inj (hinfo.symm.trans hmem)
        exact ⟨active, AList.lookup_insert _⟩
      · exact ⟨record.active, (AList.lookup_insert_ne heq).trans hmem⟩
  | _ => exact ⟨hsame.commitments, hsame.nullifiers, hsame.roots⟩

/-! ## Steps -/

section

variable (run : Run) (state : PrivacyRegistry)

@[simp]
theorem returnedIndexes_cons (request : Request) (data : Option Nat) :
    returnedIndexes ⟨state, (request, data) :: run.accepted⟩ =
      returnedIndexes run ++ data.toList := by
  cases data <;> simp [returnedIndexes]

@[simp]
theorem recordedShields_cons (request : Request) (data : Option Nat) :
    recordedShields ⟨state, (request, data) :: run.accepted⟩ =
      request.2.shieldedAmount + recordedShields run := by
  simp [recordedShields]

@[simp]
theorem recordedWithdrawals_cons (request : Request) (data : Option Nat) :
    recordedWithdrawals ⟨state, (request, data) :: run.accepted⟩ =
      request.2.withdrawnAmount + recordedWithdrawals run := by
  simp [recordedWithdrawals]

end

theorem keys_length_insert_fresh {V : Type} {map : DataMap Buff32 V} {key : Buff32} (value : V)
    (hfresh : map.lookup key = none) :
    (map.insert key value).keys.length = map.keys.length + 1 := by
  rw [DataMap.keys_insert_new value hfresh, List.length_cons]

/-- A call that records no amount and returns no index. -/
theorem StoreInvariant.log {run : Run} (h : StoreInvariant run) (request : Request)
    (hshields : request.2.shieldedAmount = 0) (hwithdrawals : request.2.withdrawnAmount = 0) :
    StoreInvariant ⟨run.state, (request, none) :: run.accepted⟩ where
  commitments := h.commitments
  nullifiers := h.nullifiers
  nullifiers_le := h.nullifiers_le
  commitments_le := h.commitments_le
  maxCommitments_le := h.maxCommitments_le
  notes_le := h.notes_le
  maxNotes_le := h.maxNotes_le
  limits := h.limits
  shielded_le := h.shielded_le
  shielded_eq := by
    have heq := h.shielded_eq
    simp only [recordedShields_cons, recordedWithdrawals_cons]
    omega
  indexes := by
    rw [returnedIndexes_cons]
    exact (List.append_nil _).trans h.indexes
  current := h.current

theorem StoreInvariant.step {run : Run} (h : StoreInvariant run)
    (hperformed : Performed ctx run.state call data registry') :
    StoreInvariant ⟨registry', ((ctx, call), data) :: run.accepted⟩ := by
  cases hperformed with
  | @registerCommitment commitment version record hactive hauth hcapacity hfresh =>
      have hlog := h.log (ctx, .registerCommitment commitment version) rfl rfl
      refine
        { hlog with
          commitments := ?_
          nullifiers_le := Nat.le_succ_of_le h.nullifiers_le
          commitments_le := hcapacity
          indexes := ?_ }
      · rw [keys_length_insert_fresh _ hfresh, h.commitments]
      · rw [returnedIndexes_cons, h.indexes, List.range_succ]
        rfl
  | @registerNullifier nullifier hactive hauth hcount hfresh =>
      have hlog := h.log (ctx, .registerNullifier nullifier) rfl rfl
      refine { hlog with nullifiers := ?_, nullifiers_le := hcount }
      rw [keys_length_insert_fresh _ hfresh, h.nullifiers]
  | @updateRoot newRoot version hactive hauth hfresh =>
      have hlog := h.log (ctx, .updateRoot newRoot version) rfl rfl
      exact { hlog with current := fun _ => (AList.mem_insert _).mpr (.inl rfl) }
  | @setRootStatus root active info hauth hroot hinfo hchange =>
      have hlog := h.log (ctx, .setRootStatus root active) rfl rfl
      have hmem : root ∈ run.state.merkleRoots := by
        rw [← AList.lookup_isSome, hinfo]
        rfl
      exact
        { hlog with
          current := fun _ => (AList.mem_insert _).mpr (.inr (h.current ⟨root, hmem⟩)) }
  | @transition _ newState hcall hvalid hauth hrecovery =>
      have hamounts : call.shieldedAmount = 0 ∧ call.withdrawnAmount = 0 := by
        cases call <;> first | exact ⟨rfl, rfl⟩ | cases hcall
      exact { h.log (ctx, call) hamounts.1 hamounts.2 with }
  | @versions _ new hcall hstate hle =>
      have hamounts : call.shieldedAmount = 0 ∧ call.withdrawnAmount = 0 := by
        cases call <;> first | exact ⟨rfl, rfl⟩ | cases hcall
      exact { h.log (ctx, call) hamounts.1 hamounts.2 with }
  | @limits _ new hcall hstate hwell hcommitments hnotes =>
      have hamounts : call.shieldedAmount = 0 ∧ call.withdrawnAmount = 0 := by
        cases call <;> first | exact ⟨rfl, rfl⟩ | cases hcall
      have hlimits := hwell h.limits
      refine
        { h.log (ctx, call) hamounts.1 hamounts.2 with
          commitments_le := ?_
          maxCommitments_le := hlimits.maxCommitments_le
          notes_le := ?_
          maxNotes_le := hlimits.maxNotes_le
          limits := hlimits }
      · rcases hcommitments with heq | hle
        · exact heq ▸ h.commitments_le
        · exact hle
      · rcases hnotes with heq | hle
        · exact heq ▸ h.notes_le
        · exact hle
  | @recordShield amount hactive hauth hceiling =>
      refine
        { commitments := h.commitments
          nullifiers := h.nullifiers
          nullifiers_le := h.nullifiers_le
          commitments_le := h.commitments_le
          maxCommitments_le := h.maxCommitments_le
          notes_le := h.notes_le
          maxNotes_le := h.maxNotes_le
          limits := h.limits
          shielded_le := hceiling
          shielded_eq := ?_
          indexes := ?_
          current := h.current }
      · have heq := h.shielded_eq
        simp only [recordedShields_cons, recordedWithdrawals_cons, Call.shieldedAmount,
          Call.withdrawnAmount]
        omega
      · rw [returnedIndexes_cons]
        exact (List.append_nil _).trans h.indexes
  | @recordWithdrawal amount hactive hauth hcovered =>
      refine
        { commitments := h.commitments
          nullifiers := h.nullifiers
          nullifiers_le := h.nullifiers_le
          commitments_le := h.commitments_le
          maxCommitments_le := h.maxCommitments_le
          notes_le := h.notes_le
          maxNotes_le := h.maxNotes_le
          limits := h.limits
          shielded_le := (Nat.sub_le _ _).trans h.shielded_le
          shielded_eq := ?_
          indexes := ?_
          current := h.current }
      · have heq := h.shielded_eq
        simp only [recordedShields_cons, recordedWithdrawals_cons, Call.shieldedAmount,
          Call.withdrawnAmount]
        omega
      · rw [returnedIndexes_cons]
        exact (List.append_nil _).trans h.indexes
  | recordTransfer => exact { h.log (ctx, .recordTransfer) rfl rfl with }
  | recordNoteCreated hactive hauth hcapacity =>
      exact { h.log (ctx, .recordNoteCreated) rfl rfl with notes_le := hcapacity }
  | @grantRole account role =>
      exact { h.log (ctx, .grantRole account role) rfl rfl with }
  | @revokeRole account role =>
      exact { h.log (ctx, .revokeRole account role) rfl rfl with }
  | @addAuthorizedCaller caller =>
      exact { h.log (ctx, .addAuthorizedCaller caller) rfl rfl with }
  | @removeAuthorizedCaller caller =>
      exact { h.log (ctx, .removeAuthorizedCaller caller) rfl rfl with }
  | @transferOwnership newOwner =>
      exact { h.log (ctx, .transferOwnership newOwner) rfl rfl with }
  | acceptOwnership => exact { h.log (ctx, .acceptOwnership) rfl rfl with }
  | cancelOwnershipTransfer =>
      exact { h.log (ctx, .cancelOwnershipTransfer) rfl rfl with }

/-! ## Runs -/

/-- The limits the registry is deployed with pass their own checks. -/
theorem deployed_limits (deployer : Principal) :
    LimitsWellFormed (deployed deployer).protocolLimits := by
  constructor <;>
    simp [deployed, oneStx, merkleTreeCapacity, stxSupplyCeiling, maxFeeBpsCeiling]

theorem StoreInvariant.deployed (deployer : Principal) :
    StoreInvariant (Session.start (deployed deployer)) where
  commitments := rfl
  nullifiers := rfl
  nullifiers_le := Nat.le_refl _
  commitments_le := Nat.zero_le _
  maxCommitments_le := (deployed_limits deployer).maxCommitments_le
  notes_le := Nat.zero_le _
  maxNotes_le := (deployed_limits deployer).maxNotes_le
  limits := deployed_limits deployer
  shielded_le := Nat.zero_le _
  shielded_eq := rfl
  indexes := rfl
  current := by
    rintro ⟨root, hroot⟩
    cases hroot

theorem StoreInvariant.run (deployer : Principal) (requests : List Request) :
    StoreInvariant (runOf deployer requests) :=
  Session.invariant (fun _ _ _ _ h hrun => h.step (execute_performed hrun)) (.deployed deployer)
    requests

theorem extends_run (run : Run) (requests : List Request) :
    Extends run.state (Session.submitAll serve run requests).state :=
  Session.relates Extends.refl Extends.trans
    (fun _ _ _ _ hrun => (execute_performed hrun).extends) run requests

/-- In every state of every run the store is consistent, and it holds whatever
it held before. -/
theorem registry_store_invariant (deployer : Principal) (earlier later : List Request) :
    StoreInvariant (runOf deployer earlier) ∧
      Extends (runOf deployer earlier).state (runOf deployer (earlier ++ later)).state := by
  refine ⟨.run deployer earlier, ?_⟩
  rw [runOf, runOf, Session.submitAll_append]
  exact extends_run _ later

end StxShield.PrivacyRegistry
