import StxShield.Witnesses.Circuits
import StxShield.Sdk.ReferenceTree
import StxShield.Sdk.Wire

/-!
# The proof engine

The engine hands a witness to the circuit of its family, by name and element by
element, and executes it: it has a proof to return if every input is a field
element, every array is of the declared length and no assertion fails.
-/

namespace StxShield.Sdk

open Library JavaScript Circuit

/-! ## Inputs -/

def noteInput (n : NoteWitness) : Except String Note := do
  return {
    amount := ← f n.amount
    ownerPkX := ← f n.ownerPkX
    ownerPkY := ← f n.ownerPkY
    blinding := ← f n.blinding }

/-- Index bits and siblings; the circuits declare arrays of the tree's depth. -/
def pathInput (path : List (Bool × Int)) : Except String MerklePath := do
  let steps ← path.mapM fun step => (fun sibling => (step.1, sibling)) <$> f step.2
  if h : steps.length = Circuit.treeDepth then return ⟨steps, h⟩
  else throw "array is not of the declared length"

/-- What an operation asks the engine to prove. -/
inductive EngineWitness where
  | shield (w : ShieldWitness)
  | transfer (w : TransferWitness)
  | withdraw (w : WithdrawWitness)
  | split (w : SplitWitness)
  | merge (w : MergeWitness)

/-- The inputs that do not show in the statement. -/
inductive PrivateInputs where
  | shield (w : Shield.Witness)
  | transfer (w : Transfer.Witness)
  | withdraw (w : Withdraw.Witness)
  | split (w : Split.Witness)
  | merge (w : Merge.Witness)

namespace EngineWitness

def publicInputs : EngineWitness → Except String Statement
  | .shield w => shieldInputs w
  | .transfer w => transferInputs w
  | .withdraw w => withdrawInputs w
  | .split w => splitInputs w
  | .merge w => mergeInputs w

def privateInputs : EngineWitness → Except String PrivateInputs
  | .shield w => do
      return .shield {
        note := ← noteInput w.note
        insertion := ← pathInput w.insertion.path }
  | .transfer w => do
      return .transfer {
        input := ← noteInput w.input
        ownerSk := ← f w.ownerSk
        merkle := ← pathInput w.membership.path
        insertion := ← pathInput w.insertion.path
        output := ← noteInput w.output }
  | .withdraw w => do
      return .withdraw {
        input := ← noteInput w.input
        ownerSk := ← f w.ownerSk
        merkle := ← pathInput w.membership.path }
  | .split w => do
      return .split {
        input := ← noteInput w.input
        ownerSk := ← f w.ownerSk
        merkle := ← pathInput w.membership.path
        out1 := ← noteInput w.out1
        out2 := ← noteInput w.out2
        insertion1 := ← pathInput w.insertion1.path
        insertion2 := ← pathInput w.insertion2.path }
  | .merge w => do
      return .merge {
        input1 := ← noteInput w.input1
        ownerSk1 := ← f w.ownerSk1
        merkle1 := ← pathInput w.membership1.path
        input2 := ← noteInput w.input2
        ownerSk2 := ← f w.ownerSk2
        merkle2 := ← pathInput w.membership2.path
        output := ← noteInput w.output
        insertion := ← pathInput w.insertion.path }

/-- `pick`: the circuit's name. -/
def circuit (w : EngineWitness) : String :=
  let pick (base : String) (assetField : Option Int) :=
    if (truthy assetField).isSome then "sip10-" ++ base else base
  match w with
  | .shield w => pick "shield" w.assetField
  | .transfer w => pick "transfer" w.assetField
  | .withdraw w => pick "withdraw" w.assetField
  | .split w => pick "split" w.assetField
  | .merge w => pick "merge" w.assetField

end EngineWitness

/-! ## Execution -/

/-- A circuit takes inputs of its own kind only. -/
def program (B : Builtins) : Statement → PrivateInputs → Constraints Unit
  | ⟨asset, .shield x⟩, .shield w => Shield.circuit B asset x w
  | ⟨asset, .transfer x⟩, .transfer w => Transfer.circuit B asset x w
  | ⟨asset, .withdraw x⟩, .withdraw w => Withdraw.circuit B asset x w
  | ⟨asset, .split x⟩, .split w => Split.circuit B asset x w
  | ⟨asset, .merge x⟩, .merge w => Merge.circuit B asset x w
  | _, _ => Exec.abort

/-- `proveCircuit`: whatever goes wrong, one error is thrown. -/
def proveCircuit (B : Builtins) (w : EngineWitness) : Except String Statement :=
  let executed : Except String Statement := do
    let statement ← w.publicInputs
    let inputs ← w.privateInputs
    match program B statement inputs [] with
    | .ok _ => return statement
    | .error _ => throw "Cannot satisfy constraint"
  match executed with
  | .ok statement => .ok statement
  | .error _ => .error (w.circuit ++ " proof generation failed")

/-- The secret is reduced to a scalar, and the keygen circuit gives its point. -/
def deriveOwnerKey (B : Builtins) (secret : Bytes) : Except String OwnerKey :=
  let sk := bytesToBig secret % 2 ^ 240 + 1
  match f sk with
  | .ok x =>
      let pk := B.fixedBaseScalarMul x
      .ok { sk := sk, pkX := pk.1.val, pkY := pk.2.val }
  | .error _ => .error "owner key derivation failed"

/-! ## What the engine takes -/

section Inputs

variable {B : Builtins}

theorem f_val (x : Fr) : f (x.val : Int) = .ok x := f_ok.mpr rfl

/-- An integer in range is passed as the element it is. -/
theorem f_eq {x : Int} (h : 0 ≤ x ∧ x < fieldModulus) : ∃ field : Fr, x = field.val := by
  have hlt : x.toNat < fieldModulus := by omega
  exact ⟨⟨x.toNat, hlt⟩, (Int.toNat_of_nonneg h.1).symm⟩

theorem noteInput_ok {n : NoteWitness} {note : Note} :
    noteInput n = .ok note ↔
      n.amount = note.amount.val ∧ n.ownerPkX = note.ownerPkX.val ∧
        n.ownerPkY = note.ownerPkY.val ∧ n.blinding = note.blinding.val := by
  unfold noteInput
  simp only [except_bind_ok, except_pure_ok, f_ok]
  constructor
  · rintro ⟨amount, hamount, x, hx, y, hy, blinding, hblinding, rfl⟩
    exact ⟨hamount, hx, hy, hblinding⟩
  · rintro ⟨hamount, hx, hy, hblinding⟩
    exact ⟨_, hamount, _, hx, _, hy, _, hblinding, rfl⟩

/-- A path of field elements is read back as it was written. -/
theorem pathInput_val (path : MerklePath) :
    pathInput (path.steps.map fun step => (step.1, (step.2.val : Int))) = .ok path := by
  have hsteps (steps : List (Bool × Fr)) :
      (steps.map fun step => (step.1, (step.2.val : Int))).mapM
          (fun step => (fun sibling => (step.1, sibling)) <$> f step.2) =
        (Except.ok steps : Except String _) := by
    induction steps with
    | nil => rfl
    | cons step rest ih =>
        rw [List.map_cons, List.mapM_cons, f_val, ih]
        rfl
  unfold pathInput
  rw [hsteps]
  exact (dif_pos path.length_eq).trans rfl

theorem proveCircuit_ok {w : EngineWitness} {statement : Statement} :
    proveCircuit B w = .ok statement ↔
      w.publicInputs = .ok statement ∧
        ∃ inputs, w.privateInputs = .ok inputs ∧ Satisfied (program B statement inputs) := by
  unfold proveCircuit Satisfied
  cases hpublic : w.publicInputs with
  | error message => simp [Bind.bind, Except.bind]
  | ok other =>
      cases hprivate : w.privateInputs with
      | error message => simp [Bind.bind, Except.bind]
      | ok inputs =>
          cases hrun : program B other inputs [] with
          | error fault =>
              refine iff_of_false (by simp [Bind.bind, Except.bind, hrun]) ?_
              rintro ⟨hsame, same, hinputs, outcome, hok⟩
              cases hsame
              cases hinputs
              cases hrun.symm.trans hok
          | ok outcome =>
              simp only [Bind.bind, Except.bind, hrun]
              constructor
              · intro h
                cases h
                exact ⟨rfl, inputs, rfl, outcome, hrun⟩
              · rintro ⟨hsame, -⟩
                cases hsame
                rfl

/-- Every secret gives a key that the circuits take for its owner's. -/
theorem deriveOwnerKey_ok (secret : Bytes) :
    ∃ sk : Fr, deriveOwnerKey B secret = .ok
      { sk := sk.val
        pkX := (B.fixedBaseScalarMul sk).1.val
        pkY := (B.fixedBaseScalarMul sk).2.val } := by
  have hwide : (2 : Int) ^ 240 < fieldModulus := by decide
  have hpos : (0 : Int) < 2 ^ 240 := by decide
  have hlt := Int.emod_lt_of_pos (bytesToBig secret) hpos
  have hnonneg := Int.emod_nonneg (bytesToBig secret) (Int.ne_of_gt hpos)
  obtain ⟨sk, hsk⟩ := f_eq (x := bytesToBig secret % 2 ^ 240 + 1) (by omega)
  refine ⟨sk, ?_⟩
  unfold deriveOwnerKey
  simp only [hsk, f_val]

end Inputs

/-! ## The statement that is executed -/

section Statements

variable {asset : Option Fr}

theorem shield_publicInputs {w : ShieldWitness} {x : Shield.Public}
    (hasset : assetIn w.assetField = .ok asset) (hop : x.op = 1)
    (hversion : x.circuitVersion = circuitVersion) (hcommitment : w.commitment = x.commitment.val)
    (howner : w.ownerCommitment = x.ownerCommitment.val) (hamount : w.note.amount = x.amount.val)
    (hold : w.insertion.oldRoot = x.oldRoot.val) (hnew : w.insertion.newRoot = x.newRoot.val)
    (hslot : (w.insertion.leafIndex : Int) = x.leafIndex.val) :
    (EngineWitness.shield w).publicInputs = .ok ⟨asset, .shield x⟩ := by
  cases x
  cases hop
  cases hversion
  simp only [EngineWitness.publicInputs, shieldInputs, hasset, hcommitment, howner, hamount, hold,
    hnew, hslot, f_val]
  rfl

theorem transfer_publicInputs {w : TransferWitness} {x : Transfer.Public}
    (hasset : assetIn w.assetField = .ok asset) (hop : x.op = 2)
    (hversion : x.circuitVersion = circuitVersion) (hnullifier : w.nullifier = x.nullifier.val)
    (hcommitment : w.newCommitment = x.newCommitment.val)
    (howner : w.newOwnerCommitment = x.newOwnerCommitment.val)
    (hroot : w.membership.merkleRoot = x.merkleRoot.val)
    (hnew : w.insertion.newRoot = x.newRoot.val)
    (hslot : (w.insertion.leafIndex : Int) = x.leafIndex.val) :
    (EngineWitness.transfer w).publicInputs = .ok ⟨asset, .transfer x⟩ := by
  cases x
  cases hop
  cases hversion
  simp only [EngineWitness.publicInputs, transferInputs, hasset, hnullifier, hcommitment, howner,
    hroot, hnew, hslot, f_val]
  rfl

theorem withdraw_publicInputs {w : WithdrawWitness} {x : Withdraw.Public}
    (hasset : assetIn w.assetField = .ok asset) (hop : x.op = 3)
    (hversion : x.circuitVersion = circuitVersion) (hnullifier : w.nullifier = x.nullifier.val)
    (hamount : w.amount = x.amount.val) (hhash : w.recipientHash = x.recipientHash.val)
    (hroot : w.membership.merkleRoot = x.merkleRoot.val) :
    (EngineWitness.withdraw w).publicInputs = .ok ⟨asset, .withdraw x⟩ := by
  cases x
  cases hop
  cases hversion
  simp only [EngineWitness.publicInputs, withdrawInputs, hasset, hnullifier, hamount, hhash, hroot,
    f_val]
  rfl

theorem split_publicInputs {w : SplitWitness} {x : Split.Public}
    (hasset : assetIn w.assetField = .ok asset) (hop : x.op = 4)
    (hversion : x.circuitVersion = circuitVersion) (hnullifier : w.nullifier = x.nullifier.val)
    (hcommitment1 : w.commitment1 = x.commitment1.val)
    (howner1 : w.ownerCommitment1 = x.ownerCommitment1.val)
    (hcommitment2 : w.commitment2 = x.commitment2.val)
    (howner2 : w.ownerCommitment2 = x.ownerCommitment2.val)
    (hroot : w.membership.merkleRoot = x.merkleRoot.val)
    (hnew : w.insertion2.newRoot = x.newRoot.val)
    (hslot : (w.insertion1.leafIndex : Int) = x.leafIndex.val) :
    (EngineWitness.split w).publicInputs = .ok ⟨asset, .split x⟩ := by
  cases x
  cases hop
  cases hversion
  simp only [EngineWitness.publicInputs, splitInputs, hasset, hnullifier, hcommitment1, howner1,
    hcommitment2, howner2, hroot, hnew, hslot, f_val]
  rfl

theorem merge_publicInputs {w : MergeWitness} {x : Merge.Public}
    (hasset : assetIn w.assetField = .ok asset) (hop : x.op = 5)
    (hversion : x.circuitVersion = circuitVersion) (hnullifier1 : w.nullifier1 = x.nullifier1.val)
    (hnullifier2 : w.nullifier2 = x.nullifier2.val) (hcommitment : w.commitment = x.commitment.val)
    (howner : w.ownerCommitment = x.ownerCommitment.val)
    (hroot : w.membership1.merkleRoot = x.merkleRoot.val)
    (hnew : w.insertion.newRoot = x.newRoot.val)
    (hslot : (w.insertion.leafIndex : Int) = x.leafIndex.val) :
    (EngineWitness.merge w).publicInputs = .ok ⟨asset, .merge x⟩ := by
  cases x
  cases hop
  cases hversion
  simp only [EngineWitness.publicInputs, mergeInputs, hasset, hnullifier1, hnullifier2, hcommitment,
    howner, hroot, hnew, hslot, f_val]
  rfl

end Statements

end StxShield.Sdk
