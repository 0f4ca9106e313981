import StxShield.Circuits.Lib

/-!
# The circuits

The five circuits of either family.  They are written once, with the asset as
an option: the SIP-10 circuits take the asset id as one more public input, just
before the circuit version, and bind every commitment to it.  Public inputs are
listed in the order the circuits declare them.
-/

namespace StxShield.Circuit

open Library Exec

/-! ## Shield -/

namespace Shield

structure Public where
  op : Fr
  commitment : Fr
  ownerCommitment : Fr
  amount : Fr
  oldRoot : Fr
  newRoot : Fr
  leafIndex : Fr
  circuitVersion : Fr

structure Witness where
  note : Note
  insertion : MerklePath

def fields (asset : Option Fr) (x : Public) : List Fr :=
  [x.op, x.commitment, x.ownerCommitment, x.amount, x.oldRoot, x.newRoot, x.leafIndex] ++
    asset.toList ++ [x.circuitVersion]

def circuit (B : Builtins) (asset : Option Fr) (x : Public) (w : Witness) : Constraints Unit := do
  assert (x.op = 1)
  assert (x.circuitVersion = 2)
  assertAssetBound asset
  assert (w.note.amount = x.amount)
  assertMaxBitSize64 x.amount
  let commitment ← w.note.commitment B asset
  assert (commitment = x.commitment)
  let ownerCommitment ← w.note.ownerCommitment B
  assert (ownerCommitment = x.ownerCommitment)
  assertIndexBits x.leafIndex w.insertion
  assertInsertion B x.commitment w.insertion x.oldRoot x.newRoot

end Shield

/-! ## Transfer -/

namespace Transfer

structure Public where
  op : Fr
  nullifier : Fr
  newCommitment : Fr
  newOwnerCommitment : Fr
  merkleRoot : Fr
  newRoot : Fr
  leafIndex : Fr
  circuitVersion : Fr

structure Witness where
  input : Note
  ownerSk : Fr
  merkle : MerklePath
  insertion : MerklePath
  output : Note

def fields (asset : Option Fr) (x : Public) : List Fr :=
  [x.op, x.nullifier, x.newCommitment, x.newOwnerCommitment, x.merkleRoot, x.newRoot,
    x.leafIndex] ++ asset.toList ++ [x.circuitVersion]

def circuit (B : Builtins) (asset : Option Fr) (x : Public) (w : Witness) : Constraints Unit := do
  assert (x.op = 2)
  assert (x.circuitVersion = 2)
  assertAssetBound asset
  let c ← w.input.commitment B asset
  assertOwner B w.ownerSk w.input.ownerPkX w.input.ownerPkY
  let nullifier ← computeNullifier B c w.ownerSk
  assert (nullifier = x.nullifier)
  assertMerkleMembership B c w.merkle x.merkleRoot
  assert (w.input.amount = w.output.amount)
  assertMaxBitSize64 w.output.amount
  let newCommitment ← w.output.commitment B asset
  assert (newCommitment = x.newCommitment)
  let newOwnerCommitment ← w.output.ownerCommitment B
  assert (newOwnerCommitment = x.newOwnerCommitment)
  assertIndexBits x.leafIndex w.insertion
  assertInsertion B x.newCommitment w.insertion x.merkleRoot x.newRoot

end Transfer

/-! ## Withdraw -/

namespace Withdraw

structure Public where
  op : Fr
  nullifier : Fr
  amount : Fr
  recipientHash : Fr
  merkleRoot : Fr
  circuitVersion : Fr

structure Witness where
  input : Note
  ownerSk : Fr
  merkle : MerklePath

def fields (asset : Option Fr) (x : Public) : List Fr :=
  [x.op, x.nullifier, x.amount, x.recipientHash, x.merkleRoot] ++ asset.toList ++
    [x.circuitVersion]

def circuit (B : Builtins) (asset : Option Fr) (x : Public) (w : Witness) : Constraints Unit := do
  assert (x.op = 3)
  assert (x.circuitVersion = 2)
  assertAssetBound asset
  let c ← w.input.commitment B asset
  assertOwner B w.ownerSk w.input.ownerPkX w.input.ownerPkY
  let nullifier ← computeNullifier B c w.ownerSk
  assert (nullifier = x.nullifier)
  assertMerkleMembership B c w.merkle x.merkleRoot
  assert (w.input.amount = x.amount)
  assertMaxBitSize64 x.amount
  assert (x.recipientHash ≠ 0)

end Withdraw

/-! ## Split -/

namespace Split

structure Public where
  op : Fr
  nullifier : Fr
  commitment1 : Fr
  ownerCommitment1 : Fr
  commitment2 : Fr
  ownerCommitment2 : Fr
  merkleRoot : Fr
  newRoot : Fr
  leafIndex : Fr
  circuitVersion : Fr

structure Witness where
  input : Note
  ownerSk : Fr
  merkle : MerklePath
  out1 : Note
  out2 : Note
  insertion1 : MerklePath
  insertion2 : MerklePath

def fields (asset : Option Fr) (x : Public) : List Fr :=
  [x.op, x.nullifier, x.commitment1, x.ownerCommitment1, x.commitment2, x.ownerCommitment2,
    x.merkleRoot, x.newRoot, x.leafIndex] ++ asset.toList ++ [x.circuitVersion]

/-- The end of the circuit, where both outputs are appended: the second goes to the next
slot, under the root after the first. -/
def doubleAppend (B : Builtins) (commitment1 commitment2 leafIndex merkleRoot newRoot : Fr)
    (insertion1 insertion2 : MerklePath) : Constraints Unit := do
  assertIndexBits leafIndex insertion1
  assertIndexBits (leafIndex + 1) insertion2
  let midRoot ← computeMerkleRoot B commitment1 insertion1.steps
  assertInsertion B commitment1 insertion1 merkleRoot midRoot
  assertInsertion B commitment2 insertion2 midRoot newRoot

def circuit (B : Builtins) (asset : Option Fr) (x : Public) (w : Witness) : Constraints Unit := do
  assert (x.op = 4)
  assert (x.circuitVersion = 2)
  assertAssetBound asset
  let inputCommitment ← w.input.commitment B asset
  assertOwner B w.ownerSk w.input.ownerPkX w.input.ownerPkY
  let expectedNullifier ← computeNullifier B inputCommitment w.ownerSk
  assert (expectedNullifier = x.nullifier)
  assertMerkleMembership B inputCommitment w.merkle x.merkleRoot
  let totalOut := w.out1.amount + w.out2.amount
  assert (w.input.amount = totalOut)
  assertMaxBitSize64 w.out1.amount
  assertMaxBitSize64 w.out2.amount
  let commitment1 ← w.out1.commitment B asset
  assert (commitment1 = x.commitment1)
  let ownerCommitment1 ← w.out1.ownerCommitment B
  assert (ownerCommitment1 = x.ownerCommitment1)
  let commitment2 ← w.out2.commitment B asset
  assert (commitment2 = x.commitment2)
  let ownerCommitment2 ← w.out2.ownerCommitment B
  assert (ownerCommitment2 = x.ownerCommitment2)
  assert (x.commitment1 ≠ x.commitment2)
  doubleAppend B x.commitment1 x.commitment2 x.leafIndex x.merkleRoot x.newRoot w.insertion1
    w.insertion2

end Split

/-! ## Merge -/

namespace Merge

structure Public where
  op : Fr
  nullifier1 : Fr
  nullifier2 : Fr
  commitment : Fr
  ownerCommitment : Fr
  merkleRoot : Fr
  newRoot : Fr
  leafIndex : Fr
  circuitVersion : Fr

structure Witness where
  input1 : Note
  ownerSk1 : Fr
  merkle1 : MerklePath
  input2 : Note
  ownerSk2 : Fr
  merkle2 : MerklePath
  output : Note
  insertion : MerklePath

def fields (asset : Option Fr) (x : Public) : List Fr :=
  [x.op, x.nullifier1, x.nullifier2, x.commitment, x.ownerCommitment, x.merkleRoot, x.newRoot,
    x.leafIndex] ++ asset.toList ++ [x.circuitVersion]

def circuit (B : Builtins) (asset : Option Fr) (x : Public) (w : Witness) : Constraints Unit := do
  assert (x.op = 5)
  assert (x.circuitVersion = 2)
  assertAssetBound asset
  let c1 ← w.input1.commitment B asset
  assertOwner B w.ownerSk1 w.input1.ownerPkX w.input1.ownerPkY
  let nullifier1 ← computeNullifier B c1 w.ownerSk1
  assert (nullifier1 = x.nullifier1)
  assertMerkleMembership B c1 w.merkle1 x.merkleRoot
  let c2 ← w.input2.commitment B asset
  assertOwner B w.ownerSk2 w.input2.ownerPkX w.input2.ownerPkY
  let nullifier2 ← computeNullifier B c2 w.ownerSk2
  assert (nullifier2 = x.nullifier2)
  assertMerkleMembership B c2 w.merkle2 x.merkleRoot
  assert (c1 ≠ c2)
  assert (x.nullifier1 ≠ x.nullifier2)
  let totalIn := w.input1.amount + w.input2.amount
  assert (totalIn = w.output.amount)
  assertMaxBitSize64 w.output.amount
  let commitment ← w.output.commitment B asset
  assert (commitment = x.commitment)
  let ownerCommitment ← w.output.ownerCommitment B
  assert (ownerCommitment = x.ownerCommitment)
  assertIndexBits x.leafIndex w.insertion
  assertInsertion B x.commitment w.insertion x.merkleRoot x.newRoot

end Merge

/-! ## The ten programs -/

section Programs

variable (B : Builtins)

def Shield.main : Shield.Public → Shield.Witness → Constraints Unit := Shield.circuit B none

def Transfer.main : Transfer.Public → Transfer.Witness → Constraints Unit :=
  Transfer.circuit B none

def Withdraw.main : Withdraw.Public → Withdraw.Witness → Constraints Unit :=
  Withdraw.circuit B none

def Split.main : Split.Public → Split.Witness → Constraints Unit := Split.circuit B none

def Merge.main : Merge.Public → Merge.Witness → Constraints Unit := Merge.circuit B none

def Sip10.Shield.main (assetId : Fr) : Shield.Public → Shield.Witness → Constraints Unit :=
  Shield.circuit B (some assetId)

def Sip10.Transfer.main (assetId : Fr) : Transfer.Public → Transfer.Witness → Constraints Unit :=
  Transfer.circuit B (some assetId)

def Sip10.Withdraw.main (assetId : Fr) : Withdraw.Public → Withdraw.Witness → Constraints Unit :=
  Withdraw.circuit B (some assetId)

def Sip10.Split.main (assetId : Fr) : Split.Public → Split.Witness → Constraints Unit :=
  Split.circuit B (some assetId)

def Sip10.Merge.main (assetId : Fr) : Merge.Public → Merge.Witness → Constraints Unit :=
  Merge.circuit B (some assetId)

end Programs

/-! ## Statements -/

inductive PublicInputs where
  | shield (x : Shield.Public)
  | transfer (x : Transfer.Public)
  | withdraw (x : Withdraw.Public)
  | split (x : Split.Public)
  | merge (x : Merge.Public)

/-- The public inputs of one of the ten circuits; the asset id, if there is
one, says which family. -/
structure Statement where
  asset : Option Fr
  inputs : PublicInputs

namespace Statement

def fields (statement : Statement) : List Fr :=
  match statement.inputs with
  | .shield x => Shield.fields statement.asset x
  | .transfer x => Transfer.fields statement.asset x
  | .withdraw x => Withdraw.fields statement.asset x
  | .split x => Split.fields statement.asset x
  | .merge x => Merge.fields statement.asset x

/-- The fields' canonical encodings, one after the other. -/
def encode (statement : Statement) : Bytes := (statement.fields.map Circuit.encode).flatten

end Statement

/-- Some witness satisfies a circuit, all hash inputs of its execution among
the given queries. -/
def Provable {ω : Type} (Q : Set Query) (program : ω → Constraints Unit) : Prop :=
  ∃ witness transcript, program witness [] = .ok ((), transcript) ∧ ∀ query ∈ transcript, query ∈ Q

/-- A witness is checked by running the circuit on it. -/
def accepts (queries : List Query) (execution : Constraints Unit) : Bool :=
  match execution [] with
  | .ok (_, transcript) => transcript.all (· ∈ queries)
  | .error _ => false

theorem provable_of_accepts {ω : Type} {queries : List Query} {program : ω → Constraints Unit}
    (witness : ω) (h : accepts queries (program witness)) :
    Provable { query | query ∈ queries } program := by
  unfold accepts at h
  split at h
  case h_1 transcript hrun =>
    exact ⟨witness, transcript, hrun, fun query hquery => by
      simpa using List.all_eq_true.mp h query hquery⟩
  case h_2 => cases h

/-- A statement that a proof can be made for. -/
def Statement.Holds (B : Builtins) (Q : Set Query) : Statement → Prop
  | ⟨none, .shield x⟩ => Provable Q (Shield.main B x)
  | ⟨none, .transfer x⟩ => Provable Q (Transfer.main B x)
  | ⟨none, .withdraw x⟩ => Provable Q (Withdraw.main B x)
  | ⟨none, .split x⟩ => Provable Q (Split.main B x)
  | ⟨none, .merge x⟩ => Provable Q (Merge.main B x)
  | ⟨some assetId, .shield x⟩ => Provable Q (Sip10.Shield.main B assetId x)
  | ⟨some assetId, .transfer x⟩ => Provable Q (Sip10.Transfer.main B assetId x)
  | ⟨some assetId, .withdraw x⟩ => Provable Q (Sip10.Withdraw.main B assetId x)
  | ⟨some assetId, .split x⟩ => Provable Q (Sip10.Split.main B assetId x)
  | ⟨some assetId, .merge x⟩ => Provable Q (Sip10.Merge.main B assetId x)

end StxShield.Circuit
