import StxShield.Circuits.Transaction
import StxShield.Protocol.Operation

/-!
# Contract arguments and public inputs

The bytes a contract hashes are a concatenation of fields of at most 32 bytes,
laid out like the public inputs of the operation's circuit.  When they are the
encoding of a statement, the operation says what the statement says.
-/

namespace StxShield

open Library Circuit

/-- The canonical encoding of a field element as a buffer. -/
def fieldBuff (x : Fr) : Buff32 := ⟨encode x, by simp⟩

@[simp]
theorem fieldBuff_bytes (x : Fr) : (fieldBuff x).bytes = encode x := rfl

theorem fieldBuff_injective : Function.Injective fieldBuff := fun _ _ h =>
  encode_injective (congrArg Buff32.bytes h)

/-! ## Fields of an operation -/

/-- The asset's field, for the family that has one. -/
def Currency.field? (P : Primitives) : Currency → Option Bytes
  | .stx => none
  | .sip10 token => some (fePrincipal P token)

/-- `sip10-pool` binds a version of its own. -/
def Currency.boundVersion (circuitVersion : Nat) : Currency → Nat
  | .stx => circuitVersion
  | .sip10 _ => Sip10Pool.sip10CircuitVersion

namespace Operation

/-- The fields before the asset and the version. -/
def arguments (P : Primitives) (op : Operation) : List Bytes :=
  match op.action with
  | .shield args =>
      [args.commitment.bytes, args.ownerCommitment.bytes, feUint args.amount,
        args.currentRoot.bytes, args.newRoot.bytes, feUint args.leafIndex]
  | .transfer args =>
      [args.nullifier.bytes, args.newCommitment.bytes, args.newOwnerCommitment.bytes,
        args.currentRoot.bytes, args.newRoot.bytes, feUint args.leafIndex]
  | .withdraw args =>
      [args.nullifier.bytes, feUint args.amount, fePrincipal P args.recipient, args.root.bytes]
  | .split args =>
      [args.nullifier.bytes, args.commitment1.bytes, args.ownerCommitment1.bytes,
        args.commitment2.bytes, args.ownerCommitment2.bytes, args.currentRoot.bytes,
        args.newRoot.bytes, feUint args.leafIndex]
  | .merge args =>
      [args.nullifier1.bytes, args.nullifier2.bytes, args.commitment.bytes,
        args.ownerCommitment.bytes, args.currentRoot.bytes, args.newRoot.bytes,
        feUint args.leafIndex]

def fields (P : Primitives) (circuitVersion : Nat) (op : Operation) : List Bytes :=
  feUint op.proofType :: (op.arguments P ++ (op.currency.field? P).toList) ++
    [feUint (op.currency.boundVersion circuitVersion)]

/-- Every contract concatenates the fields, in whatever way it nests the
concatenation. -/
theorem inputs_eq_flatten (P : Primitives) (circuitVersion : Nat) (op : Operation) :
    op.inputs P circuitVersion = (op.fields P circuitVersion).flatten := by
  obtain ⟨currency, action⟩ := op
  cases currency with
  | stx =>
      cases action <;>
        simp [inputs, fields, arguments, proofType, Currency.field?, Currency.boundVersion,
          PrivacyPool.shieldInputs, PrivacyPool.transferInputs, PrivacyPool.withdrawInputs,
          SplitMergeManager.splitInputs, SplitMergeManager.mergeInputs]
  | sip10 token =>
      cases action <;>
        simp [inputs, fields, arguments, proofType, Currency.field?, Currency.boundVersion,
          Sip10Pool.shieldInputs, Sip10Pool.transferInputs, Sip10Pool.withdrawInputs,
          Sip10Pool.splitInputs, Sip10Pool.mergeInputs]

/-- Buffers may be short, nothing is long. -/
theorem fields_length_le (P : Primitives) (circuitVersion : Nat) (op : Operation) :
    ∀ field ∈ op.fields P circuitVersion, field.length ≤ 32 := by
  obtain ⟨currency, action⟩ := op
  cases currency <;> cases action <;>
    simp [fields, arguments, Currency.field?, Buff32.length_le]

end Operation

/-! ## Statements that operations present -/

namespace Circuit.Statement

variable (statement : Statement)

/-- The proof type whose circuit a statement belongs to. -/
def proofType : Nat :=
  match statement.inputs with
  | .shield _ => proofTypeShield
  | .transfer _ => proofTypeTransfer
  | .withdraw _ => proofTypeWithdrawal
  | .split _ => proofTypeSplit
  | .merge _ => proofTypeMerge

/-- The verifier a statement's family belongs to. -/
def verifier : Principal :=
  match statement.asset with
  | none => .zkVerifier
  | some _ => .sip10ZkVerifier

end Circuit.Statement

theorem fields_length_eq {P : Primitives} {circuitVersion : Nat} {op : Operation}
    {statement : Statement} (htype : statement.proofType = op.proofType)
    (hverifier : statement.verifier = op.verifier) :
    (op.fields P circuitVersion).length = (statement.fields.map encode).length := by
  obtain ⟨currency, action⟩ := op
  obtain ⟨asset, inputs⟩ := statement
  -- what differs in kind or family is excluded by the constants
  cases currency <;> cases asset <;> cases hverifier <;>
    cases action <;> cases inputs <;> cases htype
  all_goals
    simp [Operation.fields, Operation.arguments, Currency.field?, Statement.fields,
      Shield.fields, Transfer.fields, Withdraw.fields, Split.fields, Merge.fields]

/-- An encoded integer is the value of the field element. -/
theorem val_eq_of_feUint {n : Nat} {x : Fr} (hn : n < 2 ^ 128) (h : feUint n = encode x) :
    x.val = n := by
  rw [feUint_eq hn] at h
  have hwide : fieldModulus ≤ 256 ^ 32 := by decide
  have hfits : (2 : Nat) ^ 128 ≤ 256 ^ 32 := by decide
  have hx := x.isLt
  exact (bigEndian_injective (by omega) (by omega) h).symm

/-- A number that fits in an unsigned integer is encoded the same way. -/
theorem encode_ofNat {n : Nat} (h : n < 2 ^ 128) : encode (Fin.ofNat _ n) = feUint n := by
  have hwide : 2 ^ 128 < fieldModulus := by decide
  have hvalue : (Fin.ofNat fieldModulus n).val = n := Nat.mod_eq_of_lt (Nat.lt_trans h hwide)
  rw [feUint_eq h, encode, hvalue]

theorem eq_fieldBuff {buff : Buff32} {x : Fr} (h : buff.bytes = encode x) : buff = fieldBuff x :=
  Buff32.ext h

/-- An operation's arguments are a statement's public inputs. -/
structure Operation.Agrees (P : Primitives) (op : Operation) (statement : Statement) : Prop where
  asset : statement.asset.map encode = op.currency.field? P
  nullifiers : op.nullifiers = statement.nullifiers.map fieldBuff
  commitments : op.commitments = statement.commitments.map fieldBuff
  root : op.declaredRoot = fieldBuff statement.root
  extension : op.extension = statement.extension.map fun ext => (fieldBuff ext.2, ext.1)
  deposit : op.deposit = statement.deposit
  payout : op.payout = statement.payout

/-- The fields of one family lie at the same places on both sides. -/
theorem Operation.asset_of_fields {P : Primitives} {circuitVersion : Nat} {op : Operation}
    {asset : Option Fr} (front : List Fr) {first last : Fr}
    (hverifier : (op.currency.field? P).isSome = asset.isSome)
    (hfields : op.fields P circuitVersion =
      (first :: (front ++ asset.toList) ++ [last]).map encode) :
    asset.map encode = op.currency.field? P ∧ op.arguments P = front.map encode := by
  simp only [fields, List.map_append, List.map_cons, List.map_nil, List.cons_append,
    List.cons.injEq] at hfields
  have hmiddle := List.append_inj_left' hfields.2 rfl
  cases hasset : asset with
  | none =>
      rw [hasset, Option.isSome_none, Option.isSome_eq_false_iff, Option.isNone_iff_eq_none]
        at hverifier
      rw [hverifier]
      simp only [hverifier, hasset, Option.toList_none, List.append_nil, List.map_nil] at hmiddle
      exact ⟨rfl, hmiddle⟩
  | some assetId =>
      rw [hasset, Option.isSome_some, Option.isSome_iff_exists] at hverifier
      obtain ⟨field, hfield⟩ := hverifier
      simp only [hfield, hasset, Option.toList_some, List.map_cons, List.map_nil] at hmiddle
      obtain ⟨hfront, hlast⟩ := List.append_inj' hmiddle rfl
      cases hlast
      exact ⟨hfield.symm, hfront⟩

/-- Field by field, for an operation and a statement of one kind and family. -/
theorem Operation.agrees_of_fields {P : Primitives} {circuitVersion : Nat} {op : Operation}
    {statement : Statement} (htype : statement.proofType = op.proofType)
    (hverifier : statement.verifier = op.verifier)
    (hfields : op.fields P circuitVersion = statement.fields.map encode) :
    op.Agrees P statement := by
  have hfamily : (op.currency.field? P).isSome = statement.asset.isSome := by
    obtain ⟨currency, action⟩ := op
    obtain ⟨asset, inputs⟩ := statement
    cases currency <;> cases asset <;> first | rfl | cases hverifier
  obtain ⟨currency, action⟩ := op
  obtain ⟨asset, inputs⟩ := statement
  cases inputs with
  | shield x =>
      cases action with
      | shield args =>
          obtain ⟨hasset, harguments⟩ := asset_of_fields [x.commitment,
            x.ownerCommitment, x.amount, x.oldRoot, x.newRoot, x.leafIndex] hfamily hfields
          simp only [arguments, List.map_cons, List.map_nil, List.cons.injEq, and_true]
            at harguments
          obtain ⟨hcommitment, -, hamount, hold, hnew, hindex⟩ := harguments
          have hamountVal := val_eq_of_feUint args.amount.isLt hamount
          have hindexVal := val_eq_of_feUint args.leafIndex.isLt hindex
          exact
            { asset := hasset
              nullifiers := rfl
              commitments := congrArg (· :: []) (eq_fieldBuff hcommitment)
              root := eq_fieldBuff hold
              extension := by
                simp [extension, Statement.extension, hindexVal, eq_fieldBuff hnew]
              deposit := hamountVal.symm
              payout := rfl }
      | _ => cases htype
  | transfer x =>
      cases action with
      | transfer args =>
          obtain ⟨hasset, harguments⟩ := asset_of_fields [x.nullifier,
            x.newCommitment, x.newOwnerCommitment, x.merkleRoot, x.newRoot, x.leafIndex]
            hfamily hfields
          simp only [arguments, List.map_cons, List.map_nil, List.cons.injEq, and_true]
            at harguments
          obtain ⟨hnullifier, hcommitment, -, hroot, hnew, hindex⟩ := harguments
          have hindexVal := val_eq_of_feUint args.leafIndex.isLt hindex
          exact
            { asset := hasset
              nullifiers := congrArg (· :: []) (eq_fieldBuff hnullifier)
              commitments := congrArg (· :: []) (eq_fieldBuff hcommitment)
              root := eq_fieldBuff hroot
              extension := by
                simp [extension, Statement.extension, hindexVal, eq_fieldBuff hnew]
              deposit := rfl
              payout := rfl }
      | _ => cases htype
  | withdraw x =>
      cases action with
      | withdraw args =>
          obtain ⟨hasset, harguments⟩ := asset_of_fields [x.nullifier, x.amount,
            x.recipientHash, x.merkleRoot] hfamily hfields
          simp only [arguments, List.map_cons, List.map_nil, List.cons.injEq, and_true]
            at harguments
          obtain ⟨hnullifier, hamount, -, hroot⟩ := harguments
          have hamountVal := val_eq_of_feUint args.amount.isLt hamount
          exact
            { asset := hasset
              nullifiers := congrArg (· :: []) (eq_fieldBuff hnullifier)
              commitments := rfl
              root := eq_fieldBuff hroot
              extension := rfl
              deposit := rfl
              payout := hamountVal.symm }
      | _ => cases htype
  | split x =>
      cases action with
      | split args =>
          obtain ⟨hasset, harguments⟩ := asset_of_fields [x.nullifier, x.commitment1,
            x.ownerCommitment1, x.commitment2, x.ownerCommitment2, x.merkleRoot, x.newRoot,
            x.leafIndex] hfamily hfields
          simp only [arguments, List.map_cons, List.map_nil, List.cons.injEq, and_true]
            at harguments
          obtain ⟨hnullifier, hcommitment1, -, hcommitment2, -, hroot, hnew, hindex⟩ := harguments
          have hindexVal := val_eq_of_feUint args.leafIndex.isLt hindex
          exact
            { asset := hasset
              nullifiers := congrArg (· :: []) (eq_fieldBuff hnullifier)
              commitments := congrArg₂ (fun first second => [first, second])
                (eq_fieldBuff hcommitment1) (eq_fieldBuff hcommitment2)
              root := eq_fieldBuff hroot
              extension := by
                simp [extension, Statement.extension, hindexVal, eq_fieldBuff hnew]
              deposit := rfl
              payout := rfl }
      | _ => cases htype
  | merge x =>
      cases action with
      | merge args =>
          obtain ⟨hasset, harguments⟩ := asset_of_fields [x.nullifier1, x.nullifier2,
            x.commitment, x.ownerCommitment, x.merkleRoot, x.newRoot, x.leafIndex] hfamily hfields
          simp only [arguments, List.map_cons, List.map_nil, List.cons.injEq, and_true]
            at harguments
          obtain ⟨hnullifier1, hnullifier2, hcommitment, -, hroot, hnew, hindex⟩ := harguments
          have hindexVal := val_eq_of_feUint args.leafIndex.isLt hindex
          exact
            { asset := hasset
              nullifiers := congrArg₂ (fun first second => [first, second])
                (eq_fieldBuff hnullifier1) (eq_fieldBuff hnullifier2)
              commitments := congrArg (· :: []) (eq_fieldBuff hcommitment)
              root := eq_fieldBuff hroot
              extension := by
                simp [extension, Statement.extension, hindexVal, eq_fieldBuff hnew]
              deposit := rfl
              payout := rfl }
      | _ => cases htype

/-- An operation's arguments are those of a transaction. -/
structure Operation.Realizes (P : Primitives) {B : Builtins} {Q : Set Query} (op : Operation)
    (tx : Transaction B Q) : Prop where
  asset : tx.asset.map encode = op.currency.field? P
  nullifiers : op.nullifiers = tx.inputs.map fun input => fieldBuff input.2
  commitments : op.commitments = tx.outputs.map fun coin => fieldBuff (coin.commitment B)
  root : op.declaredRoot = fieldBuff tx.root
  extension : op.extension = tx.extension.map fun ext => (fieldBuff ext.2, ext.1)
  deposit : op.deposit = tx.deposit
  payout : op.payout = tx.payout

theorem Operation.Agrees.realizes {P : Primitives} {B : Builtins} {Q : Set Query} {op : Operation}
    {statement : Statement} {tx : Transaction B Q} (h : op.Agrees P statement)
    (htx : statement.Describes tx) : op.Realizes P tx where
  asset := by rw [htx.asset, h.asset]
  nullifiers := by
    rw [h.nullifiers, ← htx.nullifiers, List.map_map]
    rfl
  commitments := by
    rw [h.commitments, ← htx.commitments, List.map_map]
    rfl
  root := by rw [h.root, htx.root]
  extension := by rw [h.extension, htx.extension]
  deposit := by rw [h.deposit, htx.deposit]
  payout := by rw [h.payout, htx.payout]

end StxShield
