import StxShield.Protocol.Presentation
import StxShield.Sdk.PublicInputs

/-!
# Encoder parity

The SDK's field lists, the contracts' preimages and the circuits' public inputs
are the same bytes in the same order.
-/

namespace StxShield

open Library Circuit

namespace Sdk

/-! ## Byte arrays -/

theorem setAt_append {front part rest : Bytes} {index : Nat} (hindex : front.length = index) :
    setAt (front ++ rest) index part = front ++ part ++ rest.drop part.length := by
  subst hindex
  simp [setAt, List.drop_append]

/-- The array is filled from the left, and what is not filled yet is zero. -/
theorem foldl_setAt (parts : List Bytes) (front : Bytes) (free : Nat) :
    (parts.foldl (fun state p => (setAt state.1 state.2 p, state.2 + p.length))
      (front ++ List.replicate (parts.flatten.length + free) 0, front.length)).1 =
      front ++ parts.flatten ++ List.replicate free 0 := by
  induction parts generalizing front with
  | nil => simp
  | cons part rest ih =>
      have hdrop : (List.replicate ((part :: rest).flatten.length + free) (0 : UInt8)).drop
          part.length = List.replicate (rest.flatten.length + free) 0 := by
        rw [List.drop_replicate]
        congr 1
        simp only [List.flatten_cons, List.length_append]
        omega
      rw [List.foldl_cons, setAt_append rfl, hdrop]
      have hnext := ih (front ++ part)
      rw [List.length_append] at hnext
      rw [hnext]
      simp

theorem concatAll_eq_flatten (parts : List Bytes) : concatAll parts = parts.flatten := by
  have htotal (start : Nat) :
      parts.foldl (fun s p => s + p.length) start = start + parts.flatten.length := by
    induction parts generalizing start with
    | nil => rfl
    | cons part rest ih => simp [ih, Nat.add_assoc]
  have hfill := foldl_setAt parts [] 0
  unfold concatAll
  simpa [htotal] using hfill

/-! ## Field builders -/

/-- The loop writes the big-endian encoding and keeps what did not fit. -/
theorem feUintLoop_eq (i x : Nat) (rest : Bytes) :
    feUintLoop i x (List.replicate i 0 ++ rest) = (bigEndian i x ++ rest, x / 256 ^ i) := by
  induction i generalizing x rest with
  | zero => simp [feUintLoop, bigEndian]
  | succ i ih =>
      unfold feUintLoop
      split
      case isTrue hpos =>
        have hbyte : x &&& 0xff = x % 256 := Nat.and_two_pow_sub_one_eq_mod x 8
        have hshift : x >>> 8 = x / 256 := Nat.shiftRight_eq_div_pow x 8
        have hset : (List.replicate (i + 1) 0 ++ rest).set i (UInt8.ofNat (x % 256)) =
            List.replicate i 0 ++ (UInt8.ofNat (x % 256) :: rest) := by
          rw [List.replicate_succ', List.append_assoc]
          simp
        rw [hbyte, hshift, hset, ih, bigEndian_succ_last, Nat.div_div_eq_div_mul, Nat.pow_succ,
          Nat.mul_comm]
        simp
      case isFalse hzero =>
        obtain rfl : x = 0 := by omega
        simp

/-- Below 2^128 the padded slice of the contracts and the loop agree. -/
theorem feUint_eq {n : Nat} (h : n < 2 ^ 128) : feUint n = .ok (StxShield.feUint n) := by
  have hloop := feUintLoop_eq 32 n []
  have hfits : n / 256 ^ 32 = 0 := Nat.div_eq_of_lt (Nat.lt_trans h (by decide))
  rw [List.append_nil, List.append_nil, hfits] at hloop
  have hsign : ¬ (n : Int) < 0 := by omega
  simp only [feUint, if_neg hsign, Int.toNat_natCast, hloop, StxShield.feUint_eq h]
  rfl

theorem fePrincipal_eq (P : Primitives) (who : Principal) :
    fePrincipal P who = StxShield.fePrincipal P who := by
  have hlength := P.sha256_length (P.consensusBuff who)
  simp only [fePrincipal, StxShield.fePrincipal, slice]
  generalize (P.sha256 (P.consensusBuff who)).bytes = digest at hlength ⊢
  cases digest with
  | nil => cases hlength
  | cons head tail =>
      have htail : tail.length = 31 := Nat.succ.inj hlength
      simp [← htail]

theorem fe32_eq {b : Bytes} (h : b.length = 32) : fe32 b = .ok b := by
  simp [fe32, h]

/-! ## The SDK called with a contract's arguments -/

section Objects

variable (circuitVersion : Nat)

def shieldObject (args : ShieldArgs) : ShieldObject where
  commitment := args.commitment.bytes
  ownerCommitment := args.ownerCommitment.bytes
  amount := args.amount.val
  oldRoot := args.currentRoot.bytes
  newRoot := args.newRoot.bytes
  leafIndex := args.leafIndex.val
  circuitVersion := circuitVersion

def transferObject (args : TransferArgs) : TransferObject where
  nullifier := args.nullifier.bytes
  newCommitment := args.newCommitment.bytes
  newOwnerCommitment := args.newOwnerCommitment.bytes
  merkleRoot := args.currentRoot.bytes
  newRoot := args.newRoot.bytes
  leafIndex := args.leafIndex.val
  circuitVersion := circuitVersion

def withdrawObject (args : WithdrawArgs) : WithdrawObject where
  nullifier := args.nullifier.bytes
  amount := args.amount.val
  recipient := args.recipient
  merkleRoot := args.root.bytes
  circuitVersion := circuitVersion

def splitObject (args : SplitArgs) : SplitObject where
  nullifier := args.nullifier.bytes
  commitment1 := args.commitment1.bytes
  ownerCommitment1 := args.ownerCommitment1.bytes
  commitment2 := args.commitment2.bytes
  ownerCommitment2 := args.ownerCommitment2.bytes
  merkleRoot := args.currentRoot.bytes
  newRoot := args.newRoot.bytes
  leafIndex := args.leafIndex.val
  circuitVersion := circuitVersion

def mergeObject (args : MergeArgs) : MergeObject where
  nullifier1 := args.nullifier1.bytes
  nullifier2 := args.nullifier2.bytes
  commitment := args.commitment.bytes
  ownerCommitment := args.ownerCommitment.bytes
  merkleRoot := args.currentRoot.bytes
  newRoot := args.newRoot.bytes
  leafIndex := args.leafIndex.val
  circuitVersion := circuitVersion

variable (P : Primitives)

def fields : Operation → Throws (List Bytes)
  | ⟨.stx, .shield args⟩ => shieldFields (shieldObject circuitVersion args)
  | ⟨.stx, .transfer args⟩ => transferFields (transferObject circuitVersion args)
  | ⟨.stx, .withdraw args⟩ => withdrawFields P (withdrawObject circuitVersion args)
  | ⟨.stx, .split args⟩ => splitFields (splitObject circuitVersion args)
  | ⟨.stx, .merge args⟩ => mergeFields (mergeObject circuitVersion args)
  | ⟨.sip10 token, .shield args⟩ => shieldFieldsSip10 P (shieldObject circuitVersion args) token
  | ⟨.sip10 token, .transfer args⟩ =>
      transferFieldsSip10 P (transferObject circuitVersion args) token
  | ⟨.sip10 token, .withdraw args⟩ =>
      withdrawFieldsSip10 P (withdrawObject circuitVersion args) token
  | ⟨.sip10 token, .split args⟩ => splitFieldsSip10 P (splitObject circuitVersion args) token
  | ⟨.sip10 token, .merge args⟩ => mergeFieldsSip10 P (mergeObject circuitVersion args) token

def publicInputs : Operation → Throws Buff32
  | ⟨.stx, .shield args⟩ => shieldPublicInputs P (shieldObject circuitVersion args)
  | ⟨.stx, .transfer args⟩ => transferPublicInputs P (transferObject circuitVersion args)
  | ⟨.stx, .withdraw args⟩ => withdrawPublicInputs P (withdrawObject circuitVersion args)
  | ⟨.stx, .split args⟩ => splitPublicInputs P (splitObject circuitVersion args)
  | ⟨.stx, .merge args⟩ => mergePublicInputs P (mergeObject circuitVersion args)
  | ⟨.sip10 token, .shield args⟩ =>
      shieldPublicInputsSip10 P (shieldObject circuitVersion args) token
  | ⟨.sip10 token, .transfer args⟩ =>
      transferPublicInputsSip10 P (transferObject circuitVersion args) token
  | ⟨.sip10 token, .withdraw args⟩ =>
      withdrawPublicInputsSip10 P (withdrawObject circuitVersion args) token
  | ⟨.sip10 token, .split args⟩ => splitPublicInputsSip10 P (splitObject circuitVersion args) token
  | ⟨.sip10 token, .merge args⟩ => mergePublicInputsSip10 P (mergeObject circuitVersion args) token

/-- The raw vector, which the SDK has for the STX circuits. -/
def rawVector : Action → Throws (List Bytes)
  | .shield args => publicInputVector.shield (shieldObject circuitVersion args)
  | .transfer args => publicInputVector.transfer (transferObject circuitVersion args)
  | .withdraw args => publicInputVector.withdraw P (withdrawObject circuitVersion args)
  | .split args => publicInputVector.split (splitObject circuitVersion args)
  | .merge args => publicInputVector.merge (mergeObject circuitVersion args)

theorem publicInputs_eq (op : Operation) :
    publicInputs circuitVersion P op = hash P <$> fields circuitVersion P op := by
  obtain ⟨currency, action⟩ := op
  cases currency <;> cases action <;> rfl

end Objects

end Sdk

/-! ## What the circuits declare -/

namespace Operation

/-- The buffers a statement is about. -/
def buffers (op : Operation) : List Buff32 :=
  match op.action with
  | .shield args => [args.commitment, args.ownerCommitment, args.currentRoot, args.newRoot]
  | .transfer args =>
      [args.nullifier, args.newCommitment, args.newOwnerCommitment, args.currentRoot,
        args.newRoot]
  | .withdraw args => [args.nullifier, args.root]
  | .split args =>
      [args.nullifier, args.commitment1, args.ownerCommitment1, args.commitment2,
        args.ownerCommitment2, args.currentRoot, args.newRoot]
  | .merge args =>
      [args.nullifier1, args.nullifier2, args.commitment, args.ownerCommitment,
        args.currentRoot, args.newRoot]

/-- A circuit's public inputs, by the names they are declared under, are the
arguments of an operation. -/
def Carries (P : Primitives) (circuitVersion : Nat) (op : Operation) (statement : Statement) :
    Prop :=
  statement.asset.map encode = op.currency.field? P ∧
    match op.action, statement.inputs with
    | .shield args, .shield x =>
        encode x.op = feUint proofTypeShield ∧
          encode x.commitment = args.commitment.bytes ∧
          encode x.ownerCommitment = args.ownerCommitment.bytes ∧
          encode x.amount = feUint args.amount ∧
          encode x.oldRoot = args.currentRoot.bytes ∧
          encode x.newRoot = args.newRoot.bytes ∧
          encode x.leafIndex = feUint args.leafIndex ∧
          encode x.circuitVersion = feUint (op.currency.boundVersion circuitVersion)
    | .transfer args, .transfer x =>
        encode x.op = feUint proofTypeTransfer ∧
          encode x.nullifier = args.nullifier.bytes ∧
          encode x.newCommitment = args.newCommitment.bytes ∧
          encode x.newOwnerCommitment = args.newOwnerCommitment.bytes ∧
          encode x.merkleRoot = args.currentRoot.bytes ∧
          encode x.newRoot = args.newRoot.bytes ∧
          encode x.leafIndex = feUint args.leafIndex ∧
          encode x.circuitVersion = feUint (op.currency.boundVersion circuitVersion)
    | .withdraw args, .withdraw x =>
        encode x.op = feUint proofTypeWithdrawal ∧
          encode x.nullifier = args.nullifier.bytes ∧
          encode x.amount = feUint args.amount ∧
          encode x.recipientHash = fePrincipal P args.recipient ∧
          encode x.merkleRoot = args.root.bytes ∧
          encode x.circuitVersion = feUint (op.currency.boundVersion circuitVersion)
    | .split args, .split x =>
        encode x.op = feUint proofTypeSplit ∧
          encode x.nullifier = args.nullifier.bytes ∧
          encode x.commitment1 = args.commitment1.bytes ∧
          encode x.ownerCommitment1 = args.ownerCommitment1.bytes ∧
          encode x.commitment2 = args.commitment2.bytes ∧
          encode x.ownerCommitment2 = args.ownerCommitment2.bytes ∧
          encode x.merkleRoot = args.currentRoot.bytes ∧
          encode x.newRoot = args.newRoot.bytes ∧
          encode x.leafIndex = feUint args.leafIndex ∧
          encode x.circuitVersion = feUint (op.currency.boundVersion circuitVersion)
    | .merge args, .merge x =>
        encode x.op = feUint proofTypeMerge ∧
          encode x.nullifier1 = args.nullifier1.bytes ∧
          encode x.nullifier2 = args.nullifier2.bytes ∧
          encode x.commitment = args.commitment.bytes ∧
          encode x.ownerCommitment = args.ownerCommitment.bytes ∧
          encode x.merkleRoot = args.currentRoot.bytes ∧
          encode x.newRoot = args.newRoot.bytes ∧
          encode x.leafIndex = feUint args.leafIndex ∧
          encode x.circuitVersion = feUint (op.currency.boundVersion circuitVersion)
    | _, _ => False

/-- Tag, arguments, asset and version are compared one after the other. -/
theorem fields_eq_iff_parts {P : Primitives} {circuitVersion : Nat} {op : Operation}
    {statement : Statement} (htype : statement.proofType = op.proofType) :
    statement.fields.map encode = op.fields P circuitVersion ↔
      encode statement.tag = feUint op.proofType ∧
        statement.arguments.map encode = op.arguments P ∧
        statement.asset.map encode = op.currency.field? P ∧
        encode statement.circuitVersion = feUint (op.currency.boundVersion circuitVersion) := by
  have hcount : (statement.arguments.map encode).length = (op.arguments P).length := by
    rw [List.length_map, arguments_length_eq htype]
  have hassets : (statement.asset.map encode).toList = (op.currency.field? P).toList ↔
      statement.asset.map encode = op.currency.field? P := by
    cases statement.asset <;> cases op.currency.field? P <;> simp
  rw [statement.fields_eq, fields, ← hassets]
  simp only [List.map_cons, List.map_append, List.map_nil, List.cons_append, List.cons.injEq,
    ← Option.toList_map]
  constructor
  · rintro ⟨htag, hrest⟩
    obtain ⟨hmiddle, hversion⟩ := List.append_inj' hrest rfl
    obtain ⟨harguments, hasset⟩ := List.append_inj hmiddle hcount
    exact ⟨htag, harguments, hasset, List.singleton_inj.mp hversion⟩
  · rintro ⟨htag, harguments, hasset, hversion⟩
    exact ⟨htag, by rw [harguments, hasset, hversion]⟩

/-- The declaration order is the order of the fields. -/
theorem fields_eq_iff {P : Primitives} {circuitVersion : Nat} {op : Operation}
    {statement : Statement} (htype : statement.proofType = op.proofType) :
    statement.fields.map encode = op.fields P circuitVersion ↔
      op.Carries P circuitVersion statement := by
  rw [fields_eq_iff_parts htype]
  obtain ⟨currency, action⟩ := op
  obtain ⟨asset, inputs⟩ := statement
  cases action <;> cases inputs <;> try cases htype
  all_goals
    simp only [Statement.tag, Statement.arguments, Statement.circuitVersion, arguments, proofType,
      Carries, List.map_cons, List.map_nil, List.cons.injEq, and_true]
    tauto

end Operation

/-! ## Parity -/

namespace Sdk

section

variable {P : Primitives} {op : Operation} {circuitVersion : Nat}

/-- Full buffers and integers below 2^128 never make a builder throw. -/
theorem fields_eq (hfull : ∀ buff ∈ op.buffers, buff.bytes.length = 32)
    (hversion : circuitVersion < 2 ^ 128) :
    fields (op.currency.boundVersion circuitVersion) P op = .ok (op.fields P circuitVersion) := by
  have hbound : op.currency.boundVersion circuitVersion < 2 ^ 128 := by
    cases op.currency with
    | stx => exact hversion
    | sip10 token => exact (by decide : Sip10Pool.sip10CircuitVersion < 2 ^ 128)
  have huint (n : Uint) := feUint_eq n.isLt
  have hbuff (buff : Buff32) (hmem : buff ∈ op.buffers) := fe32_eq (hfull buff hmem)
  have hshield : feUint OP.shield = .ok (StxShield.feUint proofTypeShield) :=
    feUint_eq (n := 1) (by decide)
  have htransfer : feUint OP.transfer = .ok (StxShield.feUint proofTypeTransfer) :=
    feUint_eq (n := 2) (by decide)
  have hwithdraw : feUint OP.withdraw = .ok (StxShield.feUint proofTypeWithdrawal) :=
    feUint_eq (n := 3) (by decide)
  have hsplit : feUint OP.split = .ok (StxShield.feUint proofTypeSplit) :=
    feUint_eq (n := 4) (by decide)
  have hmerge : feUint OP.merge = .ok (StxShield.feUint proofTypeMerge) :=
    feUint_eq (n := 5) (by decide)
  obtain ⟨currency, action⟩ := op
  simp only [Operation.fields, Operation.proofType]
  generalize currency.boundVersion circuitVersion = version at hbound
  have hversionField := feUint_eq hbound
  cases action with
  | shield args =>
      simp only [Operation.buffers, List.forall_mem_cons] at hbuff
      obtain ⟨hcommitment, howner, hcurrent, hnew, -⟩ := hbuff
      cases currency <;>
        simp [fields, shieldFields, shieldFieldsSip10, shieldObject, Operation.arguments,
          Currency.field?, assetIdOf, fePrincipal_eq, Bind.bind, Except.bind, Pure.pure,
          Except.pure, hshield, hcommitment, howner, hcurrent, hnew, huint, hversionField]
  | transfer args =>
      simp only [Operation.buffers, List.forall_mem_cons] at hbuff
      obtain ⟨hnullifier, hcommitment, howner, hcurrent, hnew, -⟩ := hbuff
      cases currency <;>
        simp [fields, transferFields, transferFieldsSip10, transferObject, Operation.arguments,
          Currency.field?, assetIdOf, fePrincipal_eq, Bind.bind, Except.bind, Pure.pure,
          Except.pure, htransfer, hnullifier, hcommitment, howner, hcurrent, hnew, huint, hversionField]
  | withdraw args =>
      simp only [Operation.buffers, List.forall_mem_cons] at hbuff
      obtain ⟨hnullifier, hroot, -⟩ := hbuff
      cases currency <;>
        simp [fields, withdrawFields, withdrawFieldsSip10, withdrawObject, Operation.arguments,
          Currency.field?, assetIdOf, fePrincipal_eq, Bind.bind, Except.bind, Pure.pure,
          Except.pure, hwithdraw, hnullifier, hroot, huint, hversionField]
  | split args =>
      simp only [Operation.buffers, List.forall_mem_cons] at hbuff
      obtain ⟨hnullifier, hcommitment1, howner1, hcommitment2, howner2, hcurrent, hnew, -⟩ := hbuff
      cases currency <;>
        simp [fields, splitFields, splitFieldsSip10, splitObject, Operation.arguments,
          Currency.field?, assetIdOf, fePrincipal_eq, Bind.bind, Except.bind, Pure.pure,
          Except.pure, hsplit, hnullifier, hcommitment1, howner1, hcommitment2, howner2, hcurrent, hnew, huint, hversionField]
  | merge args =>
      simp only [Operation.buffers, List.forall_mem_cons] at hbuff
      obtain ⟨hnullifier1, hnullifier2, hcommitment, howner, hcurrent, hnew, -⟩ := hbuff
      cases currency <;>
        simp [fields, mergeFields, mergeFieldsSip10, mergeObject, Operation.arguments,
          Currency.field?, assetIdOf, fePrincipal_eq, Bind.bind, Except.bind, Pure.pure,
          Except.pure, hmerge, hnullifier1, hnullifier2, hcommitment, howner, hcurrent, hnew, huint, hversionField]

/-- The raw vector is the same list, and its widths are checked when it is hashed. -/
theorem rawVector_eq {action : Action} (hversion : circuitVersion < 2 ^ 128) :
    rawVector circuitVersion P action = .ok ((⟨.stx, action⟩ : Operation).fields P circuitVersion) := by
  have huint (n : Uint) := feUint_eq n.isLt
  have hversionField := feUint_eq hversion
  cases action with
  | shield args =>
      have htag : feUint OP.shield = .ok (StxShield.feUint 1) := feUint_eq (n := 1) (by decide)
      simp only [rawVector, publicInputVector.shield, shieldObject, htag, huint, hversionField]
      rfl
  | transfer args =>
      have htag : feUint OP.transfer = .ok (StxShield.feUint 2) := feUint_eq (n := 2) (by decide)
      simp only [rawVector, publicInputVector.transfer, transferObject, htag, huint,
        hversionField]
      rfl
  | withdraw args =>
      have htag : feUint OP.withdraw = .ok (StxShield.feUint 3) := feUint_eq (n := 3) (by decide)
      simp only [rawVector, publicInputVector.withdraw, withdrawObject, fePrincipal_eq, htag,
        huint, hversionField]
      rfl
  | split args =>
      have htag : feUint OP.split = .ok (StxShield.feUint 4) := feUint_eq (n := 4) (by decide)
      simp only [rawVector, publicInputVector.split, splitObject, htag, huint, hversionField]
      rfl
  | merge args =>
      have htag : feUint OP.merge = .ok (StxShield.feUint 5) := feUint_eq (n := 5) (by decide)
      simp only [rawVector, publicInputVector.merge, mergeObject, htag, huint, hversionField]
      rfl

theorem mapM_fe32 {parts : List Bytes} (h : ∀ part ∈ parts, part.length = 32) :
    parts.mapM fe32 = .ok parts := by
  induction parts with
  | nil => rfl
  | cons part rest ih =>
      have hpart := fe32_eq (h part List.mem_cons_self)
      have hrest := ih fun other hother => h other (List.mem_cons_of_mem part hother)
      rw [List.mapM_cons, hpart, hrest]
      rfl

theorem fields_full (hfull : ∀ buff ∈ op.buffers, buff.bytes.length = 32) :
    ∀ field ∈ op.fields P circuitVersion, field.length = 32 := by
  obtain ⟨currency, action⟩ := op
  cases action <;> simp only [Operation.buffers, List.forall_mem_cons] at hfull <;>
    cases currency <;>
      simp [Operation.fields, Operation.arguments, Currency.field?, hfull]

theorem hashPublicInputVector_eq (hfull : ∀ buff ∈ op.buffers, buff.bytes.length = 32) :
    hashPublicInputVector P (op.fields P circuitVersion) =
      .ok (P.keccak256 (op.inputs P circuitVersion)) := by
  unfold hashPublicInputVector
  rw [mapM_fe32 (fields_full hfull), Operation.inputs_eq_flatten, ← concatAll_eq_flatten]
  rfl

end

end Sdk

end StxShield
