import StxShield.Protocol.Layout

/-!
# Operations and the vectors they present

What a proof binds of an operation, the public-input vectors a circuit accepts,
and how far the first fixes the second: the tag comes first, the asset and the
version come last, and only buffers in between can be short.
-/

namespace StxShield

open Library Exec Circuit

/-! ## Bound arguments -/

/-- The arguments the statement is about; metadata is not among them. -/
def Action.bound : Action → Action
  | .shield args => .shield { args with metadata := zeroHash }
  | .transfer args => .transfer { args with newMetadata := zeroHash }
  | .withdraw args => .withdraw args
  | .split args => .split { args with metadata1 := zeroHash, metadata2 := zeroHash }
  | .merge args => .merge { args with metadata := zeroHash }

def Operation.bound (op : Operation) : Operation := ⟨op.currency, op.action.bound⟩

namespace Operation

/-- The principals that are hashed into an operation's fields. -/
def principals (op : Operation) : List Principal :=
  (match op.currency with
    | .stx => []
    | .sip10 token => [token]) ++
  match op.action with
  | .withdraw args => [args.recipient]
  | _ => []

section Injectivity

variable {P : Primitives} {known : Set Principal} (hinjective : Set.InjOn (fePrincipal P) known)
include hinjective

/-- The fields before the asset determine the bound arguments of an action, if
principals can be told apart by their hashes. -/
theorem action_bound_eq_of_arguments_eq {first second : Operation}
    (htype : first.proofType = second.proofType)
    (hfirst : ∀ who ∈ first.principals, who ∈ known)
    (hsecond : ∀ who ∈ second.principals, who ∈ known)
    (harguments : first.arguments P = second.arguments P) :
    first.action.bound = second.action.bound := by
  have huint (m n : Uint) (h : feUint m = feUint n) : m = n :=
    Fin.ext (feUint_injective m.isLt n.isLt h)
  have hbuff (left right : Buff32) (h : left.bytes = right.bytes) : left = right := Buff32.ext h
  obtain ⟨currency, action⟩ := first
  obtain ⟨currency', action'⟩ := second
  cases action with
  | shield args =>
      cases action' with
      | shield args' =>
          simp only [arguments, List.cons.injEq, and_true] at harguments
          obtain ⟨hcommitment, howner, hamount, hcurrent, hnew, hindex⟩ := harguments
          simp [Action.bound, hbuff _ _ hcommitment, hbuff _ _ howner, huint _ _ hamount,
            hbuff _ _ hcurrent, hbuff _ _ hnew, huint _ _ hindex]
      | _ => cases htype
  | transfer args =>
      cases action' with
      | transfer args' =>
          simp only [arguments, List.cons.injEq, and_true] at harguments
          obtain ⟨hnullifier, hcommitment, howner, hcurrent, hnew, hindex⟩ := harguments
          simp [Action.bound, hbuff _ _ hnullifier, hbuff _ _ hcommitment, hbuff _ _ howner,
            hbuff _ _ hcurrent, hbuff _ _ hnew, huint _ _ hindex]
      | _ => cases htype
  | withdraw args =>
      cases action' with
      | withdraw args' =>
          have hrecipient (h : fePrincipal P args.recipient = fePrincipal P args'.recipient) :
              args.recipient = args'.recipient :=
            hinjective (hfirst _ (by simp [principals])) (hsecond _ (by simp [principals])) h
          simp only [arguments, List.cons.injEq, and_true] at harguments
          obtain ⟨hnullifier, hamount, hhashed, hroot⟩ := harguments
          obtain ⟨nullifier, amount, recipient, root⟩ := args
          obtain ⟨nullifier', amount', recipient', root'⟩ := args'
          simp only [Action.bound, Action.withdraw.injEq, WithdrawArgs.mk.injEq]
          exact ⟨hbuff _ _ hnullifier, huint _ _ hamount, hrecipient hhashed, hbuff _ _ hroot⟩
      | _ => cases htype
  | split args =>
      cases action' with
      | split args' =>
          simp only [arguments, List.cons.injEq, and_true] at harguments
          obtain ⟨hnullifier, hcommitment1, howner1, hcommitment2, howner2, hcurrent, hnew,
            hindex⟩ := harguments
          simp [Action.bound, hbuff _ _ hnullifier, hbuff _ _ hcommitment1, hbuff _ _ howner1,
            hbuff _ _ hcommitment2, hbuff _ _ howner2, hbuff _ _ hcurrent, hbuff _ _ hnew,
            huint _ _ hindex]
      | _ => cases htype
  | merge args =>
      cases action' with
      | merge args' =>
          simp only [arguments, List.cons.injEq, and_true] at harguments
          obtain ⟨hnullifier1, hnullifier2, hcommitment, howner, hcurrent, hnew, hindex⟩ :=
            harguments
          simp [Action.bound, hbuff _ _ hnullifier1, hbuff _ _ hnullifier2,
            hbuff _ _ hcommitment, hbuff _ _ howner, hbuff _ _ hcurrent, hbuff _ _ hnew,
            huint _ _ hindex]
      | _ => cases htype

/-- Operations of one kind and family with the same fields are the same up to
metadata. -/
theorem bound_eq_of_fields_eq {first second : Operation} {version version' : Nat}
    (htype : first.proofType = second.proofType) (hverifier : first.verifier = second.verifier)
    (hfirst : ∀ who ∈ first.principals, who ∈ known)
    (hsecond : ∀ who ∈ second.principals, who ∈ known)
    (hfields : first.fields P version = second.fields P version') :
    first.bound = second.bound := by
  simp only [fields, List.cons_append, List.cons.injEq] at hfields
  have hmiddle := (List.append_inj' hfields.2 rfl).1
  -- the assets are at the end, so they are compared before the arguments are
  have hparts : first.currency = second.currency ∧ first.arguments P = second.arguments P := by
    obtain ⟨currency, action⟩ := first
    obtain ⟨currency', action'⟩ := second
    cases currency with
    | stx =>
        cases currency' with
        | stx => exact ⟨rfl, by simpa [Currency.field?] using hmiddle⟩
        | sip10 _ => cases hverifier
    | sip10 token =>
        cases currency' with
        | stx => cases hverifier
        | sip10 token' =>
            obtain ⟨harguments, htoken⟩ := List.append_inj' hmiddle rfl
            have hsame := hinjective (hfirst token (by simp [principals]))
              (hsecond token' (by simp [principals])) (List.singleton_inj.mp htoken)
            exact ⟨congrArg Currency.sip10 hsame, harguments⟩
  have haction := action_bound_eq_of_arguments_eq hinjective htype hfirst hsecond hparts.2
  unfold bound
  rw [hparts.1, haction]

end Injectivity

end Operation

/-! ## Accepted vectors -/

namespace Circuit.Statement

variable (statement : Statement)

/-- The public input that says which operation it is. -/
def tag : Fr :=
  match statement.inputs with
  | .shield x => x.op
  | .transfer x => x.op
  | .withdraw x => x.op
  | .split x => x.op
  | .merge x => x.op

def circuitVersion : Fr :=
  match statement.inputs with
  | .shield x => x.circuitVersion
  | .transfer x => x.circuitVersion
  | .withdraw x => x.circuitVersion
  | .split x => x.circuitVersion
  | .merge x => x.circuitVersion

/-- The public inputs between the tag and the asset. -/
def arguments : List Fr :=
  match statement.inputs with
  | .shield x =>
      [x.commitment, x.ownerCommitment, x.amount, x.oldRoot, x.newRoot, x.leafIndex]
  | .transfer x =>
      [x.nullifier, x.newCommitment, x.newOwnerCommitment, x.merkleRoot, x.newRoot, x.leafIndex]
  | .withdraw x => [x.nullifier, x.amount, x.recipientHash, x.merkleRoot]
  | .split x =>
      [x.nullifier, x.commitment1, x.ownerCommitment1, x.commitment2, x.ownerCommitment2,
        x.merkleRoot, x.newRoot, x.leafIndex]
  | .merge x =>
      [x.nullifier1, x.nullifier2, x.commitment, x.ownerCommitment, x.merkleRoot, x.newRoot,
        x.leafIndex]

theorem fields_eq :
    statement.fields =
      statement.tag :: (statement.arguments ++ statement.asset.toList) ++
        [statement.circuitVersion] := by
  obtain ⟨asset, inputs⟩ := statement
  cases inputs <;> rfl

/-- A vector with the tag of its circuit and a slot that fits in an integer. -/
structure WellFormed : Prop where
  tag : statement.tag = Fin.ofNat _ statement.proofType
  slot : ∀ ext, statement.extension = some ext → ext.1 < 2 ^ 128

variable {statement}

/-- The field before the asset is a slot or the root. -/
theorem WellFormed.arguments_last (h : statement.WellFormed) :
    ∃ front last, statement.arguments = front ++ [last] ∧
      (last.val < 2 ^ 128 ∨ last = statement.root) := by
  obtain ⟨asset, inputs⟩ := statement
  have hslot := h.slot
  cases inputs with
  | shield x => exact ⟨[_, _, _, _, _], x.leafIndex, rfl, .inl (hslot _ rfl)⟩
  | transfer x => exact ⟨[_, _, _, _, _], x.leafIndex, rfl, .inl (hslot _ rfl)⟩
  | withdraw x => exact ⟨[_, _, _], x.merkleRoot, rfl, .inr rfl⟩
  | split x => exact ⟨[_, _, _, _, _, _, _], x.leafIndex, rfl, .inl (hslot _ rfl)⟩
  | merge x => exact ⟨[_, _, _, _, _, _], x.leafIndex, rfl, .inl (hslot _ rfl)⟩

variable {B : Builtins} {Q : Set Query}

/-- The tag is the first thing every circuit checks. -/
theorem Holds.tag_eq (h : statement.Holds B Q) :
    statement.tag = Fin.ofNat _ statement.proofType := by
  have hfirst {ω : Type} {program : ω → Constraints Unit} {op n : Fr}
      {rest : ω → Constraints Unit} (hprogram : program = fun w => do assert (op = n); rest w)
      (hprovable : Provable Q program) : op = n := by
    obtain ⟨w, transcript, hrun, -⟩ := hprovable
    rw [hprogram] at hrun
    simp only [bind_ok] at hrun
    obtain ⟨u, mid, hassert, -⟩ := hrun
    exact (require_ok.mp hassert).1
  obtain ⟨asset, inputs⟩ := statement
  cases asset with
  | none => cases inputs <;> exact hfirst rfl h
  | some assetId => cases inputs <;> exact hfirst rfl h

/-- A circuit accepts well-formed vectors only: what is appended goes to a slot
of the tree. -/
theorem Holds.wellFormed (h : statement.Holds B Q) : statement.WellFormed where
  tag := h.tag_eq
  slot := by
    intro ext hext
    obtain ⟨tx, hdescribes⟩ := h.transaction
    have happended := tx.appended
    rw [hdescribes.extension, hext, hdescribes.commitments] at happended
    obtain ⟨leaf, rest, hcommitments⟩ : ∃ leaf rest, statement.commitments = leaf :: rest := by
      obtain ⟨asset, inputs⟩ := statement
      cases inputs with
      | withdraw x => cases hext
      | _ => exact ⟨_, _, rfl⟩
    rw [hcommitments] at happended
    obtain ⟨_, ⟨path, hposition, -⟩, -⟩ := happended
    have hlt := MerkleTree.position_lt path.steps
    rw [hposition, path.length_eq] at hlt
    exact Nat.lt_trans hlt (by decide)

end Circuit.Statement

/-! ## One preimage, one vector -/

/-- Hashed principals can be told apart, from one another as well as from
integers and from the root of the tree. -/
structure SeparatesPrincipals (P : Primitives) (root : Fr) (known : Set Principal) : Prop where
  injective : Set.InjOn (fePrincipal P) known
  ne_uint : ∀ who ∈ known, ∀ n < 2 ^ 128, fePrincipal P who ≠ feUint n
  ne_root : ∀ who ∈ known, fePrincipal P who ≠ encode root

namespace Operation

variable {P : Primitives} {known : Set Principal} {op : Operation} {version : Nat}
variable {statement : Statement}

/-- The fields of an operation and of a vector, concatenated. -/
theorem flatten_eq_of_inputs (h : op.inputs P version = statement.encode) :
    (op.fields P version).flatten = (statement.fields.map encode).flatten := by
  rw [← inputs_eq_flatten]
  exact h

theorem statement_fields_length :
    ∀ field ∈ statement.fields.map encode, field.length = 32 := by
  intro field hfield
  obtain ⟨x, -, rfl⟩ := List.mem_map.mp hfield
  exact encode_length x

/-- The tags come first, and neither can be short. -/
theorem proofType_eq_of_inputs (hformed : statement.WellFormed)
    (h : op.inputs P version = statement.encode) : statement.proofType = op.proofType := by
  have hflat := flatten_eq_of_inputs h
  rw [statement.fields_eq] at hflat
  simp only [fields, List.cons_append, List.map_cons, List.flatten_cons] at hflat
  have htag := (List.append_inj hflat (by simp)).1
  have hop : op.proofType < 2 ^ 128 := by
    unfold proofType
    split <;> decide
  have hvalue := val_eq_of_feUint hop htag
  rw [hformed.tag] at hvalue
  rw [← hvalue]
  obtain ⟨asset, inputs⟩ := statement
  cases inputs <;> rfl

theorem arguments_length_eq (htype : statement.proofType = op.proofType) :
    (op.arguments P).length = statement.arguments.length := by
  obtain ⟨currency, action⟩ := op
  obtain ⟨asset, inputs⟩ := statement
  cases action <;> cases inputs <;> first | rfl | cases htype

/-- The families are told apart: without the asset the bytes do not suffice, and
in its place a vector without one has a slot or the root. -/
theorem verifier_eq_of_inputs (hformed : statement.WellFormed)
    (hseparates : SeparatesPrincipals P statement.root known)
    (hknown : ∀ who ∈ op.principals, who ∈ known)
    (h : op.inputs P version = statement.encode) : statement.verifier = op.verifier := by
  have hflat := flatten_eq_of_inputs h
  have hcount := arguments_length_eq (P := P) (proofType_eq_of_inputs hformed h)
  have hnarrow := flatten_length_le (op.fields_length_le P version)
  have hfull := flatten_length_eq (@statement_fields_length statement)
  have hfields := statement.fields_eq
  obtain ⟨currency, action⟩ := op
  obtain ⟨asset, inputs⟩ := statement
  cases currency with
  | stx =>
      cases asset with
      | none => rfl
      | some assetId =>
          exfalso
          rw [hflat, hfull, hfields] at hnarrow
          simp [fields, Currency.field?, hcount] at hnarrow
  | sip10 token =>
      cases asset with
      | some assetId => rfl
      | none =>
          exfalso
          have htoken : token ∈ known := hknown token (by simp [principals])
          obtain ⟨front, last, harguments, hlast⟩ := hformed.arguments_last
          rw [hfields, harguments] at hflat
          simp only [fields, Currency.field?, Currency.boundVersion, Option.toList_some,
            Option.toList_none, List.append_nil, List.map_append, List.map_cons, List.map_nil,
            List.flatten_append, List.flatten_cons, List.flatten_nil, List.cons_append,
            ← List.append_assoc] at hflat
          obtain ⟨hbefore, -⟩ := List.append_inj' hflat (by simp)
          obtain ⟨-, hfield⟩ := List.append_inj' hbefore (by simp)
          rcases hlast with hslot | hroot
          · refine hseparates.ne_uint token htoken last.val hslot ?_
            rw [feUint_eq hslot]
            exact hfield
          · exact hseparates.ne_root token htoken (hroot ▸ hfield)

theorem fields_eq_of_inputs (hformed : statement.WellFormed)
    (hseparates : SeparatesPrincipals P statement.root known)
    (hknown : ∀ who ∈ op.principals, who ∈ known)
    (h : op.inputs P version = statement.encode) :
    op.fields P version = statement.fields.map encode :=
  fields_eq_of_flatten_eq
    (fields_length_eq (proofType_eq_of_inputs hformed h)
      (verifier_eq_of_inputs hformed hseparates hknown h))
    (op.fields_length_le P version) statement_fields_length (flatten_eq_of_inputs h)

/-- Calls that hash the same vector have the same bound arguments. -/
theorem bound_eq_of_inputs {other : Operation} {version' : Nat} (hformed : statement.WellFormed)
    (hseparates : SeparatesPrincipals P statement.root known)
    (hknown : ∀ who ∈ op.principals, who ∈ known)
    (hother : ∀ who ∈ other.principals, who ∈ known)
    (h : op.inputs P version = statement.encode)
    (h' : other.inputs P version' = statement.encode) : other.bound = op.bound := by
  have htype := proofType_eq_of_inputs hformed h
  have htype' := proofType_eq_of_inputs hformed h'
  have hverifier := verifier_eq_of_inputs hformed hseparates hknown h
  have hverifier' := verifier_eq_of_inputs hformed hseparates hother h'
  have hfields := fields_eq_of_inputs hformed hseparates hknown h
  have hfields' := fields_eq_of_inputs hformed hseparates hother h'
  exact bound_eq_of_fields_eq hseparates.injective (htype'.symm.trans htype)
    (hverifier'.symm.trans hverifier) hother hknown (hfields'.trans hfields.symm)

end Operation

end StxShield
