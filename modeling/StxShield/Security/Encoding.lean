import StxShield.Sdk.Parity
import StxShield.Security.Solvency

/-!
# Public inputs

Contracts take buffers of up to 32 bytes and hash their plain concatenation.
No bytes can be moved across the boundaries of that concatenation: what equals
an accepted vector is the same operation with the same arguments.  The SDK and
the circuits lay the same fields out in the same order.
-/

namespace StxShield

open Library Circuit

/-- If what a contract hashes for an operation, in either family and with
buffers of any length, is the concatenation of a well-formed vector's fields,
then the vector belongs to that operation's circuit and agrees with it field by
field; any other call that hashes the same bytes has the same bound arguments. -/
theorem public_inputs_unambiguous {P : Primitives} {statement : Statement}
    (hformed : statement.WellFormed) {known : Set Principal}
    (hseparates : SeparatesPrincipals P statement.root known) {op : Operation} {version : Nat}
    (hknown : ∀ who ∈ op.principals, who ∈ known)
    (h : op.inputs P version = statement.encode) :
    statement.proofType = op.proofType ∧ statement.verifier = op.verifier ∧
      op.fields P version = statement.fields.map encode ∧
      ∀ (other : Operation) (version' : Nat), (∀ who ∈ other.principals, who ∈ known) →
        other.inputs P version' = statement.encode → other.bound = op.bound := by
  refine ⟨Operation.proofType_eq_of_inputs hformed h,
    Operation.verifier_eq_of_inputs hformed hseparates hknown h,
    Operation.fields_eq_of_inputs hformed hseparates hknown h, ?_⟩
  intro other version' hother heq
  exact Operation.bound_eq_of_inputs hformed hseparates hknown hother h heq

namespace Sample

def shieldTokenOperation (metadata : Buff32) : Operation :=
  ⟨.sip10 token, .shield { shieldArgs (shieldPublic tokenCoin true) with metadata := metadata }⟩

theorem separatesToken : SeparatesPrincipals primitives shieldToken.root {token} where
  injective := Set.injOn_singleton _ _
  ne_uint := by
    rintro _ rfl n hn h
    have hpad : (fePrincipal primitives token).take 16 = fePad := by
      rw [h]
      exact List.take_left' rfl
    exact absurd hpad (by decide +kernel)
  ne_root := by
    rintro _ rfl
    decide +kernel

end Sample

/-- A shield of the token presents the vector it was proved for, whatever
metadata it comes with. -/
theorem public_inputs_unambiguous_shield :
    Sample.shieldToken.proofType = (Sample.shieldTokenOperation zeroHash).proofType ∧
      Sample.shieldToken.verifier = (Sample.shieldTokenOperation zeroHash).verifier ∧
      (Sample.shieldTokenOperation zeroHash).fields Sample.primitives 2 =
        Sample.shieldToken.fields.map encode ∧
      (Sample.shieldTokenOperation (Sample.digest [7])).bound =
        (Sample.shieldTokenOperation zeroHash).bound := by
  have hknown (metadata : Buff32) :
      ∀ who ∈ (Sample.shieldTokenOperation metadata).principals, who ∈ ({Sample.token} : Set _) :=
    fun who hwho => List.mem_singleton.mp hwho
  have hinputs (metadata : Buff32) :
      (Sample.shieldTokenOperation metadata).inputs Sample.primitives 2 =
        Sample.shieldToken.encode := by
    have hzero : (Sample.shieldTokenOperation zeroHash).inputs Sample.primitives 2 =
        Sample.shieldToken.encode := by decide +kernel
    exact hzero
  obtain ⟨htype, hverifier, hfields, hother⟩ := public_inputs_unambiguous
    Sample.shieldToken_holds.wellFormed Sample.separatesToken (hknown zeroHash) (hinputs zeroHash)
  exact ⟨htype, hverifier, hfields, hother _ 2 (hknown _) (hinputs (Sample.digest [7]))⟩

/-- For full buffers and every integer below 2^128 the SDK builds the fields
that the contract concatenates, and so the same digest, from its own field lists
as from the raw vectors; and these fields are a vector of the operation's
circuit exactly if its public inputs, by name, are the operation's arguments. -/
theorem encoder_parity {P : Primitives} {op : Operation}
    (hfull : ∀ buff ∈ op.buffers, buff.bytes.length = 32) {circuitVersion : Nat}
    (hversion : circuitVersion < 2 ^ 128) :
    Sdk.fields (op.currency.boundVersion circuitVersion) P op = .ok (op.fields P circuitVersion) ∧
      Sdk.concatAll (op.fields P circuitVersion) = op.inputs P circuitVersion ∧
      Sdk.publicInputs (op.currency.boundVersion circuitVersion) P op =
        .ok (P.keccak256 (op.inputs P circuitVersion)) ∧
      (op.currency = .stx →
        Sdk.rawVector circuitVersion P op.action = .ok (op.fields P circuitVersion)) ∧
      Sdk.hashPublicInputVector P (op.fields P circuitVersion) =
        .ok (P.keccak256 (op.inputs P circuitVersion)) ∧
      ∀ statement : Statement, statement.proofType = op.proofType →
        (statement.fields.map encode = op.fields P circuitVersion ↔
          op.Carries P circuitVersion statement) := by
  have hfields := Sdk.fields_eq (P := P) hfull hversion
  have hconcat : Sdk.concatAll (op.fields P circuitVersion) = op.inputs P circuitVersion := by
    rw [Sdk.concatAll_eq_flatten, Operation.inputs_eq_flatten]
  refine ⟨hfields, hconcat, ?_, ?_, Sdk.hashPublicInputVector_eq hfull, ?_⟩
  · rw [Sdk.publicInputs_eq, hfields, ← hconcat]
    rfl
  · intro hcurrency
    obtain ⟨currency, action⟩ := op
    obtain rfl : currency = .stx := hcurrency
    exact Sdk.rawVector_eq hversion
  · intro statement htype
    exact Operation.fields_eq_iff htype

/-- Both sides digest the token's shield alike, and the vector it was proved for
is the one the SDK builds. -/
theorem encoder_parity_shield :
    Sdk.publicInputs 2 Sample.primitives (Sample.shieldTokenOperation zeroHash) =
        .ok (Sample.digest ((Sample.shieldTokenOperation zeroHash).inputs Sample.primitives 2)) ∧
      (Sample.shieldToken.fields.map encode =
          (Sample.shieldTokenOperation zeroHash).fields Sample.primitives 2 ↔
        (Sample.shieldTokenOperation zeroHash).Carries Sample.primitives 2 Sample.shieldToken) := by
  have hfull : ∀ buff ∈ (Sample.shieldTokenOperation zeroHash).buffers, buff.bytes.length = 32 := by
    decide +kernel
  obtain ⟨-, -, hdigest, -, -, horder⟩ :=
    encoder_parity (P := Sample.primitives) hfull (show 2 < 2 ^ 128 by decide)
  exact ⟨hdigest, horder Sample.shieldToken rfl⟩

end StxShield
