import StxShield.Assets.Fees
import StxShield.Protocol.Layout

/-!
# Deposits that can be proved

The pools compare an amount with configured limits, the shield circuits with a
constant: an amount of 64 bits or more satisfies no circuit.  The STX limits are
held below the supply, which is small enough; an asset's limits are held below
nothing.
-/

namespace StxShield

open Library Circuit Exec

variable {env : Env} {w : World} {P : Primitives} {B : Builtins} {currency : Currency}

/-! ## The circuit's own terms -/

/-- The asset id as the circuits read it, for the family that has one. -/
def Currency.assetId? (P : Primitives) : Currency → Option Fr
  | .stx => none
  | .sip10 token => some (Fin.ofNat _ (bigEndianValue (fePrincipal P token)))

/-- The leading zero byte keeps a principal's hash below the modulus. -/
theorem encode_fePrincipal (P : Primitives) (who : Principal) :
    encode (Fin.ofNat _ (bigEndianValue (fePrincipal P who))) = fePrincipal P who := by
  have hlength := fePrincipal_length P who
  have hvalue : bigEndianValue (fePrincipal P who) < 256 ^ 31 := by
    have htail : (slice (P.sha256 (P.consensusBuff who)).bytes 1 32).length = 31 :=
      Nat.succ.inj hlength
    have hbound := bigEndianValue_lt (slice (P.sha256 (P.consensusBuff who)).bytes 1 32)
    rw [htail] at hbound
    unfold fePrincipal
    rw [bigEndianValue, UInt8.toNat_zero, Nat.zero_mul, Nat.zero_add]
    exact hbound
  have hwide : (256 : Nat) ^ 31 < fieldModulus := by decide
  have hval : (Fin.ofNat fieldModulus (bigEndianValue (fePrincipal P who))).val =
      bigEndianValue (fePrincipal P who) := Nat.mod_eq_of_lt (Nat.lt_trans hvalue hwide)
  have hround := bigEndian_bigEndianValue (fePrincipal P who)
  rw [hlength] at hround
  rw [encode, hval, hround]

theorem Currency.encode_assetId? (P : Primitives) (currency : Currency) :
    (currency.assetId? P).map encode = currency.field? P := by
  cases currency with
  | stx => rfl
  | sip10 token => exact congrArg some (encode_fePrincipal P token)

/-- The statement of a shield has a satisfying witness, whoever owns the note,
whatever blinds it, and wherever the empty slot is that the path leads to. -/
def Depositable (P : Primitives) (B : Builtins) (currency : Currency) (amount : Uint) : Prop :=
  ∀ (ownerPkX ownerPkY blinding : Fr) (slot : MerklePath),
    ∃ (args : ShieldArgs) (x : Shield.Public) (witness : Shield.Witness) (transcript : Transcript),
      args.amount = amount ∧
      args.currentRoot = fieldBuff (MerkleTree.climb B.hash2 emptyLeaf slot.steps) ∧
      (args.leafIndex : Nat) = MerkleTree.position slot.steps ∧
      Operation.inputs P Sip10Pool.sip10CircuitVersion ⟨currency, .shield args⟩ =
        Statement.encode ⟨currency.assetId? P, .shield x⟩ ∧
      witness.note.ownerPkX = ownerPkX ∧ witness.note.ownerPkY = ownerPkY ∧
      witness.note.blinding = blinding ∧ witness.insertion = slot ∧
      Shield.circuit B (currency.assetId? P) x witness [] = .ok ((), transcript)

/-! ## What the circuit admits -/

/-- What an accepting execution of a shield circuit asserts. -/
theorem Shield.circuit_ok {asset : Option Fr} {x : Shield.Public} {witness : Shield.Witness}
    {transcript : Transcript} :
    Shield.circuit B asset x witness [] = .ok ((), transcript) ↔
      x.op = 1 ∧ x.circuitVersion = 2 ∧ (∀ assetId, asset = some assetId → assetId ≠ 0) ∧
        witness.note.amount = x.amount ∧ x.amount.val < 2 ^ 64 ∧
        Coin.commitment B ⟨asset, witness.note⟩ = x.commitment ∧
        B.hash2 witness.note.ownerPkX witness.note.ownerPkY = x.ownerCommitment ∧
        MerkleTree.position witness.insertion.steps = x.leafIndex.val ∧
        MerkleTree.climb B.hash2 emptyLeaf witness.insertion.steps = x.oldRoot ∧
        MerkleTree.climb B.hash2 x.commitment witness.insertion.steps = x.newRoot ∧
        Coin.queries B ⟨asset, witness.note⟩ ++
          [.hash2 witness.note.ownerPkX witness.note.ownerPkY] ++
          pathQueries B emptyLeaf witness.insertion ++
          pathQueries B x.commitment witness.insertion = transcript := by
  unfold Shield.circuit assertMaxBitSize64
  simp only [↓bind_ok, ↓exists_assert, ↓exists_assertAssetBound, ↓exists_commitment,
    ↓exists_ownerCommitment, ↓exists_assertIndexBits, assertInsertion_ok, List.nil_append]

/-- The path to the first slot, all its siblings zero. -/
def leftmostPath : MerklePath := ⟨List.replicate treeDepth (false, 0), List.length_replicate⟩

theorem Depositable.ranged {amount : Uint} (h : Depositable P B currency amount) :
    (amount : Nat) < 2 ^ 64 ∧ currency.assetId? P ≠ some 0 := by
  obtain ⟨args, x, witness, transcript, rfl, -, -, hinputs, -, -, -, -, hrun⟩ :=
    h 0 0 0 leftmostPath
  obtain ⟨-, -, hbound, -, hrange, -⟩ := Shield.circuit_ok.mp hrun
  refine ⟨?_, fun hzero => hbound 0 hzero rfl⟩
  have hverifier : Statement.verifier ⟨currency.assetId? P, .shield x⟩ =
      Operation.verifier ⟨currency, .shield args⟩ := by cases currency <;> rfl
  rw [Operation.inputs_eq_flatten] at hinputs
  have hfields := fields_eq_of_flatten_eq (fields_length_eq rfl hverifier)
    (Operation.fields_length_le P _ _) (by simp) hinputs
  have hdeposit : (args.amount : Nat) = x.amount.val :=
    (Operation.agrees_of_fields rfl hverifier hfields).deposit
  rw [hdeposit]
  exact hrange

/-- The shield of a note into an empty slot, its arguments made from the public
inputs. -/
theorem depositable_of_ranged {amount : Uint} (hrange : (amount : Nat) < 2 ^ 64)
    (hbound : currency.assetId? P ≠ some 0) : Depositable P B currency amount := by
  intro ownerPkX ownerPkY blinding slot
  let note : Note := ⟨Fin.ofNat _ amount, ownerPkX, ownerPkY, blinding⟩
  let commitment : Fr := Coin.commitment B ⟨currency.assetId? P, note⟩
  have hslot : MerkleTree.position slot.steps < 2 ^ 20 := by
    have hlt := MerkleTree.position_lt slot.steps
    rwa [slot.length_eq] at hlt
  have hfield : (2 : Nat) ^ 64 < fieldModulus := by decide
  have hamount : (Fin.ofNat fieldModulus (amount : Nat)).val = amount :=
    Nat.mod_eq_of_lt (Nat.lt_trans hrange hfield)
  have hindex : (Fin.ofNat fieldModulus (MerkleTree.position slot.steps)).val =
      MerkleTree.position slot.steps := Nat.mod_eq_of_lt (by omega)
  have hleaf : MerkleTree.position slot.steps < 2 ^ 128 := by omega
  let x : Shield.Public :=
    { op := 1
      commitment := commitment
      ownerCommitment := B.hash2 ownerPkX ownerPkY
      amount := Fin.ofNat _ amount
      oldRoot := MerkleTree.climb B.hash2 emptyLeaf slot.steps
      newRoot := MerkleTree.climb B.hash2 commitment slot.steps
      leafIndex := Fin.ofNat _ (MerkleTree.position slot.steps)
      circuitVersion := 2 }
  let args : ShieldArgs :=
    { amount := amount
      commitment := fieldBuff commitment
      ownerCommitment := fieldBuff x.ownerCommitment
      metadata := zeroHash
      currentRoot := fieldBuff x.oldRoot
      newRoot := fieldBuff x.newRoot
      leafIndex := ⟨MerkleTree.position slot.steps, hleaf⟩ }
  have hfields : Operation.fields P Sip10Pool.sip10CircuitVersion ⟨currency, .shield args⟩ =
      (Statement.fields ⟨currency.assetId? P, .shield x⟩).map encode := by
    have hop : encode 1 = feUint proofTypeShield := encode_ofNat (by decide)
    have hversion : encode 2 = feUint (currency.boundVersion Sip10Pool.sip10CircuitVersion) := by
      cases currency <;> exact encode_ofNat (by decide)
    have hasset := Currency.encode_assetId? P currency
    simp only [Operation.fields, Operation.arguments, Statement.fields, Shield.fields,
      List.map_append, List.map_cons, List.map_nil, ← hasset, x, args, fieldBuff_bytes, hop,
      hversion, encode_ofNat amount.isLt, encode_ofNat hleaf, Option.toList_map]
    rfl
  refine ⟨args, x, ⟨note, slot⟩, _, rfl, rfl, rfl, ?_, rfl, rfl, rfl, rfl,
    Shield.circuit_ok.mpr ⟨rfl, rfl, fun assetId hsome hzero => hbound (hzero ▸ hsome), rfl, ?_,
      rfl, rfl, hindex.symm, rfl, rfl, rfl⟩⟩
  · rw [Operation.inputs_eq_flatten, hfields]
    rfl
  · change (Fin.ofNat fieldModulus (amount : Nat)).val < 2 ^ 64
    rw [hamount]
    exact hrange

/-! ## Limits and circuits -/

/-- Every STX deposit within the limits can be proved.  Of an asset exactly when
its largest deposit has fewer than 64 bits, or no amount at all is admitted. -/
theorem advertised_deposits_provable (hreach : Reachable env w) (P : Primitives) (B : Builtins) :
    (∀ amount : Uint,
        PrivacyRegistry.validateShieldAmount amount w.registry = .ok ((), w.registry) →
          Depositable P B .stx amount) ∧
      ∀ id asset, w.assetRegistry.assets.lookup id = some asset →
        ((∀ amount : Uint, asset.minShield ≤ amount ∧ (amount : Nat) ≤ asset.maxShield →
            Depositable P B (.sip10 asset.token) amount) ↔
          (asset.maxShield < 2 ^ 64 ∧ Currency.assetId? P (.sip10 asset.token) ≠ some 0) ∨
            2 ^ 128 ≤ asset.minShield) := by
  refine ⟨fun amount hok => ?_, fun id asset hasset => ?_⟩
  · unfold PrivacyRegistry.validateShieldAmount at hok
    simp only [↓bind_ok, ↓exists_read, ↓exists_require, require_ok] at hok
    obtain ⟨-, hle, -⟩ := hok
    have hceiling := hreach.limits.maxShield_le
    have hsmall : PrivacyRegistry.stxSupplyCeiling < 2 ^ 64 := by decide
    exact depositable_of_ranged (by omega) (Option.some_ne_none 0).symm
  · have hlimits := hreach.directory.limits id asset hasset
    constructor
    · intro hall
      rcases Nat.lt_or_ge asset.minShield (2 ^ 128) with hmin | hmin
      · left
        -- the smallest amount that is admitted and, if any is, does not fit
        rcases Nat.lt_or_ge asset.maxShield (2 ^ 64) with hmax | hmax
        · exact ⟨hmax, (hall ⟨asset.minShield, hmin⟩ ⟨Nat.le_refl _, hlimits.2.1⟩).ranged.2⟩
        · have hfits : max asset.minShield (2 ^ 64) < 2 ^ 128 := by omega
          have hrange := (hall ⟨_, hfits⟩ ⟨Nat.le_max_left _ _, by
            have hle := hlimits.2.1
            simp only
            omega⟩).ranged.1
          simp only at hrange
          omega
      · exact .inr hmin
    · rintro (⟨hmax, hbound⟩ | hmin) amount ⟨hlow, hhigh⟩
      · exact depositable_of_ranged (Nat.lt_of_le_of_lt hhigh hmax) hbound
      · have hfits := amount.isLt
        omega

namespace Sample

/-- A largest deposit of 2^64 is accepted. -/
def widened : World :=
  transact Sample.env 1 (sentBy owner) (.assetRegistry (.setAssetLimits 1 1 (2 ^ 64) 1 0)) ready

theorem widened_reachable : Reachable Sample.env widened :=
  ready_reachable.transact owner_topLevel 1 _

end Sample

/-- Under a largest deposit of 1000, a deposit of 1000 can be proved. -/
theorem advertised_deposits_provable_ready :
    Depositable Sample.primitives Sample.builtins (.sip10 Sample.token) 1000 := by
  have hasset : (Sample.ready.assetRegistry.assets.lookup 1).map (fun asset =>
      (asset.token, asset.minShield, asset.maxShield)) = some (Sample.token, 1, 1000) := by
    decide +kernel
  have hbound : Currency.assetId? Sample.primitives (.sip10 Sample.token) ≠ some 0 := by
    decide +kernel
  obtain ⟨asset, hfound, hdata⟩ := Option.map_eq_some_iff.mp hasset
  simp only [Prod.mk.injEq] at hdata
  obtain ⟨htoken, hmin, hmax⟩ := hdata
  have hprovable := ((advertised_deposits_provable Sample.ready_reachable Sample.primitives
    Sample.builtins).2 1 asset hfound).mpr
  rw [htoken, hmin, hmax] at hprovable
  exact hprovable (.inl ⟨by decide, hbound⟩) 1000 ⟨by decide, by decide⟩

/-- A deposit of 2^64 units is admitted by the limits and satisfies no circuit. -/
theorem advertised_deposit_unprovable :
    ¬ ∀ (env : Env) (w : World), Reachable env w → ∀ (P : Primitives) (B : Builtins) id asset,
      w.assetRegistry.assets.lookup id = some asset →
      ∀ amount : Uint, asset.minShield ≤ amount ∧ (amount : Nat) ≤ asset.maxShield →
        Depositable P B (.sip10 asset.token) amount := by
  intro halways
  have hasset : (Sample.widened.assetRegistry.assets.lookup 1).map (fun asset =>
      (asset.minShield, asset.maxShield)) = some (1, 2 ^ 64) := by decide +kernel
  obtain ⟨asset, hfound, hdata⟩ := Option.map_eq_some_iff.mp hasset
  simp only [Prod.mk.injEq] at hdata
  obtain ⟨hmin, hmax⟩ := hdata
  have hprovable := halways Sample.env Sample.widened Sample.widened_reachable Sample.primitives
    Sample.builtins 1 asset hfound
  rw [hmin, hmax] at hprovable
  have hrange := (hprovable ⟨2 ^ 64, by decide⟩ ⟨by decide, Nat.le_refl _⟩).ranged.1
  exact absurd hrange (Nat.lt_irrefl _)

end StxShield
