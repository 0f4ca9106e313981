import StxShield.Effects.Footprint

/-!
# What the STX treasury does

A fee comes in, and is paid out, together with its ledger entry.  A successful
call of the fee contract does one of four things.
-/

namespace StxShield.ProtocolFees

open Library Exec World PrivacyRegistry

variable {ctx : Ctx} {fees fees' : ProtocolFees} {w w' : World} {u : Unit}

/-- The storage after a fee of a type was collected. -/
def credited (fees : ProtocolFees) (feeType amount : Nat) : ProtocolFees :=
  { fees with
    treasury :=
      { fees.treasury with
        totalCollected := fees.treasury.totalCollected + amount
        balance := fees.treasury.balance + amount }
    feeTypeStats :=
      fees.feeTypeStats.insert feeType ((fees.feeTypeStats.lookup feeType).getD 0 + amount) }

/-- The storage after the treasury paid out an amount. -/
def debited (fees : ProtocolFees) (amount : Nat) : ProtocolFees :=
  { fees with
    treasury :=
      { fees.treasury with
        totalWithdrawn := fees.treasury.totalWithdrawn + amount
        balance := fees.treasury.balance - amount } }

/-- What a successful call did with the storage and the STX ledger. -/
inductive Performed (fees : ProtocolFees) (stx : Principal → Nat) :
    ProtocolFees → (Principal → Nat) → Prop where
  | configured {feeType : Nat} {config : FeeConfig} (hvalid : isValidFeeType feeType)
      (hflat : config.flat ≤ flatFeeCeiling) :
      Performed fees stx { fees with feeConfigs := fees.feeConfigs.insert feeType config } stx
  | collected {payer : Principal} {feeType amount : Nat} (hvalid : isValidFeeType feeType)
      (hpayer : payer ≠ .protocolFees) (hpaid : amount ≤ stx payer) :
      Performed fees stx (credited fees feeType amount) (moved stx amount payer .protocolFees)
  | withdrawn {amount : Nat} {recipient : Principal} (hrecipient : .protocolFees ≠ recipient)
      (hbalance : amount ≤ fees.treasury.balance) (hpaid : amount ≤ stx .protocolFees) :
      Performed fees stx (debited fees amount) (moved stx amount .protocolFees recipient)
  | frozen (feesFrozen treasuryFrozen : Bool) :
      Performed fees stx
        { fees with feesFrozen := feesFrozen, treasuryFrozen := treasuryFrozen } stx

/-- What a successful call did with the world. -/
def Performs (w w' : World) : Prop :=
  ∃ fees stx, Performed w.protocolFees w.stx fees stx ∧
    { w with protocolFees := fees, stx := stx } = w'

theorem collectFee_ok {feeType amount value : Nat}
    (h : collectFee ctx feeType amount w = .ok (value, w')) :
    isValidFeeType feeType ∧ ctx.txSender ≠ .protocolFees ∧ amount ≤ w.stx ctx.txSender ∧
      { w with
        protocolFees := credited w.protocolFees feeType amount
        stx := moved w.stx amount ctx.txSender .protocolFees } = w' := by
  simp only [collectFee, ↓bind_ok, ↓exists_read, ↓exists_onRegistry, ↓exists_checkActive,
    ↓exists_require, ↓orError_ok, ↓exists_addUint, onProtocolFees_ok, modify_ok, pure_ok] at h
  obtain ⟨-, -, -, hvalid, -, _, mid, htransfer, -, -, -, _, _, ⟨_, rfl, rfl⟩, -, rfl⟩ := h
  obtain ⟨-, hpayer, -, hpaid, rfl⟩ := stxTransfer_ok.mp htransfer
  exact ⟨hvalid, hpayer, hpaid, rfl⟩

theorem collectFee_performs {feeType amount value : Nat}
    (h : collectFee ctx feeType amount w = .ok (value, w')) : Performs w w' := by
  obtain ⟨hvalid, hpayer, hpaid, rfl⟩ := collectFee_ok h
  exact ⟨_, _, .collected hvalid hpayer hpaid, rfl⟩

/-- A zero fee moves nothing. -/
theorem payFee_stx {feeType fee : Nat} (h : payFee ctx feeType fee w = .ok (u, w')) :
    w'.stx = if 0 < fee then moved w.stx fee ctx.txSender .protocolFees else w.stx := by
  simp only [payFee, ite_ok, bind_ok, pure_ok] at h
  rcases h with ⟨hpositive, _, _, hcollect, -, rfl⟩ | ⟨hzero, -, rfl⟩
  · obtain ⟨-, -, -, rfl⟩ := collectFee_ok hcollect
    rw [if_pos hpositive]
  · rw [if_neg hzero]

theorem withdrawFees_performs {amount : Nat} {recipient : Principal}
    (h : withdrawFees ctx amount recipient w = .ok (u, w')) : Performs w w' := by
  simp only [withdrawFees, ↓bind_ok, ↓exists_read, ↓exists_require, ↓orError_ok, ↓exists_addUint,
    ↓exists_subUint, onProtocolFees_ok, modify_ok] at h
  obtain ⟨-, -, -, -, hbalance, _, mid, htransfer, -, -, _, rfl, rfl⟩ := h
  obtain ⟨-, hrecipient, -, hpaid, rfl⟩ := stxTransfer_ok.mp htransfer
  exact ⟨_, _, .withdrawn hrecipient hbalance hpaid, rfl⟩

/-- Every successful call is one of the four. -/
theorem execute_performs {call : Call} (h : execute ctx call w = .ok (u, w')) : Performs w w' := by
  have hfreeze {m : Exec ProtocolFees Unit} (h : onProtocolFees m w = .ok (u, w'))
      (hm : ∀ fees', m w.protocolFees = .ok (u, fees') →
        ∃ feesFrozen treasuryFrozen, { w.protocolFees with
          feesFrozen := feesFrozen, treasuryFrozen := treasuryFrozen } = fees') :
      Performs w w' := by
    obtain ⟨fees', hrun, rfl⟩ := onProtocolFees_ok.mp h
    obtain ⟨feesFrozen, treasuryFrozen, rfl⟩ := hm fees' hrun
    exact ⟨_, _, .frozen feesFrozen treasuryFrozen, rfl⟩
  have hfees {frozen : Bool} (fees' : ProtocolFees)
      (h : setFeesFrozen w.registry ctx frozen w.protocolFees = .ok (u, fees')) :
      ∃ feesFrozen treasuryFrozen, { w.protocolFees with
        feesFrozen := feesFrozen, treasuryFrozen := treasuryFrozen } = fees' := by
    simp only [setFeesFrozen, ↓bind_ok, ↓exists_read, ↓exists_require, modify_ok] at h
    exact ⟨_, _, h.2.2⟩
  have htreasury {frozen : Bool} (fees' : ProtocolFees)
      (h : setTreasuryFrozen w.registry ctx frozen w.protocolFees = .ok (u, fees')) :
      ∃ feesFrozen treasuryFrozen, { w.protocolFees with
        feesFrozen := feesFrozen, treasuryFrozen := treasuryFrozen } = fees' := by
    simp only [setTreasuryFrozen, ↓bind_ok, ↓exists_read, ↓exists_require, modify_ok] at h
    exact ⟨_, _, h.2.2⟩
  simp only [execute, ↓bind_ok, ↓exists_read] at h
  cases call with
  | setFee feeType bps flat enabled =>
      simp only [onProtocolFees_ok, setFee, ↓bind_ok, ↓exists_require, modify_ok] at h
      obtain ⟨_, ⟨-, hvalid, -, hflat, rfl⟩, rfl⟩ := h
      exact ⟨_, _, .configured hvalid hflat, rfl⟩
  | collectFee feeType amount =>
      simp only [bind_ok, pure_ok] at h
      obtain ⟨_, _, hcollect, -, rfl⟩ := h
      exact collectFee_performs hcollect
  | withdrawFees amount recipient => exact withdrawFees_performs h
  | freezeFees => exact hfreeze h hfees
  | unfreezeFees => exact hfreeze h hfees
  | freezeTreasury => exact hfreeze h htreasury
  | unfreezeTreasury => exact hfreeze h htreasury

end StxShield.ProtocolFees
