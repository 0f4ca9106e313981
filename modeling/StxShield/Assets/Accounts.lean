import StxShield.Fees.TokenTreasury

/-!
# The accounts of the assets

One contract holds the tokens of every asset and another the fees.  An operation on
an honest token changes the entries of its own asset only, and what it adds to the
pool's tokens beyond the asset's shielded total is the sum of what its steps add.
-/

namespace StxShield

open Library Exec World PrivacyRegistry

/-! ## Accounts -/

/-- What the pool and the fee contract hold and account for, for one asset. -/
@[ext]
structure AssetAccount where
  shieldedTotal : Nat
  held : Nat
  treasury : Treasury
  feeStats : Nat → Option Nat

/-- The pool's tokens that back no note. -/
def AssetAccount.surplus (account : AssetAccount) : ℤ := account.held - account.shieldedTotal

/-- The account of the asset with this id and this token. -/
def World.account (w : World) (id : Nat) (token : Principal) : AssetAccount where
  shieldedTotal := Sip10Pool.getShieldedTotal w.sip10Pool id
  held := (w.tokens token).balances .sip10Pool
  treasury := Sip10ProtocolFees.getAssetTreasury w.sip10ProtocolFees id
  feeStats feeType := w.sip10ProtocolFees.assetFeeStats.lookup (id, feeType)

/-- The storage that the accounts are read from, and the STX side of the protocol. -/
structure Holdings where
  shieldedTotal : DataMap Nat Nat
  assetTreasury : DataMap Nat Treasury
  assetFeeStats : DataMap (Nat × Nat) Nat
  tokens : Principal → TokenLedger
  stx : Principal → Nat
  totalShieldedStx : Nat

def World.holdings (w : World) : Holdings where
  shieldedTotal := w.sip10Pool.shieldedTotal
  assetTreasury := w.sip10ProtocolFees.assetTreasury
  assetFeeStats := w.sip10ProtocolFees.assetFeeStats
  tokens := w.tokens
  stx := w.stx
  totalShieldedStx := w.registry.protocolStatistics.totalShieldedStx

variable {α : Type} {w w' : World} {u : Unit} {ctx : Ctx} {id : Nat} {token : Principal}

theorem account_of_holdings (h : w'.holdings = w.holdings) (id : Nat) (token : Principal) :
    w'.account id token = w.account id token := by
  have htotal : w'.sip10Pool.shieldedTotal = w.sip10Pool.shieldedTotal :=
    congrArg Holdings.shieldedTotal h
  have htreasury : w'.sip10ProtocolFees.assetTreasury = w.sip10ProtocolFees.assetTreasury :=
    congrArg Holdings.assetTreasury h
  have hstats : w'.sip10ProtocolFees.assetFeeStats = w.sip10ProtocolFees.assetFeeStats :=
    congrArg Holdings.assetFeeStats h
  have htokens : w'.tokens = w.tokens := congrArg Holdings.tokens h
  simp only [World.account, Sip10Pool.getShieldedTotal, Sip10ProtocolFees.getAssetTreasury,
    htotal, htreasury, hstats, htokens]

/-! ## What leaves the holdings alone -/

theorem holdings_onRegistry {m : Exec PrivacyRegistry α} {value : α}
    (h : onRegistry m w = .ok (value, w'))
    (hm : ∀ registry, m w.registry = .ok (value, registry) →
      registry.protocolStatistics.totalShieldedStx =
        w.registry.protocolStatistics.totalShieldedStx) : w'.holdings = w.holdings := by
  obtain ⟨registry, hrun, rfl⟩ := onRegistry_ok.mp h
  simp only [World.holdings, hm registry hrun]

theorem holdings_registerNullifier {nullifier : Buff32}
    (h : PoolCalls.registerNullifier ctx nullifier w = .ok (u, w')) :
    w'.holdings = w.holdings := by
  refine holdings_onRegistry h fun registry hrun => ?_
  obtain ⟨-, -, -, -, -, -, -, rfl⟩ := registerNullifier_ok.mp hrun
  rfl

theorem holdings_registerCommitment {commitment : Buff32} {index : Nat}
    (h : PoolCalls.registerCommitment ctx commitment w = .ok (index, w')) :
    w'.holdings = w.holdings := by
  unfold PoolCalls.registerCommitment at h
  simp only [↓bind_ok, ↓exists_read] at h
  refine holdings_onRegistry h fun registry hrun => ?_
  obtain ⟨-, -, -, -, -, -, -, -, rfl⟩ := registerCommitment_ok.mp hrun
  rfl

theorem holdings_updateRoot {newRoot : Buff32}
    (h : PoolCalls.updateRoot ctx newRoot w = .ok (u, w')) : w'.holdings = w.holdings := by
  unfold PoolCalls.updateRoot at h
  simp only [↓bind_ok, ↓exists_read] at h
  refine holdings_onRegistry h fun registry hrun => ?_
  obtain ⟨-, -, -, -, -, rfl⟩ := updateRoot_ok.mp hrun
  rfl

theorem holdings_registerNote {noteId ownerCommitment metadata : Buff32}
    (h : PoolCalls.registerNote ctx noteId ownerCommitment metadata w = .ok (u, w')) :
    w'.holdings = w.holdings := by
  unfold PoolCalls.registerNote NoteManager.registerNote at h
  simp only [↓bind_ok, ↓exists_read, ↓exists_onRegistry, ↓exists_checkActive, ↓exists_require,
    ↓exists_unwrap, ↓exists_addUint, onNoteManager_ok, modify_ok,
    DataMap.insertNew?_eq_some] at h
  obtain ⟨-, -, -, -, -, -, _, registry, hcount, _, -, -, -, _, rfl, rfl⟩ := h
  obtain ⟨-, -, -, -, rfl⟩ := recordNoteCreated_ok.mp hcount
  rfl

theorem holdings_verifyProof {P : Primitives} {proofType version : Nat}
    {inputsHash leaf : Buff32} {inclusion : Inclusion}
    (h : Sip10ZkVerifier.verifyProof P ctx proofType version inputsHash inclusion w =
      .ok (leaf, w')) : w'.holdings = w.holdings := by
  unfold Sip10ZkVerifier.verifyProof at h
  simp only [↓bind_ok, ↓exists_onRegistry, ↓exists_checkActive, ↓exists_read,
    onSip10ZkVerifier_ok, record_ok, pure_ok] at h
  obtain ⟨-, _, _, ⟨_, -, rfl⟩, _, _, rfl, -, rfl⟩ := h
  rfl

theorem holdings_record {event : Event} (h : record event w = .ok (u, w')) :
    w'.holdings = w.holdings := by
  rw [← record_ok.mp h]
  rfl

/-! ## Steps on one asset -/

/-- Code of the asset ran, with `payer` as the transaction sender whenever tokens were
asked to move some: the surplus has grown by `gain`, and other accounts, the STX and
what others hold of the token were left alone. -/
structure Moves (id : Nat) (token payer : Principal) (gain : ℤ) (w w' : World) : Prop where
  surplus : (w'.account id token).surplus = (w.account id token).surplus + gain
  spared : ∀ who, who ≠ payer → (w.tokens token).balances who ≤ (w'.tokens token).balances who
  apart : ∀ other called, other ≠ id → called ≠ token →
    w'.account other called = w.account other called
  stx : w'.stx = w.stx
  total : w'.registry.protocolStatistics.totalShieldedStx =
    w.registry.protocolStatistics.totalShieldedStx

namespace Moves

variable {payer : Principal} {gain gain' : ℤ} {v : World}

theorem of_holdings (h : w'.holdings = w.holdings) : Moves id token payer 0 w w' where
  surplus := by rw [account_of_holdings h, Int.add_zero]
  spared who _ := (congrArg (fun holdings => (holdings.tokens token).balances who) h).ge
  apart other called _ _ := account_of_holdings h other called
  stx := congrArg Holdings.stx h
  total := congrArg Holdings.totalShieldedStx h

theorem refl (w : World) : Moves id token payer 0 w w := of_holdings rfl

theorem of_eq (h : Moves id token payer gain w w') (heq : gain = gain') :
    Moves id token payer gain' w w' :=
  heq ▸ h

theorem trans (huv : Moves id token payer gain v w) (hvw : Moves id token payer gain' w w') :
    Moves id token payer (gain + gain') v w' where
  surplus := by rw [hvw.surplus, huv.surplus, Int.add_assoc]
  spared who hwho := (huv.spared who hwho).trans (hvw.spared who hwho)
  apart other called hother hcalled :=
    (hvw.apart other called hother hcalled).trans (huv.apart other called hother hcalled)
  stx := hvw.stx.trans huv.stx
  total := hvw.total.trans huv.total

theorem before (h : w.holdings = v.holdings) (hrest : Moves id token payer gain w w') :
    Moves id token payer gain v w' :=
  ((of_holdings h).trans hrest).of_eq (Int.zero_add gain)

theorem after (hfirst : Moves id token payer gain v w) (h : w'.holdings = w.holdings) :
    Moves id token payer gain v w' :=
  (hfirst.trans (of_holdings h)).of_eq (Int.add_zero gain)

end Moves

/-- The token was called and gave the pool `gain`. -/
theorem LedgerCall.moves {payer : Principal} {gain : ℤ} (h : LedgerCall token payer w w')
    (hgain : ((w'.tokens token).balances .sip10Pool : ℤ) =
      (w.tokens token).balances .sip10Pool + gain) : Moves id token payer gain w w' := by
  have hspared := h.balances
  obtain ⟨ledger, rfl⟩ := h.world
  refine ⟨?_, hspared, fun other called _ hcalled => ?_, rfl, rfl⟩
  · simp only [World.account, AssetAccount.surplus] at hgain ⊢
    omega
  · simp only [World.account, Function.update_of_ne hcalled]

namespace HonestToken

variable {env : Env} {execute : Executor} {value : Nat}

/-- A transfer moves what it says, for the pool as for everyone. -/
theorem transfer_moves (hhonest : HonestToken env token) {amount : Nat}
    {sender recipient : Principal}
    (h : callToken env execute token ctx (.transfer amount sender recipient) w = .ok (value, w')) :
    Moves id token ctx.txSender
      ((if recipient = .sip10Pool then (amount : ℤ) else 0) -
        (if sender = .sip10Pool then (amount : ℤ) else 0)) w w' := by
  obtain ⟨-, -, hmoved⟩ := hhonest.transferred h
  have hpool := hmoved .sip10Pool
  refine (hhonest.call h).moves ?_
  by_cases hsender : sender = .sip10Pool <;> by_cases hrecipient : recipient = .sip10Pool <;>
    simp only [hsender, hrecipient, eq_comm, if_true, if_false] at hpool ⊢ <;> omega

/-- Asking for a balance moves nothing, whoever asks. -/
theorem getBalance_moves (hhonest : HonestToken env token) {payer who : Principal}
    (h : callToken env execute token ctx (.getBalance who) w = .ok (value, w')) :
    Moves id token payer 0 w w' := by
  obtain ⟨-, hsame⟩ := hhonest.reported h
  have hcall : LedgerCall token payer w w' :=
    ⟨(hhonest.call h).world, fun who _ => (congrFun hsame who).ge⟩
  exact hcall.moves (by rw [hsame, Int.add_zero])

theorem getDecimals_moves (hhonest : HonestToken env token) {payer : Principal}
    (h : callToken env execute token ctx .getDecimals w = .ok (value, w')) :
    Moves id token payer 0 w w' := by
  have hsame := hhonest.described h
  have hcall : LedgerCall token payer w w' :=
    ⟨(hhonest.call h).world, fun who _ => (congrFun hsame who).ge⟩
  exact hcall.moves (by rw [hsame, Int.add_zero])

end HonestToken

/-! ## Entries of the contracts -/

/-- An entry of the fee contract for the asset follows. -/
theorem Moves.posted {payer : Principal} {gain : ℤ} {mid : World} {treasury : Treasury}
    {fees : Sip10ProtocolFees} (h : Moves id token payer gain w mid)
    (htreasury : fees.assetTreasury = mid.sip10ProtocolFees.assetTreasury.insert id treasury)
    (hstats : ∀ other feeType, other ≠ id → fees.assetFeeStats.lookup (other, feeType) =
      mid.sip10ProtocolFees.assetFeeStats.lookup (other, feeType)) :
    Moves id token payer gain w { mid with sip10ProtocolFees := fees } where
  surplus := h.surplus
  spared := h.spared
  apart other called hother hcalled := by
    have hsame := Sip10ProtocolFees.getAssetTreasury_insert htreasury other
    rw [if_neg hother] at hsame
    rw [← h.apart other called hother hcalled]
    simp only [World.account, hsame, hstats other _ hother]
  stx := h.stx
  total := h.total

/-- A new shielded total of the asset. -/
theorem moves_counted {payer : Principal} {total : Nat}
    (h : onSip10Pool (modify fun pool =>
      { pool with shieldedTotal := pool.shieldedTotal.insert id total }) w = .ok (u, w')) :
    Moves id token payer ((Sip10Pool.getShieldedTotal w.sip10Pool id : ℤ) - total) w w' := by
  simp only [onSip10Pool_ok, modify_ok] at h
  obtain ⟨_, rfl, rfl⟩ := h
  refine ⟨?_, fun _ _ => Nat.le_refl _, fun other called hother _ => ?_, rfl, rfl⟩
  · simp only [World.account, AssetAccount.surplus, Sip10Pool.getShieldedTotal,
      AList.lookup_insert, Option.getD_some]
    omega
  · simp only [World.account, Sip10Pool.getShieldedTotal, AList.lookup_insert_ne hother]

/-! ## Fees -/

section Operations

variable {env : Env} {execute : Executor} (hhonest : HonestToken env token)
include hhonest

namespace Sip10ProtocolFees

/-- A fee goes from the transaction sender to the fee contract. -/
theorem collectFee_moves {feeType amount value : Nat}
    (h : collectFee (callToken env execute) ctx id feeType amount token w = .ok (value, w')) :
    Moves id token ctx.txSender (0 - if ctx.txSender = .sip10Pool then (amount : ℤ) else 0)
      w w' := by
  unfold collectFee at h
  simp only [↓bind_ok, ↓exists_read, ↓exists_onRegistry, ↓exists_checkActive, ↓exists_require,
    ↓exists_unwrap, ↓orError_ok, ↓exists_addUint, onSip10ProtocolFees_ok, modify_ok, pure_ok] at h
  obtain ⟨asset, -, -, -, -, -, -, -, _, mid, hasked, -, -, -, _, _, ⟨_, rfl, rfl⟩, -, rfl⟩ := h
  have hmoved : Moves id token ctx.txSender
      (0 - if ctx.txSender = .sip10Pool then (amount : ℤ) else 0) w mid :=
    hhonest.transfer_moves hasked
  refine hmoved.posted rfl fun other otherType hother => ?_
  exact AList.lookup_insert_ne fun heq => hother (Prod.mk.inj heq).1

/-- The fee contract pays the asset's fee recipient, who may be the pool. -/
theorem withdrawFees_moves {amount : Nat}
    (h : withdrawFees (callToken env execute) ctx id amount token w = .ok (u, w')) :
    ∃ asset, w.assetRegistry.assets.lookup id = some asset ∧ asset.token = token ∧
      Moves id token .sip10ProtocolFees
        (if asset.feeRecipient = .sip10Pool then (amount : ℤ) else 0) w w' := by
  unfold withdrawFees at h
  simp only [↓bind_ok, ↓exists_read, ↓exists_require, ↓exists_unwrap, ↓orError_ok,
    ↓exists_addUint, ↓exists_subUint, onSip10ProtocolFees_ok, modify_ok] at h
  obtain ⟨asset, hasset, -, -, -, htoken, -, _, mid, hasked, -, -, _, rfl, rfl⟩ := h
  have hmoved : Moves id token .sip10ProtocolFees
      (if asset.feeRecipient = .sip10Pool then (amount : ℤ) else 0) w mid :=
    (hhonest.transfer_moves hasked).of_eq (Int.sub_zero _)
  exact ⟨asset, hasset, htoken.symm, hmoved.posted rfl fun _ _ _ => rfl⟩

end Sip10ProtocolFees

namespace Sip10Pool

variable {P : Primitives} {inclusion : Inclusion}

theorem poolBalance_moves {payer : Principal} {balance : Nat}
    (h : poolBalance (callToken env execute) ctx token w = .ok (balance, w')) :
    Moves id token payer 0 w w' := by
  obtain ⟨-, hrun⟩ := within_ok.mp h
  exact hhonest.getBalance_moves (orError_ok.mp hrun)

theorem payFee_moves {feeType fee : Nat}
    (h : payFee (callToken env execute) ctx id feeType fee token w = .ok (u, w')) :
    Moves id token ctx.txSender (0 - if ctx.txSender = .sip10Pool then (fee : ℤ) else 0) w w' := by
  unfold payFee at h
  simp only [ite_ok, bind_ok, pure_ok, within_ok] at h
  rcases h with ⟨-, _, _, ⟨-, hcollect⟩, -, rfl⟩ | ⟨hzero, -, rfl⟩
  · have hcollected := Sip10ProtocolFees.collectFee_moves hhonest hcollect
    exact hcollected
  · obtain rfl : fee = 0 := Nat.eq_zero_of_not_pos hzero
    exact (Moves.refl w).of_eq (by split <;> rfl)

/-- A fee that the user pays. -/
theorem payFee_moves_user (hctx : ctx.txSender ≠ .sip10Pool) {feeType fee : Nat}
    (h : payFee (callToken env execute) (ctx.calledBy .sip10Pool) id feeType fee token w =
      .ok (u, w')) : Moves id token ctx.txSender 0 w w' := by
  have hsender : (ctx.calledBy .sip10Pool).txSender ≠ .sip10Pool := hctx
  refine (payFee_moves hhonest h).of_eq ?_
  rw [if_neg hsender, Int.sub_zero]

/-- A fee out of a withdrawn amount. -/
theorem payFee_moves_pool {feeType fee : Nat}
    (h : payFee (callToken env execute) (ctx.asContract .sip10Pool) id feeType fee token w =
      .ok (u, w')) : Moves id token .sip10Pool (-fee) w w' := by
  have hsender : (ctx.asContract .sip10Pool).txSender = .sip10Pool := rfl
  refine (payFee_moves hhonest h).of_eq ?_
  rw [if_pos hsender, Int.zero_sub]

end Sip10Pool

end Operations

end StxShield
