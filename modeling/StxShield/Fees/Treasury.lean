import StxShield.Fees.StxFees

/-!
# The STX treasury's accounts

Three counters, a map of totals per fee type, and the contract's own STX.  Every
collection and every withdrawal moves all of them together, and plain transfers
to the contract are all that the accounts do not see.
-/

namespace StxShield

open Library Exec World

variable {env : Env} {w w' : World} {ctx : Ctx}

namespace ProtocolFees

/-! ## The ledger -/

def feeTypes : List Nat := [1, 2, 3, 4]

/-- `get-fee-type-stats`. -/
def collectedOf (fees : ProtocolFees) (feeType : Nat) : Nat :=
  (fees.feeTypeStats.lookup feeType).getD 0

/-- The counters agree with each other. -/
structure Accounts (fees : ProtocolFees) : Prop where
  balanced : fees.treasury.balance + fees.treasury.totalWithdrawn = fees.treasury.totalCollected
  typed : (feeTypes.map fees.collectedOf).sum = fees.treasury.totalCollected

theorem collectedOf_credited (fees : ProtocolFees) (feeType amount other : Nat) :
    (credited fees feeType amount).collectedOf other =
      fees.collectedOf other + if other = feeType then amount else 0 := by
  unfold collectedOf credited
  rw [DataMap.lookup_insert_eq]
  split
  case isTrue heq => rw [heq, Option.getD_some]
  case isFalse => rfl

/-- A fee of a valid type is counted once. -/
theorem sum_collected_credited (fees : ProtocolFees) {feeType : Nat} (amount : Nat)
    (hvalid : isValidFeeType feeType) :
    (feeTypes.map (credited fees feeType amount).collectedOf).sum =
      (feeTypes.map fees.collectedOf).sum + amount := by
  simp only [feeTypes, List.map_cons, List.map_nil, List.sum_cons, List.sum_nil,
    collectedOf_credited]
  rcases hvalid with rfl | rfl | rfl | rfl <;> simp <;> omega

theorem Accounts.performed {fees fees' : ProtocolFees} {stx stx' : Principal → Nat}
    (h : Accounts fees) (hperformed : Performed fees stx fees' stx') : Accounts fees' := by
  have hbalanced := h.balanced
  cases hperformed with
  | configured => exact ⟨h.balanced, h.typed⟩
  | @collected payer feeType amount hvalid =>
      constructor
      · simp only [credited]
        omega
      · rw [sum_collected_credited fees amount hvalid, h.typed]
        rfl
  | withdrawn _ hbalance =>
      constructor
      · simp only [debited]
        omega
      · exact h.typed
  | frozen => exact ⟨h.balanced, h.typed⟩

theorem accounts_deployed : Accounts .deployed := ⟨rfl, rfl⟩

/-- The contract's STX and the accounted balance change by the same amount. -/
theorem Performed.held {fees fees' : ProtocolFees} {stx stx' : Principal → Nat}
    (h : Performed fees stx fees' stx') :
    stx' .protocolFees + fees.treasury.balance = stx .protocolFees + fees'.treasury.balance := by
  cases h with
  | configured => rfl
  | collected _ hpayer =>
      rw [moved_recipient hpayer]
      simp only [credited]
      omega
  | withdrawn _ hbalance hpaid =>
      rw [moved_sender]
      simp only [debited]
      omega
  | frozen => rfl

end ProtocolFees

/-! ## Gifts -/

/-- The STX a call sends to the fee contract without collecting a fee. -/
def Call.stxGiven : Call → Nat
  | .stxTransfer amount _ .protocolFees => amount
  | _ => 0

def Event.stxGiven : Event → Nat
  | .called _ call _ => call.stxGiven
  | _ => 0

/-- All STX sent to the fee contract outside `collect-fee`, in a history. -/
def stxGiven (H : List Event) : Nat := (H.map Event.stxGiven).sum

theorem stxGiven_cons (event : Event) (H : List Event) :
    stxGiven (event :: H) = event.stxGiven + stxGiven H := by
  simp only [stxGiven, List.map_cons, List.sum_cons]

/-- The accounts stay right, and the contract's STX beyond the accounted balance
grows by what is given. -/
structure TreasuryKept (w w' : World) : Prop where
  accounts : w.protocolFees.Accounts → w'.protocolFees.Accounts
  held : w'.stx .protocolFees + w.protocolFees.treasury.balance + stxGiven w.history =
    w.stx .protocolFees + w'.protocolFees.treasury.balance + stxGiven w'.history

theorem treasuryKept_of_eq (hfees : w'.protocolFees = w.protocolFees)
    (hstx : w'.stx .protocolFees = w.stx .protocolFees)
    (hgiven : stxGiven w'.history = stxGiven w.history) : TreasuryKept w w' where
  accounts h := hfees ▸ h
  held := by rw [hfees, hstx, hgiven]

theorem treasuryKept_closed : Closed TreasuryKept where
  refl _ := treasuryKept_of_eq rfl rfl rfl
  trans huv hvw := by
    have hfirst := huv.held
    have hsecond := hvw.held
    exact ⟨hvw.accounts ∘ huv.accounts, by omega⟩
  store _ _ _ _ := treasuryKept_of_eq rfl rfl rfl

/-- No other call gives the fee contract anything. -/
theorem stxGiven_eq_zero {call : Call}
    (hcall : ∀ amount sender, call ≠ .stxTransfer amount sender .protocolFees) :
    call.stxGiven = 0 := by
  cases call with
  | stxTransfer amount sender recipient =>
      cases recipient with
      | protocolFees => exact absurd rfl (hcall amount sender)
      | _ => rfl
  | _ => rfl

theorem treasuryKept_covers {call : Call}
    (hcall : ∀ amount sender, call ≠ .stxTransfer amount sender .protocolFees) :
    Covers call TreasuryKept where
  refl := treasuryKept_closed.refl
  trans := treasuryKept_closed.trans
  writes h := by
    cases h with
    | protocolFees hperformed =>
        exact ⟨fun h => h.performed hperformed, by rw [hperformed.held]⟩
    | @stx amount sender recipient hsender hgift hpaid =>
        have hrecipient : recipient ≠ .protocolFees := by
          rcases hgift with hne | rfl
          · exact hne
          · rintro rfl
            exact hcall amount sender rfl
        exact treasuryKept_of_eq rfl (moved_other hsender.symm hrecipient.symm) rfl
    | verified => exact treasuryKept_of_eq rfl rfl (stxGiven_cons _ _ |>.trans (Nat.zero_add _))
    | completed => exact treasuryKept_of_eq rfl rfl (stxGiven_cons _ _ |>.trans (Nat.zero_add _))
    | noteManager hrun =>
        obtain ⟨registry, manager, rfl, -⟩ := NoteManager.execute_frame hrun
        exact treasuryKept_of_eq rfl rfl rfl
    | _ => exact treasuryKept_of_eq rfl rfl rfl

/-- A plain transfer to the contract is recorded. -/
theorem gift_treasuryKept {tokens : TokenCode} {amount : Nat} {sender : Principal}
    {data : List Nat}
    (h : execCall env tokens ctx (.stxTransfer amount sender .protocolFees) w = .ok (data, w')) :
    TreasuryKept w w' := by
  obtain ⟨mid, hrun, rfl⟩ := execCall_ok.mp h
  obtain ⟨inner, hdispatch, hinner⟩ := withinCall_ok hrun
  simp only [dispatch, ↓bind_ok, pure_ok] at hdispatch
  obtain ⟨_, _, htransfer, -, rfl⟩ := hdispatch
  obtain ⟨-, hne, -, -, rfl⟩ := stxTransfer_ok.mp htransfer
  refine ⟨id, ?_⟩
  rw [stxGiven_cons]
  simp only [moved_recipient hne, Event.stxGiven, Call.stxGiven]
  omega

theorem exec_treasuryKept (env : Env) (depth : Nat) :
    CallsRespect StxSafe TreasuryKept (exec env depth) := by
  refine exec_respects treasuryKept_closed stxSafe_delegable ?_ depth
  intro depth htokens ctx call hctx _ w data w' h
  by_cases hgift : ∃ amount sender, call = .stxTransfer amount sender .protocolFees
  · obtain ⟨amount, sender, rfl⟩ := hgift
    exact gift_treasuryKept h
  · have hcall : ∀ amount sender, call ≠ .stxTransfer amount sender .protocolFees :=
      fun amount sender heq => hgift ⟨amount, sender, heq⟩
    have hrecorded (registered : Nat) (H : List Event) :
        stxGiven (.called ctx call registered :: H) = stxGiven H := by
      rw [stxGiven_cons, Event.stxGiven, stxGiven_eq_zero hcall, Nat.zero_add]
    cases execCall_writes (treasuryKept_covers hcall) htokens hctx h with
    | covered hmid =>
        exact treasuryKept_closed.trans hmid (treasuryKept_of_eq rfl rfl (hrecorded _ _))
    | registerAsset _ hmid hregisters =>
        refine treasuryKept_closed.trans hmid (treasuryKept_of_eq ?_ ?_ ?_)
        · rw [hregisters.written]
        · rw [hregisters.written]
        · rw [hrecorded, hregisters.written]

theorem Continues.treasuryKept (h : Continues env w w') : TreasuryKept w w' := by
  induction h with
  | refl => exact treasuryKept_closed.refl w
  | tail _ hstep ih =>
      obtain ⟨ctx, hctx, depth, call, rfl⟩ := hstep
      exact treasuryKept_closed.trans ih
        (transact_respects Ctx.TopLevel.stxSafe treasuryKept_closed.refl
          (exec_treasuryKept env depth) hctx call _)

/-- In every state that any sequence of transactions leads to: the accounted
balance is what was collected less what was withdrawn, the fee types account for
all that was collected, and the contract holds the accounted balance, what it
held at deployment, and exactly what was sent to it outside `collect-fee`. -/
theorem treasury_accounted (deployer : Principal) (stx : Principal → Nat)
    (tokens : Principal → TokenLedger)
    (h : Continues env (World.deployed deployer stx tokens) w) :
    w.protocolFees.treasury.totalWithdrawn ≤ w.protocolFees.treasury.totalCollected ∧
      w.protocolFees.treasury.balance =
        w.protocolFees.treasury.totalCollected - w.protocolFees.treasury.totalWithdrawn ∧
      (ProtocolFees.feeTypes.map w.protocolFees.collectedOf).sum =
        w.protocolFees.treasury.totalCollected ∧
      w.protocolFees.treasury.balance ≤ w.stx .protocolFees ∧
      w.stx .protocolFees =
        w.protocolFees.treasury.balance + stx .protocolFees + stxGiven w.history := by
  obtain ⟨haccounts, hheld⟩ := h.treasuryKept
  obtain ⟨hbalanced, htyped⟩ := haccounts ProtocolFees.accounts_deployed
  change _ + 0 + 0 = stx .protocolFees + _ + _ at hheld
  refine ⟨?_, ?_, htyped, ?_, ?_⟩ <;> omega

namespace Sample

/-- The treasury pays some of what it collected to the pool and cannot pay
itself; then it is given an STX. -/
def payments : List Call :=
  [.protocolFees (.withdrawFees 5000 .privacyPool),
    .protocolFees (.withdrawFees 5000 .protocolFees), .stxTransfer 1000000 owner .protocolFees]

/-- A withdrawal has been charged for, and the owner has made the payments. -/
def turnedOver : World :=
  transactAll Sample.env 1 (sentBy owner) payments
    (transact Sample.env 1 (sentBy alice) callWithdrawStx charged)

theorem turnedOver_continues : Continues Sample.env start turnedOver := by
  have hready : Continues Sample.env start ready :=
    Continues.transactAll .refl owner_topLevel 1 setup
  have hcharged : Continues Sample.env start charged :=
    (hready.transact alice_topLevel 2 callShieldToken).transactAll owner_topLevel 1 charges
  exact (hcharged.transact alice_topLevel 1 callWithdrawStx).transactAll owner_topLevel 1 payments

end Sample

/-- A fee, a payment and a gift. -/
theorem treasury_accounted_turnedOver :
    Sample.turnedOver.protocolFees.treasury =
        { totalCollected := 205000, totalWithdrawn := 5000, balance := 200000 } ∧
      Sample.turnedOver.stx .protocolFees =
        Sample.turnedOver.protocolFees.treasury.balance + 10000000 + 1000000 := by
  refine ⟨by decide +kernel, ?_⟩
  have hgiven : stxGiven Sample.turnedOver.history = 1000000 := by decide +kernel
  obtain ⟨-, -, -, -, hheld⟩ := treasury_accounted Sample.owner _ _ Sample.turnedOver_continues
  rw [hheld, hgiven]

end StxShield
