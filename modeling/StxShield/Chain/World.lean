import StxShield.Chain.Interface

/-!
# The chain state

One `World` holds the storage of the ten contracts, the STX ledger, and a
ledger with private memory for every token contract.  Its `history` records,
latest first, which statements were verified, which operations took effect and
which calls reached the protocol from outside; no contract can read it.
-/

namespace StxShield

open Library Exec

/-- The state of a token contract: the balances it reports and anything else. -/
structure TokenLedger where
  balances : Principal → Nat
  memory : Nat

inductive Event where
  /-- `verifier` accepted a statement with this public-inputs hash. -/
  | proofVerified (verifier : Principal) (proofType : Nat) (publicInputsHash : Buff32)
  /-- An operation took effect, its statement bound to this circuit version. -/
  | completed (operation : Operation) (circuitVersion : Nat)
  /-- A call by a transaction or by token code returned; `registered` is the
  number of commitments when it started. -/
  | called (ctx : Ctx) (call : Call) (registered : Nat)

structure World where
  registry : PrivacyRegistry
  noteManager : NoteManager
  zkVerifier : Verifier
  protocolFees : ProtocolFees
  privacyPool : PrivacyPool
  splitMergeManager : SplitMergeManager
  assetRegistry : AssetRegistry
  sip10ProtocolFees : Sip10ProtocolFees
  sip10ZkVerifier : Sip10Verifier
  sip10Pool : Sip10Pool
  stx : Principal → Nat
  tokens : Principal → TokenLedger
  history : List Event

namespace World

variable {α : Type} {w w' : World} {a : α}

/-! ## Computations on one contract's storage -/

def onRegistry (m : Exec PrivacyRegistry α) : Exec World α :=
  zoom World.registry (fun storage w => { w with registry := storage }) m

def onNoteManager (m : Exec NoteManager α) : Exec World α :=
  zoom World.noteManager (fun storage w => { w with noteManager := storage }) m

def onZkVerifier (m : Exec Verifier α) : Exec World α :=
  zoom World.zkVerifier (fun storage w => { w with zkVerifier := storage }) m

def onProtocolFees (m : Exec ProtocolFees α) : Exec World α :=
  zoom World.protocolFees (fun storage w => { w with protocolFees := storage }) m

def onPrivacyPool (m : Exec PrivacyPool α) : Exec World α :=
  zoom World.privacyPool (fun storage w => { w with privacyPool := storage }) m

def onSplitMergeManager (m : Exec SplitMergeManager α) : Exec World α :=
  zoom World.splitMergeManager (fun storage w => { w with splitMergeManager := storage }) m

def onAssetRegistry (m : Exec AssetRegistry α) : Exec World α :=
  zoom World.assetRegistry (fun storage w => { w with assetRegistry := storage }) m

def onSip10ProtocolFees (m : Exec Sip10ProtocolFees α) : Exec World α :=
  zoom World.sip10ProtocolFees (fun storage w => { w with sip10ProtocolFees := storage }) m

def onSip10ZkVerifier (m : Exec Sip10Verifier α) : Exec World α :=
  zoom World.sip10ZkVerifier (fun storage w => { w with sip10ZkVerifier := storage }) m

def onSip10Pool (m : Exec Sip10Pool α) : Exec World α :=
  zoom World.sip10Pool (fun storage w => { w with sip10Pool := storage }) m

def record (event : Event) : Exec World Unit :=
  modify fun w => { w with history := event :: w.history }

@[simp]
theorem onRegistry_ok {m : Exec PrivacyRegistry α} :
    onRegistry m w = .ok (a, w') ↔
      ∃ storage, m w.registry = .ok (a, storage) ∧ { w with registry := storage } = w' :=
  zoom_ok

@[simp]
theorem onNoteManager_ok {m : Exec NoteManager α} :
    onNoteManager m w = .ok (a, w') ↔
      ∃ storage, m w.noteManager = .ok (a, storage) ∧ { w with noteManager := storage } = w' :=
  zoom_ok

@[simp]
theorem onZkVerifier_ok {m : Exec Verifier α} :
    onZkVerifier m w = .ok (a, w') ↔
      ∃ storage, m w.zkVerifier = .ok (a, storage) ∧ { w with zkVerifier := storage } = w' :=
  zoom_ok

@[simp]
theorem onProtocolFees_ok {m : Exec ProtocolFees α} :
    onProtocolFees m w = .ok (a, w') ↔
      ∃ storage, m w.protocolFees = .ok (a, storage) ∧ { w with protocolFees := storage } = w' :=
  zoom_ok

@[simp]
theorem onPrivacyPool_ok {m : Exec PrivacyPool α} :
    onPrivacyPool m w = .ok (a, w') ↔
      ∃ storage, m w.privacyPool = .ok (a, storage) ∧ { w with privacyPool := storage } = w' :=
  zoom_ok

@[simp]
theorem onSplitMergeManager_ok {m : Exec SplitMergeManager α} :
    onSplitMergeManager m w = .ok (a, w') ↔
      ∃ storage, m w.splitMergeManager = .ok (a, storage) ∧
        { w with splitMergeManager := storage } = w' :=
  zoom_ok

@[simp]
theorem onAssetRegistry_ok {m : Exec AssetRegistry α} :
    onAssetRegistry m w = .ok (a, w') ↔
      ∃ storage, m w.assetRegistry = .ok (a, storage) ∧ { w with assetRegistry := storage } = w' :=
  zoom_ok

@[simp]
theorem onSip10ProtocolFees_ok {m : Exec Sip10ProtocolFees α} :
    onSip10ProtocolFees m w = .ok (a, w') ↔
      ∃ storage, m w.sip10ProtocolFees = .ok (a, storage) ∧
        { w with sip10ProtocolFees := storage } = w' :=
  zoom_ok

@[simp]
theorem onSip10ZkVerifier_ok {m : Exec Sip10Verifier α} :
    onSip10ZkVerifier m w = .ok (a, w') ↔
      ∃ storage, m w.sip10ZkVerifier = .ok (a, storage) ∧
        { w with sip10ZkVerifier := storage } = w' :=
  zoom_ok

@[simp]
theorem onSip10Pool_ok {m : Exec Sip10Pool α} :
    onSip10Pool m w = .ok (a, w') ↔
      ∃ storage, m w.sip10Pool = .ok (a, storage) ∧ { w with sip10Pool := storage } = w' :=
  zoom_ok

@[simp]
theorem record_ok {event : Event} {u : Unit} :
    record event w = .ok (u, w') ↔ { w with history := event :: w.history } = w' :=
  modify_ok

/-! ## Ledgers -/

/-- The balances after `amount` moved from `sender` to `recipient`. -/
def moved (balances : Principal → Nat) (amount : Nat) (sender recipient : Principal) :
    Principal → Nat := fun who =>
  if who = sender then balances who - amount
  else if who = recipient then balances who + amount
  else balances who

section Moved

variable {balances : Principal → Nat} {amount : Nat} {sender recipient who : Principal}

theorem moved_sender : moved balances amount sender recipient sender = balances sender - amount :=
  if_pos rfl

theorem moved_recipient (hne : sender ≠ recipient) :
    moved balances amount sender recipient recipient = balances recipient + amount := by
  unfold moved
  rw [if_neg hne.symm, if_pos rfl]

theorem moved_other (hsender : who ≠ sender) (hrecipient : who ≠ recipient) :
    moved balances amount sender recipient who = balances who := by
  unfold moved
  rw [if_neg hsender, if_neg hrecipient]

end Moved

/-- `stx-transfer?`: only the transaction sender can send its STX. -/
def stxTransfer (ctx : Ctx) (amount : Nat) (sender recipient : Principal) : Exec World Unit := do
  let w ← read
  require (0 < amount) 3
  require (sender ≠ recipient) 2
  require (sender = ctx.txSender) 4
  require (amount ≤ w.stx sender) 1
  modify fun w => { w with stx := moved w.stx amount sender recipient }

/-- What a successful STX transfer did. -/
theorem stxTransfer_ok {ctx : Ctx} {amount : Nat} {sender recipient : Principal} {u : Unit} :
    stxTransfer ctx amount sender recipient w = .ok (u, w') ↔
      0 < amount ∧ sender ≠ recipient ∧ sender = ctx.txSender ∧ amount ≤ w.stx sender ∧
        { w with stx := moved w.stx amount sender recipient } = w' := by
  unfold stxTransfer
  simp only [↓bind_ok, ↓exists_read, ↓exists_require, modify_ok]

end World

/-- Runs a function of a token contract in a calling context; the number is the
value its response carries. -/
abbrev TokenCode : Type := Principal → Ctx → TokenFunction → Exec World Nat

/-- Run the body of a function.  Clarity refuses to enter a function that is
already being executed. -/
def within {α : Type} (ctx : Ctx) (function : FunctionId) (body : Ctx → Exec World α) :
    Exec World α :=
  if function ∈ ctx.stack then abort else body (ctx.entering function)

theorem within_ok {α : Type} {ctx : Ctx} {function : FunctionId} {body : Ctx → Exec World α}
    {w w' : World} {a : α} :
    within ctx function body w = .ok (a, w') ↔
      function ∉ ctx.stack ∧ body (ctx.entering function) w = .ok (a, w') := by
  unfold within
  split
  case isTrue h => simp [h]
  case isFalse h => simp [h]

end StxShield
