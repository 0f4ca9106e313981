import StxShield.Effects.PrivacyRegistry
import StxShield.Protocol.Operation
import Mathlib.Logic.Relation

/-!
# The protocol as a machine

The abstract machine behind the contracts.  An operation begins by checking
its root, and commits when its nullifiers and commitments are registered;
between the two, token code may have begun and committed other operations.
-/

namespace StxShield

open Library PrivacyRegistry

/-- An operation that has checked its root and not yet committed: the asset id
it looked up and the number of commitments registered when it began. -/
structure Pending where
  operation : Operation
  assetUid : Nat
  registered : Nat

/-! ## Effects of an operation -/

/-- The registry after an operation: its leaves and nullifiers appended, its
root current, its amount counted if it is about STX. -/
def PrivacyRegistry.RegistryLedger.commit (registry : RegistryLedger) (op : Operation) :
    RegistryLedger :=
  { registry with
    leaves := registry.leaves ++ op.commitments
    registered := registry.registered + op.commitments.length
    nullifiers := registry.nullifiers ++ op.nullifiers
    roots :=
      match op.extension with
      | some (root, _) => insert root registry.roots
      | none => registry.roots
    currentRoot :=
      match op.extension with
      | some (root, _) => root
      | none => registry.currentRoot
    totalShieldedStx :=
      match op.currency with
      | .stx => registry.totalShieldedStx + op.deposit - op.payout
      | .sip10 _ => registry.totalShieldedStx }

/-- The shielded totals of the assets after an operation. -/
def Pending.shieldedTotal (p : Pending) (totals : Nat → Nat) : Nat → Nat :=
  match p.operation.currency with
  | .stx => totals
  | .sip10 _ =>
      Function.update totals p.assetUid
        (totals p.assetUid + p.operation.deposit - p.operation.payout)

/-- The pool's STX after an operation. -/
def Operation.poolStx (op : Operation) (balance : Nat) : Nat :=
  match op.currency with
  | .stx => balance + op.deposit - op.payout
  | .sip10 _ => balance

/-! ## States -/

/-- Which tokens are registered, under which ids. -/
@[ext]
structure AssetTable where
  idOf : Principal → Option Nat
  tokenOf : Nat → Option Principal
  nextId : Nat

namespace AssetTable

def insert (table : AssetTable) (id : Nat) (token : Principal) : AssetTable where
  idOf := Function.update table.idOf token (some id)
  tokenOf := Function.update table.tokenOf id (some token)
  nextId := id + 1

def register (table : AssetTable) (token : Principal) : AssetTable :=
  table.insert table.nextId token

/-- Ids are below the next one, and lead back to their token. -/
structure Consistent (table : AssetTable) : Prop where
  lt : ∀ token id, table.idOf token = some id → id < table.nextId
  back : ∀ token id, table.idOf token = some id → table.tokenOf id = some token

variable {table : AssetTable} {token other : Principal} {id : Nat}

theorem Consistent.injective (h : table.Consistent) (htoken : table.idOf token = some id)
    (hother : table.idOf other = some id) : token = other :=
  Option.some.inj ((h.back _ _ htoken).symm.trans (h.back _ _ hother))

/-- An id once given is kept. -/
theorem register_idOf (hfresh : table.idOf token = none) (hother : table.idOf other = some id) :
    (table.register token).idOf other = some id := by
  have hne : other ≠ token := by
    rintro rfl
    rw [hfresh] at hother
    cases hother
  exact (Function.update_of_ne hne _ _).trans hother

/-- After a registration an id is the new one or an old one. -/
theorem register_cases (hother : (table.register token).idOf other = some id) :
    other = token ∧ id = table.nextId ∨ other ≠ token ∧ table.idOf other = some id := by
  by_cases heq : other = token
  · subst heq
    exact .inl ⟨rfl, (Option.some.inj (by simpa [register, insert] using hother)).symm⟩
  · exact .inr ⟨heq, by simpa [register, insert, Function.update_of_ne heq] using hother⟩

theorem Consistent.register (h : table.Consistent) (token : Principal) :
    (table.register token).Consistent where
  lt other id hother := by
    rcases register_cases hother with ⟨-, rfl⟩ | ⟨-, hold⟩
    · exact Nat.lt_succ_self _
    · exact Nat.lt_succ_of_lt (h.lt _ _ hold)
  back other id hother := by
    rcases register_cases hother with ⟨rfl, rfl⟩ | ⟨-, hold⟩
    · exact Function.update_self _ _ _
    · have hne : id ≠ table.nextId := Nat.ne_of_lt (h.lt _ _ hold)
      exact (Function.update_of_ne hne _ _).trans (h.back _ _ hold)

/-- Every record belongs to the token that has its id. -/
def Listed (table : AssetTable) : Prop :=
  ∀ id token, table.tokenOf id = some token → table.idOf token = some id

theorem Listed.register (h : table.Listed) (hfresh : table.idOf token = none) :
    (table.register token).Listed := by
  intro id other hother
  by_cases heq : id = table.nextId
  · subst heq
    have htoken : token = other := by
      simpa [AssetTable.register, insert] using hother
    subst htoken
    simp [AssetTable.register, insert]
  · have hold : table.tokenOf id = some other := by
      simpa [AssetTable.register, insert, Function.update_of_ne heq] using hother
    exact register_idOf hfresh (h _ _ hold)

end AssetTable

/-- The ids the registry has given out. -/
def AssetRegistry.table (assets : AssetRegistry) : AssetTable where
  idOf token := assets.getAssetIdByPrincipal token
  tokenOf id := (assets.assets.lookup id).map Asset.token
  nextId := assets.nextAssetId

/-- The abstract state. -/
@[ext]
structure State where
  registry : RegistryLedger
  assets : AssetTable
  shieldedTotal : Nat → Nat
  poolStx : Nat
  /-- STX sent to the pool outside shield. -/
  received : Nat
  /-- The operations committed so far, latest first. -/
  log : List Operation
  /-- Begun and not yet committed, innermost first. -/
  pending : List Pending

/-! ## Reading the machine off the chain -/

/-- Nobody but the protocol's contracts is made an authorised caller. -/
structure Guarded (H : List Event) : Prop where
  authorized : ∀ ctx caller registered,
    Event.called ctx (.privacyRegistry (.addAuthorizedCaller caller)) registered ∈ H →
    caller.isProtocol = true

/-- The STX a call sends to the pool other than by shielding. -/
def Call.stxReceived : Call → Nat
  | .stxTransfer amount _ .privacyPool => amount
  | .protocolFees (.withdrawFees amount .privacyPool) => amount
  | _ => 0

def Event.stxReceived : Event → Nat
  | .called _ call _ => call.stxReceived
  | _ => 0

/-- All STX sent to the pool outside shield, in a history. -/
def stxReceived (H : List Event) : Nat := (H.map Event.stxReceived).sum

def Event.operation? : Event → Option Operation
  | .completed operation _ => some operation
  | _ => none

/-- The operation a recorded call performed. -/
def Event.performed? : Event → Option Operation
  | .called _ call _ => call.operation?
  | _ => none

/-- The operations performed by the calls in a history, latest first. -/
def performed (H : List Event) : List Operation := H.filterMap Event.performed?

/-- The part of the chain that value operations and tokens work on. -/
@[ext]
structure Footprint where
  registry : RegistryLedger
  assets : AssetTable
  shieldedTotal : Nat → Nat
  poolStx : Nat
  tokens : Principal → TokenLedger
  history : List Event

def World.footprint (w : World) : Footprint where
  registry := w.registry.ledger
  assets := w.assetRegistry.table
  shieldedTotal assetUid := w.sip10Pool.getShieldedTotal assetUid
  poolStx := w.stx .privacyPool
  tokens := w.tokens
  history := w.history

/-- The abstract state of a chain state, with the given operations pending. -/
def Footprint.state (footprint : Footprint) (pending : List Pending) : State where
  registry := footprint.registry
  assets := footprint.assets
  shieldedTotal := footprint.shieldedTotal
  poolStx := footprint.poolStx
  received := stxReceived footprint.history
  log := footprint.history.filterMap Event.operation?
  pending := pending

section

variable (f : Footprint) (pending : List Pending)

@[simp] theorem Footprint.state_registry : (f.state pending).registry = f.registry := rfl
@[simp] theorem Footprint.state_assets : (f.state pending).assets = f.assets := rfl
@[simp] theorem Footprint.state_shieldedTotal :
    (f.state pending).shieldedTotal = f.shieldedTotal := rfl
@[simp] theorem Footprint.state_poolStx : (f.state pending).poolStx = f.poolStx := rfl

end

abbrev World.state (w : World) (pending : List Pending) : State := w.footprint.state pending

/-! ## Steps -/

namespace State

/-- The shielded total an operation works on. -/
def total (s : State) (p : Pending) : Nat :=
  match p.operation.currency with
  | .stx => s.registry.totalShieldedStx
  | .sip10 _ => s.shieldedTotal p.assetUid

/-- What an operation checks before anything else happens. -/
structure Checks (s : State) (p : Pending) : Prop where
  registered : p.registered = s.registry.registered
  known : p.operation.declaredRoot ∈ s.registry.roots
  current : p.operation.extension.isSome →
    p.operation.declaredRoot = s.registry.currentRoot
  asset : ∀ token, p.operation.currency = .sip10 token → s.assets.idOf token = some p.assetUid

/-- What holds where an operation's effects are registered. -/
structure Registers (s : State) (p : Pending) : Prop where
  nullifiers_fresh : ∀ nullifier ∈ p.operation.nullifiers, nullifier ∉ s.registry.nullifiers
  nullifiers_nodup : p.operation.nullifiers.Nodup
  commitments_fresh : ∀ commitment ∈ p.operation.commitments, commitment ∉ s.registry.leaves
  commitments_nodup : p.operation.commitments.Nodup
  extension : ∀ root index, p.operation.extension = some (root, index) →
    index = s.registry.registered ∧ root ∉ s.registry.roots
  covered : p.operation.payout ≤ s.total p
  paid : p.operation.currency = .stx → p.operation.payout ≤ s.poolStx

/-- The state after an operation's effects. -/
def commit (s : State) (p : Pending) (rest : List Pending) : State :=
  { s with
    registry := s.registry.commit p.operation
    shieldedTotal := p.shieldedTotal s.shieldedTotal
    poolStx := p.operation.poolStx s.poolStx
    log := p.operation :: s.log
    pending := rest }

end State

/-- One step of the protocol.  `H` is the history of the run the step belongs
to: the statements verified and the calls made in it. -/
inductive Step (P : Primitives) (H : List Event) : State → State → Prop where
  | begin {s : State} {p : Pending} {ctx : Ctx} {call : Call}
      (hcalled : Event.called ctx call p.registered ∈ H)
      (hcall : call.operation? = some p.operation) (h : s.Checks p) :
      Step P H s { s with pending := p :: s.pending }
  | commit {s : State} {p : Pending} {rest : List Pending} {version : Nat}
      (hpending : s.pending = p :: rest) (hcompleted : Event.completed p.operation version ∈ H)
      (hverified : Event.proofVerified p.operation.verifier p.operation.proofType
        (P.keccak256 (p.operation.inputs P version)) ∈ H)
      (h : s.Registers p) : Step P H s (s.commit p rest)
  /-- A call of a registry function from outside the protocol. -/
  | registry {s : State} {ctx : Ctx} {call : PrivacyRegistry.Call} {registered : Nat}
      {after : RegistryLedger} (hcaller : ctx.contractCaller.isProtocol = false)
      (hcalled : Event.called ctx (.privacyRegistry call) registered ∈ H)
      (h : CallEffect ctx.contractCaller call s.registry after) :
      Step P H s { s with registry := after }
  | registerAsset {s : State} {ctx : Ctx} {args : RegisterAssetArgs} {registered : Nat}
      (hcalled : Event.called ctx (.assetRegistry (.registerAsset args)) registered ∈ H)
      (hfresh : s.assets.idOf args.token = none) :
      Step P H s { s with assets := s.assets.register args.token }
  /-- STX reaches the pool other than by shielding. -/
  | receive {s : State} (amount : Nat) :
      Step P H s
        { s with poolStx := s.poolStx + amount, received := s.received + amount }

/-- Any number of steps. -/
abbrev Steps (P : Primitives) (H : List Event) : State → State → Prop :=
  Relation.ReflTransGen (Step P H)

/-! ## Authorised callers and asset ids -/

variable {P : Primitives} {H : List Event} {s s' : State}

/-- The authorised callers are the protocol's own contracts. -/
def State.Guarded (s : State) : Prop := ∀ who, s.registry.authorized who → who.isProtocol = true

theorem Step.guarded (hguarded : StxShield.Guarded H) (h : s.Guarded) (hstep : Step P H s s') :
    s'.Guarded := by
  cases hstep with
  | begin => exact h
  | commit => exact h
  | registry hcaller hcalled heffect =>
      cases heffect with
      | quiet => exact h
      | authorized hauth =>
          rw [h _ hauth] at hcaller
          cases hcaller
      | root => exact h
      | allowlist hjoin =>
          intro who hwho
          rcases hjoin who hwho with hold | rfl
          · exact h who hold
          · exact hguarded.authorized _ _ _ hcalled
  | registerAsset => exact h
  | receive => exact h

/-- In a guarded state a registry call from outside changes no registration and
no total. -/
theorem State.Guarded.call_effect (h : s.Guarded) {ctx : Ctx} {call : PrivacyRegistry.Call}
    {after : RegistryLedger} (hcaller : ctx.contractCaller.isProtocol = false)
    (heffect : CallEffect ctx.contractCaller call s.registry after) :
    after.leaves = s.registry.leaves ∧ after.registered = s.registry.registered ∧
      after.nullifiers = s.registry.nullifiers ∧
      after.totalShieldedStx = s.registry.totalShieldedStx := by
  cases heffect with
  | quiet => exact ⟨rfl, rfl, rfl, rfl⟩
  | authorized hauth =>
      rw [h _ hauth] at hcaller
      cases hcaller
  | root => exact ⟨rfl, rfl, rfl, rfl⟩
  | allowlist => exact ⟨rfl, rfl, rfl, rfl⟩

/-- Asset ids are consistent in every run, whoever calls what. -/
theorem Step.assets_consistent (h : s.assets.Consistent) (hstep : Step P H s s') :
    s'.assets.Consistent := by
  cases hstep with
  | begin => exact h
  | commit => exact h
  | registry => exact h
  | registerAsset => exact h.register _
  | receive => exact h

theorem Step.assets_listed (h : s.assets.Listed) (hstep : Step P H s s') : s'.assets.Listed := by
  cases hstep with
  | begin => exact h
  | commit => exact h
  | registry => exact h
  | registerAsset _ hfresh => exact h.register hfresh
  | receive => exact h

end StxShield
