import StxShield.Security.DoubleSpend
import StxShield.Security.LedgerAgreement

/-!
# Frozen notes

The note manager marks notes as frozen, spent or withdrawn, but the pools spend
notes through nullifiers and never ask it.  Its states follow the leaves only
as long as no leaf is spent.
-/

namespace StxShield

open Library Circuit

/-- The operation is a shield; the four others spend notes. -/
def Operation.isShield (op : Operation) : Bool :=
  match op.action with
  | .shield _ => true
  | _ => false

theorem Operation.isShield_iff (op : Operation) : op.isShield ↔ op.nullifiers = [] := by
  obtain ⟨currency, action⟩ := op
  cases action <;> simp [isShield, nullifiers]

variable {P : Primitives} {B : Builtins} {Q : Queries}

/-- Some performed operation spent the leaf. -/
def Consumed (P : Primitives) (B : Builtins) (Q : Queries) (ops : List Operation)
    (leaf : Buff32) : Prop :=
  ∃ op ∈ ops, ∃ nullifier, Consumes P B Q op nullifier leaf

/-- What the note manager says of its states, between a state of a run and a
later one. -/
structure StatesHonoured (P : Primitives) (B : Builtins) (Q : Queries) (w w' : World) : Prop where
  /-- A frozen note is not spent until it is reactivated. -/
  frozen : ∀ id record segment, w.noteManager.notes.lookup id = some record →
    record.state = .frozen → w'.history = segment ++ w.history →
    (∀ ctx registered,
      Event.called ctx (.noteManager (.reactivateNote id)) registered ∉ segment) →
    ¬ Consumed P B Q (performed segment) id
  /-- SPENT and WITHDRAWN are the notes whose leaf has been consumed. -/
  consumed : ∀ id record, w'.noteManager.notes.lookup id = some record →
    ((record.state = .spent ∨ record.state = .withdrawn) ↔
      Consumed P B Q (performed w'.history) id)

theorem Operation.mem_nullifiers_withdraw (currency : Currency) (args : WithdrawArgs) :
    args.nullifier ∈ (⟨currency, .withdraw args⟩ : Operation).nullifiers :=
  List.mem_cons_self

/-- A performed operation consumes a leaf under each of its nullifiers. -/
theorem Reachable.performed_consumes {env : Env} {w : World} (hreach : Reachable env w)
    (hfree : CollisionFree env.primitives B Q) (hsound : Sound env.primitives B Q w.history)
    {op : Operation} (hop : op ∈ performed w.history) {nullifier : Buff32}
    (hnullifier : nullifier ∈ op.nullifiers) : ∃ leaf, Consumes env.primitives B Q op nullifier leaf := by
  obtain ⟨version, hcompleted, hverified⟩ := hreach.logInvariant.verified op hop
  obtain ⟨tx, hrealizes⟩ := hsound.transaction hfree hcompleted hverified
  exact consumes_of_realizes hrealizes hnullifier

theorem not_consumed_of_shields {ops : List Operation} (hshields : ∀ op ∈ ops, op.isShield)
    (leaf : Buff32) : ¬ Consumed P B Q ops leaf := by
  rintro ⟨op, hop, nullifier, tx, hrealizes, input, hinput, hnullifier, -⟩
  have hnone : op.nullifiers = [] := op.isShield_iff.mp (hshields op hop)
  rw [hrealizes.nullifiers] at hnone
  have hempty : tx.inputs = [] := List.map_eq_nil_iff.mp hnone
  rw [hempty] at hinput
  exact List.not_mem_nil hinput

theorem performed_append (segment H : List Event) :
    performed (segment ++ H) = performed segment ++ performed H :=
  List.filterMap_append

/-- Whatever an operation of a run spent is a note of the note manager. -/
theorem Reachable.consumed_registered {env : Env} {w : World} (hreach : Reachable env w)
    (hfree : CollisionFree env.primitives B Q) (hsound : Sound env.primitives B Q w.history)
    (hwired : Wired B w.history) {op : Operation} (hop : op ∈ performed w.history)
    (hspends : op.nullifiers ≠ []) :
    ∃ id record, w.noteManager.notes.lookup id = some record ∧
      Consumed env.primitives B Q (performed w.history) id := by
  obtain ⟨nullifier, hnullifier⟩ := List.exists_mem_of_ne_nil _ hspends
  obtain ⟨leaf, tx, hrealizes, input, hinput, rfl, rfl⟩ :=
    hreach.performed_consumes hfree hsound hop hnullifier
  obtain ⟨poolStx, hsteps⟩ := hreach.steps
  obtain ⟨coins, hinvariant⟩ := Invariant.run hfree hsound hwired (hsteps _ (List.Subset.refl _))
  have hregistered : fieldBuff input.2 ∈ (w.state []).registry.nullifiers :=
    hreach.logInvariant.nullifiers.mem _ (List.mem_flatMap.mpr ⟨op, hop, hnullifier⟩)
  obtain ⟨coin, hcoin, hnullifies⟩ := hinvariant.tree.nullifiers _ hregistered
  have hspend := tx.spends input hinput
  -- the spent coin and the one the registry knows of have one nullifier
  have hsame : input.1 = coin := hfree.nullified_eq hspend.opened
    (hinvariant.tree.opened coin hcoin) (nullifies_of_spend hspend) hnullifies
  have hleaf : leafOf B input.1 ∈ w.books.commitments :=
    hsame ▸ hinvariant.tree.leaf_mem hcoin
  have hnote := ((hreach.agree hwired.toGuarded).notes _).mpr hleaf
  obtain ⟨record, hlookup⟩ := DataMap.mem_iff_lookup.mp hnote
  exact ⟨_, record, hlookup, op, hop, _, tx, hrealizes, input, hinput, rfl, rfl⟩

namespace Sample

def freeze : Call := .noteManager (.freezeNote (leafOf builtins stxCoin))

/-- The note of the shielded STX has been frozen. -/
def frozen : World := transact env 1 (sentBy owner) freeze interleaved

/-- It has been withdrawn all the same. -/
def frozenWithdrawn : World := transact env 1 (sentBy alice) callWithdrawStx frozen

theorem frozen_reachable : Reachable env frozen :=
  interleaved_reachable.transact owner_topLevel 1 freeze

theorem frozen_continues : Continues env frozen frozenWithdrawn :=
  .single ⟨_, alice_topLevel, 1, callWithdrawStx, rfl⟩

theorem frozenWithdrawn_expected : frozenWithdrawn.history.all expected := by decide +kernel

def reactivates : Event → Bool
  | .called _ (.noteManager (.reactivateNote _)) _ => true
  | _ => false

/-- Whatever spends under the nullifier of the shielded STX spends their leaf. -/
theorem stxCoin_consumed {op : Operation} {leaf : Buff32}
    (h : Consumes primitives builtins queries op withdrawArgs.nullifier leaf) :
    leaf = leafOf builtins stxCoin := by
  obtain ⟨tx, -, input, hinput, hnullifier, rfl⟩ := h
  have hspend := tx.spends input hinput
  have hopened : ∀ query ∈ stxCoin.queries builtins, query ∈ poseidon := by decide +kernel
  have howned : Nullifies builtins withdrawArgs.nullifier stxCoin :=
    ⟨11, by decide +kernel, rfl⟩
  have hcoin : input.1 = stxCoin := collisionFree.nullified_eq hspend.opened hopened
    (hnullifier ▸ nullifies_of_spend hspend) howned
  rw [hcoin]

end Sample

end StxShield
