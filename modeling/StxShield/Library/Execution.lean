import Mathlib.Algebra.Ring.Nat
import Mathlib.Data.List.AList

/-!
# Fallible execution over a state

A computation reads and writes a state and either returns a value, fails with
an error code that a caller may observe, or aborts the whole transaction.  A
failing computation returns no state, so whatever it wrote is undone.  The
inversion lemmas below turn the success of a composed computation into the
facts its parts establish.
-/

namespace StxShield.Library

/-- How a computation fails: with an observable error code, or by aborting. -/
inductive Fault where
  | err (code : Nat)
  | abort
  deriving DecidableEq, Repr

/-- A computation on states of type `σ` that yields an `α`. -/
def Exec (σ α : Type) : Type := σ → Except Fault (α × σ)

namespace Exec

variable {σ τ α β : Type}

def ret (value : α) : Exec σ α := fun s => .ok (value, s)

def andThen (m : Exec σ α) (next : α → Exec σ β) : Exec σ β := fun s =>
  match m s with
  | .ok (value, s') => next value s'
  | .error fault => .error fault

instance : Monad (Exec σ) where
  pure := ret
  bind := andThen

def read : Exec σ σ := fun s => .ok (s, s)

def modify (f : σ → σ) : Exec σ Unit := fun s => .ok ((), f s)

def fail (code : Nat) : Exec σ α := fun _ => .error (.err code)

def abort : Exec σ α := fun _ => .error .abort

/-- Continue only when the condition holds. -/
def require (condition : Prop) [Decidable condition] (code : Nat) : Exec σ Unit :=
  fun s => if condition then .ok ((), s) else .error (.err code)

/-- The value of an option, or the given error. -/
def unwrap (value : Option α) (code : Nat) : Exec σ α := fun s =>
  match value with
  | some v => .ok (v, s)
  | none => .error (.err code)

/-- The values of an unsigned 128-bit integer lie below this bound. -/
def uintBound : Nat := 2 ^ 128

/-- Addition of unsigned integers: overflow aborts. -/
def addUint (left right : Nat) : Exec σ Nat := fun s =>
  if left + right < uintBound then .ok (left + right, s) else .error .abort

/-- Subtraction of unsigned integers: underflow aborts. -/
def subUint (left right : Nat) : Exec σ Nat := fun s =>
  if right ≤ left then .ok (left - right, s) else .error .abort

/-- Multiplication of unsigned integers: overflow aborts. -/
def mulUint (left right : Nat) : Exec σ Nat := fun s =>
  if left * right < uintBound then .ok (left * right, s) else .error .abort

/-- Replace whatever error code a computation fails with. -/
def orError (m : Exec σ α) (code : Nat) : Exec σ α := fun s =>
  match m s with
  | .error (.err _) => .error (.err code)
  | outcome => outcome

/-- Run a computation and hand its error code to the caller as a value; the
state it failed in is dropped, an abort is not caught. -/
def attempt (m : Exec σ α) : Exec σ (Except Nat α) := fun s =>
  match m s with
  | .ok (value, s') => .ok (.ok value, s')
  | .error (.err code) => .ok (.error code, s)
  | .error .abort => .error .abort

/-- Run a computation on one component of the state. -/
def zoom (get : σ → τ) (set : τ → σ → σ) (m : Exec τ α) : Exec σ α := fun s =>
  match m (get s) with
  | .ok (value, t) => .ok (value, set t s)
  | .error fault => .error fault

/-! ## Inversion of success -/

section Inversion

variable {s s' : σ} {a : α} {b : β} {m : Exec σ α} {code : Nat}

@[simp]
theorem pure_ok {c : β} : (pure b : Exec σ β) s = .ok (c, s') ↔ b = c ∧ s = s' := by
  change (Except.ok (b, s) : Except Fault (β × σ)) = .ok (c, s') ↔ _
  simp only [Except.ok.injEq, Prod.mk.injEq]

@[simp]
theorem bind_ok {next : α → Exec σ β} :
    (m >>= next) s = .ok (b, s') ↔
      ∃ value mid, m s = .ok (value, mid) ∧ next value mid = .ok (b, s') := by
  change andThen m next s = _ ↔ _
  unfold andThen
  cases hm : m s with
  | error fault => simp
  | ok outcome =>
      obtain ⟨value, mid⟩ := outcome
      constructor
      · intro h
        exact ⟨value, mid, rfl, h⟩
      · rintro ⟨value', mid', heq, h⟩
        cases heq
        exact h

@[simp]
theorem read_ok {seen : σ} : (read : Exec σ σ) s = .ok (seen, s') ↔ s = seen ∧ s = s' := by
  simp only [read, Except.ok.injEq, Prod.mk.injEq]

@[simp]
theorem modify_ok {f : σ → σ} {u : Unit} : modify f s = .ok (u, s') ↔ f s = s' := by
  simp only [modify, Except.ok.injEq, Prod.mk.injEq, true_and]

@[simp]
theorem fail_ok : (fail code : Exec σ α) s = .ok (a, s') ↔ False := by
  simp only [fail, reduceCtorEq]

@[simp]
theorem abort_ok : (abort : Exec σ α) s = .ok (a, s') ↔ False := by
  simp only [abort, reduceCtorEq]

@[simp]
theorem require_ok {condition : Prop} [Decidable condition] {u : Unit} :
    (require condition code : Exec σ Unit) s = .ok (u, s') ↔ condition ∧ s = s' := by
  unfold require
  split
  case isTrue h => simp [h]
  case isFalse h => simp [h]

@[simp]
theorem unwrap_ok {value : Option α} :
    (unwrap value code : Exec σ α) s = .ok (a, s') ↔ value = some a ∧ s = s' := by
  cases value with
  | none => simp [unwrap]
  | some v => simp [unwrap]

@[simp]
theorem addUint_ok {left right n : Nat} :
    (addUint left right : Exec σ Nat) s = .ok (n, s') ↔
      left + right < uintBound ∧ left + right = n ∧ s = s' := by
  unfold addUint
  split
  case isTrue h => simp [h]
  case isFalse h => simp [h]

@[simp]
theorem subUint_ok {left right n : Nat} :
    (subUint left right : Exec σ Nat) s = .ok (n, s') ↔
      right ≤ left ∧ left - right = n ∧ s = s' := by
  unfold subUint
  split
  case isTrue h => simp [h]
  case isFalse h => simp [h]

@[simp]
theorem mulUint_ok {left right n : Nat} :
    (mulUint left right : Exec σ Nat) s = .ok (n, s') ↔
      left * right < uintBound ∧ left * right = n ∧ s = s' := by
  unfold mulUint
  split
  case isTrue h => simp [h]
  case isFalse h => simp [h]

@[simp]
theorem orError_ok : orError m code s = .ok (a, s') ↔ m s = .ok (a, s') := by
  unfold orError
  split
  case h_1 h => simp [h]
  case h_2 => rfl

theorem attempt_ok {r : Except Nat α} (h : attempt m s = .ok (r, s')) :
    (∃ value, r = .ok value ∧ m s = .ok (value, s')) ∨ (∃ c, r = .error c ∧ s' = s) := by
  unfold attempt at h
  split at h
  case h_1 value mid hm =>
    cases h
    exact .inl ⟨value, rfl, hm⟩
  case h_2 c hm =>
    cases h
    exact .inr ⟨c, rfl, rfl⟩
  case h_3 => cases h

theorem zoom_ok {get : σ → τ} {set : τ → σ → σ} {m : Exec τ α} :
    zoom get set m s = .ok (a, s') ↔
      ∃ t, m (get s) = .ok (a, t) ∧ set t s = s' := by
  unfold zoom
  cases hm : m (get s) with
  | error fault => simp
  | ok outcome =>
      obtain ⟨value, t⟩ := outcome
      constructor
      · intro h
        cases h
        exact ⟨t, rfl, rfl⟩
      · rintro ⟨t', heq, rfl⟩
        cases heq
        rfl

@[simp]
theorem ite_ok {condition : Prop} [Decidable condition] {yes no : Exec σ α} :
    (if condition then yes else no) s = .ok (a, s') ↔
      (condition ∧ yes s = .ok (a, s')) ∨ (¬ condition ∧ no s = .ok (a, s')) := by
  split
  case isTrue h => simp [h]
  case isFalse h => simp [h]

end Inversion

/-! ## Stepping through a run

`bind_ok` turns the success of a sequence into nested existentials.  These
lemmas take the first step out of one; as rewrites applied from the outside in,
`simp only [↓bind_ok, ↓exists_read, …]`, they walk down a run and leave only
the calls in it.
-/

section Stepping

variable {s : σ} {code : Nat}

theorem exists_read {Q : σ → σ → Prop} :
    (∃ seen mid, (read : Exec σ σ) s = .ok (seen, mid) ∧ Q seen mid) ↔ Q s s := by
  constructor
  · rintro ⟨_, _, h, hq⟩
    obtain ⟨rfl, rfl⟩ := read_ok.mp h
    exact hq
  · intro hq
    exact ⟨s, s, rfl, hq⟩

theorem exists_modify {f : σ → σ} {Q : Unit → σ → Prop} :
    (∃ u mid, modify f s = .ok (u, mid) ∧ Q u mid) ↔ Q () (f s) := by
  constructor
  · rintro ⟨_, _, h, hq⟩
    obtain rfl := modify_ok.mp h
    exact hq
  · intro hq
    exact ⟨(), f s, rfl, hq⟩

theorem exists_require {condition : Prop} [Decidable condition] {Q : Unit → σ → Prop} :
    (∃ u mid, (require condition code : Exec σ Unit) s = .ok (u, mid) ∧ Q u mid) ↔
      condition ∧ Q () s := by
  constructor
  · rintro ⟨_, _, h, hq⟩
    obtain ⟨hcondition, rfl⟩ := require_ok.mp h
    exact ⟨hcondition, hq⟩
  · rintro ⟨hcondition, hq⟩
    exact ⟨(), s, require_ok.mpr ⟨hcondition, rfl⟩, hq⟩

theorem exists_unwrap {value : Option α} {Q : α → σ → Prop} :
    (∃ v mid, (unwrap value code : Exec σ α) s = .ok (v, mid) ∧ Q v mid) ↔
      ∃ v, value = some v ∧ Q v s := by
  constructor
  · rintro ⟨v, _, h, hq⟩
    obtain ⟨hsome, rfl⟩ := unwrap_ok.mp h
    exact ⟨v, hsome, hq⟩
  · rintro ⟨v, hsome, hq⟩
    exact ⟨v, s, unwrap_ok.mpr ⟨hsome, rfl⟩, hq⟩

theorem exists_addUint {left right : Nat} {Q : Nat → σ → Prop} :
    (∃ n mid, (addUint left right : Exec σ Nat) s = .ok (n, mid) ∧ Q n mid) ↔
      left + right < uintBound ∧ Q (left + right) s := by
  constructor
  · rintro ⟨_, _, h, hq⟩
    obtain ⟨hlt, rfl, rfl⟩ := addUint_ok.mp h
    exact ⟨hlt, hq⟩
  · rintro ⟨hlt, hq⟩
    exact ⟨_, s, addUint_ok.mpr ⟨hlt, rfl, rfl⟩, hq⟩

theorem exists_subUint {left right : Nat} {Q : Nat → σ → Prop} :
    (∃ n mid, (subUint left right : Exec σ Nat) s = .ok (n, mid) ∧ Q n mid) ↔
      right ≤ left ∧ Q (left - right) s := by
  constructor
  · rintro ⟨_, _, h, hq⟩
    obtain ⟨hle, rfl, rfl⟩ := subUint_ok.mp h
    exact ⟨hle, hq⟩
  · rintro ⟨hle, hq⟩
    exact ⟨_, s, subUint_ok.mpr ⟨hle, rfl, rfl⟩, hq⟩

end Stepping

/-! ## What a computation leaves alone -/

/-- No successful run of `m` changes what `f` reads off the state. -/
def Keeps (f : σ → β) (m : Exec σ α) : Prop :=
  ∀ s value s', m s = .ok (value, s') → f s' = f s

section Keeps

variable {γ : Type} {f : σ → γ} {m : Exec σ α} {code : Nat}

@[simp]
theorem keeps_pure (value : α) : Keeps f (pure value : Exec σ α) := by
  intro s v s' h
  obtain ⟨_, rfl⟩ := pure_ok.mp h
  rfl

@[simp]
theorem keeps_bind {next : α → Exec σ β} (hm : Keeps f m) (hnext : ∀ value, Keeps f (next value)) :
    Keeps f (m >>= next) := by
  intro s b s' h
  obtain ⟨value, mid, hfirst, hrest⟩ := bind_ok.mp h
  rw [hnext value mid b s' hrest, hm s value mid hfirst]

@[simp]
theorem keeps_read : Keeps f (read : Exec σ σ) := by
  intro s seen s' h
  obtain ⟨_, rfl⟩ := read_ok.mp h
  rfl

@[simp]
theorem keeps_modify {g : σ → σ} (h : ∀ s, f (g s) = f s) : Keeps f (modify g) := by
  intro s u s' hrun
  rw [← modify_ok.mp hrun]
  exact h s

@[simp]
theorem keeps_fail : Keeps f (fail code : Exec σ α) := by
  intro s v s' h
  exact (fail_ok.mp h).elim

@[simp]
theorem keeps_abort : Keeps f (abort : Exec σ α) := by
  intro s v s' h
  exact (abort_ok.mp h).elim

@[simp]
theorem keeps_require {condition : Prop} [Decidable condition] :
    Keeps f (require condition code : Exec σ Unit) := by
  intro s v s' h
  obtain ⟨_, rfl⟩ := require_ok.mp h
  rfl

@[simp]
theorem keeps_unwrap {value : Option α} : Keeps f (unwrap value code : Exec σ α) := by
  intro s v s' h
  obtain ⟨_, rfl⟩ := unwrap_ok.mp h
  rfl

@[simp]
theorem keeps_addUint {left right : Nat} : Keeps f (addUint left right : Exec σ Nat) := by
  intro s v s' h
  obtain ⟨_, _, rfl⟩ := addUint_ok.mp h
  rfl

@[simp]
theorem keeps_subUint {left right : Nat} : Keeps f (subUint left right : Exec σ Nat) := by
  intro s v s' h
  obtain ⟨_, _, rfl⟩ := subUint_ok.mp h
  rfl

@[simp]
theorem keeps_mulUint {left right : Nat} : Keeps f (mulUint left right : Exec σ Nat) := by
  intro s v s' h
  obtain ⟨_, _, rfl⟩ := mulUint_ok.mp h
  rfl

@[simp]
theorem keeps_orError (h : Keeps f m) : Keeps f (orError m code) := by
  intro s v s' hrun
  exact h s v s' (orError_ok.mp hrun)

@[simp]
theorem keeps_ite {condition : Prop} [Decidable condition] {yes no : Exec σ α}
    (hyes : Keeps f yes) (hno : Keeps f no) : Keeps f (if condition then yes else no) := by
  split
  · exact hyes
  · exact hno

/-- A computation on a component changes nothing that ignores the component. -/
theorem keeps_zoom {get : σ → τ} {set : τ → σ → σ} {m : Exec τ α}
    (h : ∀ t s, f (set t s) = f s) : Keeps f (zoom get set m) := by
  intro s v s' hrun
  obtain ⟨t, _, rfl⟩ := zoom_ok.mp hrun
  exact h t s

/-- What a computation on a component keeps there, it keeps of the whole. -/
theorem keeps_zoom_of_keeps {get : σ → τ} {set : τ → σ → σ} {m : Exec τ α} {g : τ → β}
    (hm : Keeps g m) (h : ∀ t s, g t = g (get s) → f (set t s) = f s) :
    Keeps f (zoom get set m) := by
  intro s v s' hrun
  obtain ⟨t, ht, rfl⟩ := zoom_ok.mp hrun
  exact h t s (hm (get s) v t ht)

end Keeps

/-! ## Relations a computation stays within -/

/-- Every successful run of `m` relates its start state to its end state. -/
def Respects (rel : σ → σ → Prop) (m : Exec σ α) : Prop :=
  ∀ s value s', m s = .ok (value, s') → rel s s'

section Respects

variable {rel : σ → σ → Prop} {m : Exec σ α}

theorem respects_attempt (hrefl : ∀ s, rel s s) (hm : Respects rel m) :
    Respects rel (attempt m) := by
  intro s r s' h
  rcases attempt_ok h with ⟨value, -, hrun⟩ | ⟨_, -, rfl⟩
  · exact hm s value s' hrun
  · exact hrefl s'

/-! ### Composition

A relation that composes is respected by a computation whose parts respect it. -/

/-- A relation between states that nothing and two things after each other stay
within. -/
structure Composes (rel : σ → σ → Prop) : Prop where
  refl : ∀ s, rel s s
  trans : ∀ {s t u}, rel s t → rel t u → rel s u

namespace Composes

variable (hrel : Composes rel)
include hrel

theorem of_keeps (hm : Keeps id m) : Respects rel m := by
  intro s value s' h
  obtain rfl := hm s value s' h
  exact hrel.refl s'

theorem pure (value : α) : Respects rel (pure value : Exec σ α) := hrel.of_keeps (keeps_pure value)

theorem read : Respects rel (read : Exec σ σ) := hrel.of_keeps keeps_read

theorem abort : Respects rel (abort : Exec σ α) := hrel.of_keeps keeps_abort

theorem require {condition : Prop} [Decidable condition] {code : Nat} :
    Respects rel (require condition code : Exec σ Unit) := hrel.of_keeps keeps_require

theorem unwrap {value : Option α} {code : Nat} : Respects rel (unwrap value code : Exec σ α) :=
  hrel.of_keeps keeps_unwrap

theorem addUint {left right : Nat} : Respects rel (addUint left right : Exec σ Nat) :=
  hrel.of_keeps keeps_addUint

theorem subUint {left right : Nat} : Respects rel (subUint left right : Exec σ Nat) :=
  hrel.of_keeps keeps_subUint

theorem bind {next : α → Exec σ β} (hm : Respects rel m)
    (hnext : ∀ value, Respects rel (next value)) : Respects rel (m >>= next) := by
  intro s value s' h
  obtain ⟨first, mid, hfirst, hrest⟩ := bind_ok.mp h
  exact hrel.trans (hm s first mid hfirst) (hnext first mid value s' hrest)

end Composes

/-- What follows a check may use it. -/
theorem respects_require_bind {condition : Prop} [Decidable condition] {code : Nat}
    {next : Unit → Exec σ β} (hnext : condition → Respects rel (next ())) :
    Respects rel (require condition code >>= next) := by
  intro s value s' h
  obtain ⟨_, mid, hfirst, hrest⟩ := bind_ok.mp h
  obtain ⟨hcondition, rfl⟩ := require_ok.mp hfirst
  exact hnext hcondition s value s' hrest

theorem respects_orError {code : Nat} (hm : Respects rel m) : Respects rel (orError m code) :=
  fun s value s' h => hm s value s' (orError_ok.mp h)

theorem respects_ite {condition : Prop} [Decidable condition] {yes no : Exec σ α}
    (hyes : Respects rel yes) (hno : Respects rel no) :
    Respects rel (if condition then yes else no) := by
  split
  · exact hyes
  · exact hno

end Respects

end Exec

/-! ## Finite maps -/

/-- A finite map: the entries written so far, latest first, with distinct keys. -/
abbrev DataMap (K V : Type) : Type := AList fun _ : K => V

namespace DataMap

variable {K V : Type} [DecidableEq K]

/-- Insert under a key that must be absent. -/
def insertNew? (map : DataMap K V) (key : K) (value : V) : Option (DataMap K V) :=
  if (map.lookup key).isNone then some (map.insert key value) else none

theorem insertNew?_eq_some {map map' : DataMap K V} {key : K} {value : V} :
    map.insertNew? key value = some map' ↔
      map.lookup key = none ∧ map.insert key value = map' := by
  unfold insertNew?
  split
  case isTrue h => simp [Option.isNone_iff_eq_none.mp h]
  case isFalse h =>
    have hne : map.lookup key ≠ none := fun habs => h (by simp [habs])
    simp [hne]

theorem lookup_insert_eq (map : DataMap K V) (key other : K) (value : V) :
    (map.insert key value).lookup other = if other = key then some value else map.lookup other := by
  split
  case isTrue h => rw [h, AList.lookup_insert]
  case isFalse h => exact AList.lookup_insert_ne h

theorem keys_insert_new {map : DataMap K V} {key : K} (value : V) (h : map.lookup key = none) :
    (map.insert key value).keys = key :: map.keys := by
  rw [AList.keys_insert]
  rw [List.erase_of_not_mem]
  exact AList.lookup_eq_none.mp h

end DataMap

end StxShield.Library
