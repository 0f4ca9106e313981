import StxShield.Library.Execution

/-!
# Error codes a computation spares

A composed computation fails where its first failing part does.  A part that
never fails with some error codes can be taken out of the run of one that did:
it succeeded, and the rest failed.
-/

namespace StxShield.Library.Exec

variable {σ τ α β : Type} {codes : List Nat} {code : Nat} {m : Exec σ α} {s : σ}

/-- The computation never fails with one of the codes. -/
def Spares (codes : List Nat) (m : Exec σ α) : Prop :=
  ∀ s, ∀ code ∈ codes, m s ≠ .error (.err code)

/-- Fewer codes are spared as well. -/
theorem Spares.mono {fewer : List Nat} (h : Spares codes m) (hfewer : fewer ⊆ codes) :
    Spares fewer m := fun s code hcode => h s code (hfewer hcode)

/-! ## Inversion of failure -/

@[simp]
theorem pure_error {value : α} {fault : Fault} :
    (pure value : Exec σ α) s = .error fault ↔ False := iff_false_intro fun h => by cases h

@[simp]
theorem read_error {fault : Fault} : (read : Exec σ σ) s = .error fault ↔ False :=
  iff_false_intro fun h => by cases h

/-- A sequence fails in its first part or in the rest. -/
theorem bind_error {next : α → Exec σ β} {fault : Fault} :
    (m >>= next) s = .error fault ↔
      m s = .error fault ∨ ∃ value mid, m s = .ok (value, mid) ∧ next value mid = .error fault := by
  change andThen m next s = _ ↔ _
  unfold andThen
  cases hm : m s with
  | error other => simp
  | ok outcome =>
      obtain ⟨value, mid⟩ := outcome
      constructor
      · intro h
        exact .inr ⟨value, mid, rfl, h⟩
      · rintro (h | ⟨_, _, heq, h⟩)
        · cases h
        · cases heq
          exact h

/-- A part that spares the code succeeded. -/
theorem bind_error_of_spares {next : α → Exec σ β} (hcode : code ∈ codes) (hm : Spares codes m) :
    (m >>= next) s = .error (.err code) ↔
      ∃ value mid, m s = .ok (value, mid) ∧ next value mid = .error (.err code) := by
  rw [bind_error]
  exact or_iff_right (hm s code hcode)

theorem error_of_spares (hcode : code ∈ codes) (hm : Spares codes m) :
    m s = .error (.err code) ↔ False := iff_false_intro (hm s code hcode)

theorem require_error {condition : Prop} [Decidable condition] {other : Nat} {fault : Fault} :
    (require condition other : Exec σ Unit) s = .error fault ↔
      ¬ condition ∧ fault = .err other := by
  unfold require
  split
  case isTrue h => simp [h]
  case isFalse h => simp [h, eq_comm]

theorem unwrap_error {value : Option α} {other : Nat} {fault : Fault} :
    (unwrap value other : Exec σ α) s = .error fault ↔ value = none ∧ fault = .err other := by
  cases value with
  | none => simp [unwrap, eq_comm]
  | some v => simp [unwrap]

theorem addUint_error {left right : Nat} {fault : Fault} :
    (addUint left right : Exec σ Nat) s = .error fault ↔
      uintBound ≤ left + right ∧ fault = .abort := by
  unfold addUint
  split
  case isTrue h => simp [Nat.not_le.mpr h]
  case isFalse h => simp [Nat.le_of_not_lt h, eq_comm]

theorem subUint_error {left right : Nat} {fault : Fault} :
    (subUint left right : Exec σ Nat) s = .error fault ↔ left < right ∧ fault = .abort := by
  unfold subUint
  split
  case isTrue h => simp [Nat.not_lt.mpr h]
  case isFalse h => simp [Nat.lt_of_not_le h, eq_comm]

theorem mulUint_error {left right : Nat} {fault : Fault} :
    (mulUint left right : Exec σ Nat) s = .error fault ↔
      uintBound ≤ left * right ∧ fault = .abort := by
  unfold mulUint
  split
  case isTrue h => simp [Nat.not_le.mpr h]
  case isFalse h => simp [Nat.le_of_not_lt h, eq_comm]

/-- The code is the replacement of some other. -/
theorem orError_error {other : Nat} :
    orError m other s = .error (.err code) ↔ other = code ∧ ∃ inner, m s = .error (.err inner) := by
  unfold orError
  cases hm : m s with
  | ok outcome => simp
  | error fault =>
      cases fault with
      | err inner => simp
      | abort => simp

theorem zoom_error {get : σ → τ} {set : τ → σ → σ} {m : Exec τ α} {fault : Fault} :
    zoom get set m s = .error fault ↔ m (get s) = .error fault := by
  unfold zoom
  cases hm : m (get s) with
  | error other => simp
  | ok outcome => simp

/-! ## Parts that spare codes -/

section

variable {other : Nat}

@[simp]
theorem spares_pure (value : α) : Spares codes (pure value : Exec σ α) := fun _ _ _ h => by cases h

@[simp]
theorem spares_bind {next : α → Exec σ β} (hm : Spares codes m)
    (hnext : ∀ value, Spares codes (next value)) : Spares codes (m >>= next) := by
  intro s code hcode h
  obtain ⟨value, mid, -, hrest⟩ := (bind_error_of_spares hcode hm).mp h
  exact hnext value mid code hcode hrest

@[simp]
theorem spares_read : Spares codes (read : Exec σ σ) := fun _ _ _ h => by cases h

@[simp]
theorem spares_modify {f : σ → σ} : Spares codes (modify f) := fun _ _ _ h => by cases h

@[simp]
theorem spares_abort : Spares codes (abort : Exec σ α) := fun _ _ _ h => by cases h

@[simp]
theorem spares_fail (h : other ∉ codes) : Spares codes (fail other : Exec σ α) := by
  intro s code hcode hfail
  cases hfail
  exact h hcode

@[simp]
theorem spares_require {condition : Prop} [Decidable condition] (h : other ∉ codes) :
    Spares codes (require condition other : Exec σ Unit) := by
  intro s code hcode hfail
  obtain ⟨-, heq⟩ := require_error.mp hfail
  cases heq
  exact h hcode

@[simp]
theorem spares_unwrap {value : Option α} (h : other ∉ codes) :
    Spares codes (unwrap value other : Exec σ α) := by
  intro s code hcode hfail
  cases value with
  | none =>
      cases hfail
      exact h hcode
  | some v => cases hfail

@[simp]
theorem spares_addUint {left right : Nat} : Spares codes (addUint left right : Exec σ Nat) := by
  intro s code _ hfail
  unfold addUint at hfail
  split at hfail <;> cases hfail

@[simp]
theorem spares_subUint {left right : Nat} : Spares codes (subUint left right : Exec σ Nat) := by
  intro s code _ hfail
  unfold subUint at hfail
  split at hfail <;> cases hfail

@[simp]
theorem spares_mulUint {left right : Nat} : Spares codes (mulUint left right : Exec σ Nat) := by
  intro s code _ hfail
  unfold mulUint at hfail
  split at hfail <;> cases hfail

/-- Whatever the error was, it has been replaced. -/
@[simp]
theorem spares_orError (h : other ∉ codes) : Spares codes (orError m other) := by
  intro s code hcode hfail
  unfold orError at hfail
  split at hfail
  case h_1 =>
    cases hfail
    exact h hcode
  case h_2 houtcome => exact houtcome code hfail

@[simp]
theorem spares_ite {condition : Prop} [Decidable condition] {yes no : Exec σ α}
    (hyes : Spares codes yes) (hno : Spares codes no) :
    Spares codes (if condition then yes else no) := by
  split
  · exact hyes
  · exact hno

@[simp]
theorem spares_zoom {get : σ → τ} {set : τ → σ → σ} {m : Exec τ α} (hm : Spares codes m) :
    Spares codes (zoom get set m) := fun s code hcode h =>
  hm (get s) code hcode (zoom_error.mp h)

end

/-! ## Aborts -/

/-- The computation may fail, but never aborts the transaction. -/
def Settles (m : Exec σ α) : Prop := ∀ s, m s ≠ .error .abort

theorem orError_abort {other : Nat} : orError m other s = .error .abort ↔ m s = .error .abort := by
  unfold orError
  cases hm : m s with
  | ok outcome => simp
  | error fault => cases fault <;> simp

/-- A part that never aborts succeeded. -/
theorem bind_abort {next : α → Exec σ β} (hm : Settles m) :
    (m >>= next) s = .error .abort ↔
      ∃ value mid, m s = .ok (value, mid) ∧ next value mid = .error .abort := by
  rw [bind_error]
  exact or_iff_right (hm s)

theorem settles_bind {next : α → Exec σ β} (hm : Settles m)
    (hnext : ∀ value, Settles (next value)) : Settles (m >>= next) := by
  intro s h
  obtain ⟨value, mid, -, hrest⟩ := (bind_abort hm).mp h
  exact hnext value mid hrest

theorem settles_read : Settles (read : Exec σ σ) := fun _ h => by cases h

theorem settles_modify {f : σ → σ} : Settles (modify f) := fun _ h => by cases h

theorem settles_fail (other : Nat) : Settles (fail other : Exec σ α) := fun _ h => by cases h

theorem settles_pure (value : α) : Settles (pure value : Exec σ α) := fun _ h => by cases h

theorem settles_require {condition : Prop} [Decidable condition] {other : Nat} :
    Settles (require condition other : Exec σ Unit) := by
  intro s h
  obtain ⟨-, heq⟩ := require_error.mp h
  cases heq

theorem settles_unwrap {value : Option α} {other : Nat} :
    Settles (unwrap value other : Exec σ α) := by
  intro s h
  obtain ⟨-, heq⟩ := unwrap_error.mp h
  cases heq

theorem settles_zoom {get : σ → τ} {set : τ → σ → σ} {m : Exec τ α} (hm : Settles m) :
    Settles (zoom get set m) := fun s h => hm (get s) (zoom_error.mp h)

end StxShield.Library.Exec
