import Mathlib.Logic.Basic

/-!
# Interrupted computations

An asynchronous function returns, throws, or is cut short at one of its awaits, when
the process it runs in goes down.  Whatever it has written until then stays
written.
-/

namespace StxShield.Library

/-- How a computation, or an awaited call, ends. -/
inductive Ending (α : Type) where
  | returned (value : α)
  | thrown (message : String)
  | crashed
  deriving DecidableEq

/-- A computation on states of type `σ`; there is a final state for every ending. -/
def Async (σ α : Type) : Type := σ → Ending α × σ

namespace Async

variable {σ τ α β : Type}

def ret (value : α) : Async σ α := fun s => (.returned value, s)

def andThen (m : Async σ α) (next : α → Async σ β) : Async σ β := fun s =>
  match m s with
  | (.returned value, s') => next value s'
  | (.thrown message, s') => (.thrown message, s')
  | (.crashed, s') => (.crashed, s')

instance : Monad (Async σ) where
  pure := ret
  bind := andThen

def get : Async σ σ := fun s => (.returned s, s)

def modify (f : σ → σ) : Async σ Unit := fun s => (.returned (), f s)

def throwing (message : String) : Async σ α := fun s => (.thrown message, s)

/-- An awaited call that ends in a given way. -/
def await (reply : Ending α) : Async σ α := fun s => (reply, s)

/-- The value of an expression that may throw. -/
def orThrow (result : Except String α) : Async σ α := fun s =>
  match result with
  | .ok value => (.returned value, s)
  | .error message => (.thrown message, s)

/-- `if (condition) throw …` -/
def throwIf (condition : Prop) [Decidable condition] (message : String) : Async σ Unit :=
  if condition then throwing message else pure ()

/-- `try`/`catch`: a crash is not caught. -/
def recover (m : Async σ α) (handler : String → Async σ α) : Async σ α := fun s =>
  match m s with
  | (.thrown message, s') => handler message s'
  | outcome => outcome

/-- A computation on one component of the state. -/
def zoom (view : σ → τ) (set : τ → σ → σ) (m : Async τ α) : Async σ α := fun s =>
  ((m (view s)).1, set (m (view s)).2 s)

theorem andThen_ret (m : Async σ α) : andThen m ret = m := by
  funext s
  unfold andThen
  rcases m s with ⟨_ | _ | _, s'⟩ <;> rfl

theorem andThen_assoc {γ : Type} (m : Async σ α) (next : α → Async σ β) (last : β → Async σ γ) :
    andThen (andThen m next) last = andThen m fun value => andThen (next value) last := by
  funext s
  unfold andThen
  rcases m s with ⟨_ | _ | _, s'⟩ <;> rfl

instance : LawfulMonad (Async σ) :=
  LawfulMonad.mk' _ andThen_ret (fun _ _ => rfl) andThen_assoc

/-! ## Endings -/

section Endings

variable {s s' : σ} {a : α} {b : β} {m : Async σ α} {next : α → Async σ β}

@[simp]
theorem pure_apply : (pure a : Async σ α) s = (.returned a, s) := rfl

theorem bind_apply :
    (m >>= next) s =
      match m s with
      | (.returned value, s') => next value s'
      | (.thrown message, s') => (.thrown message, s')
      | (.crashed, s') => (.crashed, s') := rfl

@[simp]
theorem get_bind {next : σ → Async σ β} : (get >>= next) s = next s s := rfl

@[simp]
theorem modify_bind {f : σ → σ} {next : Unit → Async σ β} :
    (modify f >>= next) s = next () (f s) := rfl

@[simp]
theorem returned_bind : (await (.returned a) >>= next) s = next a s := rfl

@[simp]
theorem thrown_bind {message : String} :
    ((await (.thrown message) : Async σ α) >>= next) s = (.thrown message, s) := rfl

@[simp]
theorem crashed_bind : ((await .crashed : Async σ α) >>= next) s = (.crashed, s) := rfl

@[simp]
theorem ok_bind : (orThrow (.ok a) >>= next) s = next a s := rfl

@[simp]
theorem error_bind {message : String} :
    ((orThrow (.error message) : Async σ α) >>= next) s = (.thrown message, s) := rfl

@[simp]
theorem throwing_bind {message : String} :
    ((throwing message : Async σ α) >>= next) s = (.thrown message, s) := rfl

/-- A sequence returns when both parts do. -/
theorem bind_returned :
    (m >>= next) s = (.returned b, s') ↔
      ∃ value mid, m s = (.returned value, mid) ∧ next value mid = (.returned b, s') := by
  rw [bind_apply]
  constructor
  · intro h
    split at h
    case h_1 value mid hm => exact ⟨value, mid, hm, h⟩
    case h_2 => cases h
    case h_3 => cases h
  · rintro ⟨value, mid, hm, hnext⟩
    rw [hm]
    exact hnext

/-- An awaited call is over when it has returned. -/
theorem await_bind_returned {reply : Ending α} :
    (await reply >>= next) s = (.returned b, s') ↔
      ∃ value, reply = .returned value ∧ next value s = (.returned b, s') := by
  cases reply with
  | returned value => simp
  | thrown message => simp
  | crashed => simp

theorem orThrow_bind_returned {result : Except String α} :
    (orThrow result >>= next) s = (.returned b, s') ↔
      ∃ value, result = .ok value ∧ next value s = (.returned b, s') := by
  cases result with
  | ok value => simp
  | error message => simp

theorem throwIf_bind_returned {condition : Prop} [Decidable condition] {message : String}
    {next : Unit → Async σ β} :
    (throwIf condition message >>= next) s = (.returned b, s') ↔
      ¬ condition ∧ next () s = (.returned b, s') := by
  unfold throwIf
  by_cases h : condition
  · simp [h]
  · simp [h]

theorem bind_of_returned {mid : σ} (h : m s = (.returned a, mid)) :
    (m >>= next) s = next a mid := by
  rw [bind_apply, h]

end Endings

/-! ## What a computation stays within

A relation that every call stays within, whatever its ending, is a fact about all
the points a computation can be interrupted at.
-/

/-- The final state is related to the first, however the computation ends. -/
def Within (R : σ → σ → Prop) (m : Async σ α) : Prop := ∀ s, R s (m s).2

section Within

variable {R : σ → σ → Prop} {m : Async σ α} {next : α → Async σ β}

theorem within_bind (htrans : ∀ {s t u}, R s t → R t u → R s u) (hm : Within R m)
    (hnext : ∀ value, Within R (next value)) : Within R (m >>= next) := by
  intro s
  rw [bind_apply]
  have hfirst := hm s
  split
  case h_1 value mid heq =>
    rw [heq] at hfirst
    exact htrans hfirst (hnext value mid)
  case h_2 message mid heq =>
    rw [heq] at hfirst
    exact hfirst
  case h_3 mid heq =>
    rw [heq] at hfirst
    exact hfirst

theorem within_recover (htrans : ∀ {s t u}, R s t → R t u → R s u) (hm : Within R m)
    {handler : String → Async σ α} (hhandler : ∀ message, Within R (handler message)) :
    Within R (recover m handler) := by
  intro s
  unfold recover
  have hfirst := hm s
  split
  case h_1 message mid heq =>
    rw [heq] at hfirst
    exact htrans hfirst (hhandler message mid)
  case h_2 => exact hfirst

variable (hrefl : ∀ s, R s s)
include hrefl

theorem within_pure (value : α) : Within R (pure value : Async σ α) := hrefl

theorem within_get : Within R (get : Async σ σ) := hrefl

theorem within_await (reply : Ending α) : Within R (await reply : Async σ α) := hrefl

theorem within_throwing (message : String) : Within R (throwing message : Async σ α) := hrefl

theorem within_orThrow (result : Except String α) : Within R (orThrow result : Async σ α) := by
  intro s
  cases result with
  | ok value => exact hrefl s
  | error message => exact hrefl s

end Within

theorem within_modify {R : σ → σ → Prop} {f : σ → σ} (h : ∀ s, R s (f s)) : Within R (modify f) := h

/-! ## What a computation leaves alone -/

/-- However the computation ends, this part of the state is what it was. -/
def Keeps (view : σ → τ) (m : Async σ α) : Prop := Within (fun s s' => view s' = view s) m

section Keeps

variable {view : σ → τ} {m : Async σ α} {next : α → Async σ β}

theorem keeps_bind (hm : Keeps view m) (hnext : ∀ value, Keeps view (next value)) :
    Keeps view (m >>= next) :=
  within_bind (fun h h' => h'.trans h) hm hnext

theorem keeps_recover {handler : String → Async σ α} (hm : Keeps view m)
    (hhandler : ∀ message, Keeps view (handler message)) : Keeps view (recover m handler) :=
  within_recover (fun h h' => h'.trans h) hm hhandler

/-- What the rest of a sequence leaves alone is as the first part has left it. -/
theorem bind_snd_of_keeps (hnext : ∀ value, Keeps view (next value)) (s : σ) :
    view ((m >>= next) s).2 = view (m s).2 := by
  rw [bind_apply]
  split
  case h_1 value mid heq =>
    rw [heq]
    exact hnext value mid
  case h_2 message mid heq => rw [heq]
  case h_3 mid heq => rw [heq]

theorem keeps_pure (value : α) : Keeps view (pure value : Async σ α) := fun _ => rfl

theorem keeps_await (reply : Ending α) : Keeps view (await reply : Async σ α) := fun _ => rfl

theorem keeps_throwing (message : String) : Keeps view (throwing message : Async σ α) :=
  fun _ => rfl

theorem keeps_orThrow (result : Except String α) : Keeps view (orThrow result : Async σ α) :=
  within_orThrow (R := fun s s' => view s' = view s) (fun _ => rfl) result

theorem keeps_modify {f : σ → σ} (h : ∀ s, view (f s) = view s) : Keeps view (modify f) := h

end Keeps

/-! ## Failures that are passed over

A caught failure is an ending like any other; only a process that goes down cuts a
computation short.
-/

section Passed

variable {s : σ} {m : Async σ α} {next : α → Async σ β} {attempt : Async σ Unit}

/-- Where a computation does not return, the sequence stops. -/
theorem bind_of_stopped (h : ∀ value, (m s).1 ≠ .returned value) :
    (∀ value, ((m >>= next) s).1 ≠ .returned value) ∧ ((m >>= next) s).2 = (m s).2 := by
  rw [bind_apply]
  split
  case h_1 value mid heq =>
    rw [heq] at h
    exact absurd rfl (h value)
  case h_2 message mid heq =>
    rw [heq]
    refine ⟨?_, rfl⟩
    intro value hreturned
    cases hreturned
  case h_3 mid heq =>
    rw [heq]
    refine ⟨?_, rfl⟩
    intro value hreturned
    cases hreturned

/-- Whatever a computation comes to, nothing is returned when it ends in an exception. -/
theorem bind_throwing {message : String} :
    (∀ value : β, ((m >>= fun _ => (throwing message : Async σ β)) s).1 ≠ .returned value) ∧
      ((m >>= fun _ => (throwing message : Async σ β)) s).2 = (m s).2 := by
  rw [bind_apply]
  split
  case h_1 value mid heq =>
    rw [heq]
    refine ⟨?_, rfl⟩
    intro value hreturned
    cases hreturned
  case h_2 message mid heq =>
    rw [heq]
    refine ⟨?_, rfl⟩
    intro value hreturned
    cases hreturned
  case h_3 mid heq =>
    rw [heq]
    refine ⟨?_, rfl⟩
    intro value hreturned
    cases hreturned

/-- What is made of the value in the end changes nothing. -/
theorem bind_pure_snd {f : α → β} : ((m >>= fun value => pure (f value)) s).2 = (m s).2 := by
  rw [bind_apply]
  split
  case h_1 value mid heq => rw [heq, pure_apply]
  case h_2 message mid heq => rw [heq]
  case h_3 mid heq => rw [heq]

theorem passed_of_alive (h : (attempt s).1 ≠ .crashed) :
    recover attempt (fun _ => pure ()) s = (.returned (), (attempt s).2) := by
  unfold recover
  split
  case h_1 message mid heq =>
    rw [heq]
    rfl
  case h_2 hnot =>
    cases heq : attempt s with
    | mk ending mid =>
        rw [heq] at h hnot
        cases ending with
        | returned => rfl
        | thrown message => exact absurd rfl (hnot message mid)
        | crashed => exact absurd rfl h

theorem passed_of_crashed (h : (attempt s).1 = .crashed) :
    recover attempt (fun _ => pure ()) s = (.crashed, (attempt s).2) := by
  unfold recover
  split
  case h_1 message mid heq =>
    rw [heq] at h
    cases h
  case h_2 => rw [← h]

theorem passed_snd : (recover attempt (fun _ => pure ()) s).2 = (attempt s).2 := by
  by_cases h : (attempt s).1 = .crashed
  · rw [passed_of_crashed h]
  · rw [passed_of_alive h]

theorem passed_returned_iff :
    (recover attempt (fun _ => pure ()) s).1 = .returned () ↔ (attempt s).1 ≠ .crashed := by
  by_cases h : (attempt s).1 = .crashed
  · rw [passed_of_crashed h]
    exact iff_of_false (by simp) (fun halive => halive h)
  · rw [passed_of_alive h]
    exact iff_of_true rfl h

end Passed

end Async

end StxShield.Library
