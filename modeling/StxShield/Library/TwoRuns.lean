import StxShield.Library.Async

/-!
# Two interrupted computations side by side

Two computations are paired when, started in related states, they end in the same way
with related values, and leave related states.  Unlike computations that may fail, both
go on being related when they throw or are cut short, so that what they have written
until then can be compared.
-/

namespace StxShield.Library

variable {α β : Type}

/-- Both return, or both throw the same message, or both are cut short. -/
inductive Ending.Both (Q : α → β → Prop) : Ending α → Ending β → Prop where
  | returned {a : α} {b : β} (values : Q a b) : Both Q (.returned a) (.returned b)
  | thrown (message : String) : Both Q (.thrown message) (.thrown message)
  | crashed : Both Q .crashed .crashed

/-- The ending with the value it returns replaced. -/
def Ending.map (f : α → β) : Ending α → Ending β
  | .returned value => .returned (f value)
  | .thrown message => .thrown message
  | .crashed => .crashed

namespace Async

variable {σ τ ρ γ δ : Type}

/-- From states related by `R` both computations end alike, their values related by `Q`,
in states related by `R`. -/
def Paired (R : σ → τ → Prop) (m : Async σ α) (m' : Async τ β) (Q : α → β → Prop) : Prop :=
  ∀ s t, R s t → (m s).1.Both Q (m' t).1 ∧ R (m s).2 (m' t).2

namespace Paired

variable {R : σ → τ → Prop} {Q : α → β → Prop} {m : Async σ α} {m' : Async τ β}

theorem weaken {Q' : α → β → Prop} (hm : Paired R m m' Q) (h : ∀ a b, Q a b → Q' a b) :
    Paired R m m' Q' := by
  intro s t hst
  obtain ⟨hending, hstates⟩ := hm s t hst
  refine ⟨?_, hstates⟩
  revert hending
  generalize (m s).1 = ending
  generalize (m' t).1 = ending'
  intro hending
  cases hending with
  | returned values => exact .returned (h _ _ values)
  | thrown message => exact .thrown message
  | crashed => exact .crashed

/-- Sequencing. -/
theorem bind {Q' : γ → δ → Prop} {next : α → Async σ γ} {next' : β → Async τ δ}
    (hm : Paired R m m' Q) (hnext : ∀ a b, Q a b → Paired R (next a) (next' b) Q') :
    Paired R (m >>= next) (m' >>= next') Q' := by
  intro s t hst
  obtain ⟨hending, hstates⟩ := hm s t hst
  rw [bind_apply, bind_apply]
  revert hending hstates
  generalize m s = first
  generalize m' t = first'
  obtain ⟨ending, mid⟩ := first
  obtain ⟨ending', mid'⟩ := first'
  intro hending hstates
  cases hending with
  | returned values => exact hnext _ _ values mid mid' hstates
  | thrown message => exact ⟨.thrown message, hstates⟩
  | crashed => exact ⟨.crashed, hstates⟩

theorem pure_both {a : α} {b : β} (h : Q a b) : Paired R (pure a) (pure b) Q :=
  fun _ _ hst => ⟨.returned h, hst⟩

/-- What the two sides read may differ, but it is related. -/
theorem get_bind {Q' : γ → δ → Prop} {next : σ → Async σ γ} {next' : τ → Async τ δ}
    (hnext : ∀ s t, R s t → Paired R (next s) (next' t) Q') :
    Paired R (get >>= next) (get >>= next') Q' :=
  fun s t hst => hnext s t hst s t hst

theorem modify_both {f : σ → σ} {g : τ → τ} (h : ∀ s t, R s t → R (f s) (g t)) :
    Paired R (modify f) (modify g) fun _ _ => True :=
  fun s t hst => ⟨.returned trivial, h s t hst⟩

theorem throwing_both (message : String) :
    Paired R (throwing message) (throwing message) Q :=
  fun _ _ hst => ⟨.thrown message, hst⟩

theorem await_both {reply : Ending α} {reply' : Ending β} (h : reply.Both Q reply') :
    Paired R (await reply) (await reply') Q :=
  fun _ _ hst => ⟨h, hst⟩

theorem await_same (reply : Ending α) : Paired R (await reply) (await reply) Eq := by
  apply await_both
  cases reply with
  | returned value => exact .returned rfl
  | thrown message => exact .thrown message
  | crashed => exact .crashed

/-- The same reply, changed in two ways. -/
theorem await_maps {reply : Ending γ} {f : γ → α} {g : γ → β} :
    Paired R (await (reply.map f)) (await (reply.map g)) fun a b => ∃ c, a = f c ∧ b = g c := by
  apply await_both
  cases reply with
  | returned value => exact .returned ⟨value, rfl, rfl⟩
  | thrown message => exact .thrown message
  | crashed => exact .crashed

theorem orThrow_same (result : Except String α) :
    Paired R (orThrow result) (orThrow result) Eq := by
  intro s t hst
  cases result with
  | ok value => exact ⟨.returned rfl, hst⟩
  | error message => exact ⟨.thrown message, hst⟩

/-- Both expressions have a value, or both throw the same. -/
theorem orThrow_both {result : Except String α} {result' : Except String β}
    (h : ∀ message, result = .error message ↔ result' = .error message) :
    Paired R (orThrow result) (orThrow result') fun _ _ => True := by
  intro s t hst
  cases result with
  | error message =>
      rw [(h message).mp rfl]
      exact ⟨.thrown message, hst⟩
  | ok value =>
      cases result' with
      | error message => cases (h message).mpr rfl
      | ok value' => exact ⟨.returned trivial, hst⟩

/-- The same result, changed in two ways. -/
theorem orThrow_maps {result : Except String γ} {f : γ → α} {g : γ → β} :
    Paired R (orThrow (result.map f)) (orThrow (result.map g))
      fun a b => ∃ c, a = f c ∧ b = g c := by
  intro s t hst
  cases result with
  | ok value => exact ⟨.returned ⟨value, rfl, rfl⟩, hst⟩
  | error message => exact ⟨.thrown message, hst⟩

theorem throwIf_both {condition condition' : Prop} [Decidable condition] [Decidable condition']
    (h : condition ↔ condition') (message : String) :
    Paired R (throwIf condition message) (throwIf condition' message) fun _ _ => True := by
  unfold throwIf
  by_cases hcondition : condition
  · rw [if_pos hcondition, if_pos (h.mp hcondition)]
    exact throwing_both message
  · rw [if_neg hcondition, if_neg (mt h.mpr hcondition)]
    exact pure_both trivial

theorem ite_both {condition condition' : Prop} [Decidable condition] [Decidable condition']
    {other : Async σ α} {other' : Async τ β} (h : condition ↔ condition')
    (hyes : Paired R m m' Q) (hno : Paired R other other' Q) :
    Paired R (if condition then m else other) (if condition' then m' else other') Q := by
  by_cases hcondition : condition
  · rw [if_pos hcondition, if_pos (h.mp hcondition)]
    exact hyes
  · rw [if_neg hcondition, if_neg (mt h.mpr hcondition)]
    exact hno

theorem recover_both {handler : String → Async σ α} {handler' : String → Async τ β}
    (hm : Paired R m m' Q) (hhandler : ∀ message, Paired R (handler message) (handler' message) Q) :
    Paired R (recover m handler) (recover m' handler') Q := by
  intro s t hst
  obtain ⟨hending, hstates⟩ := hm s t hst
  unfold recover
  revert hending hstates
  generalize m s = first
  generalize m' t = first'
  obtain ⟨ending, mid⟩ := first
  obtain ⟨ending', mid'⟩ := first'
  intro hending hstates
  cases hending with
  | returned values => exact ⟨.returned values, hstates⟩
  | thrown message => exact hhandler message mid mid' hstates
  | crashed => exact ⟨.crashed, hstates⟩

/-- Paired computations on a component stay paired on the whole. -/
theorem zoom_both {σ' τ' : Type} {R' : σ' → τ' → Prop} {view : σ → σ'} {set : σ' → σ → σ}
    {view' : τ → τ'} {set' : τ' → τ → τ} {n : Async σ' α} {n' : Async τ' β}
    (hn : Paired R' n n' Q) (hview : ∀ s t, R s t → R' (view s) (view' t))
    (hset : ∀ s t part part', R s t → R' part part' → R (set part s) (set' part' t)) :
    Paired R (zoom view set n) (zoom view' set' n') Q := by
  intro s t hst
  obtain ⟨hending, hparts⟩ := hn (view s) (view' t) (hview s t hst)
  exact ⟨hending, hset s t _ _ hst hparts⟩

end Paired

end Async

end StxShield.Library
