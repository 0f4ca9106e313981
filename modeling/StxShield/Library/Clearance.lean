import StxShield.Library.Failure

/-!
# Getting past the guards

Run from a state, a computation clears some error codes if it fails with none of them;
what then holds wherever it returns is its postcondition.  The rules follow the parts of
a composed computation: a guard with one of the codes has to pass, any other may fail.
-/

namespace StxShield.Library.Exec

variable {σ τ α β : Type} {codes : List Nat} {code : Nat} {m : Exec σ α} {s : σ}

/-- From `s` the computation fails with none of the codes, and ends as `post` says where
it returns. -/
structure Clears (codes : List Nat) (m : Exec σ α) (post : α → σ → Prop) (s : σ) : Prop where
  spares : ∀ code ∈ codes, m s ≠ .error (.err code)
  returns : ∀ value s', m s = .ok (value, s') → post value s'

namespace Clears

variable {post post' : α → σ → Prop} {next : α → Exec σ β} {final : β → σ → Prop}

/-! ## Consequence -/

theorem mono (h : Clears codes m post s) (hpost : ∀ value s', post value s' → post' value s') :
    Clears codes m post' s where
  spares := h.spares
  returns value s' hrun := hpost value s' (h.returns value s' hrun)

/-- A computation that spares the codes wherever it starts. -/
theorem of_spares (hm : Spares codes m)
    (hpost : ∀ value s', m s = .ok (value, s') → post value s') : Clears codes m post s where
  spares code hcode := hm s code hcode
  returns := hpost

/-- Nothing is lost by replacing the error by one that is not among the codes. -/
theorem orError (h : code ∉ codes) (hpost : ∀ value s', m s = .ok (value, s') → post value s') :
    Clears codes (orError m code) post s :=
  of_spares (spares_orError h) fun value s' hrun => hpost value s' (orError_ok.mp hrun)

theorem require {condition : Prop} [Decidable condition] (h : condition) :
    Clears codes (Exec.require condition code) (fun _ s' => s' = s) s := by
  constructor
  · intro other _ hrun
    exact (require_error.mp hrun).1 h
  · intro _ s' hrun
    exact (require_ok.mp hrun).2.symm

/-! ## Composition -/

theorem pure {value : α} (h : post value s) : Clears codes (pure value : Exec σ α) post s := by
  refine of_spares (spares_pure value) fun value' s' hrun => ?_
  obtain ⟨rfl, rfl⟩ := pure_ok.mp hrun
  exact h

theorem modify {f : σ → σ} {post : Unit → σ → Prop} (h : post () (f s)) :
    Clears codes (modify f) post s := by
  refine of_spares spares_modify fun _ s' hrun => ?_
  obtain rfl := modify_ok.mp hrun
  exact h

/-- The rest starts where the first part ended. -/
theorem bind (hm : Clears codes m post s)
    (hnext : ∀ value s', post value s' → Clears codes (next value) final s') :
    Clears codes (m >>= next) final s where
  spares code hcode h := by
    rcases bind_error.mp h with hfirst | ⟨value, mid, hfirst, hrest⟩
    · exact hm.spares code hcode hfirst
    · exact (hnext value mid (hm.returns value mid hfirst)).spares code hcode hrest
  returns value s' h := by
    obtain ⟨first, mid, hfirst, hrest⟩ := bind_ok.mp h
    exact (hnext first mid (hm.returns first mid hfirst)).returns value s' hrest

theorem modify_bind {f : σ → σ} {next : Unit → Exec σ β} (h : Clears codes (next ()) final (f s)) :
    Clears codes (Exec.modify f >>= next) final s := by
  have hmodify : Clears codes (Exec.modify f) (fun _ s' => s' = f s) s := modify rfl
  apply hmodify.bind
  rintro _ s' rfl
  exact h

theorem read_bind {next : σ → Exec σ β} (h : Clears codes (next s) final s) :
    Clears codes (read >>= next) final s := by
  have hread : Clears codes read (fun seen s' => seen = s ∧ s' = s) s := by
    refine of_spares spares_read fun seen s' hrun => ?_
    obtain ⟨rfl, rfl⟩ := read_ok.mp hrun
    exact ⟨rfl, rfl⟩
  apply hread.bind
  rintro seen s' ⟨rfl, rfl⟩
  exact h

/-- What is made of the result fails no more. -/
theorem bind_pure {f : α → β} (hm : Clears codes m (fun _ _ => True) s) :
    Clears codes (m >>= fun value => Pure.pure (f value)) (fun _ _ => True) s :=
  hm.bind fun _ _ _ => pure trivial

/-- What leaves the state alone and spares the codes may return anything. -/
theorem spared_bind (hm : Spares codes m) (hkeeps : Keeps id m)
    (hnext : ∀ value, Clears codes (next value) final s) : Clears codes (m >>= next) final s := by
  have hsame : Clears codes m (fun _ s' => s' = s) s := of_spares hm (hkeeps s)
  apply hsame.bind
  rintro value s' rfl
  exact hnext value

/-- A guard among the codes has to hold; what follows any guard may use it. -/
theorem require_bind {condition : Prop} [Decidable condition] {next : Unit → Exec σ β}
    (hholds : code ∈ codes → condition) (hnext : condition → Clears codes (next ()) final s) :
    Clears codes (Exec.require condition code >>= next) final s := by
  have hguard : Clears codes (Exec.require condition code) (fun _ s' => condition ∧ s' = s) s := by
    constructor
    · intro other hother h
      obtain ⟨hfails, heq⟩ := require_error.mp h
      cases heq
      exact hfails (hholds hother)
    · intro _ s' hrun
      obtain ⟨hcondition, rfl⟩ := require_ok.mp hrun
      exact ⟨hcondition, rfl⟩
  apply hguard.bind
  rintro _ s' ⟨hcondition, rfl⟩
  exact hnext hcondition

theorem unwrap_bind {value : Option α} (hsome : code ∈ codes → value.isSome)
    (hnext : ∀ a, value = some a → Clears codes (next a) final s) :
    Clears codes (unwrap value code >>= next) final s := by
  have hguard : Clears codes (unwrap value code) (fun a s' => value = some a ∧ s' = s) s := by
    constructor
    · intro other hother h
      obtain ⟨hnone, heq⟩ := unwrap_error.mp h
      cases heq
      have hvalue := hsome hother
      rw [hnone] at hvalue
      cases hvalue
    · intro a s' hrun
      obtain ⟨hvalue, rfl⟩ := unwrap_ok.mp hrun
      exact ⟨hvalue, rfl⟩
  apply hguard.bind
  rintro a s' ⟨hvalue, rfl⟩
  exact hnext a hvalue

/-- Any other check may fail. -/
theorem check_bind {condition : Prop} [Decidable condition] {next : Unit → Exec σ β}
    (hcode : code ∉ codes) (hnext : condition → Clears codes (next ()) final s) :
    Clears codes (Exec.require condition code >>= next) final s :=
  require_bind (fun hmem => absurd hmem hcode) hnext

theorem found_bind {value : Option α} (hcode : code ∉ codes)
    (hnext : ∀ a, value = some a → Clears codes (next a) final s) :
    Clears codes (unwrap value code >>= next) final s :=
  unwrap_bind (fun hmem => absurd hmem hcode) hnext

/-- A part of the state is all that the computation sees. -/
theorem zoom {get : σ → τ} {set : τ → σ → σ} {m : Exec τ α}
    (h : Clears codes m (fun value t => post value (set t s)) (get s)) :
    Clears codes (zoom get set m) post s where
  spares code hcode hrun := h.spares code hcode (zoom_error.mp hrun)
  returns value s' hrun := by
    obtain ⟨t, ht, rfl⟩ := zoom_ok.mp hrun
    exact h.returns value t ht

/-- A write to a part of the state. -/
theorem zoom_modify_bind {get : σ → τ} {set : τ → σ → σ} {f : τ → τ} {next : Unit → Exec σ β}
    (h : Clears codes (next ()) final (set (f (get s)) s)) :
    Clears codes (Exec.zoom get set (Exec.modify f) >>= next) final s := by
  have hwritten : Clears codes (Exec.zoom get set (Exec.modify f))
      (fun _ s' => s' = set (f (get s)) s) s := zoom (modify rfl)
  apply hwritten.bind
  rintro _ s' rfl
  exact h

theorem ite {condition : Prop} [Decidable condition] {yes no : Exec σ α}
    (hyes : condition → Clears codes yes post s) (hno : ¬ condition → Clears codes no post s) :
    Clears codes (if condition then yes else no) post s := by
  split
  case isTrue h => exact hyes h
  case isFalse h => exact hno h

end Clears

end StxShield.Library.Exec
