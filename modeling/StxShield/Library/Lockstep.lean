import StxShield.Library.Execution

/-!
# Two runs side by side

A relational logic for fallible executions: if two computations start in
related states and both succeed, they return the same value and end in related
states.  The rules follow the shape of the computations, so that a proof about
two runs is written once along the code they share.
-/

namespace StxShield.Library.Exec

variable {σ τ α β : Type} {pre mid post : σ → τ → Prop}

/-- Whenever both computations succeed from states related by `pre`, they agree
on the value and leave states related by `post`. -/
def Lockstep (pre : σ → τ → Prop) (m : Exec σ α) (m' : Exec τ α) (post : σ → τ → Prop) : Prop :=
  ∀ s t, pre s t → ∀ a s' b t', m s = .ok (a, s') → m' t = .ok (b, t') → a = b ∧ post s' t'

namespace Lockstep

theorem pure_same {value : α} : Lockstep pre (pure value) (pure value) pre := by
  intro s t hst a s' b t' h h'
  obtain ⟨rfl, rfl⟩ := pure_ok.mp h
  obtain ⟨rfl, rfl⟩ := pure_ok.mp h'
  exact ⟨rfl, hst⟩

/-- Sequencing. -/
theorem bind {m : Exec σ α} {m' : Exec τ α} {next : α → Exec σ β} {next' : α → Exec τ β}
    (hm : Lockstep pre m m' mid) (hnext : ∀ a, Lockstep mid (next a) (next' a) post) :
    Lockstep pre (m >>= next) (m' >>= next') post := by
  intro s t hst b u b' u' h h'
  obtain ⟨a, s', hfirst, hrest⟩ := bind_ok.mp h
  obtain ⟨a', t', hfirst', hrest'⟩ := bind_ok.mp h'
  obtain ⟨rfl, hmid⟩ := hm s t hst a s' a' t' hfirst hfirst'
  exact hnext a s' t' hmid b u b' u' hrest hrest'

/-- The values that are dropped need not be the same. -/
theorem drop_bind {γ : Type} {m : Exec σ α} {m' : Exec τ γ} {next : Exec σ β} {next' : Exec τ β}
    (hm : ∀ s t, pre s t → ∀ a s' c t', m s = .ok (a, s') → m' t = .ok (c, t') → mid s' t')
    (hnext : Lockstep mid next next' post) :
    Lockstep pre (m >>= fun _ => next) (m' >>= fun _ => next') post := by
  intro s t hst b u b' u' h h'
  obtain ⟨a, s', hfirst, hrest⟩ := bind_ok.mp h
  obtain ⟨c, t', hfirst', hrest'⟩ := bind_ok.mp h'
  exact hnext s' t' (hm s t hst a s' c t' hfirst hfirst') b u b' u' hrest hrest'

/-- What the two sides read may differ, but it is related. -/
theorem read_bind {next : σ → Exec σ β} {next' : τ → Exec τ β}
    (hnext : ∀ s t, pre s t → Lockstep pre (next s) (next' t) post) :
    Lockstep pre (read >>= next) (read >>= next') post := by
  intro s t hst b u b' u' h h'
  obtain ⟨_, _, hread, hrest⟩ := bind_ok.mp h
  obtain ⟨_, _, hread', hrest'⟩ := bind_ok.mp h'
  obtain ⟨rfl, rfl⟩ := read_ok.mp hread
  obtain ⟨rfl, rfl⟩ := read_ok.mp hread'
  exact hnext _ _ hst _ _ hst b u b' u' hrest hrest'

/-- Conditions need not be the same; both hold afterwards. -/
theorem require_bind {condition condition' : Prop} [Decidable condition] [Decidable condition']
    {code code' : Nat} {next : Unit → Exec σ β} {next' : Unit → Exec τ β}
    (hnext : condition → condition' → Lockstep pre (next ()) (next' ()) post) :
    Lockstep pre (require condition code >>= next) (require condition' code' >>= next') post := by
  intro s t hst b u b' u' h h'
  obtain ⟨_, _, hrequire, hrest⟩ := bind_ok.mp h
  obtain ⟨_, _, hrequire', hrest'⟩ := bind_ok.mp h'
  obtain ⟨hcondition, rfl⟩ := require_ok.mp hrequire
  obtain ⟨hcondition', rfl⟩ := require_ok.mp hrequire'
  exact hnext hcondition hcondition' _ _ hst b u b' u' hrest hrest'

theorem require_both {condition condition' : Prop} [Decidable condition] [Decidable condition']
    {code code' : Nat} : Lockstep pre (require condition code) (require condition' code') pre := by
  intro s t hst u s' u' t' h h'
  obtain ⟨-, rfl⟩ := require_ok.mp h
  obtain ⟨-, rfl⟩ := require_ok.mp h'
  exact ⟨rfl, hst⟩

/-- The two options need not be the same; both have a value afterwards. -/
theorem unwrap_bind {γ : Type} {value : Option α} {value' : Option γ} {code code' : Nat}
    {next : α → Exec σ β} {next' : γ → Exec τ β}
    (hnext : ∀ a c, value = some a → value' = some c →
      Lockstep pre (next a) (next' c) post) :
    Lockstep pre (unwrap value code >>= next) (unwrap value' code' >>= next') post := by
  intro s t hst b u b' u' h h'
  obtain ⟨a, _, hunwrap, hrest⟩ := bind_ok.mp h
  obtain ⟨c, _, hunwrap', hrest'⟩ := bind_ok.mp h'
  obtain ⟨hsome, rfl⟩ := unwrap_ok.mp hunwrap
  obtain ⟨hsome', rfl⟩ := unwrap_ok.mp hunwrap'
  exact hnext a c hsome hsome' _ _ hst b u b' u' hrest hrest'

theorem addUint_same {left right : Nat} :
    Lockstep pre (addUint left right) (addUint left right) pre := by
  intro s t hst a s' b t' h h'
  obtain ⟨-, rfl, rfl⟩ := addUint_ok.mp h
  obtain ⟨-, rfl, rfl⟩ := addUint_ok.mp h'
  exact ⟨rfl, hst⟩

theorem subUint_same {left right : Nat} :
    Lockstep pre (subUint left right) (subUint left right) pre := by
  intro s t hst a s' b t' h h'
  obtain ⟨-, rfl, rfl⟩ := subUint_ok.mp h
  obtain ⟨-, rfl, rfl⟩ := subUint_ok.mp h'
  exact ⟨rfl, hst⟩

theorem mulUint_same {left right : Nat} :
    Lockstep pre (mulUint left right) (mulUint left right) pre := by
  intro s t hst a s' b t' h h'
  obtain ⟨-, rfl, rfl⟩ := mulUint_ok.mp h
  obtain ⟨-, rfl, rfl⟩ := mulUint_ok.mp h'
  exact ⟨rfl, hst⟩

theorem modify_related {f : σ → σ} {g : τ → τ} (h : ∀ s t, pre s t → post (f s) (g t)) :
    Lockstep pre (modify f) (modify g) post := by
  intro s t hst a s' b t' hf hg
  obtain rfl := modify_ok.mp hf
  obtain rfl := modify_ok.mp hg
  exact ⟨rfl, h s t hst⟩

theorem orError_both {m : Exec σ α} {m' : Exec τ α} {code code' : Nat}
    (hm : Lockstep pre m m' post) : Lockstep pre (orError m code) (orError m' code') post := by
  intro s t hst a s' b t' h h'
  exact hm s t hst a s' b t' (orError_ok.mp h) (orError_ok.mp h')

theorem ite_same {condition : Prop} [Decidable condition] {yes no : Exec σ α}
    {yes' no' : Exec τ α} (hyes : Lockstep pre yes yes' post) (hno : Lockstep pre no no' post) :
    Lockstep pre (if condition then yes else no) (if condition then yes' else no') post := by
  split
  · exact hyes
  · exact hno

/-- A computation agrees with itself. -/
theorem refl (m : Exec σ α) : Lockstep Eq m m Eq := by
  rintro s t rfl a s' b t' h h'
  cases h.symm.trans h'
  exact ⟨rfl, rfl⟩

theorem weaken {m : Exec σ α} {m' : Exec τ α} {pre' post' : σ → τ → Prop}
    (hm : Lockstep pre m m' post) (hpre : ∀ s t, pre' s t → pre s t)
    (hpost : ∀ s t, post s t → post' s t) : Lockstep pre' m m' post' := by
  intro s t hst a s' b t' h h'
  obtain ⟨heq, hend⟩ := hm s t (hpre s t hst) a s' b t' h h'
  exact ⟨heq, hpost s' t' hend⟩

/-- Two computations on one component, which the relation holds equal. -/
theorem zoom_both {ρ : Type} {get : σ → ρ} {set : ρ → σ → σ} {get' : τ → ρ} {set' : ρ → τ → τ}
    {m m' : Exec ρ α} (hm : Lockstep Eq m m' Eq) (hget : ∀ s t, pre s t → get s = get' t)
    (hset : ∀ s t part, pre s t → pre (set part s) (set' part t)) :
    Lockstep pre (zoom get set m) (zoom get' set' m') pre := by
  intro s t hst a s' b t' h h'
  obtain ⟨part, hrun, rfl⟩ := zoom_ok.mp h
  obtain ⟨part', hrun', rfl⟩ := zoom_ok.mp h'
  obtain ⟨rfl, rfl⟩ := hm _ _ (hget s t hst) a part b part' hrun hrun'
  exact ⟨rfl, hset s t part hst⟩

end Lockstep

end StxShield.Library.Exec
