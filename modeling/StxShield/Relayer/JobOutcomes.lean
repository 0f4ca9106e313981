import StxShield.Relayer.JobQueue

/-!
# Outcomes of relay jobs

A job's outcome is the outcome of its transactions as long as the relayer follows
each transaction to the end.  It stops following one when a call throws after the
network has taken the transaction, and when all windows have passed.
-/

namespace StxShield.Relay

open Library Exec

/-! ## Agreement with the chain -/

def Worker.Follows : Worker → JobId → Transaction → Prop
  | .idle, _, _ => False
  | .polling id tx _ _, other, sent => other = id ∧ sent = tx
  | .rebroadcasting id tx _, other, sent => other = id ∧ sent = tx

/-- Nothing more is done about a job. -/
def Relayer.Final (relayer : Relayer) (id : JobId) : Prop :=
  id ∉ relayer.queue.pending ∧ ∀ tx, ¬ relayer.worker.Follows id tx

/-- A job one of whose transactions succeeded has not failed, and in the end it is
confirmed with that transaction. -/
def Relayer.Agrees (relayer : Relayer) : Prop :=
  ∀ id tx, (id, tx) ∈ relayer.broadcast → relayer.network.Succeeded tx →
    ∃ job, relayer.queue.jobs.lookup id = some job ∧ job.state ≠ .failed ∧
      (relayer.Final id → job.state = .confirmed ∧ job.txid = some tx)

/-- A transaction is new to a job only when none of its earlier ones can succeed. -/
def Relayer.Waits (relayer after : Relayer) : Prop :=
  ∀ id tx earlier, (id, tx) ∈ after.broadcast → (id, tx) ∉ relayer.broadcast →
    (id, earlier) ∈ relayer.broadcast → ¬ relayer.network.CanSucceed earlier

/-! ## Following a transaction to the end -/

/-- The call that is made for the next job. -/
def Relayer.nextCall (lib : StacksLibrary) (relayer : Relayer) : Option ContractCall :=
  relayer.queue.pending.head?.bind fun id =>
    (relayer.queue.jobs.lookup id).bind fun job => (buildCall lib job.request).toOption

/-- A transaction the network has taken is acknowledged. -/
def TransactionManager.Submitted.Acknowledged (submitted : TransactionManager.Submitted) : Prop :=
  submitted.taken.isSome → submitted.result.toOption.isSome

instance (submitted : TransactionManager.Submitted) : Decidable submitted.Acknowledged :=
  inferInstanceAs (Decidable (_ → _))

/-- A poll ends the polling without an outcome. -/
def Relayer.GivesUp (relayer : Relayer) (tx : Transaction) (rebroadcasts deadline : Nat) :
    PollAnswer → Nat → Prop
  | .threw _, _ => True
  | answer, now =>
      answer.outcome = none ∧ deadline ≤ now ∧
        (rebroadcasts = 0 ∨ tx ∉ relayer.manager.signed)

/-- The relayer lets go of a transaction only when it is lost. -/
def Careful (lib : StacksLibrary) (relayer : Relayer) : Request → Prop
  | .next answers _ =>
      ∀ call ∈ relayer.nextCall lib, (relayer.manager.submitRaw call answers).Acknowledged
  | .poll answer now =>
      match relayer.worker with
      | .polling _ tx rebroadcasts deadline =>
          relayer.GivesUp tx rebroadcasts deadline answer now → relayer.network.Lost tx
      | _ => True
  | .rebroadcast answer _ =>
      match relayer.worker, answer with
      | .rebroadcasting _ tx _, .threw _ _ => relayer.network.Lost tx
      | _, _ => True
  | _ => True

instance decidableGivesUp (relayer : Relayer) (tx : Transaction) (rebroadcasts deadline : Nat) :
    ∀ answer now, Decidable (relayer.GivesUp tx rebroadcasts deadline answer now)
  | .threw _, _ => isTrue trivial
  | .notOk, _ => inferInstanceAs (Decidable (_ ∧ _ ∧ _))
  | .status _, _ => inferInstanceAs (Decidable (_ ∧ _ ∧ _))

instance decidableCareful (lib : StacksLibrary) (relayer : Relayer) :
    ∀ request, Decidable (Careful lib relayer request)
  | .next _ _ => Option.decidableForallMem _
  | .poll answer now => by
      unfold Careful
      cases relayer.worker <;> infer_instance
  | .rebroadcast answer _ => by
      unfold Careful
      cases relayer.worker <;> cases answer <;> infer_instance
  | .add _ _ => isTrue trivial
  | .publish _ _ => isTrue trivial
  | .anchor _ _ => isTrue trivial
  | .close => isTrue trivial

/-! ## Jobs -/

namespace MemoryQueue

variable {queue : MemoryQueue} {id other : JobId} {patch : RelayJob → RelayJob} {job : RelayJob}

@[simp]
theorem update_pending : (queue.update id patch).pending = queue.pending := by
  unfold update
  split <;> rfl

theorem lookup_update (h : queue.jobs.lookup id = some job) :
    (queue.update id patch).jobs.lookup id = some (patch job) := by
  unfold update
  rw [h]
  exact AList.lookup_insert _

theorem lookup_update_ne (h : other ≠ id) :
    (queue.update id patch).jobs.lookup other = queue.jobs.lookup other := by
  unfold update
  split
  · exact AList.lookup_insert_ne h
  · rfl

/-- What becomes of the queue when the worker lets go of a job: the job has failed
or waits again, and the others are as before. -/
structure Releases (id : JobId) (queue after : MemoryQueue) : Prop where
  others : ∀ other, other ≠ id → after.jobs.lookup other = queue.jobs.lookup other
  pending : after.pending = queue.pending ∨
    after.pending = queue.pending ++ [id] ∧
      ∃ job, after.jobs.lookup id = some job ∧ job.state = .queued

theorem releases_update : Releases id queue (queue.update id patch) where
  others _ hother := lookup_update_ne hother
  pending := .inl update_pending

theorem releases_retry (h : queue.jobs.lookup id = some job) (message : String) :
    Releases id queue (queue.retry id message) := by
  unfold retry
  dsimp only
  split
  · constructor
    · intro other hother
      exact lookup_update_ne hother
    · refine .inr ⟨congrArg (· ++ [id]) update_pending, ?_⟩
      exact ⟨_, lookup_update h, rfl⟩
  · constructor
    · intro other hother
      exact lookup_update_ne hother
    · exact .inl update_pending

theorem Releases.trans {middle after : MemoryQueue} (hfirst : Releases id queue middle)
    (hpending : middle.pending = queue.pending) (hsecond : Releases id middle after) :
    Releases id queue after where
  others other hother := (hsecond.others other hother).trans (hfirst.others other hother)
  pending := hpending ▸ hsecond.pending

end MemoryQueue

/-! ## The invariant -/

def Relayer.Confirmed (relayer : Relayer) (id : JobId) (tx : Transaction) : Prop :=
  relayer.network.Succeeded tx ∧
    ∃ job, relayer.queue.jobs.lookup id = some job ∧ job.state = .confirmed ∧ job.txid = some tx

/-- Every transaction broadcast for a job is lost, or followed, or confirmed. -/
structure Followed (relayer : Relayer) : Prop where
  kept : ∀ id tx, (id, tx) ∈ relayer.broadcast →
    relayer.network.Lost tx ∨ relayer.worker.Follows id tx ∨ relayer.Confirmed id tx
  working : ∀ id tx, relayer.worker.Follows id tx →
    ∃ job, relayer.queue.jobs.lookup id = some job ∧ job.state = .submitting ∧ job.txid = some tx
  waiting : ∀ id ∈ relayer.queue.pending,
    ∃ job, relayer.queue.jobs.lookup id = some job ∧ job.state = .queued
  nodup : relayer.queue.pending.Nodup

variable {lib : StacksLibrary} {relayer after : Relayer} {id : JobId} {tx : Transaction}
  {network : Network}

theorem followed_launched : Followed (launched network) where
  kept _ _ hsent := nomatch hsent
  working _ _ hfollows := hfollows.elim
  waiting _ hid := nomatch hid
  nodup := List.nodup_nil

namespace Network

theorem Lost.not_canSucceed (h : network.Lost tx) : ¬ network.CanSucceed tx :=
  fun hcan => Nat.not_lt.mpr hcan.2 h.1

theorem Succeeded.not_canSucceed (h : network.Succeeded tx) : ¬ network.CanSucceed tx := by
  intro hcan
  have hanchored : network.outcomes.lookup tx ≠ none := by
    rw [h]
    exact Option.some_ne_none _
  exact Nat.not_lt.mpr hcan.2 (network.anchored tx hanchored)

theorem aborted_lost (h : network.outcomes.lookup tx = some .aborted) : network.Lost tx := by
  refine ⟨network.anchored tx ?_, ?_⟩
  · rw [h]
    exact Option.some_ne_none _
  · intro hsucceeded
    rw [Succeeded, h] at hsucceeded
    cases hsucceeded

section Anchor

variable {anchored : Transaction} {outcome : Outcome} {h : anchored.nonce = network.accountNonce}

/-- What is anchored was still open, so what is decided stays as it is. -/
theorem lookup_anchor (hused : tx.nonce < network.accountNonce) :
    (network.anchor anchored outcome h).outcomes.lookup tx = network.outcomes.lookup tx := by
  refine AList.lookup_insert_ne ?_
  rintro rfl
  exact Nat.lt_irrefl _ (h ▸ hused)

theorem Lost.anchor (hlost : network.Lost tx) : (network.anchor anchored outcome h).Lost tx := by
  refine ⟨Nat.lt_succ_of_lt hlost.1, ?_⟩
  rw [Succeeded, lookup_anchor hlost.1]
  exact hlost.2

theorem Succeeded.anchor (hsucceeded : network.Succeeded tx) :
    (network.anchor anchored outcome h).Succeeded tx := by
  have hused : tx.nonce < network.accountNonce := by
    refine network.anchored tx ?_
    rw [hsucceeded]
    exact Option.some_ne_none _
  rw [Succeeded, lookup_anchor hused]
  exact hsucceeded

end Anchor

end Network

theorem Worker.Follows.unique {worker : Worker} {other : JobId} {sent : Transaction}
    (h : worker.Follows other sent) (hfollows : worker.Follows id tx) : other = id ∧ sent = tx := by
  cases worker with
  | idle => exact h.elim
  | polling current followed rebroadcasts deadline =>
      exact ⟨h.1.trans hfollows.1.symm, h.2.trans hfollows.2.symm⟩
  | rebroadcasting current followed rebroadcasts =>
      exact ⟨h.1.trans hfollows.1.symm, h.2.trans hfollows.2.symm⟩

namespace Followed

/-- No transaction of a waiting job is open. -/
theorem lost_of_waiting (h : Followed relayer) (hidle : relayer.worker = .idle)
    (hid : id ∈ relayer.queue.pending) (hsent : (id, tx) ∈ relayer.broadcast) :
    relayer.network.Lost tx := by
  rcases h.kept id tx hsent with hlost | hfollows | ⟨-, job, hjob, hstate, -⟩
  · exact hlost
  · rw [hidle] at hfollows
    exact hfollows.elim
  · obtain ⟨other, hother, hqueued⟩ := h.waiting id hid
    rw [hjob] at hother
    obtain rfl := Option.some.inj hother
    rw [hstate] at hqueued
    cases hqueued

theorem agrees (h : Followed relayer) : relayer.Agrees := by
  intro id tx hsent hsucceeded
  rcases h.kept id tx hsent with hlost | hfollows | ⟨-, job, hjob, hstate, htxid⟩
  · exact absurd hsucceeded hlost.2
  · obtain ⟨job, hjob, hstate, -⟩ := h.working id tx hfollows
    refine ⟨job, hjob, ?_, ?_⟩
    · rw [hstate]
      exact JobState.noConfusion
    · intro hfinal
      exact absurd hfollows (hfinal.2 tx)
  · refine ⟨job, hjob, ?_, fun _ => ⟨hstate, htxid⟩⟩
    rw [hstate]
    exact JobState.noConfusion

/-- The worker lets go of a job, and what it followed is decided. -/
theorem release (h : Followed relayer) {queue : MemoryQueue}
    (hreleases : MemoryQueue.Releases id relayer.queue queue)
    (hjob : ∀ job, relayer.queue.jobs.lookup id = some job → job.state = .submitting)
    (hdecided : ∀ other tx, relayer.worker.Follows other tx → relayer.network.Lost tx ∨
      { relayer with queue := queue, worker := .idle }.Confirmed other tx) :
    Followed { relayer with queue := queue, worker := .idle } := by
  have hnot_pending : id ∉ relayer.queue.pending := by
    intro hid
    obtain ⟨job, hlookup, hqueued⟩ := h.waiting id hid
    rw [hjob job hlookup] at hqueued
    cases hqueued
  constructor
  · intro other tx hsent
    rcases h.kept other tx hsent with hlost | hfollows | ⟨hsucceeded, job, hlookup, hstate, htxid⟩
    · exact .inl hlost
    · exact (hdecided other tx hfollows).imp_right .inr
    · have hne : other ≠ id := by
        rintro rfl
        rw [hjob job hlookup] at hstate
        cases hstate
      exact .inr (.inr ⟨hsucceeded, job, (hreleases.others other hne).trans hlookup, hstate, htxid⟩)
  · intro _ _ hfollows
    exact hfollows.elim
  · intro other hother
    rcases hreleases.pending with hsame | ⟨hadded, hqueued⟩
    · change other ∈ queue.pending at hother
      rw [hsame] at hother
      have hne : other ≠ id := by
        rintro rfl
        exact hnot_pending hother
      obtain ⟨job, hlookup, hstate⟩ := h.waiting other hother
      exact ⟨job, (hreleases.others other hne).trans hlookup, hstate⟩
    · change other ∈ queue.pending at hother
      rw [hadded, List.mem_append, List.mem_singleton] at hother
      by_cases hsame : other = id
      · rw [hsame]
        exact hqueued
      · obtain ⟨job, hlookup, hstate⟩ := h.waiting other (hother.resolve_right hsame)
        exact ⟨job, (hreleases.others other hsame).trans hlookup, hstate⟩
  · change queue.pending.Nodup
    rcases hreleases.pending with hsame | ⟨hadded, -⟩
    · rw [hsame]
      exact h.nodup
    · rw [hadded]
      exact List.Nodup.append h.nodup (List.nodup_singleton id)
        (List.disjoint_singleton.mpr hnot_pending)

/-! ## Steps -/

/-- The worker takes the first of the waiting jobs. -/
theorem start (h : Followed relayer) (hidle : relayer.worker = .idle) {rest : List JobId}
    (hpending : relayer.queue.pending = id :: rest) {job : RelayJob}
    (hjob : relayer.queue.jobs.lookup id = some job) :
    Followed
      { relayer with
        queue := { relayer.queue with pending := rest }.update id
          fun job => { job with state := .submitting } } := by
  have hid : id ∈ relayer.queue.pending := hpending ▸ List.mem_cons_self
  have hnodup : (id :: rest).Nodup := hpending ▸ h.nodup
  constructor
  · intro other tx hsent
    by_cases hsame : other = id
    · exact .inl (h.lost_of_waiting hidle hid (hsame ▸ hsent))
    · rcases h.kept other tx hsent with hlost | hfollows | ⟨hsucceeded, found, hlookup, hrest⟩
      · exact .inl hlost
      · exact .inr (.inl hfollows)
      · exact .inr (.inr ⟨hsucceeded, found,
          (MemoryQueue.lookup_update_ne hsame).trans hlookup, hrest⟩)
  · intro other tx hfollows
    change relayer.worker.Follows other tx at hfollows
    rw [hidle] at hfollows
    exact hfollows.elim
  · intro other hother
    rw [MemoryQueue.update_pending] at hother
    have hne : other ≠ id := by
      rintro rfl
      exact (List.nodup_cons.mp hnodup).1 hother
    obtain ⟨found, hlookup, hstate⟩ := h.waiting other (hpending ▸ List.mem_cons_of_mem _ hother)
    exact ⟨found, (MemoryQueue.lookup_update_ne hne).trans hlookup, hstate⟩
  · rw [MemoryQueue.update_pending]
    exact (List.nodup_cons.mp hnodup).2

end Followed

/-- A submission is acknowledged with the transaction the network took, or fails. -/
theorem TransactionManager.submitRaw_result {manager : TransactionManager} {call : ContractCall}
    {answers : SubmitAnswers} (h : (manager.submitRaw call answers).Acknowledged) :
    (∃ tx, (manager.submitRaw call answers).result = .ok tx ∧
      (manager.submitRaw call answers).taken = some tx) ∨
    ∃ message, (manager.submitRaw call answers).result = .error message ∧
      (manager.submitRaw call answers).taken = none := by
  revert h
  unfold submitRaw Submitted.Acknowledged
  cases manager.nonce.elim answers.nonce .ok with
  | error message => exact fun _ => .inr ⟨message, rfl, rfl⟩
  | ok nonce =>
      cases answers.signing with
      | error message => exact fun _ => .inr ⟨message, rfl, rfl⟩
      | ok _ =>
          cases answers.broadcast with
          | accepted => exact fun _ => .inl ⟨_, rfl, rfl⟩
          | rejected reason => exact fun _ => .inr ⟨_, rfl, rfl⟩
          | threw taken message =>
              cases taken with
              | false => exact fun _ => .inr ⟨message, rfl, rfl⟩
              | true => exact fun hack => nomatch hack rfl

/-- Only the job that is run gets new transactions. -/
theorem Relayer.broadcast_run {request : RelayRequest} {answers : SubmitAnswers} {now : Nat}
    {other : JobId} (h : (other, tx) ∈ (relayer.run lib id request answers now).broadcast) :
    other = id ∨ (other, tx) ∈ relayer.broadcast := by
  unfold run at h
  split at h
  case h_1 => exact .inr h
  case h_2 call hcall =>
    have hmem : (other, tx) ∈ ((relayer.manager.submitRaw call answers).taken.toList.map
        fun tx => (id, tx)) ++ relayer.broadcast := by
      dsimp only at h
      split at h <;> exact h
    rcases List.mem_append.mp hmem with hnew | hold
    · obtain ⟨_, -, heq⟩ := List.mem_map.mp hnew
      exact .inl (Prod.mk.inj heq).1.symm
    · exact .inr hold

theorem serve_anchor {outcome : Outcome} {u : Unit}
    (h : serve lib (.anchor tx outcome) relayer = .ok (u, after)) :
    ∃ hnonce : tx.nonce = relayer.network.accountNonce,
      after = { relayer with network := relayer.network.anchor tx outcome hnonce } := by
  simp only [serve, ↓bind_ok, ↓exists_read] at h
  by_cases hnext : tx ∈ relayer.network.taken ∧ tx.nonce = relayer.network.accountNonce
  · rw [dif_pos hnext, modify_ok] at h
    exact ⟨hnext.2, h.symm⟩
  · rw [dif_neg hnext] at h
    cases h

/-- Nothing but a run broadcasts for a job. -/
theorem broadcast_polled {rebroadcasts deadline : Nat} {answer : PollAnswer} {now : Nat} :
    (relayer.polled id tx rebroadcasts deadline answer now).broadcast = relayer.broadcast := by
  unfold Relayer.polled
  repeat' split
  all_goals rfl

theorem broadcast_rebroadcasted {rebroadcasts : Nat} {answer : BroadcastAnswer} {now : Nat} :
    (relayer.rebroadcasted id tx rebroadcasts answer now).broadcast = relayer.broadcast := by
  unfold Relayer.rebroadcasted
  split <;> rfl

namespace Followed

/-- The worker takes the first waiting job, which is there. -/
theorem serve_next (h : Followed relayer) {answers : SubmitAnswers} {now : Nat} {u : Unit}
    (hrun : serve lib (.next answers now) relayer = .ok (u, after)) :
    ∃ id rest job, relayer.worker = .idle ∧ relayer.queue.pending = id :: rest ∧
      relayer.queue.jobs.lookup id = some job ∧
      after = { relayer with queue := { relayer.queue with pending := rest } }.run lib id
        job.request answers now := by
  simp only [serve, ↓bind_ok, ↓exists_read] at hrun
  cases hworker : relayer.worker with
  | idle =>
      cases hpending : relayer.queue.pending with
      | nil =>
          rw [hworker, hpending] at hrun
          cases hrun
      | cons id rest =>
          obtain ⟨job, hjob, -⟩ := h.waiting id (hpending ▸ List.mem_cons_self)
          simp only [hworker, hpending, hjob, ↓bind_ok, ↓exists_require, ↓exists_modify,
            ↓modify_ok] at hrun
          obtain ⟨-, -, rfl⟩ := hrun
          exact ⟨id, rest, job, rfl, rfl, hjob, rfl⟩
  | _ =>
      rw [hworker] at hrun
      cases hrun

theorem broadcast_serve (h : Followed relayer) {request : Request} {u : Unit}
    (hrun : serve lib request relayer = .ok (u, after)) :
    after.broadcast = relayer.broadcast ∨
      ∃ current, relayer.worker = .idle ∧ current ∈ relayer.queue.pending ∧
        ∀ id tx, (id, tx) ∈ after.broadcast → id = current ∨ (id, tx) ∈ relayer.broadcast := by
  cases request with
  | next answers now =>
      obtain ⟨current, rest, job, hidle, hpending, -, rfl⟩ := h.serve_next hrun
      right
      refine ⟨current, hidle, hpending ▸ List.mem_cons_self, ?_⟩
      intro id tx hsent
      have hnew := Relayer.broadcast_run hsent
      exact hnew
  | anchor tx outcome =>
      obtain ⟨-, rfl⟩ := serve_anchor hrun
      exact .inl rfl
  | poll answer now =>
      left
      simp only [serve, ↓bind_ok, ↓exists_read] at hrun
      cases hworker : relayer.worker with
      | polling id tx rebroadcasts deadline =>
          simp only [hworker, ↓bind_ok, ↓exists_require, ↓modify_ok] at hrun
          obtain ⟨-, rfl⟩ := hrun
          exact broadcast_polled
      | _ =>
          rw [hworker] at hrun
          cases hrun
  | rebroadcast answer now =>
      left
      simp only [serve, ↓bind_ok, ↓exists_read] at hrun
      cases hworker : relayer.worker with
      | rebroadcasting id tx rebroadcasts =>
          simp only [hworker, ↓modify_ok] at hrun
          obtain rfl := hrun
          exact broadcast_rebroadcasted
      | _ =>
          rw [hworker] at hrun
          cases hrun
  | add id request =>
      simp only [serve, ↓bind_ok, ↓exists_read, ↓exists_require, ↓modify_ok] at hrun
      obtain ⟨-, rfl⟩ := hrun
      exact .inl rfl
  | publish call answers =>
      simp only [serve, ↓bind_ok, ↓exists_read, ↓exists_require, ↓modify_ok] at hrun
      obtain ⟨-, rfl⟩ := hrun
      exact .inl rfl
  | close =>
      simp only [serve, ↓modify_ok] at hrun
      obtain rfl := hrun
      exact .inl rfl

/-- A submission from the account that no job waits for. -/
theorem submitted (h : Followed relayer) (manager : TransactionManager)
    (taken : Option Transaction) :
    Followed
      { relayer with
        manager := manager
        network := taken.elim relayer.network relayer.network.take } := by
  cases taken <;> exact ⟨h.kept, h.working, h.waiting, h.nodup⟩

/-- The transaction just broadcast is followed from then on. -/
theorem follow (h : Followed relayer) (hidle : relayer.worker = .idle) {job : RelayJob}
    (hjob : relayer.queue.jobs.lookup id = some job) (hstate : job.state = .submitting)
    (tx : Transaction) (rebroadcasts deadline : Nat) :
    Followed
      { relayer with
        queue := relayer.queue.update id fun job => { job with txid := some tx }
        worker := .polling id tx rebroadcasts deadline
        network := relayer.network.take tx
        broadcast := [(id, tx)] ++ relayer.broadcast } := by
  have hunconfirmed : ∀ other sent, relayer.Confirmed other sent → other ≠ id := by
    rintro other sent ⟨-, found, hfound, hconfirmed, -⟩ rfl
    rw [hjob] at hfound
    obtain rfl := Option.some.inj hfound
    rw [hstate] at hconfirmed
    cases hconfirmed
  constructor
  · intro other sent hsent
    rcases List.mem_cons.mp hsent with hnew | hold
    · obtain ⟨rfl, rfl⟩ := Prod.mk.inj hnew
      exact .inr (.inl ⟨rfl, rfl⟩)
    · rcases h.kept other sent hold with hlost | hfollows | hconfirmed
      · exact .inl hlost
      · rw [hidle] at hfollows
        exact hfollows.elim
      · have hne := hunconfirmed other sent hconfirmed
        obtain ⟨hsucceeded, found, hlookup, hrest⟩ := hconfirmed
        exact .inr (.inr ⟨hsucceeded, found,
          (MemoryQueue.lookup_update_ne hne).trans hlookup, hrest⟩)
  · rintro other sent ⟨rfl, rfl⟩
    exact ⟨_, MemoryQueue.lookup_update hjob, hstate, rfl⟩
  · intro other hother
    rw [MemoryQueue.update_pending] at hother
    obtain ⟨found, hlookup, hqueued⟩ := h.waiting other hother
    have hne : other ≠ id := by
      rintro rfl
      rw [hjob] at hlookup
      obtain rfl := Option.some.inj hlookup
      rw [hstate] at hqueued
      cases hqueued
    exact ⟨found, (MemoryQueue.lookup_update_ne hne).trans hlookup, hqueued⟩
  · rw [MemoryQueue.update_pending]
    exact h.nodup

theorem run (h : Followed relayer) (hidle : relayer.worker = .idle) {rest : List JobId}
    (hpending : relayer.queue.pending = id :: rest) {job : RelayJob}
    (hjob : relayer.queue.jobs.lookup id = some job) {answers : SubmitAnswers} (now : Nat)
    (hcareful : ∀ call ∈ (buildCall lib job.request).toOption,
      (relayer.manager.submitRaw call answers).Acknowledged) :
    Followed ({ relayer with queue := { relayer.queue with pending := rest } }.run lib id
      job.request answers now) := by
  have hstart := h.start hidle hpending hjob
  have hsubmitting : ({ relayer.queue with pending := rest }.update id
      fun job => { job with state := .submitting }).jobs.lookup id =
      some { job with state := .submitting } := MemoryQueue.lookup_update hjob
  generalize hqueue : ({ relayer.queue with pending := rest }.update id
    fun job => { job with state := .submitting }) = queue at hstart hsubmitting
  have hstate : ∀ found, queue.jobs.lookup id = some found → found.state = .submitting := by
    intro found hfound
    rw [hsubmitting] at hfound
    obtain rfl := Option.some.inj hfound
    rfl
  unfold Relayer.run
  simp only [hqueue]
  cases hcall : buildCall lib job.request with
  | error message =>
      refine hstart.release (MemoryQueue.releases_retry hsubmitting message) hstate ?_
      intro other tx hfollows
      change relayer.worker.Follows other tx at hfollows
      rw [hidle] at hfollows
      exact hfollows.elim
  | ok call =>
      rw [hcall] at hcareful
      rcases TransactionManager.submitRaw_result (hcareful call rfl) with
        ⟨tx, hresult, htaken⟩ | ⟨message, hresult, htaken⟩
      · simp only [hresult, htaken, Option.toList_some, List.map_cons, List.map_nil,
          Option.elim_some]
        exact (hstart.submitted _ none).follow hidle hsubmitting rfl tx _ _
      · simp only [hresult, htaken, Option.toList_none, List.map_nil, Option.elim_none,
          List.nil_append]
        refine (hstart.submitted _ none).release
          (MemoryQueue.releases_retry hsubmitting message) hstate ?_
        intro other tx hfollows
        change relayer.worker.Follows other tx at hfollows
        rw [hidle] at hfollows
        exact hfollows.elim

/-- The worker lets go of a lost transaction, and puts its job back or gives it up. -/
theorem release_lost (h : Followed relayer) (hfollows : relayer.worker.Follows id tx)
    (hlost : relayer.network.Lost tx) {queue : MemoryQueue}
    (hreleases : ∀ job, relayer.queue.jobs.lookup id = some job →
      MemoryQueue.Releases id relayer.queue queue) :
    Followed { relayer with queue := queue, worker := .idle } := by
  obtain ⟨job, hjob, hstate, -⟩ := h.working id tx hfollows
  refine h.release (hreleases job hjob) ?_ ?_
  · intro found hfound
    rw [hjob] at hfound
    obtain rfl := Option.some.inj hfound
    exact hstate
  · intro other sent hother
    obtain ⟨-, rfl⟩ := hother.unique hfollows
    exact .inl hlost

theorem confirm (h : Followed relayer) (hfollows : relayer.worker.Follows id tx)
    (hsucceeded : relayer.network.Succeeded tx) : Followed (relayer.settle id .success) := by
  obtain ⟨job, hjob, hstate, htxid⟩ := h.working id tx hfollows
  refine h.release MemoryQueue.releases_update ?_ ?_
  · intro found hfound
    rw [hjob] at hfound
    obtain rfl := Option.some.inj hfound
    exact hstate
  · intro other sent hother
    obtain ⟨rfl, rfl⟩ := hother.unique hfollows
    exact .inr ⟨hsucceeded, _, MemoryQueue.lookup_update hjob, rfl, htxid⟩

theorem settle (h : Followed relayer) (hfollows : relayer.worker.Follows id tx)
    {outcome : Outcome} (houtcome : relayer.network.outcomes.lookup tx = some outcome) :
    Followed (relayer.settle id outcome) := by
  cases outcome with
  | success => exact h.confirm hfollows houtcome
  | aborted =>
      exact h.release_lost hfollows (Network.aborted_lost houtcome)
        fun _ _ => MemoryQueue.releases_update

theorem polled (h : Followed relayer) {rebroadcasts deadline : Nat}
    (hworker : relayer.worker = .polling id tx rebroadcasts deadline) {answer : PollAnswer}
    {now : Nat} (htruthful : answer.Truthful relayer.network tx)
    (hcareful : relayer.GivesUp tx rebroadcasts deadline answer now → relayer.network.Lost tx) :
    Followed (relayer.polled id tx rebroadcasts deadline answer now) := by
  have hfollows : relayer.worker.Follows id tx := by
    rw [hworker]
    exact ⟨rfl, rfl⟩
  unfold Relayer.polled
  split
  case h_1 message =>
    exact h.release_lost hfollows (hcareful trivial) fun _ hjob =>
      MemoryQueue.releases_retry hjob message
  case h_2 _ hanswer =>
    cases houtcome : answer.outcome with
    | some outcome => exact h.settle hfollows (htruthful outcome houtcome)
    | none =>
        simp only
        split
        case isTrue hearly => exact h
        case isFalse hlate =>
          split
          case isTrue hgiven =>
            refine h.release_lost hfollows (hcareful ?_) fun _ _ => MemoryQueue.releases_update
            cases answer with
            | threw message => exact absurd rfl (hanswer message)
            | notOk => exact ⟨houtcome, Nat.le_of_not_lt hlate, hgiven⟩
            | status txStatus => exact ⟨houtcome, Nat.le_of_not_lt hlate, hgiven⟩
          case isFalse hagain =>
            refine ⟨?_, ?_, h.waiting, h.nodup⟩
            · intro other sent hsent
              exact (h.kept other sent hsent).imp_right (.imp_left fun hother => hother.unique hfollows)
            · rintro other sent ⟨rfl, rfl⟩
              exact h.working _ _ hfollows

theorem rebroadcasted (h : Followed relayer) {rebroadcasts : Nat}
    (hworker : relayer.worker = .rebroadcasting id tx rebroadcasts) {answer : BroadcastAnswer}
    {now : Nat} (hcareful : ∀ taken message, answer = .threw taken message →
      relayer.network.Lost tx) :
    Followed (relayer.rebroadcasted id tx rebroadcasts answer now) := by
  have hfollows : relayer.worker.Follows id tx := by
    rw [hworker]
    exact ⟨rfl, rfl⟩
  unfold Relayer.rebroadcasted
  split
  case h_1 taken message =>
    exact h.release_lost hfollows (hcareful taken message rfl) fun _ _ =>
      MemoryQueue.releases_update
  case h_2 =>
    refine ⟨?_, ?_, h.waiting, h.nodup⟩
    · intro other sent hsent
      exact (h.kept other sent hsent).imp_right (.imp_left fun hother => hother.unique hfollows)
    · rintro other sent ⟨rfl, rfl⟩
      exact h.working _ _ hfollows

theorem anchor (h : Followed relayer) {anchored : Transaction} (outcome : Outcome)
    (hnonce : anchored.nonce = relayer.network.accountNonce) :
    Followed { relayer with network := relayer.network.anchor anchored outcome hnonce } where
  kept id tx hsent :=
    (h.kept id tx hsent).imp (fun hlost => hlost.anchor (h := hnonce)) (.imp_right fun hconfirmed =>
      ⟨hconfirmed.1.anchor (h := hnonce), hconfirmed.2⟩)
  working := h.working
  waiting := h.waiting
  nodup := h.nodup

theorem add (h : Followed relayer) (request : RelayRequest)
    (hfresh : relayer.queue.jobs.lookup id = none) :
    Followed { relayer with queue := relayer.queue.add id request } := by
  have hother : ∀ {other : JobId} {job : RelayJob}, relayer.queue.jobs.lookup other = some job →
      (relayer.queue.add id request).jobs.lookup other = some job := by
    intro other job hlookup
    have hne : other ≠ id := by
      rintro rfl
      rw [hfresh] at hlookup
      cases hlookup
    exact (AList.lookup_insert_ne hne).trans hlookup
  constructor
  · intro other tx hsent
    rcases h.kept other tx hsent with hlost | hfollows | ⟨hsucceeded, job, hlookup, hrest⟩
    · exact .inl hlost
    · exact .inr (.inl hfollows)
    · exact .inr (.inr ⟨hsucceeded, job, hother hlookup, hrest⟩)
  · intro other tx hfollows
    obtain ⟨job, hlookup, hrest⟩ := h.working other tx hfollows
    exact ⟨job, hother hlookup, hrest⟩
  · intro other hmem
    rcases List.mem_append.mp hmem with hold | hnew
    · obtain ⟨job, hlookup, hstate⟩ := h.waiting other hold
      exact ⟨job, hother hlookup, hstate⟩
    · obtain rfl := List.mem_singleton.mp hnew
      exact ⟨_, AList.lookup_insert _, rfl⟩
  · refine List.Nodup.append h.nodup (List.nodup_singleton id) (List.disjoint_singleton.mpr ?_)
    intro hmem
    obtain ⟨job, hlookup, -⟩ := h.waiting id hmem
    rw [hfresh] at hlookup
    cases hlookup

theorem step (h : Followed relayer) {request : Request} {u : Unit}
    (hcareful : Careful lib relayer request)
    (hrun : serve lib request relayer = .ok (u, after)) : Followed after := by
  cases request with
  | add id request =>
      simp only [serve, ↓bind_ok, ↓exists_read, ↓exists_require, ↓modify_ok] at hrun
      obtain ⟨hfresh, rfl⟩ := hrun
      exact h.add request (Option.isNone_iff_eq_none.mp hfresh)
  | next answers now =>
      obtain ⟨id, rest, job, hidle, hpending, hjob, rfl⟩ := h.serve_next hrun
      refine h.run hidle hpending hjob now ?_
      simpa [Careful, Relayer.nextCall, hpending, hjob] using hcareful
  | poll answer now =>
      simp only [serve, ↓bind_ok, ↓exists_read] at hrun
      cases hworker : relayer.worker with
      | polling id tx rebroadcasts deadline =>
          simp only [hworker, ↓bind_ok, ↓exists_require, ↓modify_ok] at hrun
          obtain ⟨htruthful, rfl⟩ := hrun
          simp only [Careful, hworker] at hcareful
          exact h.polled hworker htruthful hcareful
      | _ =>
          rw [hworker] at hrun
          cases hrun
  | rebroadcast answer now =>
      simp only [serve, ↓bind_ok, ↓exists_read] at hrun
      cases hworker : relayer.worker with
      | rebroadcasting id tx rebroadcasts =>
          simp only [hworker, ↓modify_ok] at hrun
          obtain rfl := hrun
          refine h.rebroadcasted hworker ?_
          rintro taken message rfl
          simpa only [Careful, hworker] using hcareful
      | _ =>
          rw [hworker] at hrun
          cases hrun
  | publish call answers =>
      simp only [serve, ↓bind_ok, ↓exists_read, ↓exists_require, ↓modify_ok] at hrun
      obtain ⟨-, rfl⟩ := hrun
      exact h.submitted _ _
  | anchor tx outcome =>
      obtain ⟨hnonce, rfl⟩ := serve_anchor hrun
      exact h.anchor outcome hnonce
  | close =>
      simp only [serve, ↓modify_ok] at hrun
      obtain rfl := hrun
      exact ⟨h.kept, h.working, h.waiting, h.nodup⟩

/-- Only the job the worker takes gets new transactions. -/
theorem waits (h : Followed relayer) {request : Request} {u : Unit}
    (hrun : serve lib request relayer = .ok (u, after)) : relayer.Waits after := by
  intro id tx earlier hsent hnew hearlier
  rcases broadcast_serve h hrun with hsame | ⟨current, hidle, hcurrent, hadded⟩
  · rw [hsame] at hsent
    exact absurd hsent hnew
  · rcases hadded id tx hsent with rfl | hold
    · exact (h.lost_of_waiting hidle hcurrent hearlier).not_canSucceed
    · exact absurd hold hnew

end Followed

/-! ## Runs -/

/-- A relayer that follows every transaction to the end reports the outcomes the
chain has, and broadcasts nothing new for a job that can still succeed. -/
theorem job_outcomes_agree (lib : StacksLibrary) (network : Network) (requests : List Request)
    (hcareful : Session.Along (serve lib) (fun run => Careful lib run.state)
      (Session.start (launched network)) requests) :
    (runFrom lib network requests).state.Agrees ∧
      ∀ request after, serve lib request (runFrom lib network requests).state = .ok ((), after) →
        (runFrom lib network requests).state.Waits after := by
  have hfollowed : Followed (runFrom lib network requests).state := by
    refine Session.invariant_along (I := fun run => Followed run.state) ?_ followed_launched hcareful
    intro run request u after hkept hsuits hrun
    exact hkept.step hsuits hrun
  exact ⟨hfollowed.agrees, fun request after hrun => hfollowed.waits hrun⟩

/-! ## One job -/

namespace Sample

def stacksLibrary : StacksLibrary where
  uintOfNumber n := if h : n < 2 ^ 53 then .ok ⟨n, by omega⟩ else .error "number is not safe"
  uintOfNumber_val n u h := by
    split at h
    · cases h
      rfl
    · cases h
  uint n := if h : n < 2 ^ 128 then .ok ⟨n, h⟩ else .error "value is too large"
  uint_val n u h := by
    split at h
    · cases h
      rfl
    · cases h
  standardPrincipal _ := .ok (.account 1)
  contractPrincipal _ _ := .error "not an address"

def word (digit : Char) : String := String.ofList ('0' :: 'x' :: List.replicate 64 digit)

def withdrawRequest : RelayRequest :=
  .withdraw
    { inclusion := { domainId := 0, aggregationId := 7, merklePath := [], leafIndex := 0 }
      token := none
      nullifier := word '1'
      amount := "1000000"
      recipient := "ST2CY5V39NHDPWSXMW9QDT3HC3GD6Q6XX4CFRK9AG"
      root := word '2' }

def sent (nonce : Nat) : Transaction where
  call :=
    { contract := .privacyPool
      fn := .withdraw
      args := [buf (word '1'), .uint 1000000, .principal (.account 1), buf (word '2'), .uint 0,
        .uint 7, .list [], .uint 0] }
  nonce := nonce

def relayNetwork : Network where
  taken := []
  accountNonce := 5
  outcomes := ∅
  anchored := by
    intro tx htx
    exact absurd (AList.lookup_empty tx) htx

def answers : SubmitAnswers where
  nonce := .ok 5
  signing := .ok ()
  broadcast := .accepted

/-- The transaction is broadcast, anchored and found. -/
def confirmedRequests : List Request :=
  [.add 0 withdrawRequest, .next answers 0, .poll .notOk 30000, .anchor (sent 5) .success,
    .poll (.status "success") 60000]

/-- The first poll throws, so the job is run again.  Its first transaction succeeds,
and the second finds the nullifier spent. -/
def repeatedRequests : List Request :=
  [.add 0 withdrawRequest, .next answers 0, .poll (.threw "fetch failed") 30000,
    .next answers 30000, .anchor (sent 5) .success, .anchor (sent 6) .aborted,
    .poll (.status "abort_by_response") 60000]

end Sample

theorem job_outcomes_agree_confirmed :
    (runFrom Sample.stacksLibrary Sample.relayNetwork Sample.confirmedRequests).state.Agrees ∧
      ∀ request after,
        serve Sample.stacksLibrary request
          (runFrom Sample.stacksLibrary Sample.relayNetwork Sample.confirmedRequests).state =
            .ok ((), after) →
        (runFrom Sample.stacksLibrary Sample.relayNetwork Sample.confirmedRequests).state.Waits after :=
  job_outcomes_agree Sample.stacksLibrary Sample.relayNetwork Sample.confirmedRequests
    (by decide +kernel)

/-- A poll that throws makes the relayer broadcast twice and report the transaction
that failed. -/
theorem job_outcome_wrong :
    ¬ ∀ (lib : StacksLibrary) (network : Network) (requests : List Request),
      (runFrom lib network requests).state.Agrees ∧
        ∀ request after, serve lib request (runFrom lib network requests).state = .ok ((), after) →
          (runFrom lib network requests).state.Waits after := by
  intro hagree
  have hsent : (0, Sample.sent 5) ∈
      (runFrom Sample.stacksLibrary Sample.relayNetwork Sample.repeatedRequests).state.broadcast := by
    decide +kernel
  have hsucceeded :
      (runFrom Sample.stacksLibrary Sample.relayNetwork Sample.repeatedRequests).state.network.Succeeded
        (Sample.sent 5) := by
    decide +kernel
  have hfailed :
      ((runFrom Sample.stacksLibrary Sample.relayNetwork Sample.repeatedRequests).state.queue.jobs.lookup
        0).map RelayJob.state = some .failed := by
    decide +kernel
  obtain ⟨job, hjob, hstate, -⟩ := (hagree _ _ _).1 0 _ hsent hsucceeded
  rw [hjob] at hfailed
  exact hstate (Option.some.inj hfailed)

end StxShield.Relay
