import StxShield.Relayer.DrainLoop

/-!
# The two queue drivers

The relayer's worker does not know which driver its jobs come from.  The in-memory queue
counts a job's failed attempts in its record.  With BullMQ the attempts are counted in
Redis, and each of them starts from the job as it was queued.
-/

namespace StxShield.Relay

open Library

/-! ## One attempt -/

/-- What comes of one attempt to run a job. -/
inductive Attempt where
  /-- No transaction is submitted. -/
  | refused (message : String)
  /-- Waiting for the transaction to be confirmed throws. -/
  | interrupted (tx : Transaction) (message : String)
  | settled (tx : Transaction) (outcome : Outcome)

namespace Attempt

def settle (outcome : Outcome) (job : RelayJob) : RelayJob :=
  match outcome with
  | .success => { job with state := .confirmed, error := none }
  | .aborted => { job with state := .failed, error := some "transaction aborted on chain" }

/-- `run`, with the driver's `update` of the job. -/
def handle {Driver : Type} (update : (RelayJob → RelayJob) → Driver → Driver) (attempt : Attempt)
    (driver : Driver) : Driver × Except String Unit :=
  let submitting := update (fun job => { job with state := .submitting }) driver
  match attempt with
  | .refused message => (submitting, .error message)
  | .interrupted tx message =>
      (update (fun job => { job with txid := some tx }) submitting, .error message)
  | .settled tx outcome =>
      let recorded := update (fun job => { job with txid := some tx }) submitting
      (update (settle outcome) recorded, .ok ())

def result : Attempt → Except String Unit
  | .refused message => .error message
  | .interrupted _ message => .error message
  | .settled _ _ => .ok ()

/-- An attempt that throws is followed by another one, up to the last. -/
def Throws (attempt : Attempt) : Prop := ∃ message, attempt.result = .error message

instance (attempt : Attempt) : Decidable attempt.Throws :=
  match h : attempt.result with
  | .ok () => isFalse fun ⟨_, hthrows⟩ => by rw [h] at hthrows; cases hthrows
  | .error message => isTrue ⟨message, h⟩

/-- The transaction id that an attempt records. -/
def submitted : Attempt → Option Transaction
  | .refused _ => none
  | .interrupted tx _ => some tx
  | .settled tx _ => some tx

/-- What an attempt makes of the job's record. -/
def record : Attempt → RelayJob → RelayJob
  | .refused _, job => { job with state := .submitting }
  | .interrupted tx _, job => { job with state := .submitting, txid := some tx }
  | .settled tx outcome, job => settle outcome { job with state := .submitting, txid := some tx }

end Attempt

/-! ## The drivers -/

/-- The attempts of the only job that waits in memory. -/
def MemoryQueue.process (id : JobId) (attempts : Nat → Attempt) :
    Nat → Nat → MemoryQueue → MemoryQueue
  | 0, _, queue => queue
  | remaining + 1, k, queue =>
      let taken := { queue with pending := queue.pending.tail }
      match (attempts k).handle (fun patch queue => queue.update id patch) taken with
      | (queue, .ok ()) => queue
      | (queue, .error message) =>
          let retried := queue.retry id message
          if retried.pending = [] then retried
          else process id attempts remaining (k + 1) retried

/-- What `get` returns in the end. -/
def memoryStatus (jobs : DataMap JobId RelayJob) (id : JobId) (request : RelayRequest)
    (attempts : Nat → Attempt) : Option RelayJob :=
  let queue : MemoryQueue := { jobs := jobs, pending := [], dead := [], closed := false }
  ((queue.add id request).process id attempts maxAttempts 0).jobs.lookup id

/-- `attempts` of a job's options. -/
def bullAttempts : Nat := 3

def updateIn (id : JobId) (patch : RelayJob → RelayJob) (jobs : DataMap JobId RelayJob) :
    DataMap JobId RelayJob :=
  match jobs.lookup id with
  | some job => jobs.insert id (patch job)
  | none => jobs

/-- The worker is called with the data that was queued, until it returns. -/
def bullProcess (id : JobId) (queued : RelayJob) (attempts : Nat → Attempt) :
    Nat → Nat → DataMap JobId RelayJob → DataMap JobId RelayJob
  | 0, _, jobs => jobs
  | remaining + 1, k, jobs =>
      match (attempts k).handle (updateIn id) (jobs.insert id queued) with
      | (jobs, .ok ()) => jobs
      | (jobs, .error _) => bullProcess id queued attempts remaining (k + 1) jobs

def bullStatus (jobs : DataMap JobId RelayJob) (id : JobId) (request : RelayRequest)
    (attempts : Nat → Attempt) : Option RelayJob :=
  let queued := newJob request
  (bullProcess id queued attempts bullAttempts 0 (jobs.insert id queued)).lookup id

/-! ## What an attempt leaves -/

section Attempts

variable {Driver : Type} {update : (RelayJob → RelayJob) → Driver → Driver}

/-- On either driver an attempt ends alike, and leaves the same record. -/
theorem Attempt.handle_eq (lookup : Driver → Option RelayJob)
    (hupdate : ∀ patch driver, lookup (update patch driver) = (lookup driver).map patch)
    (attempt : Attempt) (driver : Driver) :
    (attempt.handle update driver).2 = attempt.result ∧
      lookup (attempt.handle update driver).1 = (lookup driver).map attempt.record := by
  cases attempt with
  | refused message => exact ⟨rfl, hupdate _ _⟩
  | interrupted tx message =>
      refine ⟨rfl, ?_⟩
      unfold handle
      dsimp only
      rw [hupdate, hupdate, Option.map_map]
      rfl
  | settled tx outcome =>
      refine ⟨rfl, ?_⟩
      unfold handle
      dsimp only
      rw [hupdate, hupdate, hupdate, Option.map_map, Option.map_map]
      rfl

theorem Attempt.not_throws_of_ok {attempt : Attempt} (h : attempt.result = .ok ()) :
    ¬ attempt.Throws := by
  rintro ⟨message, hthrows⟩
  rw [h] at hthrows
  cases hthrows

/-- An attempt keeps the id of a transaction. -/
theorem Attempt.record_txid (attempt : Attempt) (job : RelayJob)
    (h : job.txid.isSome = true ∨ attempt.submitted.isSome = true) :
    (attempt.record job).txid.isSome = true := by
  cases attempt with
  | refused message => exact h.resolve_right Bool.false_ne_true
  | interrupted tx message => rfl
  | settled tx outcome =>
      cases outcome with
      | success => rfl
      | aborted => rfl

theorem Attempt.record_attempts (attempt : Attempt) (job : RelayJob) :
    (attempt.record job).attempts = job.attempts := by
  cases attempt with
  | refused message => rfl
  | interrupted tx message => rfl
  | settled tx outcome =>
      cases outcome with
      | success => rfl
      | aborted => rfl

end Attempts

variable {id : JobId} {patch : RelayJob → RelayJob} {jobs : DataMap JobId RelayJob}
  {queue : MemoryQueue} {job queued : RelayJob} {attempts : Nat → Attempt}

theorem MemoryQueue.lookup_update_map :
    (queue.update id patch).jobs.lookup id = (queue.jobs.lookup id).map patch := by
  cases hjob : queue.jobs.lookup id with
  | none =>
      unfold update
      rw [hjob]
      exact hjob
  | some job => exact MemoryQueue.lookup_update hjob

theorem lookup_updateIn (id : JobId) (patch : RelayJob → RelayJob) (jobs : DataMap JobId RelayJob) :
    (updateIn id patch jobs).lookup id = (jobs.lookup id).map patch := by
  unfold updateIn
  cases hjob : jobs.lookup id with
  | none => exact hjob
  | some job => exact AList.lookup_insert _

/-- A retry is one more attempt in the record, and the last one is a failure. -/
theorem MemoryQueue.lookup_retry (hjob : queue.jobs.lookup id = some job) (message : String) :
    ∃ after, (queue.retry id message).jobs.lookup id = some after ∧
      after.attempts = job.attempts + 1 ∧ after.txid = job.txid ∧
      (job.attempts + 1 < maxAttempts → (queue.retry id message).pending ≠ []) ∧
      (maxAttempts ≤ job.attempts + 1 → after.state = .failed ∧ after.error = some message) := by
  unfold retry
  rw [hjob, Option.elim_some]
  dsimp only
  split
  case isTrue hlt =>
    exact ⟨_, MemoryQueue.lookup_update hjob, rfl, rfl, fun _ => by simp,
      fun hge => absurd hlt (Nat.not_lt.mpr hge)⟩
  case isFalse hge =>
    exact ⟨_, MemoryQueue.lookup_update hjob, rfl, rfl, fun hlt => absurd hlt hge,
      fun _ => ⟨rfl, rfl⟩⟩

/-- An attempt in memory. -/
theorem MemoryQueue.handle_lookup (hjob : queue.jobs.lookup id = some job) (attempt : Attempt) :
    let outcome := attempt.handle (fun patch queue => MemoryQueue.update queue id patch)
      { queue with pending := queue.pending.tail }
    outcome.2 = attempt.result ∧ outcome.1.jobs.lookup id = some (attempt.record job) := by
  obtain ⟨hresult, hrecord⟩ := attempt.handle_eq
    (fun queue => queue.jobs.lookup id) (fun _ _ => MemoryQueue.lookup_update_map)
    { queue with pending := queue.pending.tail }
  exact ⟨hresult, hrecord.trans (congrArg (Option.map attempt.record) hjob)⟩

/-- In memory the attempts that have been counted stay counted. -/
theorem MemoryQueue.process_attempts (hjob : queue.jobs.lookup id = some job)
    (remaining k : Nat) :
    ∃ after, (queue.process id attempts remaining k).jobs.lookup id = some after ∧
      job.attempts ≤ after.attempts := by
  induction remaining generalizing queue job k with
  | zero => exact ⟨job, hjob, Nat.le_refl _⟩
  | succ remaining ih =>
      obtain ⟨-, hrecord⟩ := MemoryQueue.handle_lookup hjob (attempts k)
      unfold process
      dsimp only
      split
      case h_1 ran hran =>
        rw [hran] at hrecord
        exact ⟨_, hrecord, (Attempt.record_attempts _ job).ge⟩
      case h_2 ran message hran =>
        rw [hran] at hrecord
        obtain ⟨retried, hretried, hcount, -⟩ := MemoryQueue.lookup_retry hrecord message
        rw [Attempt.record_attempts] at hcount
        split
        · exact ⟨retried, hretried, by omega⟩
        · obtain ⟨after, hafter, hle⟩ := ih hretried (k + 1)
          exact ⟨after, hafter, by omega⟩

/-- BullMQ's jobs have the count that they were queued with. -/
theorem bullProcess_attempts (hjob : jobs.lookup id = some job)
    (hqueued : job.attempts = queued.attempts) (remaining k : Nat) :
    ∃ after, (bullProcess id queued attempts remaining k jobs).lookup id = some after ∧
      after.attempts = queued.attempts := by
  induction remaining generalizing jobs job k with
  | zero => exact ⟨job, hjob, hqueued⟩
  | succ remaining ih =>
      have hstart : (jobs.insert id queued).lookup id = some queued := AList.lookup_insert _
      obtain ⟨-, hrecord⟩ := (attempts k).handle_eq (AList.lookup id)
        (lookup_updateIn id) (jobs.insert id queued)
      rw [hstart, Option.map_some] at hrecord
      unfold bullProcess
      split
      case h_1 ran hran =>
        rw [hran] at hrecord
        exact ⟨_, hrecord, Attempt.record_attempts _ queued⟩
      case h_2 ran message hran =>
        rw [hran] at hrecord
        exact ih hrecord (Attempt.record_attempts _ queued) (k + 1)

/-! ## What clients see -/

/-- The attempt that is made as long as the ones before it throw. -/
def Reached (attempts : Nat → Attempt) (start k : Nat) : Prop :=
  start ≤ k ∧ k < maxAttempts ∧ ∀ i, start ≤ i → i < k → (attempts i).Throws

/-- The job is visible; once it is exhausted it has failed with its last error, and no retry
erases the id of a transaction. -/
structure Tells (attempts : Nat → Attempt) (start : Nat) (status : Option RelayJob) : Prop where
  visible : status.isSome = true
  exhausted : ∀ message, (∀ k, start ≤ k → k < maxAttempts → (attempts k).Throws) →
    (attempts (maxAttempts - 1)).result = .error message →
      ∀ job ∈ status, job.state = .failed ∧ job.error = some message ∧ job.attempts = maxAttempts
  recorded : ∀ k, Reached attempts start k → (attempts k).submitted.isSome = true →
    ∀ job ∈ status, job.txid.isSome = true

/-- An attempt that does not throw is the last one. -/
theorem Tells.of_not_throws {start : Nat} (hstart : start < maxAttempts)
    (h : ¬ (attempts start).Throws) (job : RelayJob) :
    Tells attempts start (some ((attempts start).record job)) where
  visible := rfl
  exhausted message hall _ := absurd (hall start (Nat.le_refl _) hstart) h
  recorded k hreached hsubmitted job hjob := by
    obtain rfl := Option.some.inj hjob
    obtain ⟨hle, -, hbefore⟩ := hreached
    obtain rfl | hlt := Nat.eq_or_lt_of_le hle
    · exact Attempt.record_txid _ _ (.inr hsubmitted)
    · exact absurd (hbefore start (Nat.le_refl _) hlt) h

/-- An attempt that is tried again is told along with those that follow it. -/
theorem Tells.of_next {k : Nat} {after : RelayJob}
    (hkept : (attempts k).submitted.isSome = true → after.txid.isSome = true)
    (hnext : Tells attempts (k + 1) (some after)) : Tells attempts k (some after) where
  visible := rfl
  exhausted message hall := hnext.exhausted message fun i hle hlt => hall i (by omega) hlt
  recorded i hreached hsubmitted job hjob := by
    obtain ⟨hle, hlt, hbefore⟩ := hreached
    obtain rfl | hgt := Nat.eq_or_lt_of_le hle
    · obtain rfl := Option.some.inj hjob
      exact hkept hsubmitted
    · exact hnext.recorded i ⟨hgt, hlt, fun j hle hlt => hbefore j (by omega) hlt⟩ hsubmitted job
        hjob

/-- The last attempt throws. -/
theorem Tells.of_last {k : Nat} {after : RelayJob} {message : String}
    (hlast : k + 1 = maxAttempts) (hresult : (attempts k).result = .error message)
    (hstate : after.state = .failed) (herror : after.error = some message)
    (hcount : after.attempts = maxAttempts)
    (hkept : (attempts k).submitted.isSome = true → after.txid.isSome = true) :
    Tells attempts k (some after) where
  visible := rfl
  exhausted thrown _ hthrown job hjob := by
    obtain rfl := Option.some.inj hjob
    rw [show maxAttempts - 1 = k by omega, hresult] at hthrown
    obtain rfl := Except.error.inj hthrown
    exact ⟨hstate, herror, hcount⟩
  recorded i hreached hsubmitted job hjob := by
    obtain rfl := Option.some.inj hjob
    obtain ⟨hle, hlt, -⟩ := hreached
    obtain rfl : k = i := by omega
    exact hkept hsubmitted

/-- The in-memory driver tells its clients about every attempt. -/
theorem MemoryQueue.process_tells (remaining k : Nat)
    (hjob : queue.jobs.lookup id = some job) (hcount : job.attempts = k)
    (hremaining : k + (remaining + 1) = maxAttempts) :
    ∃ after, (queue.process id attempts (remaining + 1) k).jobs.lookup id = some after ∧
      Tells attempts k (some after) ∧ (job.txid.isSome = true → after.txid.isSome = true) := by
  induction remaining generalizing queue job k with
  | zero =>
      obtain ⟨hresult, hrecord⟩ := MemoryQueue.handle_lookup hjob (attempts k)
      unfold process process
      dsimp only
      split
      case h_1 ran hran =>
        rw [hran] at hresult hrecord
        exact ⟨_, hrecord, .of_not_throws (by omega) (Attempt.not_throws_of_ok hresult.symm) job,
          fun h => Attempt.record_txid _ job (.inl h)⟩
      case h_2 ran message hran =>
        rw [hran] at hresult hrecord
        obtain ⟨retried, hretried, hattempts, htxid, -, hfailed⟩ :=
          MemoryQueue.lookup_retry hrecord message
        rw [Attempt.record_attempts, hcount] at hattempts hfailed
        obtain ⟨hstate, herror⟩ := hfailed (by omega)
        rw [ite_self]
        refine ⟨retried, hretried, .of_last hremaining hresult.symm hstate herror (by omega) ?_, ?_⟩
        · intro hsubmitted
          rw [htxid]
          exact Attempt.record_txid _ job (.inr hsubmitted)
        · intro h
          rw [htxid]
          exact Attempt.record_txid _ job (.inl h)
  | succ remaining ih =>
      obtain ⟨hresult, hrecord⟩ := MemoryQueue.handle_lookup hjob (attempts k)
      unfold process
      dsimp only
      split
      case h_1 ran hran =>
        rw [hran] at hresult hrecord
        exact ⟨_, hrecord, .of_not_throws (by omega) (Attempt.not_throws_of_ok hresult.symm) job,
          fun h => Attempt.record_txid _ job (.inl h)⟩
      case h_2 ran message hran =>
        rw [hran] at hresult hrecord
        obtain ⟨retried, hretried, hattempts, htxid, hpending, -⟩ :=
          MemoryQueue.lookup_retry hrecord message
        rw [Attempt.record_attempts, hcount] at hattempts hpending
        rw [if_neg (hpending (by omega))]
        obtain ⟨after, hafter, htells, hkept⟩ := ih (k + 1) hretried hattempts (by omega)
        rw [htxid] at hkept
        exact ⟨after, hafter,
          .of_next (fun h => hkept (Attempt.record_txid _ job (.inr h))) htells,
          fun h => hkept (Attempt.record_txid _ job (.inl h))⟩

/-! ## The first attempt -/

section First

variable (jobs : DataMap JobId RelayJob) (id : JobId) (request : RelayRequest)
  (attempts : Nat → Attempt)

theorem lookup_add :
    (MemoryQueue.add { jobs := jobs, pending := [], dead := [], closed := false } id
      request).jobs.lookup id = some (newJob request) :=
  AList.lookup_insert _

theorem memoryStatus_of_not_throws (h : ¬ (attempts 0).Throws) :
    memoryStatus jobs id request attempts = some ((attempts 0).record (newJob request)) := by
  obtain ⟨hresult, hrecord⟩ := MemoryQueue.handle_lookup (lookup_add jobs id request) (attempts 0)
  unfold memoryStatus maxAttempts MemoryQueue.process
  dsimp only at hresult hrecord ⊢
  split
  case h_1 ran hran =>
    rw [hran] at hrecord
    exact hrecord
  case h_2 ran message hran =>
    rw [hran] at hresult
    exact absurd ⟨message, hresult.symm⟩ h

theorem bullStatus_of_not_throws (h : ¬ (attempts 0).Throws) :
    bullStatus jobs id request attempts = some ((attempts 0).record (newJob request)) := by
  have hstart : ((jobs.insert id (newJob request)).insert id (newJob request)).lookup id =
      some (newJob request) := AList.lookup_insert _
  obtain ⟨hresult, hrecord⟩ := (attempts 0).handle_eq (AList.lookup id)
    (lookup_updateIn id)
    ((jobs.insert id (newJob request)).insert id (newJob request))
  rw [hstart, Option.map_some] at hrecord
  unfold bullStatus bullAttempts bullProcess
  dsimp only
  split
  case h_1 ran hran =>
    rw [hran] at hrecord
    exact hrecord
  case h_2 ran message hran =>
    rw [hran] at hresult
    exact absurd ⟨message, hresult.symm⟩ h

theorem memoryStatus_tells : Tells attempts 0 (memoryStatus jobs id request attempts) := by
  obtain ⟨after, hafter, htells, -⟩ :
      ∃ after, memoryStatus jobs id request attempts = some after ∧
        Tells attempts 0 (some after) ∧
          ((newJob request).txid.isSome = true → after.txid.isSome = true) :=
    MemoryQueue.process_tells 2 0 (lookup_add jobs id request) rfl rfl
  have hstatus : memoryStatus jobs id request attempts = some after := hafter
  rw [hstatus]
  exact htells

/-- A first attempt that fails is counted. -/
theorem memoryStatus_of_throws (h : (attempts 0).Throws) :
    ∃ job, memoryStatus jobs id request attempts = some job ∧ 0 < job.attempts := by
  obtain ⟨hresult, hrecord⟩ := MemoryQueue.handle_lookup (lookup_add jobs id request) (attempts 0)
  obtain ⟨message, hthrows⟩ := h
  unfold memoryStatus maxAttempts MemoryQueue.process
  dsimp only at hresult hrecord ⊢
  split
  case h_1 ran hran =>
    rw [hran, hthrows] at hresult
    cases hresult
  case h_2 ran thrown hran =>
    rw [hran] at hrecord
    obtain ⟨retried, hretried, hcount, -⟩ := MemoryQueue.lookup_retry hrecord thrown
    split
    · exact ⟨retried, hretried, by omega⟩
    · obtain ⟨after, hafter, hle⟩ := MemoryQueue.process_attempts hretried 2 1
      exact ⟨after, hafter, by omega⟩

theorem bullStatus_attempts :
    ∃ job, bullStatus jobs id request attempts = some job ∧ job.attempts = 0 :=
  bullProcess_attempts (AList.lookup_insert _) rfl bullAttempts 0

/-- Both drivers make the same visible, and all of it, exactly if the first attempt does not
throw. -/
theorem queue_drivers_agree_iff :
    (Tells attempts 0 (memoryStatus jobs id request attempts) ∧
        Tells attempts 0 (bullStatus jobs id request attempts) ∧
        memoryStatus jobs id request attempts = bullStatus jobs id request attempts) ↔
      ¬ (attempts 0).Throws := by
  constructor
  · rintro ⟨-, -, hsame⟩ hthrows
    obtain ⟨bullJob, hbull, hnone⟩ := bullStatus_attempts jobs id request attempts
    obtain ⟨memoryJob, hmemory, hcounted⟩ :=
      memoryStatus_of_throws jobs id request attempts hthrows
    rw [hmemory, hbull] at hsame
    obtain rfl := Option.some.inj hsame
    omega
  · intro h
    have hsame : memoryStatus jobs id request attempts = bullStatus jobs id request attempts :=
      (memoryStatus_of_not_throws jobs id request attempts h).trans
        (bullStatus_of_not_throws jobs id request attempts h).symm
    have htells := memoryStatus_tells jobs id request attempts
    exact ⟨htells, hsame ▸ htells, hsame⟩

end First

/-- A job that is refused three times has failed in memory, and with BullMQ it looks as if it
were still submitted. -/
theorem queue_drivers_differ :
    ¬ ∀ (jobs : DataMap JobId RelayJob) (id : JobId) (request : RelayRequest)
        (attempts : Nat → Attempt),
      memoryStatus jobs id request attempts = bullStatus jobs id request attempts := by
  intro halways
  have hstates := congrArg (Option.map RelayJob.state)
    (halways ∅ 1 Sample.withdrawRequest fun _ => .refused "boom")
  have hmemory : (memoryStatus ∅ 1 Sample.withdrawRequest fun _ => .refused "boom").map
      RelayJob.state = some .failed := by decide +kernel
  have hbull : (bullStatus ∅ 1 Sample.withdrawRequest fun _ => .refused "boom").map
      RelayJob.state = some .submitting := by decide +kernel
  rw [hmemory, hbull] at hstates
  cases hstates

end StxShield.Relay
