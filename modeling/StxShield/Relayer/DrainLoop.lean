import StxShield.Relayer.JobOutcomes

/-!
# The loop that drains the queue

`add` and `process` call `drain`.  A call runs until it awaits the handler, or the update
that follows a failure; in between everything else may happen, and `drain` may be called
again.
-/

namespace StxShield.Relay

open Library

/-! ## The queue and its loop -/

/-- Where a call of `drain` is suspended. -/
inductive Suspension where
  | handling (id : JobId)
  /-- The job is put back once its update has returned. -/
  | requeueing (id : JobId)
  /-- The job goes to the dead-letter list once its update has returned. -/
  | burying (id : JobId)
  deriving DecidableEq

/-- The job that a call of `drain` is at. -/
def Suspension.job : Suspension → JobId
  | .handling id => id
  | .requeueing id => id
  | .burying id => id

/-- What the loop has been through; an attempt has failed when the loop is done with it. -/
inductive Mark where
  | started (id : JobId)
  | succeeded (id : JobId)
  | failed (id : JobId)
  deriving DecidableEq

/-- The queue with the suspended calls of `drain`. -/
structure DrainingQueue extends MemoryQueue where
  handlerSet : Bool
  draining : Bool
  suspended : List Suspension
  history : List Mark

namespace DrainingQueue

variable (limit : Nat) (queue : DrainingQueue)

/-- The first job is taken, and its handler called. -/
def taking (id : JobId) (rest : List JobId) : DrainingQueue :=
  { queue with
    pending := rest
    suspended := queue.suspended ++ [.handling id]
    history := queue.history ++ [.started id] }

/-- The loop from its condition on, until it is suspended or ends. -/
def loop : List JobId → DrainingQueue
  | [] => { queue with pending := [], draining := false }
  | id :: rest =>
      if queue.closed = true then { queue with pending := id :: rest, draining := false }
      else
        match queue.jobs.lookup id with
        | none => loop rest
        | some _ => queue.taking id rest

def drain : DrainingQueue :=
  if queue.draining = true ∨ queue.handlerSet = false ∨ queue.closed = true then queue
  else loop { queue with draining := true } queue.pending

def patched (id : JobId) (patch : RelayJob → RelayJob) : DrainingQueue :=
  { queue with toMemoryQueue := queue.toMemoryQueue.update id patch }

/-- `await this.update(id, patch)`, once the handler has thrown. -/
def updating (id : JobId) (patch : RelayJob → RelayJob) (next : Suspension) : DrainingQueue :=
  { queue.patched id patch with suspended := queue.suspended.erase (.handling id) ++ [next] }

/-- The handler throws. -/
def caught (id : JobId) (message : String) : DrainingQueue :=
  let attempts := (queue.jobs.lookup id).elim 0 RelayJob.attempts + 1
  if attempts < limit then
    queue.updating id (fun job => { job with attempts := attempts, state := .queued })
      (.requeueing id)
  else
    queue.updating id
      (fun job => { job with attempts := attempts, state := .failed, error := some message })
      (.burying id)

/-- The handler is done; the loop goes on from here. -/
def succeeded (id : JobId) : DrainingQueue :=
  { queue with
    suspended := queue.suspended.erase (.handling id)
    history := queue.history ++ [.succeeded id] }

def requeued (id : JobId) : DrainingQueue :=
  { queue with
    pending := queue.pending ++ [id]
    suspended := queue.suspended.erase (.requeueing id)
    history := queue.history ++ [.failed id] }

def buried (id : JobId) : DrainingQueue :=
  { queue with
    dead := queue.dead ++ [id]
    suspended := queue.suspended.erase (.burying id)
    history := queue.history ++ [.failed id] }

def goOn : DrainingQueue := queue.loop queue.pending

end DrainingQueue

/-- What may happen next. -/
inductive QueueEvent where
  /-- A job is added, under an id no job has. -/
  | add (id : JobId) (request : RelayRequest)
  | process
  /-- The handler updates the job it works on. -/
  | update (id : JobId) (state : JobState) (txid : Option Transaction) (error : Option String)
  /-- The handler's promise is resolved. -/
  | resolved (id : JobId)
  | rejected (id : JobId) (message : String)
  /-- The awaited update returns. -/
  | updated (id : JobId)
  | close

namespace DrainingQueue

/-- One event; nothing happens where it is out of place. -/
def step (limit : Nat) (queue : DrainingQueue) : QueueEvent → DrainingQueue
  | .add id request =>
      if (queue.jobs.lookup id).isSome then queue
      else drain { queue with toMemoryQueue := queue.toMemoryQueue.add id request }
  | .process => drain { queue with handlerSet := true }
  | .update id state txid error =>
      if .handling id ∈ queue.suspended then
        queue.patched id fun job => { job with state := state, txid := txid, error := error }
      else queue
  | .resolved id =>
      if .handling id ∈ queue.suspended then (queue.succeeded id).goOn else queue
  | .rejected id message =>
      if .handling id ∈ queue.suspended then queue.caught limit id message else queue
  | .updated id =>
      if .requeueing id ∈ queue.suspended then (queue.requeued id).goOn
      else if .burying id ∈ queue.suspended then (queue.buried id).goOn
      else queue
  | .close => { queue with closed := true }

/-- `new MemoryQueue(maxAttempts)` -/
def fresh : DrainingQueue where
  jobs := ∅
  pending := []
  dead := []
  closed := false
  handlerSet := false
  draining := false
  suspended := []
  history := []

def run (limit : Nat) (events : List QueueEvent) : DrainingQueue :=
  events.foldl (step limit) fresh

end DrainingQueue

/-! ## One job's account -/

/-- How often a job is where, and what it has been through. -/
structure Tally where
  waiting : Nat
  handling : Nat
  requeueing : Nat
  burying : Nat
  succeeded : Nat
  dead : Nat
  failed : Nat
  started : Nat

def DrainingQueue.tally (queue : DrainingQueue) (id : JobId) : Tally where
  waiting := queue.pending.count id
  handling := queue.suspended.count (.handling id)
  requeueing := queue.suspended.count (.requeueing id)
  burying := queue.suspended.count (.burying id)
  succeeded := queue.history.count (.succeeded id)
  dead := queue.dead.count id
  failed := queue.history.count (.failed id)
  started := queue.history.count (.started id)

/-- A job is in one place, every attempt has been counted, and there are enough of them
left unless the job is dead. -/
structure Tally.Balanced (limit : Nat) (job : Option RelayJob) (tally : Tally) : Prop where
  place : tally.waiting + tally.handling + tally.requeueing + tally.burying + tally.succeeded +
    tally.dead = job.elim 0 fun _ => 1
  started : tally.started =
    tally.failed + tally.succeeded + tally.handling + tally.requeueing + tally.burying
  attempts : job.elim 0 RelayJob.attempts = tally.failed + tally.requeueing + tally.burying
  left : tally.dead = 0 → 0 < limit → tally.failed < limit
  requeueing : 0 < tally.requeueing → tally.failed + 1 < limit
  spent : 0 < tally.burying → tally.failed + 1 = limit
  dead : 0 < tally.dead → tally.failed = limit
  failed : 0 < tally.burying + tally.dead → job.elim False fun job => job.state = .failed

namespace Tally.Balanced

variable {limit : Nat} {job : Option RelayJob} {one : RelayJob} {tally : Tally}

theorem place_le (h : tally.Balanced limit job) :
    tally.waiting + tally.handling + tally.requeueing + tally.burying + tally.succeeded +
      tally.dead ≤ 1 := by
  rw [h.place]
  cases job with
  | none => exact Nat.zero_le 1
  | some one => exact Nat.le_refl 1

theorem known (h : tally.Balanced limit job)
    (hplaced : 0 < tally.waiting + tally.handling + tally.requeueing + tally.burying +
      tally.succeeded + tally.dead) : ∃ one, job = some one := by
  rw [h.place] at hplaced
  cases job with
  | none => exact absurd hplaced (Nat.lt_irrefl 0)
  | some one => exact ⟨one, rfl⟩

theorem add (h : tally.Balanced limit none) (request : RelayRequest) :
    { tally with waiting := tally.waiting + 1 }.Balanced limit (some (newJob request)) := by
  have hplace := h.place
  have hattempts := h.attempts
  simp only [Option.elim_none] at hplace hattempts
  refine ⟨?_, ?_, ?_, h.left, h.requeueing, h.spent, h.dead, ?_⟩
  · simp only [Option.elim_some]
    omega
  · exact h.started
  · simp only [Option.elim_some, newJob]
    omega
  · intro hburied
    dsimp only at hburied
    omega

theorem start (h : tally.Balanced limit job) (hpos : 0 < tally.waiting) :
    { tally with
      waiting := tally.waiting - 1
      handling := tally.handling + 1
      started := tally.started + 1 }.Balanced limit job := by
  have hplace := h.place
  have hstarted := h.started
  refine ⟨?_, ?_, h.attempts, h.left, h.requeueing, h.spent, h.dead, h.failed⟩
  · dsimp only
    omega
  · dsimp only
    omega

theorem succeed (h : tally.Balanced limit job) (hpos : 0 < tally.handling) :
    { tally with
      handling := tally.handling - 1
      succeeded := tally.succeeded + 1 }.Balanced limit job := by
  have hplace := h.place
  have hstarted := h.started
  refine ⟨?_, ?_, h.attempts, h.left, h.requeueing, h.spent, h.dead, h.failed⟩
  · dsimp only
    omega
  · dsimp only
    omega

/-- The attempt is counted, and another is left. -/
theorem retry (h : tally.Balanced limit (some one)) (hpos : 0 < tally.handling)
    (hleft : one.attempts + 1 < limit) :
    { tally with
      handling := tally.handling - 1
      requeueing := tally.requeueing + 1 }.Balanced limit
        (some { one with attempts := one.attempts + 1, state := .queued }) := by
  have hplace := h.place
  have hle := h.place_le
  have hstarted := h.started
  have hattempts := h.attempts
  simp only [Option.elim_some] at hplace hattempts
  refine ⟨?_, ?_, ?_, h.left, ?_, h.spent, h.dead, ?_⟩
  · simp only [Option.elim_some]
    omega
  · dsimp only
    omega
  · simp only [Option.elim_some]
    omega
  · intro _
    dsimp only
    omega
  · intro hburied
    dsimp only at hburied
    omega

/-- The attempt is counted, and it was the last. -/
theorem giveUp (h : tally.Balanced limit (some one)) (hpos : 0 < tally.handling)
    (hlimit : 0 < limit) (hlast : ¬ one.attempts + 1 < limit) (error : Option String) :
    { tally with
      handling := tally.handling - 1
      burying := tally.burying + 1 }.Balanced limit
        (some { one with attempts := one.attempts + 1, state := .failed, error := error }) := by
  have hplace := h.place
  have hle := h.place_le
  have hstarted := h.started
  have hattempts := h.attempts
  have hleft := h.left (by omega) hlimit
  simp only [Option.elim_some] at hplace hattempts
  refine ⟨?_, ?_, ?_, h.left, h.requeueing, ?_, h.dead, fun _ => rfl⟩
  · simp only [Option.elim_some]
    omega
  · dsimp only
    omega
  · simp only [Option.elim_some]
    omega
  · intro _
    dsimp only
    omega

theorem requeue (h : tally.Balanced limit job) (hpos : 0 < tally.requeueing) :
    { tally with
      waiting := tally.waiting + 1
      requeueing := tally.requeueing - 1
      failed := tally.failed + 1 }.Balanced limit job := by
  have hplace := h.place
  have hle := h.place_le
  have hstarted := h.started
  have hattempts := h.attempts
  have hleft := h.requeueing hpos
  refine ⟨?_, ?_, ?_, fun _ _ => hleft, ?_, ?_, ?_, h.failed⟩
  · dsimp only
    omega
  · dsimp only
    omega
  · dsimp only
    omega
  · intro hagain
    dsimp only at hagain
    omega
  · intro hburied
    dsimp only at hburied
    omega
  · intro hdead
    dsimp only at hdead
    omega

theorem bury (h : tally.Balanced limit job) (hpos : 0 < tally.burying) :
    { tally with
      burying := tally.burying - 1
      dead := tally.dead + 1
      failed := tally.failed + 1 }.Balanced limit job := by
  have hplace := h.place
  have hle := h.place_le
  have hstarted := h.started
  have hattempts := h.attempts
  have hspent := h.spent hpos
  refine ⟨?_, ?_, ?_, ?_, ?_, ?_, fun _ => hspent, fun _ => h.failed (by omega)⟩
  · dsimp only
    omega
  · dsimp only
    omega
  · dsimp only
    omega
  · intro hdead
    dsimp only at hdead
    omega
  · intro hrequeueing
    dsimp only at hrequeueing
    omega
  · intro hburied
    dsimp only at hburied
    omega

/-- An update of the handler's does not touch the count. -/
theorem update (h : tally.Balanced limit (some one)) (hpos : 0 < tally.handling)
    {after : RelayJob} (hsame : after.attempts = one.attempts) :
    tally.Balanced limit (some after) := by
  have hle := h.place_le
  refine ⟨h.place, h.started, ?_, h.left, h.requeueing, h.spent, h.dead, ?_⟩
  · rw [← h.attempts]
    exact hsame
  · intro hburied
    omega

end Tally.Balanced

/-! ## All jobs' accounts -/

namespace DrainingQueue

variable {limit : Nat} {queue : DrainingQueue} {id other : JobId}

def Balanced (limit : Nat) (queue : DrainingQueue) : Prop :=
  ∀ id, (queue.tally id).Balanced limit (queue.jobs.lookup id)

theorem tally_taking {rest : List JobId} (hpending : queue.pending = id :: rest) :
    (queue.taking id rest).tally other =
      if other = id then
        { queue.tally other with
          waiting := (queue.tally other).waiting - 1
          handling := (queue.tally other).handling + 1
          started := (queue.tally other).started + 1 }
      else queue.tally other := by
  unfold tally taking
  rw [hpending]
  split
  case isTrue h =>
    subst h
    simp
  case isFalse h => simp [Ne.symm h]

theorem tally_succeeded :
    (queue.succeeded id).tally other =
      if other = id then
        { queue.tally other with
          handling := (queue.tally other).handling - 1
          succeeded := (queue.tally other).succeeded + 1 }
      else queue.tally other := by
  unfold tally succeeded
  split
  case isTrue h =>
    subst h
    simp
  case isFalse h => simp [List.count_erase_of_ne, h, Ne.symm h]

theorem tally_requeued :
    (queue.requeued id).tally other =
      if other = id then
        { queue.tally other with
          waiting := (queue.tally other).waiting + 1
          requeueing := (queue.tally other).requeueing - 1
          failed := (queue.tally other).failed + 1 }
      else queue.tally other := by
  unfold tally requeued
  split
  case isTrue h =>
    subst h
    simp
  case isFalse h => simp [List.count_erase_of_ne, h, Ne.symm h]

theorem tally_buried :
    (queue.buried id).tally other =
      if other = id then
        { queue.tally other with
          burying := (queue.tally other).burying - 1
          dead := (queue.tally other).dead + 1
          failed := (queue.tally other).failed + 1 }
      else queue.tally other := by
  unfold tally buried
  split
  case isTrue h =>
    subst h
    simp
  case isFalse h => simp [List.count_erase_of_ne, h, Ne.symm h]

/-- Only one job's tally has changed, and no record. -/
theorem Balanced.of_tally (h : queue.Balanced limit) {after : DrainingQueue}
    {changed : JobId → Tally}
    (htally : ∀ other, after.tally other = if other = id then changed other else queue.tally other)
    (hjobs : after.jobs = queue.jobs)
    (hone : (changed id).Balanced limit (queue.jobs.lookup id)) : after.Balanced limit := by
  intro other
  rw [htally, hjobs]
  split
  case isTrue heq =>
    subst heq
    exact hone
  case isFalse => exact h other

theorem Balanced.taking (h : queue.Balanced limit) {rest : List JobId}
    (hpending : queue.pending = id :: rest) : (queue.taking id rest).Balanced limit :=
  h.of_tally (fun _ => tally_taking hpending) rfl
    ((h id).start (List.count_pos_iff.mpr (hpending ▸ List.mem_cons_self)))

theorem Balanced.succeeded (h : queue.Balanced limit) (hin : .handling id ∈ queue.suspended) :
    (queue.succeeded id).Balanced limit :=
  h.of_tally (fun _ => tally_succeeded) rfl ((h id).succeed (List.count_pos_iff.mpr hin))

theorem Balanced.requeued (h : queue.Balanced limit) (hin : .requeueing id ∈ queue.suspended) :
    (queue.requeued id).Balanced limit :=
  h.of_tally (fun _ => tally_requeued) rfl ((h id).requeue (List.count_pos_iff.mpr hin))

theorem Balanced.buried (h : queue.Balanced limit) (hin : .burying id ∈ queue.suspended) :
    (queue.buried id).Balanced limit :=
  h.of_tally (fun _ => tally_buried) rfl ((h id).bury (List.count_pos_iff.mpr hin))

/-- Only one job's account has changed. -/
theorem Balanced.of_one (h : queue.Balanced limit) (id : JobId) {after : DrainingQueue}
    (hone : (after.tally id).Balanced limit (after.jobs.lookup id))
    (hothers : ∀ other, other ≠ id → after.tally other = queue.tally other ∧
      after.jobs.lookup other = queue.jobs.lookup other) : after.Balanced limit := by
  intro other
  by_cases heq : other = id
  · subst heq
    exact hone
  · obtain ⟨htally, hlookup⟩ := hothers other heq
    rw [htally, hlookup]
    exact h other

/-- A job is added that no list knows of. -/
theorem Balanced.add (h : queue.Balanced limit) (hnew : queue.jobs.lookup id = none)
    (request : RelayRequest) :
    Balanced limit { queue with toMemoryQueue := queue.toMemoryQueue.add id request } := by
  refine h.of_one id ?_ fun other hne => ⟨?_, AList.lookup_insert_ne hne⟩
  · have hadded := (hnew ▸ h id).add request
    have hlookup : (queue.jobs.insert id (newJob request)).lookup id = some (newJob request) :=
      AList.lookup_insert _
    have htally : tally { queue with toMemoryQueue := queue.toMemoryQueue.add id request } id =
        { queue.tally id with waiting := (queue.tally id).waiting + 1 } := by
      simp [tally, MemoryQueue.add]
    rw [htally]
    exact hlookup ▸ hadded
  · simp [tally, MemoryQueue.add, Ne.symm hne]

theorem tally_patched (patch : RelayJob → RelayJob) :
    (queue.patched id patch).tally other = queue.tally other := by
  unfold tally patched MemoryQueue.update
  split
  · rfl
  · rfl

/-- A job that is worked on is known. -/
theorem Balanced.exists_handling (h : queue.Balanced limit)
    (hin : .handling id ∈ queue.suspended) : ∃ job, queue.jobs.lookup id = some job := by
  have hpos : 0 < (queue.tally id).handling := List.count_pos_iff.mpr hin
  exact (h id).known (by omega)

theorem Balanced.patched (h : queue.Balanced limit) (hin : .handling id ∈ queue.suspended)
    {patch : RelayJob → RelayJob} (hpatch : ∀ job, (patch job).attempts = job.attempts) :
    (queue.patched id patch).Balanced limit := by
  obtain ⟨job, hjob⟩ := h.exists_handling hin
  have hlookup : (queue.patched id patch).jobs.lookup id = some (patch job) :=
    MemoryQueue.lookup_update hjob
  refine h.of_one id ?_ fun other hne =>
    ⟨tally_patched patch, MemoryQueue.lookup_update_ne hne⟩
  rw [tally_patched, hlookup]
  exact (hjob ▸ h id).update (List.count_pos_iff.mpr hin) (hpatch job)

theorem tally_updating_ne {patch : RelayJob → RelayJob} {next : Suspension}
    (hne : other ≠ id) (hnext : next = .requeueing id ∨ next = .burying id) :
    (queue.updating id patch next).tally other = queue.tally other := by
  have hpatched : (queue.patched id patch).tally other = queue.tally other := tally_patched patch
  rw [← hpatched]
  rcases hnext with rfl | rfl
  · simp [updating, tally, patched, List.count_erase_of_ne, hne, Ne.symm hne]
  · simp [updating, tally, patched, List.count_erase_of_ne, hne, Ne.symm hne]

theorem tally_requeueing {patch : RelayJob → RelayJob} :
    (queue.updating id patch (.requeueing id)).tally id =
      { queue.tally id with
        handling := (queue.tally id).handling - 1
        requeueing := (queue.tally id).requeueing + 1 } := by
  have hpatched : (queue.patched id patch).tally id = queue.tally id := tally_patched patch
  rw [← hpatched]
  simp [updating, tally, patched]

theorem tally_burying {patch : RelayJob → RelayJob} :
    (queue.updating id patch (.burying id)).tally id =
      { queue.tally id with
        handling := (queue.tally id).handling - 1
        burying := (queue.tally id).burying + 1 } := by
  have hpatched : (queue.patched id patch).tally id = queue.tally id := tally_patched patch
  rw [← hpatched]
  simp [updating, tally, patched]

theorem Balanced.caught (h : queue.Balanced limit) (hlimit : 0 < limit)
    (hin : .handling id ∈ queue.suspended) (message : String) :
    (queue.caught limit id message).Balanced limit := by
  obtain ⟨job, hjob⟩ := h.exists_handling hin
  have hpos : 0 < (queue.tally id).handling := List.count_pos_iff.mpr hin
  have hone := hjob ▸ h id
  unfold DrainingQueue.caught
  rw [hjob, Option.elim_some]
  dsimp only
  split
  case isTrue hleft =>
    refine h.of_one id ?_ fun other hne =>
      ⟨tally_updating_ne hne (.inl rfl), MemoryQueue.lookup_update_ne hne⟩
    have hlookup : (queue.updating id
        (fun job' => { job' with attempts := job.attempts + 1, state := .queued })
        (.requeueing id)).jobs.lookup id = _ := MemoryQueue.lookup_update hjob
    rw [tally_requeueing, hlookup]
    exact hone.retry hpos hleft
  case isFalse hlast =>
    refine h.of_one id ?_ fun other hne =>
      ⟨tally_updating_ne hne (.inr rfl), MemoryQueue.lookup_update_ne hne⟩
    have hlookup : (queue.updating id
        (fun job' =>
          { job' with attempts := job.attempts + 1, state := .failed, error := some message })
        (.burying id)).jobs.lookup id = _ := MemoryQueue.lookup_update hjob
    rw [tally_burying, hlookup]
    exact hone.giveUp hpos hlimit hlast (some message)

/-! ## The loop -/

/-- No handler is called again for a job it has succeeded with. -/
def Finishes (history : List Mark) : Prop :=
  history.Pairwise fun earlier later => ∀ id, earlier = .succeeded id → later ≠ .started id

theorem Finishes.append {history : List Mark} (h : Finishes history) {mark : Mark}
    (hmark : ∀ id, mark = .started id → .succeeded id ∉ history) : Finishes (history ++ [mark]) := by
  refine List.pairwise_append.mpr ⟨h, List.pairwise_singleton _ _, ?_⟩
  intro earlier hearlier later hlater id heq hstarted
  obtain rfl := List.mem_singleton.mp hlater
  exact hmark id hstarted (heq ▸ hearlier)

/-- One call of `drain` at most is under way, and without one no job waits. -/
structure Sound (limit : Nat) (queue : DrainingQueue) : Prop where
  balanced : queue.Balanced limit
  finishes : Finishes queue.history
  draining : queue.draining = true ↔ queue.suspended ≠ []
  single : queue.suspended.length ≤ 1
  awake : queue.handlerSet = true → queue.closed = false → queue.draining = false →
    queue.pending = []

theorem sound_fresh (hlimit : 0 < limit) : Sound limit fresh where
  balanced _ :=
    { place := rfl
      started := rfl
      attempts := rfl
      left := fun _ _ => hlimit
      requeueing := fun hpos => absurd hpos (Nat.lt_irrefl 0)
      spent := fun hpos => absurd hpos (Nat.lt_irrefl 0)
      dead := fun hpos => absurd hpos (Nat.lt_irrefl 0)
      failed := fun hpos => absurd hpos (Nat.lt_irrefl 0) }
  finishes := List.Pairwise.nil
  draining := iff_of_false Bool.false_ne_true fun hne => hne rfl
  single := Nat.zero_le 1
  awake _ _ _ := rfl

/-- The loop that is not suspended any more takes the next job, or ends. -/
theorem sound_goOn (hbalanced : queue.Balanced limit) (hfinishes : Finishes queue.history)
    (hdraining : queue.draining = true) (hnone : queue.suspended = []) :
    Sound limit queue.goOn := by
  unfold goOn
  cases hpending : queue.pending with
  | nil =>
      refine ⟨?_, hfinishes, ?_, ?_, fun _ _ _ => rfl⟩
      · intro id
        have h := hbalanced id
        unfold tally at h
        rw [hpending] at h
        exact h
      · exact iff_of_false Bool.false_ne_true fun hne => hne hnone
      · exact hnone ▸ Nat.zero_le 1
  | cons id rest =>
      have hwaiting : 0 < (queue.tally id).waiting :=
        List.count_pos_iff.mpr (hpending ▸ List.mem_cons_self)
      obtain ⟨job, hjob⟩ := (hbalanced id).known (by omega)
      unfold loop
      split
      case isTrue hclosed =>
        refine ⟨?_, hfinishes, ?_, ?_, fun _ hopen => ?_⟩
        · intro other
          have h := hbalanced other
          unfold tally at h
          rw [hpending] at h
          exact h
        · exact iff_of_false Bool.false_ne_true fun hne => hne hnone
        · exact hnone ▸ Nat.zero_le 1
        · exact absurd (hclosed.symm.trans hopen) Bool.noConfusion
      case isFalse =>
        rw [hjob]
        have hsingle : (queue.taking id rest).suspended = [.handling id] := by
          unfold taking
          rw [hnone]
          rfl
        refine ⟨hbalanced.taking hpending, hfinishes.append ?_, ?_, ?_, fun _ _ hidle => ?_⟩
        · intro other hother hsucceeded
          obtain rfl := Mark.started.inj hother
          have hle := (hbalanced id).place_le
          have hpos : 0 < (queue.tally id).succeeded := List.count_pos_iff.mpr hsucceeded
          omega
        · exact iff_of_true hdraining (hsingle ▸ List.cons_ne_nil _ _)
        · exact hsingle ▸ Nat.le_refl 1
        · exact absurd (hdraining.symm.trans hidle) Bool.noConfusion

/-- Calling `drain` again and again does no harm, and wakes the loop. -/
theorem sound_drain (hbalanced : queue.Balanced limit) (hfinishes : Finishes queue.history)
    (hdraining : queue.draining = true ↔ queue.suspended ≠ [])
    (hsingle : queue.suspended.length ≤ 1) : Sound limit queue.drain := by
  unfold drain
  split
  case isTrue hasleep =>
    refine ⟨hbalanced, hfinishes, hdraining, hsingle, fun hset hopen hidle => ?_⟩
    rcases hasleep with hbusy | hunset | hclosed
    · exact absurd (hbusy.symm.trans hidle) Bool.noConfusion
    · exact absurd (hset.symm.trans hunset) Bool.noConfusion
    · exact absurd (hclosed.symm.trans hopen) Bool.noConfusion
  case isFalse hawake =>
    have hidle : queue.suspended = [] := by
      by_contra hne
      exact hawake (.inl (hdraining.mpr hne))
    have hstarted : Balanced limit { queue with draining := true } := hbalanced
    exact sound_goOn hstarted hfinishes rfl hidle

section Steps

variable (h : Sound limit queue)
include h

/-- What is suspended is all that is. -/
theorem Sound.suspended_eq {suspension : Suspension} (hin : suspension ∈ queue.suspended) :
    queue.suspended = [suspension] := by
  have hlength : queue.suspended.length = 1 :=
    Nat.le_antisymm h.single (List.length_pos_of_mem hin)
  obtain ⟨only, honly⟩ := List.length_eq_one_iff.mp hlength
  rw [honly] at hin ⊢
  rw [List.mem_singleton.mp hin]

theorem Sound.erase_eq_nil {suspension : Suspension} (hin : suspension ∈ queue.suspended) :
    queue.suspended.erase suspension = [] := by
  rw [h.suspended_eq hin]
  simp

theorem Sound.busy {suspension : Suspension} (hin : suspension ∈ queue.suspended) :
    queue.draining = true :=
  h.draining.mpr (List.ne_nil_of_mem hin)

/-- The call that awaited the handler awaits the update. -/
theorem Sound.updating {patch : RelayJob → RelayJob} {next : Suspension}
    (hin : .handling id ∈ queue.suspended)
    (hbalanced : (queue.updating id patch next).Balanced limit) :
    Sound limit (queue.updating id patch next) := by
  have hsuspended : (queue.updating id patch next).suspended = [next] := by
    unfold DrainingQueue.updating
    rw [h.erase_eq_nil hin]
    rfl
  have hbusy : (queue.updating id patch next).draining = true := h.busy hin
  refine ⟨hbalanced, h.finishes, ?_, ?_, fun _ _ hidle => ?_⟩
  · exact iff_of_true hbusy (hsuspended ▸ List.cons_ne_nil _ _)
  · exact hsuspended ▸ Nat.le_refl 1
  · exact absurd (hbusy.symm.trans hidle) Bool.noConfusion

/-- What one event preserves. -/
theorem Sound.step (hlimit : 0 < limit) (event : QueueEvent) :
    Sound limit (queue.step limit event) := by
  cases event with
  | add id request =>
      unfold DrainingQueue.step
      dsimp only
      split
      case isTrue => exact h
      case isFalse hnew =>
        exact sound_drain (h.balanced.add (Option.not_isSome_iff_eq_none.mp hnew) request)
          h.finishes h.draining h.single
  | process => exact sound_drain h.balanced h.finishes h.draining h.single
  | update id state txid error =>
      unfold DrainingQueue.step
      dsimp only
      split
      case isTrue hin =>
        exact ⟨h.balanced.patched hin fun _ => rfl, h.finishes, h.draining, h.single,
          fun _ _ hidle => absurd ((h.busy hin).symm.trans hidle) Bool.noConfusion⟩
      case isFalse => exact h
  | resolved id =>
      unfold DrainingQueue.step
      dsimp only
      split
      case isTrue hin =>
        refine sound_goOn (h.balanced.succeeded hin) (h.finishes.append ?_) (h.busy hin)
          (h.erase_eq_nil hin)
        intro other hother
        cases hother
      case isFalse => exact h
  | rejected id message =>
      unfold DrainingQueue.step
      dsimp only
      split
      case isTrue hin =>
        have hbalanced := h.balanced.caught hlimit hin message
        unfold DrainingQueue.caught at hbalanced ⊢
        dsimp only at hbalanced ⊢
        split at hbalanced
        case isTrue hleft =>
          rw [if_pos hleft]
          exact h.updating hin hbalanced
        case isFalse hlast =>
          rw [if_neg hlast]
          exact h.updating hin hbalanced
      case isFalse => exact h
  | updated id =>
      unfold DrainingQueue.step
      dsimp only
      split
      case isTrue hin =>
        refine sound_goOn (h.balanced.requeued hin) (h.finishes.append ?_) (h.busy hin)
          (h.erase_eq_nil hin)
        intro other hother
        cases hother
      case isFalse =>
        split
        case isTrue hin =>
          refine sound_goOn (h.balanced.buried hin) (h.finishes.append ?_) (h.busy hin)
            (h.erase_eq_nil hin)
          intro other hother
          cases hother
        case isFalse => exact h
  | close =>
      exact ⟨h.balanced, h.finishes, h.draining, h.single, fun _ hopen => Bool.noConfusion hopen⟩

end Steps

theorem sound_run (hlimit : 0 < limit) (events : List QueueEvent) : Sound limit (run limit events) := by
  have hfrom : ∀ queue : DrainingQueue, Sound limit queue →
      Sound limit (events.foldl (step limit) queue) := by
    induction events with
    | nil => exact fun queue h => h
    | cons event rest ih => exact fun queue h => ih _ (h.step hlimit event)
  exact hfrom fresh (sound_fresh hlimit)

/-! ## Where the jobs are -/

/-- A job that has been added waits, is worked on, has succeeded or is dead. -/
theorem Sound.somewhere (h : Sound limit queue) (hknown : (queue.jobs.lookup id).isSome = true) :
    id ∈ queue.pending ∨ (∃ suspension ∈ queue.suspended, suspension.job = id) ∨
      .succeeded id ∈ queue.history ∨ id ∈ queue.dead := by
  obtain ⟨job, hjob⟩ := Option.isSome_iff_exists.mp hknown
  have hplace := (h.balanced id).place
  rw [hjob, Option.elim_some] at hplace
  by_contra hnowhere
  simp only [not_or, not_exists, not_and] at hnowhere
  obtain ⟨hpending, hsuspended, hsucceeded, hdead⟩ := hnowhere
  have hnot : ∀ suspension : Suspension, suspension.job = id →
      queue.suspended.count suspension = 0 := fun suspension hat =>
    List.count_eq_zero.mpr fun hin => hsuspended suspension hin hat
  have hsum : (queue.tally id).waiting + (queue.tally id).handling + (queue.tally id).requeueing +
      (queue.tally id).burying + (queue.tally id).succeeded + (queue.tally id).dead = 0 := by
    simp only [tally, hnot (.handling id) rfl, hnot (.requeueing id) rfl, hnot (.burying id) rfl,
      List.count_eq_zero.mpr hpending, List.count_eq_zero.mpr hsucceeded,
      List.count_eq_zero.mpr hdead]
  omega

/-- A job is dead when its last attempt has failed. -/
theorem Sound.dead_iff (h : Sound limit queue) (hlimit : 0 < limit) :
    id ∈ queue.dead ↔ queue.history.count (.failed id) = limit := by
  have hbalanced := h.balanced id
  constructor
  · intro hdead
    exact hbalanced.dead (List.count_pos_iff.mpr hdead)
  · intro hfailed
    by_contra halive
    have hleft := hbalanced.left (List.count_eq_zero.mpr halive) hlimit
    exact absurd hfailed (Nat.ne_of_lt hleft)

theorem Sound.of_dead (h : Sound limit queue) (hdead : id ∈ queue.dead) :
    queue.dead.count id = 1 ∧ ∃ job, queue.jobs.lookup id = some job ∧ job.state = .failed ∧
      job.attempts = limit := by
  have hbalanced := h.balanced id
  have hpos : 0 < (queue.tally id).dead := List.count_pos_iff.mpr hdead
  have hle := hbalanced.place_le
  obtain ⟨job, hjob⟩ := hbalanced.known (by omega)
  have hspent := hbalanced.dead hpos
  have hstate := hbalanced.failed (by omega)
  have hattempts := hbalanced.attempts
  rw [hjob] at hstate hattempts
  simp only [Option.elim_some] at hstate hattempts
  have hcount : queue.dead.count id = (queue.tally id).dead := rfl
  exact ⟨by omega, job, hjob, hstate, by omega⟩

theorem Sound.started_le (h : Sound limit queue) (hlimit : 0 < limit) :
    queue.history.count (.started id) ≤ limit := by
  have hbalanced := h.balanced id
  have hle := hbalanced.place_le
  have hstarted := hbalanced.started
  have hcount : queue.history.count (.started id) = (queue.tally id).started := rfl
  by_cases hdead : (queue.tally id).dead = 0
  · have hleft := hbalanced.left hdead hlimit
    omega
  · have hspent := hbalanced.dead (Nat.pos_of_ne_zero hdead)
    omega

end DrainingQueue

/-- Whatever happens in whatever order: without a loop under way nothing waits, one handler
runs at a time, each job's at most as often as it may and not after it has succeeded, jobs
are not lost, and exactly those are dead all of whose attempts have failed. -/
theorem memory_queue_drains (limit : Nat) (hlimit : 1 ≤ limit) (events : List QueueEvent) :
    let queue := DrainingQueue.run limit events
    (queue.closed = false → queue.handlerSet = true → queue.suspended = [] → queue.pending = []) ∧
      queue.suspended.length ≤ 1 ∧
      (∀ id, queue.history.count (.started id) ≤ limit) ∧
      (queue.history.Pairwise fun earlier later =>
        ∀ id, earlier = .succeeded id → later ≠ .started id) ∧
      (∀ id, id ∈ queue.dead ↔ queue.history.count (.failed id) = limit) ∧
      (∀ id ∈ queue.dead, queue.dead.count id = 1 ∧
        ∃ job, queue.jobs.lookup id = some job ∧ job.state = .failed ∧ job.attempts = limit) ∧
      ∀ id, (queue.jobs.lookup id).isSome = true →
        id ∈ queue.pending ∨ (∃ suspension ∈ queue.suspended, suspension.job = id) ∨
          .succeeded id ∈ queue.history ∨ id ∈ queue.dead := by
  intro queue
  have hsound : queue.Sound limit := DrainingQueue.sound_run hlimit events
  refine ⟨fun hopen hset hnone => hsound.awake hset hopen ?_, hsound.single,
    fun id => hsound.started_le hlimit, hsound.finishes, fun id => hsound.dead_iff hlimit,
    fun id => hsound.of_dead, fun id => hsound.somewhere⟩
  cases hdraining : queue.draining with
  | false => rfl
  | true => exact absurd hnone (hsound.draining.mp hdraining)

namespace Sample

/-- Of two jobs, the second added while the first is handled, one recovers and one does not. -/
def twoJobs : List QueueEvent :=
  [.process, .add 1 withdrawRequest, .add 2 withdrawRequest, .rejected 1 "boom", .updated 1,
    .rejected 2 "boom", .updated 2, .resolved 1, .rejected 2 "boom", .process, .updated 2]

end Sample

theorem memory_queue_drains_two :
    (DrainingQueue.run 2 Sample.twoJobs).dead = [2] ∧
      (DrainingQueue.run 2 Sample.twoJobs).history.count (.failed 2) = 2 := by
  have hdead : (DrainingQueue.run 2 Sample.twoJobs).dead = [2] := by decide +kernel
  have hfailed := (memory_queue_drains 2 (by decide) Sample.twoJobs).2.2.2.2.1 2
  exact ⟨hdead, hfailed.mp (hdead ▸ List.mem_singleton_self 2)⟩

end StxShield.Relay
