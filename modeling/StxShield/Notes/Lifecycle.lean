import StxShield.Library.Census
import StxShield.Library.Failure
import StxShield.Protocol.Runs
import StxShield.Security.FrozenNotes

/-!
# The life of a note

The note manager is a register: a note enters as an active one, every function
that changes its state moves it along the transition table, and adjusts the
counter of the state it leaves and that of the state it enters.
-/

namespace StxShield

open Library Exec World PrivacyRegistry

/-! ## The note manager as a register -/

instance : Fintype NoteState where
  elems := {.active, .spent, .withdrawn, .frozen, .deprecated}
  complete state := by cases state <;> decide

/-- The counter of a state. -/
def NoteStatistics.count (stats : NoteStatistics) : NoteState → Nat
  | .active => stats.totalActive
  | .spent => stats.totalSpent
  | .withdrawn => stats.totalWithdrawn
  | .frozen => stats.totalFrozen
  | .deprecated => stats.totalDeprecated

namespace NoteManager

/-- Notes are registered as active ones, and only their state and `updated-at`
change. -/
def rules : Rules NoteRecord NoteState where
  stateOf := NoteRecord.state
  initial := .active
  admits old new := isValidNoteTransition old new
  same := NoteRecord.SameNote
  limit := uintBound

def register (manager : NoteManager) : Register Buff32 NoteRecord NoteState where
  entries := manager.notes
  counter := manager.noteStatistics.count
  total := manager.noteStatistics.totalRegistered

/-- The notes recorded in a state. -/
def notesIn (manager : NoteManager) (state : NoteState) : Nat :=
  population NoteRecord.state manager.notes state

/-! ## Counters -/

variable {manager manager' : NoteManager} {stats stats' : NoteStatistics}
  {state counted newState : NoteState} {ctx : Ctx} {noteId : Buff32} {note : NoteRecord} {u : Unit}

/-- Adjusting a counter changes that counter only. -/
theorem adjust_counts {change : Nat → Exec NoteManager Nat}
    (h : NoteStatistics.adjust stats state change manager = .ok (stats', manager')) :
    change (stats.count state) manager = .ok (stats'.count state, manager') ∧
      ∀ other, other ≠ state → stats'.count other = stats.count other := by
  cases state
  all_goals
    simp only [NoteStatistics.adjust, bind_ok, pure_ok] at h
    obtain ⟨n, mid, hrun, rfl, rfl⟩ := h
    refine ⟨hrun, fun other hother => ?_⟩
    cases other <;> first
      | rfl
      | exact absurd rfl hother

theorem adjust_sub_counts
    (h : NoteStatistics.adjust stats state (fun n => subUint n 1) manager = .ok (stats', manager'))
    (other : NoteState) :
    stats'.count other + indicator state other = stats.count other := by
  obtain ⟨hrun, hothers⟩ := adjust_counts h
  obtain ⟨hpositive, hcount, -⟩ := subUint_ok.mp hrun
  by_cases heq : state = other
  · subst heq
    rw [indicator, if_pos rfl]
    omega
  · rw [indicator, if_neg heq, hothers other fun hsame => heq hsame.symm, Nat.add_zero]

theorem adjust_add_counts
    (h : NoteStatistics.adjust stats state (fun n => addUint n 1) manager = .ok (stats', manager'))
    (other : NoteState) :
    stats'.count other = stats.count other + indicator state other := by
  obtain ⟨hrun, hothers⟩ := adjust_counts h
  obtain ⟨-, hcount, -⟩ := addUint_ok.mp hrun
  by_cases heq : state = other
  · subst heq
    rw [indicator, if_pos rfl]
    omega
  · rw [indicator, if_neg heq, hothers other fun hsame => heq hsame.symm, Nat.add_zero]

/-! ## Every function is an event -/

/-- Moving a note from the state that is counted is a move. -/
theorem moveNote_move (hold : manager.notes.lookup noteId = some note)
    (hcounted : note.state = counted)
    (h : moveNote ctx noteId note counted newState manager = .ok (u, manager')) :
    Register.Step rules manager.register manager'.register := by
  unfold moveNote at h
  simp only [↓bind_ok, ↓exists_read, ↓exists_require, modify_ok] at h
  obtain ⟨hvalid, fewer, mid, hfewer, stats, mid', hstats, rfl⟩ := h
  obtain rfl : manager = mid := (adjust_sub_ok hfewer).symm
  obtain rfl : manager = mid' := (adjust_add_ok hstats).symm
  have htotal : stats.totalRegistered = manager.noteStatistics.totalRegistered :=
    (adjust_totalRegistered hstats).trans (adjust_totalRegistered hfewer)
  have hmove : Register.Step rules manager.register
      ⟨manager.notes.insert noteId { note with state := newState, updatedAt := ctx.height },
        stats.count, manager.register.total⟩ := by
    refine .move hold hvalid ⟨rfl, rfl, rfl, rfl⟩ fun other => ?_
    have hless := adjust_sub_counts hfewer other
    have hmore := adjust_add_counts hstats other
    simp only [rules, register, hcounted]
    omega
  simpa only [register, htotal] using hmove

/-- Only one state leads to each of the others. -/
theorem state_of_transition (hvalid : isValidNoteTransition note.state newState)
    (hpair : (counted, newState) = (.active, .frozen) ∨ (counted, newState) = (.frozen, .active) ∨
      (counted, newState) = (.frozen, .deprecated)) : note.state = counted := by
  rcases hpair with hpair | hpair | hpair
  all_goals
    cases hpair
    cases hstate : note.state <;> rw [hstate] at hvalid <;> first
      | rfl
      | cases hvalid

theorem administerNote_move {authorized : Prop} [Decidable authorized]
    (hpair : (counted, newState) = (.active, .frozen) ∨ (counted, newState) = (.frozen, .active) ∨
      (counted, newState) = (.frozen, .deprecated))
    (h : administerNote authorized ctx noteId counted newState manager = .ok (u, manager')) :
    Register.Step rules manager.register manager'.register := by
  unfold administerNote at h
  simp only [↓bind_ok, ↓exists_read, ↓exists_require, ↓exists_unwrap] at h
  obtain ⟨-, -, note, hold, hmove⟩ := h
  exact moveNote_move hold (state_of_transition (moveNote_ok hmove).1 hpair) hmove

theorem consumeNote_move {registry : PrivacyRegistry}
    (h : consumeNote registry ctx noteId newState manager = .ok (u, manager')) :
    Register.Step rules manager.register manager'.register := by
  unfold consumeNote at h
  simp only [↓bind_ok, ↓exists_read, ↓exists_require, ↓exists_unwrap] at h
  obtain ⟨-, -, note, hold, -, hactive, hmove⟩ := h
  exact moveNote_move hold hactive hmove

variable {w w' : World}

theorem registerNote_enters_register {ownerCommitment metadata : Buff32} {version : Nat}
    (h : registerNote ctx noteId ownerCommitment metadata version w = .ok (u, w')) :
    Register.Step rules w.noteManager.register w'.noteManager.register := by
  unfold registerNote at h
  simp only [↓bind_ok, ↓exists_read, ↓exists_onRegistry, ↓exists_checkActive, ↓exists_require,
    ↓exists_unwrap, ↓exists_addUint, onNoteManager_ok, modify_ok,
    DataMap.insertNew?_eq_some] at h
  obtain ⟨-, -, -, -, -, -, _, registry, -, _, ⟨hnew, rfl⟩, hroom, -, _, rfl, rfl⟩ := h
  exact .enter hnew rfl (fun state => by cases state <;> rfl) hroom

/-- Every public function is an event of the register. -/
theorem execute_register {call : Call} (h : execute ctx call w = .ok (u, w')) :
    Register.Step rules w.noteManager.register w'.noteManager.register := by
  simp only [execute, ↓bind_ok, ↓exists_read] at h
  cases call with
  | registerNote noteId ownerCommitment metadata version => exact registerNote_enters_register h
  | spendNote noteId =>
      simp only [spendNote, ↓exists_onRegistry, ↓exists_checkActive, ↓bind_ok, ↓exists_read,
        onNoteManager_ok] at h
      obtain ⟨-, manager, hrun, rfl⟩ := h
      exact consumeNote_move hrun
  | withdrawNote noteId =>
      simp only [withdrawNote, ↓exists_onRegistry, ↓exists_checkActive, ↓bind_ok, ↓exists_read,
        onNoteManager_ok] at h
      obtain ⟨-, manager, hrun, rfl⟩ := h
      exact consumeNote_move hrun
  | freezeNote noteId =>
      obtain ⟨manager, hrun, rfl⟩ := onNoteManager_ok.mp h
      exact administerNote_move (.inl rfl) hrun
  | reactivateNote noteId =>
      obtain ⟨manager, hrun, rfl⟩ := onNoteManager_ok.mp h
      exact administerNote_move (.inr (.inl rfl)) hrun
  | deprecateNote noteId =>
      obtain ⟨manager, hrun, rfl⟩ := onNoteManager_ok.mp h
      exact administerNote_move (.inr (.inr rfl)) hrun

/-! ## Transitions do not abort -/

theorem adjust_error {change : Nat → Exec NoteManager Nat} {fault : Fault}
    (h : NoteStatistics.adjust stats state change manager = .error fault) :
    change (stats.count state) manager = .error fault := by
  cases state
  all_goals
    simp only [NoteStatistics.adjust, bind_error, pure_error, and_false, exists_false,
      or_false] at h
    exact h

/-- When the counters are right, none runs below zero or over the bound. -/
theorem moveNote_ne_abort (hright : manager.register.Counted rules)
    (hold : manager.notes.lookup noteId = some note)
    (hcounted : isValidNoteTransition note.state newState → note.state = counted) :
    moveNote ctx noteId note counted newState manager ≠ .error .abort := by
  intro h
  simp only [moveNote, bind_error, read_ok, require_ok, require_error, reduceCtorEq, and_false,
    false_or, read_error] at h
  obtain ⟨_, _, ⟨rfl, rfl⟩, _, _, ⟨hvalid, rfl⟩, h⟩ := h
  have hpositive : 0 < manager.noteStatistics.count counted :=
    hcounted hvalid ▸ hright.counter_pos hold
  rcases h with hless | ⟨fewer, mid, hfewer, hmore | ⟨_, _, -, hmodify⟩⟩
  · have hunderflow := adjust_error hless
    obtain ⟨hzero, -⟩ := subUint_error.mp hunderflow
    omega
  · have hoverflow := adjust_error hmore
    obtain ⟨hover, -⟩ := addUint_error.mp hoverflow
    have hmoves : note.state ≠ newState := by
      intro hsame
      rw [hsame] at hvalid
      cases newState <;> cases hvalid
    have hless := adjust_sub_counts hfewer newState
    have htotal := hright.counters_le hmoves
    have hroom := hright.room
    rw [hcounted hvalid] at htotal
    simp only [register, rules] at htotal hroom
    omega
  · cases hmodify

theorem administerNote_ne_abort {authorized : Prop} [Decidable authorized]
    (hright : manager.register.Counted rules)
    (hpair : (counted, newState) = (.active, .frozen) ∨ (counted, newState) = (.frozen, .active) ∨
      (counted, newState) = (.frozen, .deprecated)) :
    administerNote authorized ctx noteId counted newState manager ≠ .error .abort := by
  intro h
  simp only [administerNote, bind_error, read_ok, require_ok, unwrap_ok, require_error,
    unwrap_error, reduceCtorEq, and_false, false_or, read_error] at h
  obtain ⟨_, _, ⟨rfl, rfl⟩, _, _, ⟨-, rfl⟩, _, _, ⟨-, rfl⟩, note, _, ⟨hold, rfl⟩, hmove⟩ := h
  exact moveNote_ne_abort hright hold (fun hvalid => state_of_transition hvalid hpair) hmove

theorem consumeNote_ne_abort {registry : PrivacyRegistry}
    (hright : manager.register.Counted rules) :
    consumeNote registry ctx noteId newState manager ≠ .error .abort := by
  intro h
  simp only [consumeNote, bind_error, read_ok, require_ok, unwrap_ok, require_error,
    unwrap_error, reduceCtorEq, and_false, false_or, read_error] at h
  obtain ⟨_, _, ⟨rfl, rfl⟩, _, _, ⟨-, rfl⟩, _, _, ⟨-, rfl⟩, note, _, ⟨hold, rfl⟩, _, _, ⟨-, rfl⟩,
    _, _, ⟨hactive, rfl⟩, hmove⟩ := h
  exact moveNote_ne_abort hright hold (fun _ => hactive) hmove

theorem checkActive_ne_abort {registry : PrivacyRegistry} :
    checkActive registry ≠ .error .abort := by
  unfold checkActive
  intro h
  simp only [bind_error, read_error, read_ok, false_or] at h
  obtain ⟨_, _, ⟨rfl, rfl⟩, h⟩ := h
  cases hstate : registry.protocolState <;> rw [hstate] at h <;> cases h

/-- The functions other than `register-note`, which only counts up. -/
def Call.isTransition : Call → Bool
  | .registerNote .. => false
  | _ => true

theorem execute_ne_abort (hright : w.noteManager.register.Counted rules) {call : Call}
    (htransition : call.isTransition) : execute ctx call w ≠ .error .abort := by
  intro h
  rcases bind_error.mp h with hread | ⟨_, _, hread, h⟩
  · cases hread
  obtain ⟨rfl, rfl⟩ := read_ok.mp hread
  have hconsume {newState : NoteState} {noteId : Buff32}
      (h : (onRegistry checkActive >>= fun _ => read >>= fun w =>
        onNoteManager (consumeNote w.registry ctx noteId newState)) w = .error .abort) : False := by
    rcases bind_error.mp h with hcheck | ⟨_, _, hcheck, h⟩
    · exact checkActive_ne_abort (zoom_error.mp hcheck)
    · obtain ⟨_, hactive, rfl⟩ := onRegistry_ok.mp hcheck
      rcases bind_error.mp h with hread | ⟨_, _, hread, h⟩
      · cases hread
      · obtain ⟨rfl, rfl⟩ := read_ok.mp hread
        have hfails := zoom_error.mp h
        exact consumeNote_ne_abort hright hfails
  cases call with
  | registerNote => cases htransition
  | spendNote noteId => exact hconsume h
  | withdrawNote noteId => exact hconsume h
  | freezeNote noteId => exact administerNote_ne_abort hright (.inl rfl) (zoom_error.mp h)
  | reactivateNote noteId =>
      exact administerNote_ne_abort hright (.inr (.inl rfl)) (zoom_error.mp h)
  | deprecateNote noteId =>
      exact administerNote_ne_abort hright (.inr (.inr rfl)) (zoom_error.mp h)

end NoteManager

/-! ## Runs -/

variable {env : Env} {w w' : World}

/-- The register went through events. -/
def NotesMove (w w' : World) : Prop :=
  Register.Steps NoteManager.rules w.noteManager.register w'.noteManager.register

theorem notesMove_kept : KeptByRuns NotesMove where
  refl _ := .refl
  trans := Relation.ReflTransGen.trans
  store _ _ _ _ := .refl
  registers h := by
    rw [NotesMove, h.written]
  called _ _ := .refl
  writes h := by
    cases h with
    | noteManager hrun => exact .single (NoteManager.execute_register hrun)
    | _ => exact .refl

/-- In every reachable state the counters are those of the records. -/
theorem Reachable.notesCounted (h : Reachable env w) :
    w.noteManager.register.Counted NoteManager.rules := by
  obtain ⟨deployer, stx, tokens, hrun⟩ := h.exists_deployed
  have hstart : (World.deployed deployer stx tokens).noteManager.register.Counted
      NoteManager.rules := by
    refine ⟨fun state => ?_, rfl, Nat.two_pow_pos 128⟩
    cases state <;> rfl
  exact hstart.run (notesMove_kept.continues hrun)

namespace NoteManager

/-- The monitoring hook holds where the counters are right, and its own sums do
not overflow. -/
theorem isStatisticsConsistent_of_counted {manager : NoteManager}
    (hright : manager.register.Counted rules) :
    isStatisticsConsistent manager = .ok (true, manager) := by
  have htotal : manager.noteStatistics.totalRegistered =
      ∑ state, manager.noteStatistics.count state := hright.total
  have hroom : manager.noteStatistics.totalRegistered < uintBound := hright.room
  have hsum : ∑ state, manager.noteStatistics.count state =
      manager.noteStatistics.totalActive + manager.noteStatistics.totalSpent +
        manager.noteStatistics.totalWithdrawn + manager.noteStatistics.totalFrozen +
        manager.noteStatistics.totalDeprecated := by
    simp [Finset.univ, Fintype.elems, NoteStatistics.count, Nat.add_assoc]
  rw [hsum] at htotal
  unfold isStatisticsConsistent
  simp only [bind_ok, read_ok, addUint_ok, pure_ok]
  refine ⟨_, _, ⟨rfl, rfl⟩, _, _, ⟨?_, rfl, rfl⟩, _, _, ⟨?_, rfl, rfl⟩, _, _, ⟨?_, rfl, rfl⟩,
    _, _, ⟨?_, rfl, rfl⟩, ?_, rfl⟩
  all_goals first
    | exact decide_eq_true htotal
    | omega

end NoteManager

/-- What the note manager promises of its notes, of a state and every later one. -/
structure NotesAccounted (w w' : World) : Prop where
  /-- Each counter is the number of notes in its state. -/
  counted : ∀ state, w.noteManager.noteStatistics.count state = w.noteManager.notesIn state
  /-- The counters sum to the number of registered notes. -/
  consistent : NoteManager.isStatisticsConsistent w.noteManager = .ok (true, w.noteManager)
  /-- No transition aborts. -/
  transitions : ∀ ctx call, call.isTransition →
    NoteManager.execute ctx call w ≠ .error .abort
  /-- A note stays, and moves along the transition table only. -/
  moves : ∀ id record, w.noteManager.notes.lookup id = some record →
    ∃ later, w'.noteManager.notes.lookup id = some later ∧ record.SameNote later ∧
      Relation.ReflTransGen (fun old new => NoteManager.isValidNoteTransition old new)
        record.state later.state ∧
      (record.state = .spent ∨ record.state = .withdrawn ∨ record.state = .deprecated →
        later.state = record.state)

/-- The states no note leaves. -/
theorem NoteManager.terminal {state : NoteState}
    (h : state = .spent ∨ state = .withdrawn ∨ state = .deprecated) (next : NoteState) :
    ¬ NoteManager.rules.admits state next := by
  intro hmove
  rcases h with rfl | rfl | rfl <;> cases hmove

/-- In every run the counters are right, and notes live by the transition table. -/
theorem note_lifecycle (hreach : Reachable env w) (hlater : Continues env w w') :
    NotesAccounted w w' where
  counted state := hreach.notesCounted.counter state
  consistent := NoteManager.isStatisticsConsistent_of_counted hreach.notesCounted
  transitions ctx call := NoteManager.execute_ne_abort hreach.notesCounted
  moves id record hlookup := by
    have hsteps : Register.Steps NoteManager.rules _ _ := notesMove_kept.continues hlater
    obtain ⟨later, hlater, hsame, hmoves⟩ := Register.Steps.persists NoteRecord.SameNote.refl
      NoteRecord.SameNote.trans hsteps hlookup
    exact ⟨later, hlater, hsame, hmoves, fun hstate =>
      terminal_of_moves (NoteManager.terminal hstate) hmoves⟩

/-- The registry's owner freezes the note of the shielded STX. -/
theorem note_lifecycle_frozen :
    NotesAccounted Sample.interleaved Sample.frozen ∧
      Sample.frozen.noteManager.notesIn .frozen = 1 :=
  ⟨note_lifecycle Sample.interleaved_reachable
    (.single ⟨_, Sample.owner_topLevel, 1, Sample.freeze, rfl⟩), by decide +kernel⟩

end StxShield
