import StxShield.Chain.World
import StxShield.Contracts.PrivacyRegistry

/-!
# note-manager

Note metadata: which notes exist, who owns them, and an administrative state.
Authority is read from the registry; registering a note also counts it there.
-/

namespace StxShield.NoteManager

open Library Exec World

def errUnauthorized : Nat := 150
def errUnauthorizedCaller : Nat := 151
def errInvalidNoteId : Nat := 152
def errInvalidOwnerCommitment : Nat := 153
def errDuplicateNote : Nat := 154
def errNoteNotFound : Nat := 155
def errInvalidNoteState : Nat := 156
def errInvalidStateTransition : Nat := 157
def errVersionMismatch : Nat := 158
def errNoteFrozen : Nat := 159

/-- The complete transition table. -/
def isValidNoteTransition : NoteState → NoteState → Bool
  | .active, .spent => true
  | .active, .withdrawn => true
  | .active, .frozen => true
  | .frozen, .active => true
  | .frozen, .deprecated => true
  | _, _ => false

/-- Registers an active note; its metadata never changes afterwards. -/
def registerNote (ctx : Ctx) (noteId ownerCommitment metadata : Buff32) (version : Nat) :
    Exec World Unit := do
  let w ← read
  onRegistry PrivacyRegistry.checkActive
  require (w.registry.isAuthorizedCaller ctx.contractCaller) errUnauthorizedCaller
  require (noteId ≠ zeroHash) errInvalidNoteId
  require (ownerCommitment ≠ zeroHash) errInvalidOwnerCommitment
  require (version = w.registry.protocolVersions.note) errVersionMismatch
  require ((w.noteManager.notes.lookup noteId).isNone) errDuplicateNote
  onRegistry (PrivacyRegistry.recordNoteCreated (ctx.calledBy .noteManager))
  let notes ← unwrap
    (w.noteManager.notes.insertNew? noteId
      { state := .active, ownerCommitment := ownerCommitment, version := version,
        metadata := metadata, registeredAt := ctx.height, updatedAt := ctx.height })
    errDuplicateNote
  let totalRegistered ← addUint w.noteManager.noteStatistics.totalRegistered 1
  let totalActive ← addUint w.noteManager.noteStatistics.totalActive 1
  onNoteManager (modify fun manager =>
    { manager with
      notes := notes
      noteStatistics :=
        { w.noteManager.noteStatistics with
          totalRegistered := totalRegistered
          totalActive := totalActive } })

/-- True when the per-state counters sum exactly to the registration counter. -/
def isStatisticsConsistent : Exec NoteManager Bool := do
  let manager ← read
  let stats := manager.noteStatistics
  let sum ← addUint stats.totalActive stats.totalSpent
  let sum ← addUint sum stats.totalWithdrawn
  let sum ← addUint sum stats.totalFrozen
  let sum ← addUint sum stats.totalDeprecated
  pure (stats.totalRegistered = sum)

/-! ## Transitions -/

/-- How one more and one less note in a state is counted. -/
def NoteStatistics.adjust (stats : NoteStatistics) (state : NoteState)
    (change : Nat → Exec NoteManager Nat) : Exec NoteManager NoteStatistics :=
  match state with
  | .active => do
      let n ← change stats.totalActive
      pure { stats with totalActive := n }
  | .spent => do
      let n ← change stats.totalSpent
      pure { stats with totalSpent := n }
  | .withdrawn => do
      let n ← change stats.totalWithdrawn
      pure { stats with totalWithdrawn := n }
  | .frozen => do
      let n ← change stats.totalFrozen
      pure { stats with totalFrozen := n }
  | .deprecated => do
      let n ← change stats.totalDeprecated
      pure { stats with totalDeprecated := n }

/-- Moves a note to another state and its count with it. -/
def moveNote (ctx : Ctx) (noteId : Buff32) (note : NoteRecord) (counted newState : NoteState) :
    Exec NoteManager Unit := do
  let manager ← read
  require (isValidNoteTransition note.state newState) errInvalidStateTransition
  let fewer ← NoteStatistics.adjust manager.noteStatistics counted fun n => subUint n 1
  let stats ← NoteStatistics.adjust fewer newState fun n => addUint n 1
  modify fun manager =>
    { manager with
      notes := manager.notes.insert noteId { note with state := newState, updatedAt := ctx.height }
      noteStatistics := stats }

/-- The protocol's own transitions, out of `active` only. -/
def consumeNote (registry : PrivacyRegistry) (ctx : Ctx) (noteId : Buff32) (newState : NoteState) :
    Exec NoteManager Unit := do
  let manager ← read
  require (registry.isAuthorizedCaller ctx.contractCaller) errUnauthorizedCaller
  require (noteId ≠ zeroHash) errInvalidNoteId
  let note ← unwrap (manager.notes.lookup noteId) errNoteNotFound
  require (note.state ≠ .frozen) errNoteFrozen
  require (note.state = .active) errInvalidNoteState
  moveNote ctx noteId note .active newState

def spendNote (ctx : Ctx) (noteId : Buff32) : Exec World Unit := do
  onRegistry PrivacyRegistry.checkActive
  let w ← read
  onNoteManager (consumeNote w.registry ctx noteId .spent)

def withdrawNote (ctx : Ctx) (noteId : Buff32) : Exec World Unit := do
  onRegistry PrivacyRegistry.checkActive
  let w ← read
  onNoteManager (consumeNote w.registry ctx noteId .withdrawn)

/-- The administrative transitions, in any protocol state. -/
def administerNote (authorized : Prop) [Decidable authorized] (ctx : Ctx) (noteId : Buff32)
    (counted newState : NoteState) : Exec NoteManager Unit := do
  let manager ← read
  require authorized errUnauthorized
  require (noteId ≠ zeroHash) errInvalidNoteId
  let note ← unwrap (manager.notes.lookup noteId) errNoteNotFound
  moveNote ctx noteId note counted newState

def freezeNote (registry : PrivacyRegistry) (ctx : Ctx) (noteId : Buff32) : Exec NoteManager Unit :=
  administerNote (registry.isAdmin ctx.contractCaller PrivacyRegistry.roleEmergencyAdmin) ctx noteId
    .active .frozen

def reactivateNote (registry : PrivacyRegistry) (ctx : Ctx) (noteId : Buff32) :
    Exec NoteManager Unit :=
  administerNote (registry.isAdmin ctx.contractCaller PrivacyRegistry.roleEmergencyAdmin) ctx noteId
    .frozen .active

def deprecateNote (registry : PrivacyRegistry) (ctx : Ctx) (noteId : Buff32) :
    Exec NoteManager Unit :=
  administerNote (registry.isOwner ctx.contractCaller) ctx noteId .frozen .deprecated

def execute (ctx : Ctx) (call : Call) : Exec World Unit := do
  let w ← read
  match call with
  | .registerNote noteId ownerCommitment metadata version =>
      registerNote ctx noteId ownerCommitment metadata version
  | .spendNote noteId => spendNote ctx noteId
  | .withdrawNote noteId => withdrawNote ctx noteId
  | .freezeNote noteId => onNoteManager (freezeNote w.registry ctx noteId)
  | .reactivateNote noteId => onNoteManager (reactivateNote w.registry ctx noteId)
  | .deprecateNote noteId => onNoteManager (deprecateNote w.registry ctx noteId)

end StxShield.NoteManager
