import StxShield.Protocol.Bookkeeping
import StxShield.Security.Solvency

/-!
# The registry and the note manager agree

Eight operations create notes, each writing to two contracts with their own
counters.  After any run both contracts know the same notes, count them alike,
and a note's record says what the operation that created it said.
-/

namespace StxShield

open Library

theorem mem_commitments_iff {w : World} {id : Buff32} :
    id ∈ w.registry.commitments ↔ id ∈ w.books.commitments := by
  change id ∈ w.registry.commitments ↔ id ∈ w.registry.commitments.keys.reverse
  rw [List.mem_reverse, AList.mem_keys]

/-- After every run of a deployment whose authorised callers are the protocol's
contracts, the note manager has the registry's commitments as notes, all three
counts are equal, every note's owner and metadata are those of an operation that
completed, and what any earlier state says of a note still holds but for its
state and `updated-at`. -/
theorem ledgers_agree {env : Env} {w w' : World} (hreach : Reachable env w)
    (hlater : Continues env w w') (hguarded : Guarded w'.history) :
    (∀ id, id ∈ w'.noteManager.notes ↔ id ∈ w'.registry.commitments) ∧
      w'.noteManager.noteStatistics.totalRegistered =
        w'.registry.protocolStatistics.totalNotes ∧
      w'.registry.protocolStatistics.totalNotes =
        w'.registry.protocolStatistics.totalCommitments ∧
      (∀ id record, w'.noteManager.notes.lookup id = some record →
        ∃ op circuitVersion, Event.completed op circuitVersion ∈ w'.history ∧
          ∃ note ∈ op.notes, note.noteId = id ∧
            record.ownerCommitment = note.ownerCommitment ∧ record.metadata = note.metadata) ∧
      ∀ id record, w.noteManager.notes.lookup id = some record →
        ∃ record', w'.noteManager.notes.lookup id = some record' ∧ record.SameNote record' := by
  have hbooked := hlater.booked
  have hbefore : Guarded w.history :=
    ⟨fun ctx caller registered hcalled =>
      hguarded.authorized ctx caller registered (hbooked.grows.subset hcalled)⟩
  have hagree := (hreach.continues hlater).agree hguarded
  refine ⟨fun id => ?_, hagree.totalRegistered, hagree.totalNotes,
    ((hreach.continues hlater).described hguarded).operation, fun id record hlookup => ?_⟩
  · rw [mem_commitments_iff]
    exact hagree.notes id
  · exact BookSteps.sameNote hguarded (hreach.agree hbefore)
      (hbooked.steps _ (List.Subset.refl _)) hlookup

/-- The sample run ends with two notes in both contracts, and the withdrawal
changed neither. -/
theorem ledgers_agree_withdrawn :
    Sample.withdrawn.registry.protocolStatistics.totalCommitments = 2 ∧
      (∀ id, id ∈ Sample.withdrawn.noteManager.notes ↔
        id ∈ Sample.withdrawn.registry.commitments) ∧
      ∀ id record, Sample.interleaved.noteManager.notes.lookup id = some record →
        ∃ record', Sample.withdrawn.noteManager.notes.lookup id = some record' ∧
          record.SameNote record' := by
  have hlater : Continues Sample.env Sample.interleaved Sample.withdrawn :=
    .single ⟨_, Sample.alice_topLevel, 1, Sample.callWithdrawStx, rfl⟩
  obtain ⟨hnotes, -, -, -, hsame⟩ := ledgers_agree Sample.interleaved_reachable hlater
    (Sample.wired Sample.withdrawn_expected).toGuarded
  exact ⟨by decide +kernel, hnotes, hsame⟩

end StxShield
