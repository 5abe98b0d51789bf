import S3Sink.Commit.Reference

/-!
# Durable — what is committed was uploaded

Every offset in the book of a partition was reported in a successful upload, and so was every offset
between the first one consumed and the watermark.  Pruning, revocations and late completions only
ever remove something from the book, so this needs no assumption on the assignments.
-/

namespace S3Sink

open StateMachine (commitPoint exists_of_lt_commitPoint le_commitPoint revokedTopicIds)

/-- The offset of the partition was reported in a successful upload. -/
def History.OffsetReported (p : TopicId) (requests : List Request) (n : Int) : Prop :=
  ∃ path offsets, .uploadCompletion (.success path offsets) ∈ requests ∧
    n ∈ Reference.reported p offsets

/-- What the book has passed or keeps was reported. -/
structure Backed (book : Book) (first : Option Int) (reported : Int → Prop) : Prop where
  uploaded : ∀ o ∈ book.uploaded, reported o.val
  passed : ∀ w, book.watermark = some w → ∃ f, first = some f ∧
    ∀ n, f ≤ n → n < w → reported n
  unset : book.watermark = none → first = none

namespace Backed

variable {book : Book} {first : Option Int} {reported reported' : Int → Prop}

theorem mono (h : Backed book first reported) (himp : ∀ n, reported n → reported' n) :
    Backed book first reported' where
  uploaded o ho := himp _ (h.uploaded o ho)
  passed w hw := by
    obtain ⟨f, hfirst, hpassed⟩ := h.passed w hw
    exact ⟨f, hfirst, fun n hle hlt => himp n (hpassed n hle hlt)⟩
  unset := h.unset

theorem empty : Backed Book.empty none reported where
  uploaded o ho := absurd ho (BTreeSet.notMem_empty o)
  passed w hw := by cases hw
  unset _ := rfl

/-- Everything from the first offset to the commit point was reported. -/
theorem commitPoint (h : Backed book first reported) {w : Int} (hw : book.watermark = some w) :
    ∃ f, first = some f ∧ ∀ n, f ≤ n → n < commitPoint w book.uploaded → reported n := by
  obtain ⟨f, hfirst, hpassed⟩ := h.passed w hw
  refine ⟨f, hfirst, fun n hle hlt => ?_⟩
  -- below the watermark it was passed before, from there on it is in the book
  rcases lt_or_ge n w with hbelow | habove
  · exact hpassed n hle hbelow
  · obtain ⟨o, ho, rfl⟩ := exists_of_lt_commitPoint habove hlt
    exact h.uploaded o ho

theorem commit (h : Backed book first reported) (p : TopicId)
    (currentAssignment : TopicPartitionList) :
    Backed (book.commit p currentAssignment) first reported where
  uploaded o ho := h.uploaded o (StateMachine.kept_subset ho)
  passed w' hw' := by
    unfold Book.commit at hw'
    dsimp only at hw'
    split at hw'
    · obtain ⟨w, hw, rfl⟩ := Option.map_eq_some_iff.1 hw'
      exact h.commitPoint hw
    · exact h.passed w' hw'
  unset hnone := by
    unfold Book.commit at hnone
    dsimp only at hnone
    split at hnone
    · exact h.unset (Option.map_eq_none_iff.1 hnone)
    · exact h.unset hnone

theorem processRecord (h : Backed book first reported) (p : TopicId) (record : Message) :
    Backed (book.step p (.processRecord record))
      (if record.topicId = p then some (first.getD record.offset.val) else first) reported := by
  by_cases hp : record.topicId = p
  · simp only [Book.step, hp, if_true]
    refine ⟨h.uploaded, ?_, fun hnone => by cases hnone⟩
    intro w hw
    cases hw
    cases hwatermark : book.watermark with
    | none =>
        rw [h.unset hwatermark]
        exact ⟨record.offset.val, rfl, fun n hle hlt => absurd hlt (not_lt.2 hle)⟩
    | some w =>
        obtain ⟨f, hfirst, hpassed⟩ := h.passed w hwatermark
        exact ⟨f, by rw [hfirst]; rfl, hpassed⟩
  · simp only [Book.step, hp, if_false]
    exact h

/-- One request. -/
theorem step {p : TopicId} {ref : Reference} {requests : List Request}
    (h : Backed book ref.first (History.OffsetReported p requests)) (request : Request) :
    Backed (book.step p request) (ref.step p request).first
      (History.OffsetReported p (request :: requests)) := by
  -- what was reported stays reported
  have hmono : ∀ n, History.OffsetReported p requests n →
      History.OffsetReported p (request :: requests) n := by
    rintro n ⟨path, offsets, hmem, hn⟩
    exact ⟨path, offsets, List.mem_cons_of_mem _ hmem, hn⟩
  have h' := h.mono hmono
  cases request with
  | processRecord record =>
      have hrecord := h'.processRecord p record
      by_cases hp : record.topicId = p
      · simpa only [Reference.step, hp, if_true] using hrecord
      · simpa only [Reference.step, hp, if_false] using hrecord
  | commitTick currentAssignment =>
      rw [Reference.step, Reference.commit_first]
      exact h'.commit p currentAssignment
  | finalCommit currentAssignment =>
      rw [Reference.step, Reference.commit_first]
      exact h'.commit p currentAssignment
  | uploadCompletion result =>
      cases result with
      | failure toUpload error => exact h'
      | success path offsets =>
          refine ⟨fun o ho => ?_, h'.passed, h'.unset⟩
          rcases BTreeSet.mem_extend.1 ho with hold | hnew
          · exact h'.uploaded o hold
          · exact ⟨path, offsets, List.mem_cons_self, Reference.mem_reported.2 ⟨o, hnew, rfl⟩⟩
  | revokePartitions partitions =>
      by_cases hp : p ∈ revokedTopicIds partitions
      · simp only [Book.step, Reference.step, hp, if_true]
        exact Backed.empty
      · simp only [Book.step, Reference.step, hp, if_false]
        exact h'
  | uploadTick => exact h'
  | shutdownSignal => exact h'

/-- All requests of a history. -/
theorem after (p : TopicId) : ∀ requests : List Request,
    Backed (Book.after p requests) (Reference.after p requests).first
      (History.OffsetReported p requests)
  | [] => Backed.empty
  | request :: requests => (after p requests).step request

end Backed

end S3Sink
