import S3Sink.Commit.Refinement

/-!
# Position — where a commit request takes the watermark

The watermark is raised step by step while offsets are pruned.  What it comes to can be read off
the history: it is the least offset, from the first one consumed on, that is not counted.  So
neither the order in which uploads complete, nor the files the records were in, nor when commits
were made before plays any part.

* `countedSince` — the reports that count;
* `commit_position` — whole runs.
-/

namespace S3Sink

open StateMachine (revokedTopicIds)

namespace History

/-- The offsets of a partition reported since it was last revoked, or since the last commit request
whose assignment lacked it, whichever is later. -/
def countedSince (p : TopicId) : List Request → Finset Int
  | [] => ∅
  | .uploadCompletion (.success _ offsets) :: requests =>
      countedSince p requests ∪ Reference.reported p offsets
  | .revokePartitions partitions :: requests =>
      if p ∈ revokedTopicIds partitions then ∅ else countedSince p requests
  | .commitTick currentAssignment :: requests =>
      if currentAssignment.Assigns p then countedSince p requests else ∅
  | .finalCommit currentAssignment :: requests =>
      if currentAssignment.Assigns p then countedSince p requests else ∅
  | _ :: requests => countedSince p requests

end History

namespace Reference

theorem commit_uploaded (p : TopicId) (currentAssignment : TopicPartitionList) (ref : Reference) :
    (ref.commit p currentAssignment).uploaded =
      if currentAssignment.Assigns p then ref.uploaded else ∅ := by
  unfold commit
  split <;> rfl

/-- The reference keeps the offsets that count. -/
theorem uploaded_after (p : TopicId) : ∀ requests : List Request,
    (after p requests).uploaded = History.countedSince p requests
  | [] => rfl
  | request :: requests => by
      have ih := uploaded_after p requests
      cases request with
      | processRecord record =>
          refine Eq.trans ?_ ih
          rw [after, step]
          split <;> rfl
      | uploadCompletion uploadResult =>
          cases uploadResult with
          | success path offsets => exact congrArg (· ∪ reported p offsets) ih
          | failure toUpload error => exact ih
      | commitTick currentAssignment =>
          rw [after, step, commit_uploaded, ih, History.countedSince]
      | finalCommit currentAssignment =>
          rw [after, step, commit_uploaded, ih, History.countedSince]
      | revokePartitions partitions =>
          rw [after, step, History.countedSince, ← ih]
          split <;> rfl
      | uploadTick => exact ih
      | shutdownSignal => exact ih

end Reference

namespace Agrees

variable {book : Book} {ref : Reference}

/-- A commit request for an assigned partition takes the watermark to the least offset missing. -/
theorem commit_watermark (h : Agrees book ref) {p : TopicId}
    {currentAssignment : TopicPartitionList} (hassigned : currentAssignment.Assigns p) :
    (book.commit p currentAssignment).watermark =
      ref.first.map fun first => Reference.leastMissing ref.uploaded first := by
  unfold Book.commit
  rw [if_pos hassigned]
  cases hw : book.watermark with
  | none => rw [h.none_iff.1 hw, Option.map_none, Option.map_none]
  | some w =>
      cases hfirst : ref.first with
      | none =>
          rw [h.none_iff.2 hfirst] at hw
          cases hw
      | some first => rw [Option.map_some, Option.map_some, h.commitPoint_eq hfirst hw]

end Agrees

/-- A commit request emits the offset it takes the watermark to, if that is progress. -/
theorem Book.emits_iff {p : TopicId} {currentAssignment : TopicPartitionList} {book : Book}
    {c : Int} (hassigned : currentAssignment.Assigns p) :
    book.emits p currentAssignment = some c ↔
      (book.commit p currentAssignment).watermark = some c ∧ book.watermark ≠ some c := by
  unfold Book.commit
  rw [Book.emits_eq_some, if_pos hassigned]
  cases book.watermark with
  | none => simp
  | some w =>
      have hle := StateMachine.le_commitPoint w book.uploaded
      simp only [hassigned, true_and, Option.some.injEq, Option.map_some, ne_eq]
      constructor
      · rintro ⟨w', rfl, rfl, hlt⟩
        exact ⟨rfl, ne_of_lt hlt⟩
      · rintro ⟨rfl, hne⟩
        exact ⟨w, rfl, rfl, lt_of_le_of_ne hle hne⟩

namespace StateMachine

open TransitionSystem

variable {F K : Type} [FileRegistry F] [KeyGenerator K]
variable {inputTopics : List (TopicConfig × List TopicName)} {fileRegistry : F} {keyGenerator : K}
variable {config : StateMachineConfiguration}

/-- A commit request takes the watermark of an assigned partition to the least offset, from the
first one consumed since the partition was last revoked, that is not counted, and its list names
exactly the offset the watermark has moved to. -/
theorem commit_position {h : List (Step F K)} {sm sm' : StateMachine F K} {e : Step F K}
    {currentAssignment : TopicPartitionList} {p : TopicId}
    (hrun : Run (system (new inputTopics fileRegistry keyGenerator config)) h sm)
    (hstep : Steps sm e sm') (hfree : FatalFree (e :: h))
    (hcover : History.AssignmentsCover (requests (e :: h)))
    (hrequest : History.assignment? e.request = some currentAssignment)
    (hassigned : currentAssignment.Assigns p) :
    sm'.watermarkAt p = (History.consumedSince p (requests h)).head?.map (fun first =>
        Reference.leastMissing (History.countedSince p (requests h)) first.val) ∧
      ∃ tpl, committedList? e.responses = some tpl ∧
        ∀ c, tpl.Contains p c ↔ sm'.watermarkAt p = some c ∧ sm.watermarkAt p ≠ some c := by
  have hhandled := hstep.cases
  have hagrees := Agrees.after p (requests h) hcover.2
  have hbook : e.pre.book p = Book.after p (requests h) := by
    rw [hstep.reordered.book, book_after_run hrun hfree.tail]
  -- the request commits at the book the history left
  have hcommit : sm'.book p = (e.pre.book p).commit p currentAssignment := by
    rw [hstep.post, hhandled.book hfree.head]
    cases hkind : e.request with
    | commitTick assigned => rw [hkind] at hrequest; cases hrequest; rfl
    | finalCommit assigned => rw [hkind] at hrequest; cases hrequest; rfl
    | _ => rw [hkind] at hrequest; cases hrequest
  constructor
  · calc
      sm'.watermarkAt p
          = ((Book.after p (requests h)).commit p currentAssignment).watermark := by
              rw [← hbook, ← hcommit]
              rfl
      _ = (Reference.after p (requests h)).first.map fun first =>
            Reference.leastMissing (Reference.after p (requests h)).uploaded first :=
              hagrees.commit_watermark hassigned
      _ = (History.consumedSince p (requests h)).head?.map fun first =>
            Reference.leastMissing (History.countedSince p (requests h)) first.val := by
              rw [Reference.first_after, Reference.uploaded_after, Option.map_map]
              rfl
  · obtain ⟨tpl, hanswer, -, -, hcontains⟩ := hhandled.commit_list hfree.head hrequest
    refine ⟨tpl, hanswer, fun c => ?_⟩
    rw [hcontains, Book.emits_iff hassigned, ← hcommit, hstep.reordered.book]
    rfl

theorem commit_position_sample :
    (trace sampleStart (quiet (.commitTick sampleAssignment) :: sampleInputs)).2.watermarkAt
        samplePartition = some 1 ∧
      ∃ tpl, committedList? (stepOn (trace sampleStart sampleInputs).2
          (quiet (.commitTick sampleAssignment))).responses = some tpl ∧
        tpl.Contains samplePartition 1 := by
  obtain ⟨hwatermark, tpl, hanswer, hcontains⟩ := commit_position
    (run_trace sampleStart sampleInputs)
    (⟨Reordered.refl _, rfl, rfl⟩ : Steps (trace sampleStart sampleInputs).2
      (stepOn (trace sampleStart sampleInputs).2 (quiet (.commitTick sampleAssignment)))
      (trace sampleStart (quiet (.commitTick sampleAssignment) :: sampleInputs)).2)
    (by decide) (by decide) rfl (by decide : sampleAssignment.Assigns samplePartition)
  have hone : (trace sampleStart (quiet (.commitTick sampleAssignment) ::
      sampleInputs)).2.watermarkAt samplePartition = some 1 := hwatermark.trans (by decide)
  exact ⟨hone, tpl, hanswer, (hcontains 1).2 ⟨hone, by decide⟩⟩

end StateMachine
end S3Sink
