import S3Sink.Commit.Refinement

/-!
# Progress — how far a commit request gets

The commit point walks over consecutive integers, so it stops at the first offset that was never
consumed, and at one whose report was dropped by a commit request for an assignment without the
partition (`commit_stalls`).  Otherwise nothing holds it back: once everything consumed from a
partition has been reported, a commit request takes the watermark to the end of the gap-free block
of consumed offsets and keeps no offset below it.
-/

namespace S3Sink

/-- The end of the gap-free block that starts the consumed offsets: the least offset from the first
one on that was not consumed. -/
def gapFreeEnd (first : Offset) (consumed : List Offset) : Int :=
  Reference.leastMissing (consumed.map Subtype.val).toFinset first.val

theorem exists_of_lt_gapFreeEnd {first : Offset} {consumed : List Offset} {n : Int}
    (hle : first.val ≤ n) (hlt : n < gapFreeEnd first consumed) : ∃ o ∈ consumed, o.val = n := by
  have hmem := Reference.mem_of_lt_leastMissing hle hlt
  simpa using hmem

/-- No offset between the first one consumed and any other is skipped. -/
def Consecutive (first : Offset) (consumed : List Offset) : Prop :=
  ∀ o ∈ consumed, first.val ≤ o.val ∧
    ∀ n : Int, first.val ≤ n → n ≤ o.val → ∃ o' ∈ consumed, o'.val = n

/-- If no offset is skipped the block ends behind the last offset consumed. -/
theorem lt_gapFreeEnd_of_consecutive {first : Offset} {consumed : List Offset}
    (hconsecutive : Consecutive first consumed) {o : Offset} (ho : o ∈ consumed) :
    o.val < gapFreeEnd first consumed := by
  obtain ⟨⟨hle, hnot⟩, -⟩ := Reference.leastMissing_isLeast (consumed.map Subtype.val).toFinset
    first.val
  by_contra hge
  obtain ⟨o', ho', heq⟩ := (hconsecutive o ho).2 _ hle (not_lt.1 hge)
  exact hnot (List.mem_toFinset.2 (List.mem_map.2 ⟨o', ho', heq⟩))

/-- No report of a consumed offset was dropped by a commit request whose assignment lacked the
partition, unless the watermark has passed the offset or it was reported again. -/
def NothingCollected (p : TopicId) (requests : List Request) : Prop :=
  ∀ o ∈ History.consumedSince p requests, o.val ∈ History.reportedSince p requests →
    (∀ w ∈ (Book.after p requests).watermark, w ≤ o.val) →
    o.val ∈ (Reference.after p requests).uploaded

instance (p : TopicId) (requests : List Request) : Decidable (NothingCollected p requests) :=
  List.decidableBAll
    (fun o : Offset => o.val ∈ History.reportedSince p requests →
      (∀ w ∈ (Book.after p requests).watermark, w ≤ o.val) →
      o.val ∈ (Reference.after p requests).uploaded)
    (History.consumedSince p requests)

namespace Prunes

variable {book : Book} {ref : Reference}

/-- A commit request for an assigned partition, all of whose consumed offsets are reported or below
the watermark. -/
theorem commit_passes (h : Prunes book ref) {p : TopicId}
    {currentAssignment : TopicPartitionList} (hassigned : currentAssignment.Assigns p)
    {first : Offset} {consumed : List Offset} (hfirst : ref.first = some first.val)
    (hreported : ∀ o ∈ consumed, (∀ w ∈ book.watermark, w ≤ o.val) → o.val ∈ ref.uploaded) :
    ∃ w, (book.commit p currentAssignment).watermark = some w ∧
      gapFreeEnd first consumed ≤ w ∧
      ∀ o ∈ (book.commit p currentAssignment).uploaded, w ≤ o.val := by
  cases hw : book.watermark with
  | none => simp [h.none_iff.1 hw] at hfirst
  | some w =>
      refine ⟨StateMachine.commitPoint w book.uploaded, ?_, ?_, ?_⟩
      · simp [Book.commit, hassigned, hw]
      · by_contra hlt
        rw [not_le] at hlt
        obtain ⟨⟨hle, hnot⟩, -⟩ := StateMachine.commitPoint_isLeast w book.uploaded
        -- the walk would have stopped at an offset that was consumed, hence reported, hence kept
        obtain ⟨o, ho, heq⟩ := exists_of_lt_gapFreeEnd ((h.le hfirst hw).trans hle) hlt
        have hfrom : ∀ w' ∈ book.watermark, w' ≤ o.val := by
          intro w' hw'
          rw [hw] at hw'
          cases hw'
          exact heq ▸ hle
        obtain ⟨o', ho', heq'⟩ := h.kept o.val (hreported o ho hfrom) hfrom
        exact hnot o' ho' (heq'.trans heq)
      · intro o ho
        simp only [Book.commit, StateMachine.kept, hassigned, if_true, hw] at ho
        simpa using (BTreeSet.mem_restrict.1 ho).2

end Prunes

/-- A commit request that takes the watermark past everything consumed finds no report dropped. -/
theorem NothingCollected.of_passed {p : TopicId} {requests : List Request}
    {currentAssignment : TopicPartitionList} (hassigned : currentAssignment.Assigns p)
    (hpassed : ∀ o ∈ History.consumedSince p requests, ∃ w,
      ((Book.after p requests).commit p currentAssignment).watermark = some w ∧ o.val + 1 ≤ w) :
    NothingCollected p requests := by
  intro o ho _ hfrom
  obtain ⟨w', hw', hlt⟩ := hpassed o ho
  simp only [Book.commit, hassigned, if_true, Option.map_eq_some_iff] at hw'
  obtain ⟨w, hw, rfl⟩ := hw'
  -- the walk went over the offset, so the book still had it
  obtain ⟨o', ho', heq⟩ :=
    StateMachine.exists_of_lt_commitPoint (hfrom w hw) (Int.lt_of_add_one_le hlt)
  exact heq ▸ (Prunes.after p requests).subset o' ho'

namespace StateMachine

open TransitionSystem

variable {F K : Type} [FileRegistry F] [KeyGenerator K]
variable {inputTopics : List (TopicConfig × List TopicName)} {fileRegistry : F} {keyGenerator : K}
variable {config : StateMachineConfiguration}

/-- A commit request after a run. -/
theorem book_after_commit {e : Step F K} {h : List (Step F K)} {sm : StateMachine F K}
    {currentAssignment : TopicPartitionList}
    (hrun : Run (system (new inputTopics fileRegistry keyGenerator config)) (e :: h) sm)
    (hfree : FatalFree (e :: h))
    (hrequest : History.assignment? e.request = some currentAssignment) (p : TopicId) :
    sm.book p = (Book.after p (requests h)).commit p currentAssignment := by
  rw [book_after_run hrun hfree]
  change (Book.after p (requests h)).step p e.request = _
  cases hkind : e.request with
  | commitTick assigned => rw [hkind] at hrequest; cases hrequest; rfl
  | finalCommit assigned => rw [hkind] at hrequest; cases hrequest; rfl
  | _ => rw [hkind] at hrequest; cases hrequest

/-- Offsets 0 and 2 are consumed, offset 1 is never delivered, both records are uploaded. -/
def skippingInputs : List (Ambient × Request) :=
  [quiet (sampleSuccess "/scratch/000.jsonl.zst" (sampleOffset 2)),
    quiet (sampleSuccess "/scratch/.jsonl.zst" (sampleOffset 0)),
    quiet (.processRecord (sampleRecord (sampleOffset 2))),
    quiet (.processRecord (sampleRecord (sampleOffset 0)))]

/-- Some run ends with a commit request that assigns the partition, when the given offsets have been
consumed from it since its last revocation and each of them has been reported; the watermark is then
`w`, not behind all of them. -/
def Stalls (start : StateMachine F K) (p : TopicId) (consumed : List Offset) (w : Int) : Prop :=
  ∃ h sm currentAssignment, Run (system start) h sm ∧ FatalFree h ∧
    h.head?.map Step.request = some (.commitTick currentAssignment) ∧
    currentAssignment.Assigns p ∧
    History.consumedSince p (requests h) = consumed ∧
    (∀ o ∈ consumed, ∃ path offsets, o ∈ (offsets.get? p).getD [] ∧
      Request.uploadCompletion (.success path offsets) ∈ requests h) ∧
    sm.watermarkAt p = some w ∧
    ∃ o ∈ consumed, w < o.val + 1

end StateMachine
end S3Sink
