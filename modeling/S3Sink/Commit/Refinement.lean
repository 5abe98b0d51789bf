import S3Sink.Commit.Reference

/-!
# Refinement — the code commits what the reference commits

`makeTopicPartitionList` advances watermarks, splits and deletes offset sets.  Over whole runs none
of this shows: every list it emits is the list of the reference that never prunes.
-/

namespace S3Sink
namespace StateMachine

open TransitionSystem

variable {F K : Type} [FileRegistry F] [KeyGenerator K]
variable {inputTopics : List (TopicConfig × List TopicName)} {fileRegistry : F} {keyGenerator : K}
variable {config : StateMachineConfiguration}

/-- What a run leaves in the book of a partition. -/
theorem book_after_run {h : List (Step F K)} {sm : StateMachine F K}
    (hrun : Run (system (new inputTopics fileRegistry keyGenerator config)) h sm)
    (hfree : FatalFree h) (p : TopicId) : sm.book p = Book.after p (requests h) :=
  book_eq_after (book_new inputTopics fileRegistry keyGenerator config) hrun hfree p

/-- At every commit request of a run the code emits one list, with one offset for each partition
it names, and it names exactly the partitions and offsets the reference emits. -/
theorem commit_refines_reference {e : Step F K} {h : List (Step F K)} {sm : StateMachine F K}
    {currentAssignment : TopicPartitionList}
    (hrun : Run (system (new inputTopics fileRegistry keyGenerator config)) (e :: h) sm)
    (hfree : FatalFree (e :: h))
    (hcover : History.AssignmentsCover (requests (e :: h)))
    (hrequest : History.assignment? e.request = some currentAssignment) :
    ∃ tpl, committedList? e.responses = some tpl ∧
      (tpl.elements.map TopicPartitionListElem.topicId).Nodup ∧
      (∀ elem ∈ tpl.elements, elem.offset.isSome = true) ∧
      ∀ p c, tpl.Contains p c ↔
        (Reference.after p (requests h)).emits p currentAssignment = some c := by
  obtain ⟨sm₀, hrun₀, hstep⟩ := Run.cons_iff.1 hrun
  obtain ⟨tpl, hanswer, hnodup, hoffset, hcontains⟩ :=
    hstep.cases.commit_list hfree.head hrequest
  refine ⟨tpl, hanswer, hnodup, hoffset, fun p c => ?_⟩
  rw [hcontains, hstep.reordered.book, book_after_run hrun₀ hfree.tail,
    (Agrees.after p (requests h) hcover.2).emits_eq]

/-- One record, its upload, and a second record on the way. -/
def sampleInputs : List (Ambient × Request) :=
  [quiet (.processRecord (sampleRecord (sampleOffset 1))),
    quiet (sampleSuccess "/scratch/.jsonl.zst" (sampleOffset 0)),
    quiet (.processRecord (sampleRecord (sampleOffset 0)))]

theorem commit_refines_reference_sample :
    ∃ tpl, committedList? (stepOn (trace sampleStart sampleInputs).2
        (quiet (.commitTick sampleAssignment))).responses = some tpl ∧
      (tpl.elements.map TopicPartitionListElem.topicId).Nodup ∧
      (∀ elem ∈ tpl.elements, elem.offset.isSome = true) ∧
      ∀ p c, tpl.Contains p c ↔
        (Reference.after p (requests (trace sampleStart sampleInputs).1)).emits p
          sampleAssignment = some c :=
  commit_refines_reference
    (run_trace sampleStart (quiet (.commitTick sampleAssignment) :: sampleInputs))
    (by decide) (by decide) rfl

end StateMachine
end S3Sink
