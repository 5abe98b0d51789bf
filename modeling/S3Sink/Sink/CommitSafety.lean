import S3Sink.Commit.Durable
import S3Sink.Commit.Refinement
import S3Sink.Sink.Conservation

/-!
# CommitSafety — only uploaded records are committed

Whatever the order of records, uploads, revocations and commits: when an offset is committed for a
partition, every offset before it, from the first one consumed since the partition was last revoked,
was reported in a successful upload, and the lines of the records at these offsets are in the files
uploaded.

* `line_of_reported`, `reported_record` — a reported offset is the offset of a record whose line is
  in an uploaded file;
* `commit_safety` — every list the sink commits.
-/

namespace S3Sink
namespace Sink

open TransitionSystem StateMachine Placement

/-- Kafka holds one record at each offset of a partition. -/
def OneRecordPerOffset (records : List Message) : Prop :=
  ∀ record ∈ records, ∀ record' ∈ records, record.topicId = record'.topicId →
    record.offset = record'.offset → record = record'

instance (records : List Message) : Decidable (OneRecordPerOffset records) :=
  inferInstanceAs (Decidable (∀ record ∈ records, ∀ record' ∈ records, _ → _ → _))

theorem sinkStep_steps {F K : Type} [FileRegistry F] [KeyGenerator K] {s s' : SinkState F K}
    {loop : Loop} {e : Step F K} {actions : List Action}
    (h : SinkStep s (.handled loop e actions) s') : Steps s.stateMachine e s'.stateMachine := by
  cases h <;> assumption

theorem mem_reportedParts {F K : Type} {h : List (Step F K)} {path : PathBuf}
    {offsets : HashMap TopicId (List Offset)} :
    (path, offsets) ∈ reportedParts h ↔
      .uploadCompletion (.success path offsets) ∈ requests h := by
  unfold reportedParts requests
  rw [List.mem_flatMap, List.mem_map]
  refine exists_congr fun e => and_congr_right fun _ => ?_
  cases e.request with
  | uploadCompletion result =>
      cases result with
      | success path' offsets' => simp [Request.reported, eq_comm]
      | failure toUpload error => simp [Request.reported]
  | _ => simp [Request.reported]

variable {K : Type} [KeyGenerator K]
variable {inputTopics : List (TopicConfig × List TopicName)} {directory : PathBuf}
variable {os : OperatingSystem} {keyGenerator : K} {config : StateMachineConfiguration}

/-- An offset that a completed upload reports is that of a record processed, whose line is in the
file uploaded. -/
theorem line_of_reported {h : List (SinkEvent DiskFileRegistry K)}
    {s : SinkState DiskFileRegistry K}
    (hrun : Run (system (new inputTopics (DiskFileRegistry.new directory os) keyGenerator config))
      h s)
    (hfree : FatalFree (steps h)) {path : PathBuf} {offsets : HashMap TopicId (List Offset)}
    (hreported : .uploadCompletion (.success path offsets) ∈ requests (steps h)) {p : TopicId}
    {n : Int} (hn : n ∈ Reference.reported p offsets) :
    ∃ record ∈ consumedRecords (requests (steps h)), record.topicId = p ∧ record.offset.val = n ∧
      ∀ line, lineOf (Cache.newConfigs inputTopics) record = some line →
        line <:+: s.stateMachine.fileRegistry.content path := by
  have hparts := mem_reportedParts.2 hreported
  have hsteps := run_steps hrun
  obtain ⟨file, hfile, hfileparts⟩ :
      ∃ file ∈ sealedFiles (steps h), file.parts = (path, offsets) := by
    have hsealed : (path, offsets) ∈
        (↑((sealedFiles (steps h)).map SealedFile.parts) : Multiset FileParts) := by
      rw [(accounts_of_run hrun hfree).files]
      exact Multiset.mem_add.2 (Or.inl (Multiset.mem_add.2 (Or.inr hparts)))
    exact List.mem_map.1 hsealed
  cases hfileparts
  have hdescribed := (shelved_of_run hsteps hfree).sealed.described file hfile
  rw [configs_of_run hsteps] at hdescribed
  obtain ⟨o, ho, rfl⟩ := Reference.mem_reported.1 hn
  rw [hdescribed.listed] at ho
  obtain ⟨record, hrecord, rfl, rfl⟩ := mem_offsetsOf.1 ho
  refine ⟨record, ?_, rfl, rfl, fun line hline => ?_⟩
  · rw [← map_fst_ledger hsteps hfree]
    exact List.mem_map_of_mem (mem_itemsAt.1 hrecord)
  · rw [hdescribed.content]
    exact List.infix_of_mem_flatten (List.mem_filterMap.2 ⟨record, hrecord, hline⟩)

/-- A reported offset is the offset of a processed record, and the line of that record is in a file
reported as uploaded. -/
theorem reported_record {h : List (SinkEvent DiskFileRegistry K)}
    {s : SinkState DiskFileRegistry K}
    (hrun : Run (system (new inputTopics (DiskFileRegistry.new directory os) keyGenerator config))
      h s)
    (hfree : FatalFree (steps h)) {p : TopicId} {n : Int}
    (hreported : History.OffsetReported p (requests (steps h)) n) :
    ∃ record ∈ consumedRecords (requests (steps h)), record.topicId = p ∧ record.offset.val = n ∧
      ∀ line, lineOf (Cache.newConfigs inputTopics) record = some line →
        ∃ path, Reported h path ∧ line <:+: s.stateMachine.fileRegistry.content path := by
  obtain ⟨path, offsets, hmem, hn⟩ := hreported
  obtain ⟨record, hrecord, hp, hoffset, hline⟩ := line_of_reported hrun hfree hmem hn
  have hpath : Reported h path :=
    reported_iff.2 (List.mem_map_of_mem (mem_reportedParts.2 hmem))
  exact ⟨record, hrecord, hp, hoffset, fun line h => ⟨path, hpath, hline line h⟩⟩

/-- Whenever a list to commit contains a partition with an offset, every offset before it, from the
first one consumed since the last revocation, was reported as uploaded, and the lines of all records
at these offsets are in files reported as uploaded. -/
theorem commit_safety {h : List (SinkEvent DiskFileRegistry K)} {s : SinkState DiskFileRegistry K}
    {loop : Loop} {e : Step DiskFileRegistry K} {actions : List Action} {tpl : TopicPartitionList}
    {p : TopicId} {c : Int}
    (hrun : Run (system (new inputTopics (DiskFileRegistry.new directory os) keyGenerator config))
      (.handled loop e actions :: h) s)
    (hanswer : .commitAsync tpl ∈ e.responses ∨ .commitSync tpl ∈ e.responses)
    (hcontains : tpl.Contains p c)
    (hone : OneRecordPerOffset (consumedRecords (requests (steps h)))) :
    ∃ first, (History.consumedSince p (requests (steps h))).head? = some first ∧
      (∀ n, first.val ≤ n → n < c → History.OffsetReported p (requests (steps h)) n) ∧
      ∀ record ∈ consumedRecords (requests (steps h)), record.topicId = p →
        first.val ≤ record.offset.val → record.offset.val < c →
        ∀ line, lineOf (Cache.newConfigs inputTopics) record = some line →
          ∃ path, Reported h path ∧ line <:+: s.stateMachine.fileRegistry.content path := by
  obtain ⟨s₀, hrun₀, hstep⟩ := Run.cons_iff.1 hrun
  have hfree := fatalFree_of_run hrun₀ (by cases hstep <;> simp)
  have hsm := sinkStep_steps hstep
  rcases hsm.cases.commit_responses with hnone | ⟨currentAssignment, tpl', hregistry, hcommit⟩
  · rcases hanswer with hmem | hmem
    · exact absurd hmem (hnone tpl).1
    · exact absurd hmem (hnone tpl).2
  obtain ⟨hrequest, hlist, hnofatal⟩ : History.assignment? e.request = some currentAssignment ∧
      committedList? e.responses = some tpl ∧ NoFatal e.responses := by
    rcases hcommit with ⟨hrequest, hresponses⟩ | ⟨hrequest, hresponses⟩
    all_goals
      rw [hresponses] at hanswer ⊢
      rw [hrequest]
      refine ⟨rfl, ?_, by simp [NoFatal]⟩
      simp only [List.mem_singleton, reduceCtorEq, or_false, false_or] at hanswer
      cases hanswer
      rfl
  obtain ⟨tpl'', hlist', -, -, hemits⟩ := hsm.cases.commit_list hnofatal hrequest
  rw [hlist] at hlist'
  cases hlist'
  -- the list reads the book, and what the book has passed was reported
  have hbook : e.pre.book p = Book.after p (requests (steps h)) := by
    rw [hsm.reordered.book, book_after_run (run_steps hrun₀) hfree]
  obtain ⟨-, w, hw, hc, -⟩ := Book.emits_eq_some.1 ((hemits p c).1 hcontains)
  rw [hbook] at hw hc
  obtain ⟨f, hfirst, hreported⟩ := (Backed.after p (requests (steps h))).commitPoint hw
  rw [Reference.first_after] at hfirst
  obtain ⟨first, hhead, rfl⟩ := Option.map_eq_some_iff.1 hfirst
  rw [← hc] at hreported
  refine ⟨first, hhead, hreported, ?_⟩
  intro record hrecord hp hle hlt line hline
  -- the request itself writes nothing
  have hkept : s.stateMachine.fileRegistry = s₀.stateMachine.fileRegistry := by
    rw [hsm.post, hregistry, hsm.reordered.fileRegistry]
  obtain ⟨record', hrecord', hp', hoffset, hwritten⟩ :=
    reported_record hrun₀ hfree (hreported record.offset.val hle hlt)
  -- the record reported at this offset is the record consumed
  obtain rfl := hone record hrecord record' hrecord' (hp.trans hp'.symm) (Subtype.ext hoffset.symm)
  rw [hkept]
  exact hwritten line hline

/-- Two records are sealed, each in a file of its own; the uploads complete, the newer one first,
and a commit is due. -/
def commitChoices : List (Ambient × Choice) :=
  [calm (.ready (.commitTick sampleAssignment)), calm (.handle none), calm (.complete 0 none),
    calm (.handle none), calm (.complete 0 none), calm (.handle none),
    calm (.ready (.record (sampleRecord (sampleOffset 1))))] ++ sealedChoices

theorem commit_safety_sample :
    ∃ first, (History.consumedSince samplePartition
        (requests (steps (play sampleStart commitChoices).1))).head? = some first ∧
      (∀ n, first.val ≤ n → n < 2 → History.OffsetReported samplePartition
        (requests (steps (play sampleStart commitChoices).1)) n) ∧
      ∀ record ∈ consumedRecords (requests (steps (play sampleStart commitChoices).1)),
        record.topicId = samplePartition → first.val ≤ record.offset.val →
        record.offset.val < 2 → ∀ line, lineOf sampleStart.cache.configs record = some line →
          ∃ path, Reported (play sampleStart commitChoices).1 path ∧
            line <:+: (play sampleStart (calm (.handle none) ::
              commitChoices)).2.stateMachine.fileRegistry.content path :=
  commit_safety
    (run_play sampleStart (calm (.handle none) :: commitChoices))
    (Or.inl List.mem_cons_self) (by decide) (by decide)

end Sink
end S3Sink
