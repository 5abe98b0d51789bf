import S3Sink.Lib.TransitionSystem
import S3Sink.StateMachine.Handled

/-!
# Run — runs of the state machine

The state machine as a transition system.  Its label is the whole step (the state the handler was
called on, the request, the responses, the state after), so a history can be asked what was
requested and what was answered.

`std::collections::HashMap` promises nothing about its iteration order: before each request the maps
the handlers iterate over are listed anew (`Reordered`).
-/

namespace S3Sink

/-- One handled request. -/
structure Step (F K : Type) where
  pre : StateMachine F K
  request : Request
  ambient : Ambient
  responses : List Response
  post : StateMachine F K

namespace StateMachine

open TransitionSystem

variable {F K : Type}

/-- The same state with its hash maps listed in another iteration order. -/
structure Reordered (sm sm' : StateMachine F K) : Prop where
  streams : sm.streams.entries.Perm sm'.streams.entries
  offsetsUploaded : sm.offsetsUploaded.entries.Perm sm'.offsetsUploaded.entries
  frame : sm' = { sm with streams := sm'.streams, offsetsUploaded := sm'.offsetsUploaded }

namespace Reordered

variable {sm sm' : StateMachine F K}

theorem refl (sm : StateMachine F K) : Reordered sm sm :=
  ⟨List.Perm.refl _, List.Perm.refl _, rfl⟩

theorem get?_streams (h : Reordered sm sm') (streamId : StreamId) :
    sm'.streams.get? streamId = sm.streams.get? streamId :=
  (HashMap.get?_perm h.streams streamId).symm

theorem uploadedAt (h : Reordered sm sm') (p : TopicId) : sm'.uploadedAt p = sm.uploadedAt p := by
  simp only [StateMachine.uploadedAt, HashMap.get?_perm h.offsetsUploaded p]

theorem watermarkAt (h : Reordered sm sm') (p : TopicId) :
    sm'.watermarkAt p = sm.watermarkAt p := by
  rw [h.frame]
  rfl

theorem cache (h : Reordered sm sm') : sm'.cache = sm.cache := by
  rw [h.frame]

theorem config (h : Reordered sm sm') : sm'.config = sm.config := by
  rw [h.frame]

theorem fileRegistry (h : Reordered sm sm') : sm'.fileRegistry = sm.fileRegistry := by
  rw [h.frame]

theorem inFlightUploads (h : Reordered sm sm') : sm'.inFlightUploads = sm.inFlightUploads := by
  rw [h.frame]

end Reordered

variable [FileRegistry F] [KeyGenerator K]

/-- One step: the handler runs on the state with its maps listed in some order. -/
structure Steps (sm : StateMachine F K) (e : Step F K) (sm' : StateMachine F K) : Prop where
  reordered : Reordered sm e.pre
  handled : handleInner e.ambient e.request e.pre = (e.responses, e.post)
  post : sm' = e.post

/-- The state machine started in `start`. -/
def system (start : StateMachine F K) : TransitionSystem (StateMachine F K) (Step F K) where
  init sm := sm = start
  step := Steps

theorem Steps.cases {sm sm' : StateMachine F K} {e : Step F K} (h : Steps sm e sm') :
    Handled e.ambient e.pre e.request e.responses e.post :=
  handleInner_cases h.handled

theorem Steps.cases_of {sm sm' : StateMachine F K} {e : Step F K} (h : Steps sm e sm')
    {request : Request} (hrequest : e.request = request) :
    Handled e.ambient e.pre request e.responses e.post :=
  hrequest ▸ h.cases

theorem Steps.config {sm sm' : StateMachine F K} {e : Step F K} (h : Steps sm e sm') :
    sm'.config = sm.config :=
  calc
    sm'.config
        = e.post.config := by rw [h.post]
    _ = e.pre.config := h.cases.config
    _ = sm.config := h.reordered.config

theorem config_of_run {start sm : StateMachine F K} {h : List (Step F K)}
    (hrun : Run (system start) h sm) : sm.config = start.config := by
  induction hrun with
  | start hinit => rw [hinit]
  | step _ hstep ih => exact (Steps.config hstep).trans ih

/-! ## Concrete runs -/

/-- Handle one request, with no change of the iteration orders. -/
def stepOn (sm : StateMachine F K) (input : Ambient × Request) : Step F K :=
  { pre := sm
    request := input.2
    ambient := input.1
    responses := (handleInner input.1 input.2 sm).1
    post := (handleInner input.1 input.2 sm).2 }

/-- Handle the given requests, the newest listed first. -/
def trace (start : StateMachine F K) : List (Ambient × Request) →
    List (Step F K) × StateMachine F K
  | [] => ([], start)
  | input :: inputs =>
      let (h, sm) := trace start inputs
      (stepOn sm input :: h, (stepOn sm input).post)

/-- One topic of string payloads; a target size of one byte seals every non-empty record at once. -/
def sampleStart : StateMachine DiskFileRegistry IdentityKeyGenerator :=
  new [(⟨.jsonStringDecoder, .topicVersion⟩, [⟨"topic"⟩])]
    (DiskFileRegistry.new "/scratch" OperatingSystem.faultless) {}
    { maxActiveFileTimeoutMs := 60000
      maxConcurrentUploads := 2
      maxUploadsRetry := 1
      targetFileSizeB := 1 }

/-- Files stay open up to a thousand bytes. -/
def openStart : StateMachine DiskFileRegistry IdentityKeyGenerator :=
  new [(⟨.jsonStringDecoder, .topicVersion⟩, [⟨"topic"⟩])]
    (DiskFileRegistry.new "/scratch" OperatingSystem.faultless) {}
    { sampleStart.config with targetFileSizeB := 1000 }

/-- Partition 0 of the topic. -/
def samplePartition : TopicId := ⟨⟨"topic"⟩, 0⟩

def sampleAssignment : TopicPartitionList := ⟨[⟨"topic", 0, none⟩]⟩

/-- One of the first eight offsets. -/
def sampleOffset (o : Nat) : Offset :=
  ⟨(o % 8 : Nat), by omega, by unfold i64Max; omega⟩

/-- A record of the partition with payload `{}`. -/
def sampleRecord (offset : Offset) : Message :=
  ⟨"topic", 0, offset, some [0x7B, 0x7D], none⟩

/-- The upload of a file with one record has completed. -/
def sampleSuccess (path : PathBuf) (offset : Offset) : Request :=
  .uploadCompletion (.success path (AList.insert samplePartition [offset] ∅))

/-- Time stands still and no offset is refused. -/
def quiet (request : Request) : Ambient × Request :=
  (⟨0, fun _ _ => none⟩, request)

theorem run_trace (start : StateMachine F K) : ∀ inputs : List (Ambient × Request),
    Run (system start) (trace start inputs).1 (trace start inputs).2
  | [] => Run.start rfl
  | _ :: inputs => Run.step (run_trace start inputs) ⟨Reordered.refl _, rfl, rfl⟩

end StateMachine

/-! ## Reading a history -/

/-- The requests of a history, newest first. -/
def requests {F K : Type} (h : List (Step F K)) : List Request :=
  h.map Step.request

/-- No step of the history answered `Fatal`. -/
def FatalFree {F K : Type} (h : List (Step F K)) : Prop :=
  ∀ e ∈ h, NoFatal e.responses

instance {F K : Type} (h : List (Step F K)) : Decidable (FatalFree h) :=
  inferInstanceAs (Decidable (∀ e ∈ h, NoFatal e.responses))

theorem FatalFree.tail {F K : Type} {e : Step F K} {h : List (Step F K)}
    (hfree : FatalFree (e :: h)) : FatalFree h :=
  fun e' he' => hfree e' (List.mem_cons_of_mem e he')

theorem FatalFree.head {F K : Type} {e : Step F K} {h : List (Step F K)}
    (hfree : FatalFree (e :: h)) : NoFatal e.responses :=
  hfree e List.mem_cons_self

namespace History

/-- The offsets of a partition consumed since it was last revoked, in order. -/
def consumedSince (p : TopicId) : List Request → List Offset
  | [] => []
  | .processRecord record :: requests =>
      if record.topicId = p then
        consumedSince p requests ++ [record.offset]
      else
        consumedSince p requests
  | .revokePartitions partitions :: requests =>
      if p ∈ StateMachine.revokedTopicIds partitions then [] else consumedSince p requests
  | _ :: requests => consumedSince p requests

theorem of_mem_consumedSince {p : TopicId} {o : Offset} {request : Request}
    {requests : List Request} (hmem : o ∈ consumedSince p (request :: requests)) :
    (o ∈ consumedSince p requests ∧ ∀ partitions, request = .revokePartitions partitions →
        p ∉ StateMachine.revokedTopicIds partitions) ∨
      ∃ record, request = .processRecord record ∧ record.topicId = p ∧ record.offset = o := by
  cases request with
  | processRecord record =>
      by_cases hp : record.topicId = p
      · simp only [consumedSince, hp, if_true] at hmem
        rcases List.mem_append.1 hmem with hold | hnew
        · exact Or.inl ⟨hold, by simp⟩
        · exact Or.inr ⟨record, rfl, hp, (List.mem_singleton.1 hnew).symm⟩
      · simp only [consumedSince, hp, if_false] at hmem
        exact Or.inl ⟨hmem, by simp⟩
  | revokePartitions partitions =>
      by_cases hp : p ∈ StateMachine.revokedTopicIds partitions
      · simp [consumedSince, hp] at hmem
      · simp only [consumedSince, hp, if_false] at hmem
        refine Or.inl ⟨hmem, fun partitions' heq => ?_⟩
        cases heq
        exact hp
  | _ => exact Or.inl ⟨hmem, by simp⟩

/-- The files whose upload was reported as successful, newest first. -/
def reportedPaths (requests : List Request) : List PathBuf :=
  requests.filterMap fun request =>
    match request with
    | .uploadCompletion (.success path _) => some path
    | _ => none

/-- The assignment a commit request comes with. -/
def assignment? : Request → Option TopicPartitionList
  | .commitTick currentAssignment => some currentAssignment
  | .finalCommit currentAssignment => some currentAssignment
  | _ => none

/-- Every commit request came with an assignment that contains each partition consumed from since
it was last revoked, as the consumer's own assignment does. -/
def AssignmentsCover : List Request → Prop
  | [] => True
  | request :: requests =>
      (∀ currentAssignment, assignment? request = some currentAssignment →
        ∀ p, consumedSince p requests ≠ [] → currentAssignment.Assigns p) ∧
      AssignmentsCover requests

/-- The partitions of the records of a history. -/
def topicIds (requests : List Request) : List TopicId :=
  requests.filterMap fun request =>
    match request with
    | .processRecord record => some record.topicId
    | _ => none

theorem mem_topicIds {p : TopicId} {requests : List Request}
    (h : consumedSince p requests ≠ []) : p ∈ topicIds requests := by
  induction requests with
  | nil => exact absurd rfl h
  | cons request requests ih =>
      cases request with
      | processRecord record =>
          by_cases hp : record.topicId = p
          · simp [topicIds, hp]
          · exact List.mem_cons_of_mem _ (ih (by simpa [consumedSince, hp] using h))
      | revokePartitions partitions =>
          by_cases hp : p ∈ StateMachine.revokedTopicIds partitions
          · simp [consumedSince, hp] at h
          · exact ih (by simpa [consumedSince, hp] using h)
      | _ => exact ih h

instance (currentAssignment : TopicPartitionList) (requests : List Request) :
    Decidable (∀ p, consumedSince p requests ≠ [] → currentAssignment.Assigns p) :=
  -- only partitions of processed records can have been consumed from
  decidable_of_iff
    (∀ p ∈ topicIds requests, consumedSince p requests ≠ [] → currentAssignment.Assigns p)
    ⟨fun h p hp => h p (mem_topicIds hp) hp, fun h p _ hp => h p hp⟩

instance decidableAssignmentsCover : ∀ requests, Decidable (AssignmentsCover requests)
  | [] => inferInstanceAs (Decidable True)
  | request :: requests =>
      have := decidableAssignmentsCover requests
      match hrequest : assignment? request with
      | none => decidable_of_iff (AssignmentsCover requests) (by simp [AssignmentsCover, hrequest])
      | some currentAssignment =>
          decidable_of_iff ((∀ p, consumedSince p requests ≠ [] → currentAssignment.Assigns p) ∧
            AssignmentsCover requests) (by simp [AssignmentsCover, hrequest])

end History

end S3Sink
