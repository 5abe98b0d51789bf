import S3Sink.StateMachine.OpenFiles
import S3Sink.StateMachine.Uploads

/-!
# Backend — one file registry in place of another

The state machine knows its registry by the trait only.  Two registries that answer alike can
therefore be exchanged, and every run stays a run.

* `RegistrySimulation` — a registry that answers like another one;
* `Similar` — two state machines that differ in the registry;
* `backend_of_run` — a run over one registry is a run over the other;
* `closed_of_run`, `written_of_fatalFree` — what a run says about its registry.
-/

namespace S3Sink

/-- As long as `Good` holds of the first registry afterwards, both answer alike and stay related. -/
structure RegistrySimulation {F F' : Type} [FileRegistry F] [FileRegistry F'] (Good : F → Prop)
    (R : F → F' → Prop) : Prop where
  /-- what is good now was good before -/
  good : RegistryInvariant fun reg => ¬ Good reg
  close : ∀ {reg reg' id}, Good (FileRegistry.close reg id).2 → R reg reg' →
    (FileRegistry.close reg' id).1 = (FileRegistry.close reg id).1 ∧
      R (FileRegistry.close reg id).2 (FileRegistry.close reg' id).2
  writeAll : ∀ {reg reg' id bytes}, Good (FileRegistry.writeAll reg id bytes).2 → R reg reg' →
    (FileRegistry.writeAll reg' id bytes).1 = (FileRegistry.writeAll reg id bytes).1 ∧
      R (FileRegistry.writeAll reg id bytes).2 (FileRegistry.writeAll reg' id bytes).2
  revoke : ∀ {reg reg' id}, Good (FileRegistry.revoke reg id).2 → R reg reg' →
    (FileRegistry.revoke reg' id).1 = (FileRegistry.revoke reg id).1 ∧
      R (FileRegistry.revoke reg id).2 (FileRegistry.revoke reg' id).2

namespace StateMachine

open TransitionSystem

variable {F F' K : Type}

/-- The same state over another registry. -/
def withRegistry (self : StateMachine F K) (fileRegistry : F') : StateMachine F' K :=
  { cache := self.cache
    fileRegistry := fileRegistry
    keyGenerator := self.keyGenerator
    serializer := self.serializer
    streams := self.streams
    offsetsUploaded := self.offsetsUploaded
    offsetsWatermark := self.offsetsWatermark
    inFlightUploads := self.inFlightUploads
    config := self.config
    responses := self.responses }

/-- The two state machines differ in their registries only, which are related. -/
def Similar (R : F → F' → Prop) (sm : StateMachine F K) (sm' : StateMachine F' K) : Prop :=
  ∃ reg, sm' = sm.withRegistry reg ∧ R sm.fileRegistry reg

theorem similar_ite {R : F → F' → Prop} {p : Prop} [Decidable p] {sm₁ sm₂ : StateMachine F K}
    {sm₁' sm₂' : StateMachine F' K} (hpos : p → Similar R sm₁ sm₁')
    (hneg : ¬ p → Similar R sm₂ sm₂') :
    Similar R (if p then sm₁ else sm₂) (if p then sm₁' else sm₂') := by
  split
  · next h => exact hpos h
  · next h => exact hneg h

section Handlers

variable [FileRegistry F] [FileRegistry F'] [KeyGenerator K] {Good : F → Prop} {R : F → F' → Prop}
variable {sm : StateMachine F K} {sm' : StateMachine F' K}

/-! ## Sealing and revoking -/

theorem closeAndUpload_similar (hsim : RegistrySimulation Good R) (streamId : StreamId)
    (streamState : StreamState) (h : Similar R sm sm')
    (hgood : Good (closeAndUpload streamId streamState sm).fileRegistry) :
    Similar R (closeAndUpload streamId streamState sm)
      (closeAndUpload streamId streamState sm') := by
  obtain ⟨reg, rfl, hR⟩ := h
  have hclosed : (closeAndUpload streamId streamState sm).fileRegistry =
      (FileRegistry.close sm.fileRegistry streamId).2 := by
    unfold closeAndUpload
    generalize FileRegistry.close sm.fileRegistry streamId = out
    obtain ⟨result, fileRegistry⟩ := out
    cases result <;> rfl
  rw [hclosed] at hgood
  obtain ⟨hanswer, hR'⟩ := hsim.close hgood hR
  refine ⟨(FileRegistry.close reg streamId).2, ?_, hclosed ▸ hR'⟩
  unfold closeAndUpload
  dsimp only [withRegistry]
  generalize FileRegistry.close sm.fileRegistry streamId = out at hanswer
  generalize FileRegistry.close reg streamId = out' at hanswer
  obtain ⟨result, fileRegistry⟩ := out
  obtain ⟨result', fileRegistry'⟩ := out'
  obtain rfl : result' = result := hanswer
  cases result' <;> rfl

theorem closeAndUploadAll_similar (hsim : RegistrySimulation Good R)
    (streams : List (StreamId × StreamState)) (h : Similar R sm sm')
    (hgood : Good (closeAndUploadAll streams sm).fileRegistry) :
    Similar R (closeAndUploadAll streams sm) (closeAndUploadAll streams sm') := by
  induction streams generalizing sm sm' with
  | nil => exact h
  | cons e streams ih =>
      refine ih (closeAndUpload_similar hsim e.1 e.2 h ?_) hgood
      exact Classical.not_not.1 fun hbad => closeAndUploadAll_registry hsim.good streams hbad hgood

omit [KeyGenerator K] in
theorem revokeStream_similar (hsim : RegistrySimulation Good R) (streamId : StreamId)
    (h : Similar R sm sm') (hgood : Good (revokeStream streamId sm).fileRegistry) :
    Similar R (revokeStream streamId sm) (revokeStream streamId sm') := by
  obtain ⟨reg, rfl, hR⟩ := h
  have hrevoked : (revokeStream streamId sm).fileRegistry =
      (FileRegistry.revoke sm.fileRegistry streamId).2 := by
    unfold revokeStream
    generalize FileRegistry.revoke sm.fileRegistry streamId = out
    obtain ⟨result, fileRegistry⟩ := out
    cases result <;> rfl
  rw [hrevoked] at hgood
  obtain ⟨hanswer, hR'⟩ := hsim.revoke hgood hR
  refine ⟨(FileRegistry.revoke reg streamId).2, ?_, hrevoked ▸ hR'⟩
  unfold revokeStream
  dsimp only [withRegistry]
  generalize FileRegistry.revoke sm.fileRegistry streamId = out at hanswer
  generalize FileRegistry.revoke reg streamId = out' at hanswer
  obtain ⟨result, fileRegistry⟩ := out
  obtain ⟨result', fileRegistry'⟩ := out'
  obtain rfl : result' = result := hanswer
  cases result' <;> rfl

omit [KeyGenerator K] in
theorem revokeAll_similar (hsim : RegistrySimulation Good R)
    (streams : List (StreamId × StreamState)) (h : Similar R sm sm')
    (hgood : Good (revokeAll streams sm).fileRegistry) :
    Similar R (revokeAll streams sm) (revokeAll streams sm') := by
  induction streams generalizing sm sm' with
  | nil => exact h
  | cons e streams ih =>
      refine ih (revokeStream_similar hsim e.1 h ?_) hgood
      exact Classical.not_not.1 fun hbad => revokeAll_registry hsim.good streams hbad hgood

/-! ## Handlers -/

theorem handleDecodedRecord_similar (hsim : RegistrySimulation Good R) (record : Message)
    (metadata : RecordMetadata) (now : Instant) (h : Similar R sm sm')
    (hgood : Good (handleDecodedRecord record metadata now sm).fileRegistry) :
    Similar R (handleDecodedRecord record metadata now sm)
      (handleDecodedRecord record metadata now sm') := by
  obtain ⟨reg, rfl, hR⟩ := h
  unfold handleDecodedRecord at hgood ⊢
  dsimp only [withRegistry] at hgood ⊢
  generalize sm.serializer.serialize record metadata.config.decoder = answer at hgood ⊢
  obtain ⟨line, serializer⟩ := answer
  cases line with
  | error error => exact ⟨reg, rfl, hR⟩
  | ok payload =>
      cases payload with
      | none => exact ⟨reg, rfl, hR⟩
      | some payload =>
          have hwrite := @hsim.writeAll sm.fileRegistry reg metadata.streamId payload
          dsimp only at hgood ⊢
          generalize FileRegistry.writeAll sm.fileRegistry metadata.streamId payload = out
            at hgood hwrite ⊢
          generalize FileRegistry.writeAll reg metadata.streamId payload = out' at hwrite ⊢
          obtain ⟨result, fileRegistry⟩ := out
          obtain ⟨result', fileRegistry'⟩ := out'
          cases result with
          | error error =>
              obtain ⟨rfl, hR'⟩ := hwrite hgood hR
              exact ⟨fileRegistry', rfl, hR'⟩
          | ok done =>
              dsimp only at hgood
              split at hgood
              · next hseal =>
                  -- what is good after the seal was good before it
                  have hgood' : Good fileRegistry := Classical.not_not.1 fun hbad =>
                    closeAndUpload_registry hsim.good _ _ hbad hgood
                  obtain ⟨rfl, hR'⟩ := hwrite hgood' hR
                  refine similar_ite (fun _ => ?_) fun hopen => absurd hseal hopen
                  exact closeAndUpload_similar hsim _ _ ⟨fileRegistry', rfl, hR'⟩ hgood
              · next hopen =>
                  obtain ⟨rfl, hR'⟩ := hwrite hgood hR
                  refine similar_ite (fun hseal => absurd hseal hopen) fun _ => ?_
                  exact ⟨fileRegistry', rfl, hR'⟩

omit [FileRegistry F] [FileRegistry F'] [KeyGenerator K] in
/-- A commit request does not ask the registry. -/
theorem makeTopicPartitionList_similar (sm : StateMachine F K) (ambient : Ambient)
    (currentAssignment : TopicPartitionList) (reg : F') :
    makeTopicPartitionList ambient currentAssignment (sm.withRegistry reg) =
      ((makeTopicPartitionList ambient currentAssignment sm).1,
        (makeTopicPartitionList ambient currentAssignment sm).2.withRegistry reg) ∧
      (makeTopicPartitionList ambient currentAssignment sm).2.fileRegistry = sm.fileRegistry := by
  unfold makeTopicPartitionList
  dsimp only [withRegistry]
  generalize scanPartitions ambient currentAssignment sm.offsetsUploaded.toList
    ⟨TopicPartitionList.new, [], sm.offsetsUploaded, sm.offsetsWatermark⟩ = out
  obtain ⟨error?, scan⟩ := out
  cases error? <;> exact ⟨rfl, rfl⟩

theorem dispatch_similar (hsim : RegistrySimulation Good R) (ambient : Ambient)
    (request : Request) (h : Similar R sm sm')
    (hgood : Good (dispatch ambient request sm).fileRegistry) :
    Similar R (dispatch ambient request sm) (dispatch ambient request sm') := by
  cases request with
  | processRecord record =>
      obtain ⟨reg, rfl, hR⟩ := h
      dsimp only [dispatch, handleProcessRecord, withRegistry] at hgood ⊢
      generalize sm.cache.getOrCreateRecordMetadata record = found at hgood ⊢
      obtain ⟨metadata?, cache⟩ := found
      cases metadata? with
      | none => exact ⟨reg, rfl, hR⟩
      | some metadata =>
          exact handleDecodedRecord_similar hsim record metadata _ ⟨reg, rfl, hR⟩ hgood
  | uploadTick =>
      obtain ⟨reg, rfl, hR⟩ := h
      exact closeAndUploadAll_similar hsim _ ⟨reg, rfl, hR⟩ hgood
  | commitTick currentAssignment =>
      obtain ⟨reg, rfl, hR⟩ := h
      obtain ⟨heq, hreg⟩ := makeTopicPartitionList_similar sm ambient currentAssignment reg
      dsimp only [dispatch, handleCommitTick]
      rw [heq]
      generalize makeTopicPartitionList ambient currentAssignment sm = out at hreg
      obtain ⟨result, sm₁⟩ := out
      cases result <;> exact ⟨reg, rfl, hreg ▸ hR⟩
  | finalCommit currentAssignment =>
      obtain ⟨reg, rfl, hR⟩ := h
      obtain ⟨heq, hreg⟩ := makeTopicPartitionList_similar sm ambient currentAssignment reg
      dsimp only [dispatch, handleFinalCommit]
      rw [heq]
      generalize makeTopicPartitionList ambient currentAssignment sm = out at hreg
      obtain ⟨result, sm₁⟩ := out
      cases result <;> exact ⟨reg, rfl, hreg ▸ hR⟩
  | uploadCompletion uploadResult =>
      obtain ⟨reg, rfl, hR⟩ := h
      cases uploadResult with
      | success path offsets => exact ⟨reg, rfl, hR⟩
      | failure toUpload error =>
          dsimp only [dispatch, handleUploadCompletion]
          split <;> exact ⟨reg, rfl, hR⟩
  | revokePartitions partitions =>
      obtain ⟨reg, rfl, hR⟩ := h
      generalize hextract : sm.streams.extractIf (fun _ streamState =>
        streamState.offsetsConsumed.keys.all fun topicId =>
          topicId ∈ revokedTopicIds partitions) = extracted
      obtain ⟨dropped, streams⟩ := extracted
      have hrest : Similar R { sm with streams } { sm.withRegistry reg with streams } :=
        ⟨reg, rfl, hR⟩
      dsimp only [dispatch, handleRevokePartitions] at hgood
      rw [hextract] at hgood
      obtain ⟨reg', heq, hR'⟩ := revokeAll_similar hsim dropped hrest hgood
      refine ⟨reg', ?_, ?_⟩
      · dsimp only [dispatch, handleRevokePartitions, withRegistry] at heq ⊢
        rw [hextract]
        dsimp only
        rw [heq]
      · dsimp only [dispatch, handleRevokePartitions]
        rw [hextract]
        exact hR'
  | shutdownSignal =>
      obtain ⟨reg, rfl, hR⟩ := h
      have hempty : Similar R { sm with streams := ∅ } { sm.withRegistry reg with streams := ∅ } :=
        ⟨reg, rfl, hR⟩
      obtain ⟨reg', heq, hR'⟩ := closeAndUploadAll_similar hsim sm.streams.toList hempty hgood
      refine ⟨reg', ?_, hR'⟩
      dsimp only [dispatch, handleShutdownSignal, withRegistry] at heq ⊢
      rw [heq]
      rfl

/-- Both state machines answer alike. -/
theorem handleInner_similar (hsim : RegistrySimulation Good R) (ambient : Ambient)
    (request : Request) (h : Similar R sm sm')
    (hgood : Good (handleInner ambient request sm).2.fileRegistry) :
    (handleInner ambient request sm').1 = (handleInner ambient request sm).1 ∧
      Similar R (handleInner ambient request sm).2 (handleInner ambient request sm').2 := by
  obtain ⟨reg, rfl, hR⟩ := h
  have hclear : Similar R { sm with responses := [] }
      { sm.withRegistry reg with responses := [] } := ⟨reg, rfl, hR⟩
  obtain ⟨reg', heq, hR'⟩ := dispatch_similar hsim ambient request hclear hgood
  unfold handleInner
  dsimp only
  rw [heq]
  exact ⟨rfl, reg', rfl, hR'⟩

end Handlers

/-! ## Runs -/

/-- The same request was answered the same way. -/
structure Alike (e : Step F K) (e' : Step F' K) : Prop where
  request : e'.request = e.request
  ambient : e'.ambient = e.ambient
  responses : e'.responses = e.responses

section Runs

variable [FileRegistry F] [FileRegistry F'] [KeyGenerator K] {Good : F → Prop} {R : F → F' → Prop}

theorem Steps.similar (hsim : RegistrySimulation Good R) {sm₀ sm : StateMachine F K}
    {sm₀' : StateMachine F' K} {e : Step F K} (hstep : Steps sm₀ e sm) (h : Similar R sm₀ sm₀')
    (hgood : Good sm.fileRegistry) :
    ∃ e' sm', Steps sm₀' e' sm' ∧ Similar R sm sm' ∧ Alike e e' := by
  obtain ⟨reg, rfl, hR⟩ := h
  have hhandled := hstep.handled
  have hpost := hstep.post
  have hpre : Similar R e.pre (e.pre.withRegistry reg) :=
    ⟨reg, rfl, hstep.reordered.fileRegistry ▸ hR⟩
  have hgood' : Good (handleInner e.ambient e.request e.pre).2.fileRegistry := by
    rw [hhandled, ← hpost]
    exact hgood
  obtain ⟨hanswer, hsimilar⟩ := handleInner_similar hsim e.ambient e.request hpre hgood'
  rw [hhandled] at hanswer hsimilar
  have hreordered : Reordered (sm₀.withRegistry reg) (e.pre.withRegistry reg) := by
    refine ⟨hstep.reordered.streams, hstep.reordered.offsetsUploaded, ?_⟩
    rw [hstep.reordered.frame]
    rfl
  refine ⟨stepOn (e.pre.withRegistry reg) (e.ambient, e.request), _, ⟨hreordered, rfl, rfl⟩, ?_,
    ⟨rfl, rfl, hanswer⟩⟩
  rw [hpost]
  exact hsimilar

/-- Every run over a registry is a run over one that answers like it. -/
theorem backend_of_run (hsim : RegistrySimulation Good R) {start sm : StateMachine F K}
    {start' : StateMachine F' K} {h : List (Step F K)} (hstart : Similar R start start')
    (hrun : Run (system start) h sm) (hgood : Good sm.fileRegistry) :
    ∃ h' sm', Run (system start') h' sm' ∧ Similar R sm sm' ∧ List.Forall₂ Alike h h' := by
  refine Run.lockstep (P := fun sm => Good sm.fileRegistry) ?_ ?_ ?_ hrun hgood
  · intro sm hinit
    exact ⟨start', rfl, hinit ▸ hstart⟩
  · intro sm e sm' hstep hgood
    exact Classical.not_not.1 fun hbad => Steps.registry hsim.good hstep hbad hgood
  · intro sm e sm' sm₂ hstep hgood hsimilar
    exact Steps.similar hsim hstep hsimilar hgood

end Runs

/-- What was sealed is the same. -/
theorem sealedFiles_alike {h : List (Step F K)} {h' : List (Step F' K)}
    (halike : List.Forall₂ Alike h h') : sealedFiles h' = sealedFiles h := by
  induction halike with
  | nil => rfl
  | cons he _ ih => rw [sealedFiles_cons, sealedFiles_cons, ih, he.request, he.responses]

theorem requests_alike {h : List (Step F K)} {h' : List (Step F' K)}
    (halike : List.Forall₂ Alike h h') : requests h' = requests h := by
  induction halike with
  | nil => rfl
  | cons he _ ih => exact congrArg₂ List.cons he.request ih

theorem fatalFree_alike {h : List (Step F K)} {h' : List (Step F' K)}
    (halike : List.Forall₂ Alike h h') (hfree : FatalFree h) : FatalFree h' := by
  induction halike with
  | nil => exact fun e hmem => absurd hmem List.not_mem_nil
  | cons he _ ih =>
      intro e hmem
      rcases List.mem_cons.1 hmem with rfl | hmem
      · rw [he.responses]
        exact hfree.head
      · exact ih hfree.tail e hmem

/-! ## What a run says about its registry -/

section Registry

variable [FileRegistry F] [KeyGenerator K] {start sm : StateMachine F K} {h : List (Step F K)}

/-- A fact about a file that `close` establishes and every operation keeps. -/
structure CloseFact (P : PathBuf → Nat → F → Prop) : Prop where
  keeps : ∀ path size, RegistryInvariant (P path size)
  close : ∀ {reg reg' id path size}, FileRegistry.close reg id = (.ok (path, size), reg') →
    P path size reg'

variable {P : PathBuf → Nat → F → Prop}

/-- What is answered so far was closed. -/
def Answered (P : PathBuf → Nat → F → Prop) (sm : StateMachine F K) : Prop :=
  ∀ u ∈ uploadsOf sm.responses, P u.path u.file.compressedSizeB sm.fileRegistry

theorem closeAndUpload_answered (hP : CloseFact P) (streamId : StreamId)
    (streamState : StreamState) {sm : StateMachine F K} (hsm : Answered P sm) :
    Answered P (closeAndUpload streamId streamState sm) := by
  have hkept : ∀ u ∈ uploadsOf sm.responses, P u.path u.file.compressedSizeB
      (closeAndUpload streamId streamState sm).fileRegistry := fun u hmem =>
    closeAndUpload_registry (hP.keeps u.path u.file.compressedSizeB) streamId streamState
      (hsm u hmem)
  unfold closeAndUpload at hkept ⊢
  split
  · next sinkError fileRegistry hclose =>
      rw [hclose] at hkept
      intro u hmem
      dsimp only [push] at hmem
      rw [uploadsOf_append] at hmem
      rcases List.mem_append.1 hmem with hmem | hmem
      · exact hkept u hmem
      · cases hmem
  · next path compressedSizeB fileRegistry hclose =>
      rw [hclose] at hkept
      intro u hmem
      dsimp only [push] at hmem
      rw [uploadsOf_append] at hmem
      rcases List.mem_append.1 hmem with hmem | hmem
      · exact hkept u hmem
      · obtain rfl := List.mem_singleton.1 hmem
        exact hP.close hclose

theorem closeAndUploadAll_answered (hP : CloseFact P) (streams : List (StreamId × StreamState)) :
    ∀ {sm : StateMachine F K}, Answered P sm → Answered P (closeAndUploadAll streams sm) := by
  induction streams with
  | nil => exact fun hsm => hsm
  | cons e streams ih => exact fun hsm => ih (closeAndUpload_answered hP e.1 e.2 hsm)

theorem Handled.answered (hP : CloseFact P) {ambient : Ambient} {sm sm' : StateMachine F K}
    {request : Request} {responses : List Response}
    (h : Handled ambient sm request responses sm') :
    ∀ file ∈ sealedBy request responses, P file.path file.compressedSizeB sm'.fileRegistry := by
  intro file hmem
  cases h with
  | «sealed» _ _ _ hwrite _ _ hclose =>
      subst hclose
      obtain ⟨u, hu, rfl⟩ := List.mem_map.1 hmem
      exact closeAndUpload_answered hP _ _ (fun u hu => by cases hu) u hu
  | uploadTick _ hclose =>
      subst hclose
      obtain ⟨u, hu, rfl⟩ := List.mem_map.1 hmem
      exact closeAndUploadAll_answered hP _ (fun u hu => by cases hu) u hu
  | shutdown hclose =>
      subst hclose
      obtain ⟨u, hu, rfl⟩ := List.mem_map.1 hmem
      rw [uploadsOf_append, uploadsOf_drainAndShutdown, List.append_nil] at hu
      exact closeAndUploadAll_answered hP _ (fun u hu => by cases hu) u hu
  | revoked _ hrevoke =>
      obtain ⟨fileRegistry, paths, heq⟩ := revokedAll_spec hrevoke
      obtain ⟨u, hu, rfl⟩ := List.mem_map.1 hmem
      rw [heq] at hu
      simp at hu
  | commitFailed hrequest => rcases hrequest with rfl | rfl <;> simp [sealedBy, uploadsOf] at hmem
  | _ => simp [sealedBy, uploadsOf] at hmem

/-- In every run, what is known of a closed file is known of every file sealed. -/
theorem closed_of_run (hP : CloseFact P) (hrun : Run (system start) h sm) :
    ∀ file ∈ sealedFiles h, P file.path file.compressedSizeB sm.fileRegistry := by
  induction hrun with
  | start _ => exact fun file hmem => absurd hmem List.not_mem_nil
  | step _ hstep ih =>
      intro file hmem
      rw [sealedFiles_cons] at hmem
      rcases List.mem_append.1 hmem with hnew | hold
      · rw [Steps.post hstep]
        exact (Steps.cases hstep).answered hP file hnew
      · exact Steps.registry (hP.keeps _ _) hstep (ih file hold)

/-- A property of the registry that its operations preserve as long as no write fails. -/
structure WriteInvariant (P : F → Prop) : Prop where
  close : ∀ reg id, P reg → P (FileRegistry.close reg id).2
  writeAll : ∀ {reg reg' id bytes}, FileRegistry.writeAll reg id bytes = (.ok (), reg') →
    P reg → P reg'
  revoke : ∀ reg id, P reg → P (FileRegistry.revoke reg id).2

theorem Handled.registry_written {P : F → Prop} (hP : WriteInvariant P) {ambient : Ambient}
    {sm sm' : StateMachine F K} {request : Request} {responses : List Response}
    (h : Handled ambient sm request responses sm') (hfree : NoFatal responses)
    (hsm : P sm.fileRegistry) : P sm'.fileRegistry := by
  cases h with
  | writeFailed => exact absurd List.mem_cons_self (hfree _)
  | written _ _ _ hwrite _ => exact hP.writeAll hwrite hsm
  | «sealed» _ _ _ hwrite _ _ hclose =>
      subst hclose
      exact closeAndUpload_keeps hP.close _ _ (hP.writeAll hwrite hsm)
  | uploadTick _ hclose =>
      subst hclose
      exact closeAndUploadAll_keeps hP.close _ hsm
  | shutdown hclose =>
      subst hclose
      exact closeAndUploadAll_keeps hP.close _ hsm
  | revoked _ hrevoke =>
      subst hrevoke
      exact revokeAll_keeps hP.revoke _ hsm
  | committedAsync hcommitted => rw [hcommitted.frame]; exact hsm
  | committedSync hcommitted => rw [hcommitted.frame]; exact hsm
  | _ => exact hsm

/-- In a run without `Fatal` no write fails. -/
theorem written_of_fatalFree {P : F → Prop} (hP : WriteInvariant P)
    (hrun : Run (system start) h sm) (hfree : FatalFree h) (hstart : P start.fileRegistry) :
    P sm.fileRegistry := by
  induction hrun with
  | start hinit => exact hinit ▸ hstart
  | step _ hstep ih =>
      rw [Steps.post hstep]
      refine (Steps.cases hstep).registry_written hP hfree.head ?_
      rw [(Steps.reordered hstep).fileRegistry]
      exact ih hfree.tail

end Registry

end StateMachine

end S3Sink
