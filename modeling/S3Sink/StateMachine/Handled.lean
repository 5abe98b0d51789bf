import S3Sink.StateMachine.Commit

/-!
# Handled — what one request can do

`Handled ambient sm request responses sm'` lists, case by case, every outcome of `handleInner`: the
responses and the state after, with the guard that selects the case.  `handleInner_cases` proves that
there is no other outcome; the invariants of the later modules are proved by cases on it and never
unfold a handler.

Sealing and revoking several streams stay folded (`closeAndUploadAll`, `revokeAll`);
`closeAndUploadAll_spec` and `revokeAll_spec` say what they change.
-/

namespace S3Sink

/-! ## Reading responses -/

/-- The uploads among the responses, in order. -/
def uploadsOf (responses : List Response) : List ToUpload :=
  responses.filterMap fun response =>
    match response with
    | .readyForUpload toUpload => some toUpload
    | _ => none

/-- The paths to delete among the responses, in order. -/
def deletesOf (responses : List Response) : List PathBuf :=
  responses.filterMap fun response =>
    match response with
    | .deleteFile path => some path
    | _ => none

/-- No response is `Fatal`. -/
def NoFatal (responses : List Response) : Prop :=
  ∀ error, Response.fatal error ∉ responses

theorem noFatal_iff {responses : List Response} :
    NoFatal responses ↔ responses.all (fun response => match response with
      | .fatal _ => false
      | _ => true) = true := by
  rw [List.all_eq_true]
  constructor
  · intro h response hmem
    cases response with
    | fatal error => exact absurd hmem (h error)
    | _ => rfl
  · intro h error hmem
    simpa using h _ hmem

instance (responses : List Response) : Decidable (NoFatal responses) :=
  decidable_of_iff _ noFatal_iff.symm

theorem mem_uploadsOf {responses : List Response} {u : ToUpload} :
    u ∈ uploadsOf responses ↔ .readyForUpload u ∈ responses := by
  unfold uploadsOf
  rw [List.mem_filterMap]
  constructor
  · rintro ⟨response, hmem, hsome⟩
    cases response <;> simp at hsome
    subst hsome
    exact hmem
  · intro hmem
    exact ⟨_, hmem, rfl⟩

theorem mem_deletesOf {responses : List Response} {path : PathBuf} :
    path ∈ deletesOf responses ↔ .deleteFile path ∈ responses := by
  unfold deletesOf
  rw [List.mem_filterMap]
  constructor
  · rintro ⟨response, hmem, hsome⟩
    cases response <;> simp at hsome
    subst hsome
    exact hmem
  · intro hmem
    exact ⟨_, hmem, rfl⟩

theorem uploadsOf_append (rs rs' : List Response) :
    uploadsOf (rs ++ rs') = uploadsOf rs ++ uploadsOf rs' :=
  List.filterMap_append

@[simp] theorem uploadsOf_drainAndShutdown : uploadsOf [.drainAndShutdown] = [] := rfl

@[simp] theorem uploadsOf_deletes (paths : List PathBuf) :
    uploadsOf (List.map Response.deleteFile paths) = [] := by
  simp [uploadsOf]

@[simp] theorem uploadsOf_ready (uploads : List ToUpload) :
    uploadsOf (List.map Response.readyForUpload uploads) = uploads := by
  simp [uploadsOf, List.filterMap_map]

@[simp] theorem deletesOf_deletes (paths : List PathBuf) :
    deletesOf (List.map Response.deleteFile paths) = paths := by
  simp [deletesOf, List.filterMap_map]

theorem deletesOf_append (rs rs' : List Response) :
    deletesOf (rs ++ rs') = deletesOf rs ++ deletesOf rs' :=
  List.filterMap_append

namespace StateMachine

variable {F K : Type} [FileRegistry F] [KeyGenerator K]

/-! ## Sealing -/

/-- What sealing a stream answers: the failure of `close`, or an upload that carries the stream's
own counters and offsets and the full number of retries. -/
inductive SealAnswer (config : StateMachineConfiguration) (streamState : StreamState) :
    Response → Prop
  | failed (error : SinkError) : SealAnswer config streamState (.fatal error)
  | ready (u : ToUpload) :
      u.file.rawSizeB = streamState.bytesConsumed →
      u.file.recordCount = streamState.recordsConsumed →
      u.file.offsetsConsumed = streamState.offsetsConsumed →
      u.file.createdAt = streamState.createdAt →
      u.retries = config.maxUploadsRetry →
      SealAnswer config streamState (.readyForUpload u)

theorem closeAndUpload_spec (streamId : StreamId) (streamState : StreamState)
    (sm : StateMachine F K) :
    ∃ fileRegistry keyGenerator response,
      closeAndUpload streamId streamState sm = { sm with
        fileRegistry := fileRegistry
        keyGenerator := keyGenerator
        inFlightUploads := sm.inFlightUploads + (uploadsOf [response]).length
        responses := sm.responses ++ [response] } ∧
      SealAnswer sm.config streamState response := by
  unfold closeAndUpload
  split
  · next sinkError fileRegistry hclose =>
      exact ⟨fileRegistry, sm.keyGenerator, .fatal sinkError, by simp [push, uploadsOf],
        .failed sinkError⟩
  · next path compressedSizeB fileRegistry hclose =>
      exact ⟨fileRegistry, (KeyGenerator.key sm.keyGenerator streamId).2,
        .readyForUpload ⟨(KeyGenerator.key sm.keyGenerator streamId).1,
          ⟨path, streamState.bytesConsumed, compressedSizeB, streamState.recordsConsumed,
            streamState.offsetsConsumed, streamState.createdAt⟩, sm.config.maxUploadsRetry⟩,
        by simp [push, uploadsOf], .ready _ rfl rfl rfl rfl rfl⟩

/-- Sealing several streams answers one response per stream, in order. -/
theorem closeAndUploadAll_spec (streams : List (StreamId × StreamState)) (sm : StateMachine F K) :
    ∃ fileRegistry keyGenerator responses,
      closeAndUploadAll streams sm = { sm with
        fileRegistry := fileRegistry
        keyGenerator := keyGenerator
        inFlightUploads := sm.inFlightUploads + (uploadsOf responses).length
        responses := sm.responses ++ responses } ∧
      List.Forall₂ (fun e response => SealAnswer sm.config e.2 response) streams responses := by
  induction streams generalizing sm with
  | nil => exact ⟨sm.fileRegistry, sm.keyGenerator, [], by simp [closeAndUploadAll, uploadsOf], .nil⟩
  | cons e streams ih =>
      obtain ⟨fileRegistry₁, keyGenerator₁, response, heq₁, hanswer⟩ :=
        closeAndUpload_spec e.1 e.2 sm
      obtain ⟨fileRegistry₂, keyGenerator₂, responses, heq₂, hanswers⟩ :=
        ih (closeAndUpload e.1 e.2 sm)
      refine ⟨fileRegistry₂, keyGenerator₂, response :: responses, ?_, ?_⟩
      -- the slots taken by the first stream and by the others add up
      · have hcons : uploadsOf (response :: responses) =
            uploadsOf [response] ++ uploadsOf responses :=
          uploadsOf_append [response] responses
        rw [show closeAndUploadAll (e :: streams) sm =
          closeAndUploadAll streams (closeAndUpload e.1 e.2 sm) from rfl, heq₂, heq₁, hcons]
        simp [Nat.add_assoc]
      · refine List.Forall₂.cons hanswer ?_
        rw [heq₁] at hanswers
        exact hanswers

omit [KeyGenerator K] in
theorem revokeStream_spec (streamId : StreamId) (sm : StateMachine F K) :
    ∃ fileRegistry paths, revokeStream streamId sm = { sm with
      fileRegistry := fileRegistry
      responses := sm.responses ++ List.map Response.deleteFile paths } := by
  unfold revokeStream
  split
  · next pathBuf fileRegistry _ => exact ⟨fileRegistry, [pathBuf], by simp [push]⟩
  · next fileRegistry _ => exact ⟨fileRegistry, [], by simp⟩

omit [KeyGenerator K] in
/-- Revoking streams answers only `DeleteFile` responses. -/
theorem revokeAll_spec (streams : List (StreamId × StreamState)) (sm : StateMachine F K) :
    ∃ fileRegistry paths, revokeAll streams sm = { sm with
      fileRegistry := fileRegistry
      responses := sm.responses ++ List.map Response.deleteFile paths } := by
  induction streams generalizing sm with
  | nil => exact ⟨sm.fileRegistry, [], by simp [revokeAll]⟩
  | cons e streams ih =>
      obtain ⟨fileRegistry₁, paths₁, heq₁⟩ := revokeStream_spec e.1 sm
      obtain ⟨fileRegistry₂, paths₂, heq₂⟩ := ih (revokeStream e.1 sm)
      refine ⟨fileRegistry₂, paths₁ ++ paths₂, ?_⟩
      rw [show revokeAll (e :: streams) sm = revokeAll streams (revokeStream e.1 sm) from rfl,
        heq₂, heq₁]
      simp

/-! ## The outcomes of a request -/

/-- The state of the record's stream once the record is counted. -/
def countedState (sm : StateMachine F K) (record : Message) (metadata : RecordMetadata)
    (now : Instant) : StreamState :=
  ((sm.streams.get? metadata.streamId).getD (StreamState.new now)).consume
    record.topicId record.offset

/-- The state of the record's stream once its line is counted too. -/
def writtenState (sm : StateMachine F K) (record : Message) (metadata : RecordMetadata)
    (now : Instant) (line : Bytes) : StreamState :=
  let state := sm.countedState record metadata now
  { state with bytesConsumed := state.bytesConsumed + line.length }

/-- Every outcome of a request. -/
inductive Handled (ambient : Ambient) (sm : StateMachine F K) :
    Request → List Response → StateMachine F K → Prop
  -- `ProcessRecord`: the topic is not configured
  | unconfigured {record : Message} {cache : Cache}
      (hmetadata : Cache.metadata sm.cache.configs record = none)
      (hconfigs : cache.configs = sm.cache.configs) :
      Handled ambient sm (.processRecord record) [.fatal (missingTopicConfiguration record)]
        { sm with cache := cache, responses := [] }
  -- the record is counted before it is serialized, so a failure leaves it counted
  | undecodable {record : Message} {metadata : RecordMetadata} {cache : Cache}
      {serializer : JsonSerializer} {error : SinkError}
      (hmetadata : Cache.metadata sm.cache.configs record = some metadata)
      (hconfigs : cache.configs = sm.cache.configs)
      (hline : JsonSerializer.serializeRecord metadata.config.decoder record = .error error) :
      Handled ambient sm (.processRecord record) [.fatal error]
        { sm with
          cache := cache
          serializer := serializer
          streams := sm.streams.insert metadata.streamId
            (sm.countedState record metadata ambient.now)
          offsetsWatermark := sm.offsetsWatermark.orInsert record.topicId record.offset.val
          responses := [] }
  -- absent payload or empty body: counted, nothing written, nothing answered
  | skipped {record : Message} {metadata : RecordMetadata} {cache : Cache}
      {serializer : JsonSerializer}
      (hmetadata : Cache.metadata sm.cache.configs record = some metadata)
      (hconfigs : cache.configs = sm.cache.configs)
      (hline : JsonSerializer.serializeRecord metadata.config.decoder record = .ok none) :
      Handled ambient sm (.processRecord record) []
        { sm with
          cache := cache
          serializer := serializer
          streams := sm.streams.insert metadata.streamId
            (sm.countedState record metadata ambient.now)
          offsetsWatermark := sm.offsetsWatermark.orInsert record.topicId record.offset.val
          responses := [] }
  -- the line is counted before it is written
  | writeFailed {record : Message} {metadata : RecordMetadata} {cache : Cache}
      {serializer : JsonSerializer} {line : Bytes} {error : SinkError} {fileRegistry : F}
      (hmetadata : Cache.metadata sm.cache.configs record = some metadata)
      (hconfigs : cache.configs = sm.cache.configs)
      (hline : JsonSerializer.serializeRecord metadata.config.decoder record = .ok (some line))
      (hwrite : FileRegistry.writeAll sm.fileRegistry metadata.streamId line =
        (.error error, fileRegistry)) :
      Handled ambient sm (.processRecord record) [.fatal error]
        { sm with
          cache := cache
          serializer := serializer
          fileRegistry := fileRegistry
          streams := sm.streams.insert metadata.streamId
            (sm.writtenState record metadata ambient.now line)
          offsetsWatermark := sm.offsetsWatermark.orInsert record.topicId record.offset.val
          responses := [] }
  | written {record : Message} {metadata : RecordMetadata} {cache : Cache}
      {serializer : JsonSerializer} {line : Bytes} {fileRegistry : F}
      (hmetadata : Cache.metadata sm.cache.configs record = some metadata)
      (hconfigs : cache.configs = sm.cache.configs)
      (hline : JsonSerializer.serializeRecord metadata.config.decoder record = .ok (some line))
      (hwrite : FileRegistry.writeAll sm.fileRegistry metadata.streamId line =
        (.ok (), fileRegistry))
      (hopen : ¬ (sm.config.targetFileSizeB ≤
          (sm.writtenState record metadata ambient.now line).bytesConsumed ∧
        sm.inFlightUploads < sm.config.maxConcurrentUploads)) :
      Handled ambient sm (.processRecord record) [.recordConsumed]
        { sm with
          cache := cache
          serializer := serializer
          fileRegistry := fileRegistry
          streams := sm.streams.insert metadata.streamId
            (sm.writtenState record metadata ambient.now line)
          offsetsWatermark := sm.offsetsWatermark.orInsert record.topicId record.offset.val
          responses := [] }
  -- the file is large enough and a slot is free
  | sealed {record : Message} {metadata : RecordMetadata} {cache : Cache}
      {serializer : JsonSerializer} {line : Bytes} {fileRegistry : F} {sm' : StateMachine F K}
      (hmetadata : Cache.metadata sm.cache.configs record = some metadata)
      (hconfigs : cache.configs = sm.cache.configs)
      (hline : JsonSerializer.serializeRecord metadata.config.decoder record = .ok (some line))
      (hwrite : FileRegistry.writeAll sm.fileRegistry metadata.streamId line =
        (.ok (), fileRegistry))
      (hsize : sm.config.targetFileSizeB ≤
        (sm.writtenState record metadata ambient.now line).bytesConsumed)
      (hroom : sm.inFlightUploads < sm.config.maxConcurrentUploads)
      (hclose : closeAndUpload metadata.streamId
          (sm.writtenState record metadata ambient.now line)
          { sm with
            cache := cache
            serializer := serializer
            fileRegistry := fileRegistry
            streams := sm.streams.erase metadata.streamId
            offsetsWatermark := sm.offsetsWatermark.orInsert record.topicId record.offset.val
            responses := [.recordConsumed] } = sm') :
      Handled ambient sm (.processRecord record) sm'.responses { sm' with responses := [] }
  | uploadTick {expired : List (StreamId × StreamState)} {streams : HashMap StreamId StreamState}
      {sm' : StateMachine F K}
      (hextract : sm.streams.extractIfTake (fun _ state => state.createdAt ≤
          ambient.now - fromMillis sm.config.maxActiveFileTimeoutMs)
        (sm.config.maxConcurrentUploads - sm.inFlightUploads) = (expired, streams))
      (hclose : closeAndUploadAll expired { sm with streams := streams, responses := [] } = sm') :
      Handled ambient sm .uploadTick sm'.responses { sm' with responses := [] }
  -- `UploadCompletion`: the slot is kept for the retry
  | retried {toUpload : ToUpload} {error : SinkError} (hretries : 0 < toUpload.retries) :
      Handled ambient sm (.uploadCompletion (.failure toUpload error))
        [.readyForUpload toUpload.decrement] { sm with responses := [] }
  | exhausted {toUpload : ToUpload} {error : SinkError} (hretries : toUpload.retries = 0) :
      Handled ambient sm (.uploadCompletion (.failure toUpload error))
        [.fatal (.s3Upload "maximum number of retries reached for S3 upload")]
        { sm with inFlightUploads := u64Pred sm.inFlightUploads, responses := [] }
  | uploaded {path : PathBuf} {offsets : HashMap TopicId (List Offset)} :
      Handled ambient sm (.uploadCompletion (.success path offsets)) [.deleteFile path]
        { sm with
          offsetsUploaded := offsets.toList.foldl extendUploaded sm.offsetsUploaded
          inFlightUploads := u64Pred sm.inFlightUploads
          responses := [] }
  | committedAsync {currentAssignment tpl : TopicPartitionList} {sm' : StateMachine F K}
      (hcommitted : Committed currentAssignment tpl { sm with responses := [] } sm') :
      Handled ambient sm (.commitTick currentAssignment) [.commitAsync tpl] sm'
  | committedSync {currentAssignment tpl : TopicPartitionList} {sm' : StateMachine F K}
      (hcommitted : Committed currentAssignment tpl { sm with responses := [] } sm') :
      Handled ambient sm (.finalCommit currentAssignment) [.commitSync tpl] sm'
  -- rdkafka refused an offset; the maps are left as the loop had changed them by then
  | commitFailed {request : Request} {currentAssignment : TopicPartitionList} {error : SinkError}
      {offsetsUploaded : HashMap TopicId (BTreeSet Offset)} {offsetsWatermark : HashMap TopicId Int}
      (hrequest : request = .commitTick currentAssignment ∨
        request = .finalCommit currentAssignment) :
      Handled ambient sm request [.fatal error]
        { sm with
          offsetsUploaded := offsetsUploaded
          offsetsWatermark := offsetsWatermark
          responses := [] }
  -- `RevokePartitions`: streams with revoked partitions only are dropped
  | revoked {partitions : List (String × Int)} {dropped : List (StreamId × StreamState)}
      {streams : HashMap StreamId StreamState} {sm' : StateMachine F K}
      (hextract : sm.streams.extractIf (fun _ streamState =>
        streamState.offsetsConsumed.keys.all fun topicId =>
          topicId ∈ revokedTopicIds partitions) = (dropped, streams))
      (hrevoke : revokeAll dropped { sm with streams := streams, responses := [] } = sm') :
      Handled ambient sm (.revokePartitions partitions) sm'.responses
        { sm' with
          offsetsWatermark := (revokedTopicIds partitions).foldl
            (fun acc topicId => acc.erase topicId) sm'.offsetsWatermark
          offsetsUploaded := (revokedTopicIds partitions).foldl
            (fun acc topicId => acc.erase topicId) sm'.offsetsUploaded
          responses := [] }
  | shutdown {sm' : StateMachine F K}
      (hclose : closeAndUploadAll sm.streams.toList
        { sm with streams := ∅, responses := [] } = sm') :
      Handled ambient sm .shutdownSignal (sm'.responses ++ [.drainAndShutdown])
        { sm' with responses := [] }

theorem handleProcessRecord_cases (ambient : Ambient) (record : Message) (sm : StateMachine F K) :
    Handled ambient sm (.processRecord record)
      (handleInner ambient (.processRecord record) sm).1
      (handleInner ambient (.processRecord record) sm).2 := by
  have hfst := Cache.getOrCreateRecordMetadata_fst sm.cache record
  have hconfigs := Cache.getOrCreateRecordMetadata_configs sm.cache record
  simp only [handleInner, dispatch, handleProcessRecord]
  generalize hlookup : sm.cache.getOrCreateRecordMetadata record = found at hfst hconfigs
  obtain ⟨metadata?, cache⟩ := found
  cases metadata? with
  | none => exact Handled.unconfigured hfst.symm hconfigs
  | some metadata =>
      -- the code names the partition by the metadata, the model by the record
      have htopic : (⟨metadata.topicName, record.partition⟩ : TopicId) = record.topicId := by
        rw [Cache.metadata_topicName hfst.symm]
        rfl
      have hresult := JsonSerializer.serialize_result sm.serializer record metadata.config.decoder
      simp only [handleDecodedRecord, htopic]
      generalize hserialize : sm.serializer.serialize record metadata.config.decoder = answer
        at hresult
      obtain ⟨line?, serializer⟩ := answer
      cases line? with
      | error error => exact Handled.undecodable hfst.symm hconfigs hresult.symm
      | ok payload =>
          cases payload with
          | none => exact Handled.skipped hfst.symm hconfigs hresult.symm
          | some line =>
              dsimp only
              generalize hwrite : FileRegistry.writeAll sm.fileRegistry metadata.streamId line = out
              obtain ⟨outcome, fileRegistry⟩ := out
              cases outcome with
              | error error =>
                  -- the state of the stream is stored twice, counted and then written
                  simp only [AList.insert_insert]
                  exact Handled.writeFailed hfst.symm hconfigs hresult.symm hwrite
              | ok done =>
                  cases done
                  dsimp only [push]
                  by_cases hseal : sm.config.targetFileSizeB ≤
                      (sm.writtenState record metadata ambient.now line).bytesConsumed ∧
                    sm.inFlightUploads < sm.config.maxConcurrentUploads
                  · have hcond := hseal
                    simp only [writtenState, countedState] at hcond
                    simp only [if_pos hcond, AList.insert_insert, HashMap.erase_insert,
                      List.nil_append]
                    exact Handled.sealed hfst.symm hconfigs hresult.symm hwrite hseal.1 hseal.2 rfl
                  · have hcond := hseal
                    simp only [writtenState, countedState] at hcond
                    simp only [if_neg hcond, AList.insert_insert, List.nil_append]
                    exact Handled.written hfst.symm hconfigs hresult.symm hwrite hseal

theorem handleUploadCompletion_cases (ambient : Ambient) (uploadResult : UploadResult)
    (sm : StateMachine F K) :
    Handled ambient sm (.uploadCompletion uploadResult)
      (handleInner ambient (.uploadCompletion uploadResult) sm).1
      (handleInner ambient (.uploadCompletion uploadResult) sm).2 := by
  cases uploadResult with
  | success path offsets => exact Handled.uploaded
  | failure toUpload error =>
      by_cases hretries : 0 < toUpload.retries
      · simp only [handleInner, dispatch, handleUploadCompletion, hretries, if_true]
        exact Handled.retried hretries
      · simp only [handleInner, dispatch, handleUploadCompletion, hretries, if_false]
        exact Handled.exhausted (Nat.eq_zero_of_not_pos hretries)

omit [FileRegistry F] [KeyGenerator K] in
/-- A commit request builds a list, or fails with the two maps as they were when it failed. -/
theorem makeTopicPartitionList_cases (ambient : Ambient) (currentAssignment : TopicPartitionList)
    (sm : StateMachine F K) :
    (∃ tpl sm', makeTopicPartitionList ambient currentAssignment { sm with responses := [] } =
        (.ok tpl, sm') ∧ Committed currentAssignment tpl { sm with responses := [] } sm') ∨
      ∃ error offsetsUploaded offsetsWatermark,
        makeTopicPartitionList ambient currentAssignment { sm with responses := [] } =
          (.error error, { sm with
            offsetsUploaded := offsetsUploaded
            offsetsWatermark := offsetsWatermark
            responses := [] }) := by
  generalize hanswer : makeTopicPartitionList ambient currentAssignment
    { sm with responses := [] } = answer
  obtain ⟨outcome, sm'⟩ := answer
  cases outcome with
  | ok tpl => exact Or.inl ⟨tpl, sm', rfl, makeTopicPartitionList_ok hanswer⟩
  | error error =>
      rw [makeTopicPartitionList_frame hanswer]
      exact Or.inr ⟨error, _, _, rfl⟩

theorem handleCommitTick_cases (ambient : Ambient) (currentAssignment : TopicPartitionList)
    (sm : StateMachine F K) :
    Handled ambient sm (.commitTick currentAssignment)
      (handleInner ambient (.commitTick currentAssignment) sm).1
      (handleInner ambient (.commitTick currentAssignment) sm).2 := by
  rcases makeTopicPartitionList_cases ambient currentAssignment sm with
    ⟨tpl, sm', hanswer, hcommitted⟩ | ⟨error, offsetsUploaded, offsetsWatermark, hanswer⟩
  · have hclear : sm'.responses = [] := by rw [hcommitted.frame]
    have hsame : { sm' with responses := [] } = sm' := by rw [hcommitted.frame]
    simp only [handleInner, dispatch, handleCommitTick, hanswer, push, hclear, hsame]
    exact Handled.committedAsync hcommitted
  · simp only [handleInner, dispatch, handleCommitTick, hanswer, push]
    exact Handled.commitFailed (Or.inl rfl)

theorem handleFinalCommit_cases (ambient : Ambient) (currentAssignment : TopicPartitionList)
    (sm : StateMachine F K) :
    Handled ambient sm (.finalCommit currentAssignment)
      (handleInner ambient (.finalCommit currentAssignment) sm).1
      (handleInner ambient (.finalCommit currentAssignment) sm).2 := by
  rcases makeTopicPartitionList_cases ambient currentAssignment sm with
    ⟨tpl, sm', hanswer, hcommitted⟩ | ⟨error, offsetsUploaded, offsetsWatermark, hanswer⟩
  · have hclear : sm'.responses = [] := by rw [hcommitted.frame]
    have hsame : { sm' with responses := [] } = sm' := by rw [hcommitted.frame]
    simp only [handleInner, dispatch, handleFinalCommit, hanswer, push, hclear, hsame]
    exact Handled.committedSync hcommitted
  · simp only [handleInner, dispatch, handleFinalCommit, hanswer, push]
    exact Handled.commitFailed (Or.inr rfl)

/-- Every request has one of the outcomes of `Handled`. -/
theorem handleInner_cases {ambient : Ambient} {request : Request} {sm sm' : StateMachine F K}
    {responses : List Response} (h : handleInner ambient request sm = (responses, sm')) :
    Handled ambient sm request responses sm' := by
  have hgoal : Handled ambient sm request (handleInner ambient request sm).1
      (handleInner ambient request sm).2 := by
    cases request with
    | processRecord record => exact handleProcessRecord_cases ambient record sm
    | uploadTick => exact Handled.uploadTick rfl rfl
    | commitTick currentAssignment => exact handleCommitTick_cases ambient currentAssignment sm
    | uploadCompletion uploadResult => exact handleUploadCompletion_cases ambient uploadResult sm
    | finalCommit currentAssignment => exact handleFinalCommit_cases ambient currentAssignment sm
    | revokePartitions partitions => exact Handled.revoked rfl rfl
    | shutdownSignal => exact Handled.shutdown rfl
  rw [h] at hgoal
  exact hgoal

/-! ## What holds of every outcome -/

omit [FileRegistry F] [KeyGenerator K] in
theorem sealAnswer_of_mem {config : StateMachineConfiguration}
    {streams : List (StreamId × StreamState)} {responses : List Response}
    (hanswers : List.Forall₂ (fun e response => SealAnswer config e.2 response) streams responses)
    {response : Response} (hmem : response ∈ responses) :
    ∃ e ∈ streams, SealAnswer config e.2 response := by
  induction hanswers with
  | nil => exact absurd hmem List.not_mem_nil
  | cons hanswer _ ih =>
      rcases List.mem_cons.1 hmem with rfl | hmem
      · exact ⟨_, List.mem_cons_self, hanswer⟩
      · obtain ⟨e, he, hanswer⟩ := ih hmem
        exact ⟨e, List.mem_cons_of_mem _ he, hanswer⟩

omit [FileRegistry F] [KeyGenerator K] in
/-- Sealing answers uploads and failures only. -/
theorem notMem_of_sealAnswers {config : StateMachineConfiguration}
    {streams : List (StreamId × StreamState)} {responses : List Response}
    (hanswers : List.Forall₂ (fun e response => SealAnswer config e.2 response) streams responses)
    {response : Response} (hnot : ∀ streamState, ¬ SealAnswer config streamState response) :
    response ∉ responses := by
  intro hmem
  obtain ⟨e, -, hanswer⟩ := sealAnswer_of_mem hanswers hmem
  exact hnot e.2 hanswer

theorem sealed_spec {streamId : StreamId} {streamState : StreamState} {sm sm' : StateMachine F K}
    (h : closeAndUpload streamId streamState sm = sm') :
    ∃ fileRegistry keyGenerator response,
      sm' = { sm with
        fileRegistry := fileRegistry
        keyGenerator := keyGenerator
        inFlightUploads := sm.inFlightUploads + (uploadsOf [response]).length
        responses := sm.responses ++ [response] } ∧
      SealAnswer sm.config streamState response :=
  h ▸ closeAndUpload_spec streamId streamState sm

theorem sealedAll_spec {streams : List (StreamId × StreamState)} {sm sm' : StateMachine F K}
    (h : closeAndUploadAll streams sm = sm') :
    ∃ fileRegistry keyGenerator responses,
      sm' = { sm with
        fileRegistry := fileRegistry
        keyGenerator := keyGenerator
        inFlightUploads := sm.inFlightUploads + (uploadsOf responses).length
        responses := sm.responses ++ responses } ∧
      List.Forall₂ (fun e response => SealAnswer sm.config e.2 response) streams responses :=
  h ▸ closeAndUploadAll_spec streams sm

omit [KeyGenerator K] in
theorem revokedAll_spec {streams : List (StreamId × StreamState)} {sm sm' : StateMachine F K}
    (h : revokeAll streams sm = sm') :
    ∃ fileRegistry paths, sm' = { sm with
      fileRegistry := fileRegistry
      responses := sm.responses ++ List.map Response.deleteFile paths } :=
  h ▸ revokeAll_spec streams sm

theorem closeAndUpload_streams (streamId : StreamId) (streamState : StreamState)
    (sm : StateMachine F K) : (closeAndUpload streamId streamState sm).streams = sm.streams := by
  obtain ⟨fileRegistry, keyGenerator, response, heq, -⟩ := closeAndUpload_spec streamId streamState sm
  rw [heq]

theorem closeAndUploadAll_streams (streams : List (StreamId × StreamState))
    (sm : StateMachine F K) : (closeAndUploadAll streams sm).streams = sm.streams := by
  obtain ⟨fileRegistry, keyGenerator, responses, heq, -⟩ := closeAndUploadAll_spec streams sm
  rw [heq]

omit [KeyGenerator K] in
theorem revokeAll_streams (streams : List (StreamId × StreamState)) (sm : StateMachine F K) :
    (revokeAll streams sm).streams = sm.streams := by
  obtain ⟨fileRegistry, paths, heq⟩ := revokeAll_spec streams sm
  rw [heq]

theorem Handled.config {ambient : Ambient} {sm sm' : StateMachine F K} {request : Request}
    {responses : List Response} (h : Handled ambient sm request responses sm') :
    sm'.config = sm.config := by
  cases h with
  | sealed _ _ _ _ _ _ hclose =>
      obtain ⟨fileRegistry, keyGenerator, response, heq, -⟩ := sealed_spec hclose
      rw [heq]
  | uploadTick _ hclose =>
      obtain ⟨fileRegistry, keyGenerator, responses, heq, -⟩ := sealedAll_spec hclose
      rw [heq]
  | shutdown hclose =>
      obtain ⟨fileRegistry, keyGenerator, responses, heq, -⟩ := sealedAll_spec hclose
      rw [heq]
  | revoked _ hrevoke =>
      obtain ⟨fileRegistry, paths, heq⟩ := revokedAll_spec hrevoke
      rw [heq]
  | committedAsync hcommitted => rw [hcommitted.frame]
  | committedSync hcommitted => rw [hcommitted.frame]
  | _ => rfl

theorem Handled.configs {ambient : Ambient} {sm sm' : StateMachine F K} {request : Request}
    {responses : List Response} (h : Handled ambient sm request responses sm') :
    sm'.cache.configs = sm.cache.configs := by
  cases h with
  | unconfigured _ hconfigs => exact hconfigs
  | undecodable _ hconfigs _ => exact hconfigs
  | skipped _ hconfigs _ => exact hconfigs
  | writeFailed _ hconfigs _ _ => exact hconfigs
  | written _ hconfigs _ _ _ => exact hconfigs
  | sealed _ hconfigs _ _ _ _ hclose =>
      obtain ⟨fileRegistry, keyGenerator, response, heq, -⟩ := sealed_spec hclose
      rw [heq]
      exact hconfigs
  | uploadTick _ hclose =>
      obtain ⟨fileRegistry, keyGenerator, responses, heq, -⟩ := sealedAll_spec hclose
      rw [heq]
  | shutdown hclose =>
      obtain ⟨fileRegistry, keyGenerator, responses, heq, -⟩ := sealedAll_spec hclose
      rw [heq]
  | revoked _ hrevoke =>
      obtain ⟨fileRegistry, paths, heq⟩ := revokedAll_spec hrevoke
      rw [heq]
  | committedAsync hcommitted => rw [hcommitted.frame]
  | committedSync hcommitted => rw [hcommitted.frame]
  | _ => rfl

theorem Handled.revoke_responses {ambient : Ambient} {sm sm' : StateMachine F K}
    {partitions : List (String × Int)} {responses : List Response}
    (h : Handled ambient sm (.revokePartitions partitions) responses sm') :
    ∃ paths, responses = List.map Response.deleteFile paths := by
  cases h with
  | revoked _ hrevoke =>
      obtain ⟨fileRegistry, paths, rfl⟩ := revokedAll_spec hrevoke
      exact ⟨paths, rfl⟩
  | commitFailed hrequest => rcases hrequest with h | h <;> cases h

/-- A failed upload that is not fatal is answered by its retry. -/
theorem Handled.failure_responses {ambient : Ambient} {sm sm' : StateMachine F K}
    {toUpload : ToUpload} {error : SinkError} {responses : List Response}
    (h : Handled ambient sm (.uploadCompletion (.failure toUpload error)) responses sm')
    (hfree : NoFatal responses) : responses = [.readyForUpload toUpload.decrement] := by
  cases h with
  | retried => rfl
  | exhausted => exact absurd List.mem_cons_self (hfree _)
  | commitFailed hrequest => rcases hrequest with h | h <;> cases h

/-- A successful upload is answered by the removal of its file. -/
theorem Handled.success_responses {ambient : Ambient} {sm sm' : StateMachine F K} {path : PathBuf}
    {offsets : HashMap TopicId (List Offset)} {responses : List Response}
    (h : Handled ambient sm (.uploadCompletion (.success path offsets)) responses sm') :
    responses = [.deleteFile path] := by
  cases h with
  | uploaded => rfl
  | commitFailed hrequest => rcases hrequest with h | h <;> cases h

/-- A list to commit is the only answer to a commit request, which leaves the registry alone. -/
theorem Handled.commit_responses {ambient : Ambient} {sm sm' : StateMachine F K}
    {request : Request} {responses : List Response}
    (h : Handled ambient sm request responses sm') :
    (∀ tpl, .commitAsync tpl ∉ responses ∧ .commitSync tpl ∉ responses) ∨
      ∃ currentAssignment tpl, sm'.fileRegistry = sm.fileRegistry ∧
        ((request = .commitTick currentAssignment ∧ responses = [.commitAsync tpl]) ∨
          (request = .finalCommit currentAssignment ∧ responses = [.commitSync tpl])) := by
  have hsealed : ∀ {config : StateMachineConfiguration} {streams : List (StreamId × StreamState)}
      {responses : List Response},
      List.Forall₂ (fun e response => SealAnswer config e.2 response) streams responses →
      ∀ tpl, Response.commitAsync tpl ∉ responses ∧ Response.commitSync tpl ∉ responses := by
    intro config streams responses hanswers tpl
    constructor
    · exact notMem_of_sealAnswers hanswers fun _ hanswer => by cases hanswer
    · exact notMem_of_sealAnswers hanswers fun _ hanswer => by cases hanswer
  cases h with
  | sealed _ _ _ _ _ _ hclose =>
      obtain ⟨fileRegistry, keyGenerator, response, heq, hanswer⟩ := sealed_spec hclose
      rw [heq]
      refine Or.inl fun tpl => ?_
      cases hanswer <;> simp
  | uploadTick _ hclose =>
      obtain ⟨fileRegistry, keyGenerator, responses, heq, hanswers⟩ := sealedAll_spec hclose
      rw [heq]
      exact Or.inl (by simpa using hsealed hanswers)
  | shutdown hclose =>
      obtain ⟨fileRegistry, keyGenerator, responses, heq, hanswers⟩ := sealedAll_spec hclose
      rw [heq]
      exact Or.inl (by simpa using hsealed hanswers)
  | revoked _ hrevoke =>
      obtain ⟨fileRegistry, paths, heq⟩ := revokedAll_spec hrevoke
      rw [heq]
      exact Or.inl (by simp)
  | committedAsync hcommitted =>
      exact Or.inr ⟨_, _, by rw [hcommitted.frame], Or.inl ⟨rfl, rfl⟩⟩
  | committedSync hcommitted =>
      exact Or.inr ⟨_, _, by rw [hcommitted.frame], Or.inr ⟨rfl, rfl⟩⟩
  | _ => exact Or.inl (by simp)

theorem Handled.final_responses {ambient : Ambient} {sm sm' : StateMachine F K}
    {currentAssignment : TopicPartitionList} {responses : List Response}
    (h : Handled ambient sm (.finalCommit currentAssignment) responses sm') :
    (∃ tpl, responses = [.commitSync tpl]) ∨ ∃ error, responses = [.fatal error] := by
  cases h with
  | @committedSync _ tpl => exact Or.inl ⟨tpl, rfl⟩
  | @commitFailed _ _ error => exact Or.inr ⟨error, rfl⟩

/-- `ShutdownSignal` answers `DrainAndShutdown` last, and nothing else answers it. -/
theorem Handled.drainAndShutdown {ambient : Ambient} {sm sm' : StateMachine F K}
    {request : Request} {responses : List Response}
    (h : Handled ambient sm request responses sm') :
    (request ≠ .shutdownSignal ∧ .drainAndShutdown ∉ responses) ∨
      (request = .shutdownSignal ∧
        ∃ answers, responses = answers ++ [.drainAndShutdown] ∧ .drainAndShutdown ∉ answers) := by
  have hnot : ∀ config streamState, ¬ SealAnswer config streamState .drainAndShutdown := by
    intro config streamState hanswer
    cases hanswer
  cases h with
  | sealed _ _ _ _ _ _ hclose =>
      obtain ⟨fileRegistry, keyGenerator, response, heq, hanswer⟩ := sealed_spec hclose
      rw [heq]
      refine Or.inl ⟨by simp, ?_⟩
      cases hanswer <;> simp
  | uploadTick _ hclose =>
      obtain ⟨fileRegistry, keyGenerator, responses, heq, hanswers⟩ := sealedAll_spec hclose
      rw [heq]
      exact Or.inl ⟨by simp, by simpa using notMem_of_sealAnswers hanswers (hnot _)⟩
  | shutdown hclose =>
      obtain ⟨fileRegistry, keyGenerator, responses, heq, hanswers⟩ := sealedAll_spec hclose
      rw [heq]
      exact Or.inr ⟨rfl, responses, by simp, notMem_of_sealAnswers hanswers (hnot _)⟩
  | revoked _ hrevoke =>
      obtain ⟨fileRegistry, paths, heq⟩ := revokedAll_spec hrevoke
      rw [heq]
      exact Or.inl ⟨by simp, by simp⟩
  | commitFailed hrequest => rcases hrequest with rfl | rfl <;> exact Or.inl ⟨by simp, by simp⟩
  | _ => exact Or.inl ⟨by simp, by simp⟩

theorem Handled.drainAndShutdown_last {ambient : Ambient} {sm sm' : StateMachine F K}
    {request : Request} {responses : List Response}
    (h : Handled ambient sm request responses sm') {before after : List Response}
    (hsplit : responses = before ++ .drainAndShutdown :: after) : after = [] := by
  rcases h.drainAndShutdown with ⟨-, hnot⟩ | ⟨-, answers, heq, hnot⟩
  · exact absurd (by simp [hsplit]) hnot
  · rw [heq] at hsplit
    -- compare the two ways the answers end
    rcases List.append_eq_append_iff.1 hsplit with ⟨l, hl, hr⟩ | ⟨l, hl, hr⟩
    · cases l with
      | nil => simpa using hr.symm
      | cons a l => simp at hr
    · cases l with
      | nil => simpa using hr
      | cons a l =>
          rw [List.cons_append, List.cons.injEq] at hr
          obtain ⟨rfl, -⟩ := hr
          exact absurd (by simp [hl]) hnot

end StateMachine

end S3Sink
