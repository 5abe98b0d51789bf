import S3Sink.JsonSerializer
import S3Sink.Cache
import S3Sink.Envelopes
import S3Sink.Files
import S3Sink.KeyGenerator

/-!
# StateMachine — requests, responses and their handlers

The state machine of `state_machine.rs`, generic in the file registry `F` and the key generator `K`.
`handleInner` handles one request and answers the responses it pushed, in order.

Two things a request reads from outside are collected in `Ambient`: the clock, and whether rdkafka
refuses to store an offset in a partition list.  Counters for the periodic report are left out.
-/

namespace S3Sink

/-! ## Partition lists -/

structure TopicPartitionListElem where
  topic : String
  partition : Int
  offset : Option Int
  deriving DecidableEq, Repr

/-- The partition an element is about. -/
def TopicPartitionListElem.topicId (self : TopicPartitionListElem) : TopicId :=
  ⟨⟨self.topic⟩, self.partition⟩

/-- `rdkafka::TopicPartitionList`: it stores what it is given and finds what it stores. -/
structure TopicPartitionList where
  elements : List TopicPartitionListElem
  deriving DecidableEq, Repr

namespace TopicPartitionList

def new : TopicPartitionList := ⟨[]⟩

def findPartition (self : TopicPartitionList) (topic : String) (partition : Int) :
    Option TopicPartitionListElem :=
  self.elements.find? fun e => e.topic = topic && e.partition = partition

/-- `add_partition_offset`, with the error rdkafka answers if it refuses the offset. -/
def addPartitionOffset (self : TopicPartitionList) (refusal : Option SinkError) (topic : String)
    (partition : Int) (offset : Int) : Except SinkError TopicPartitionList :=
  match refusal with
  | some sinkError => .error sinkError
  | none => .ok ⟨self.elements ++ [⟨topic, partition, some offset⟩]⟩

def count (self : TopicPartitionList) : Nat := self.elements.length

/-- The list assigns the partition. -/
def Assigns (self : TopicPartitionList) (topicId : TopicId) : Prop :=
  (self.findPartition topicId.topicName.name topicId.partition).isSome = true

instance (self : TopicPartitionList) (topicId : TopicId) : Decidable (self.Assigns topicId) :=
  inferInstanceAs (Decidable (_ = true))

/-- The list contains the partition with the given offset. -/
def Contains (self : TopicPartitionList) (topicId : TopicId) (offset : Int) : Prop :=
  ⟨topicId.topicName.name, topicId.partition, some offset⟩ ∈ self.elements

instance (self : TopicPartitionList) (topicId : TopicId) (offset : Int) :
    Decidable (self.Contains topicId offset) :=
  inferInstanceAs (Decidable (_ ∈ _))

end TopicPartitionList

/-! ## State -/

structure StreamState where
  bytesConsumed : Nat
  recordsConsumed : Nat
  offsetsConsumed : HashMap TopicId (List Offset)
  createdAt : Instant
  deriving DecidableEq

namespace StreamState

def new (now : Instant) : StreamState :=
  { bytesConsumed := 0
    recordsConsumed := 0
    offsetsConsumed := ∅
    createdAt := now }

/-- Add a consumed offset and count the record. -/
def consume (self : StreamState) (topicId : TopicId) (offset : Offset) : StreamState :=
  { self with
    offsetsConsumed := self.offsetsConsumed.insert topicId
      ((self.offsetsConsumed.get? topicId).getD [] ++ [offset])
    recordsConsumed := self.recordsConsumed + 1 }

end StreamState

inductive Request
  | processRecord (record : Message)
  | uploadTick
  | commitTick (currentAssignment : TopicPartitionList)
  | uploadCompletion (uploadResult : UploadResult)
  | finalCommit (currentAssignment : TopicPartitionList)
  | revokePartitions (partitions : List (String × Int))
  | shutdownSignal
  deriving DecidableEq

inductive Response
  | recordConsumed
  | readyForUpload (toUpload : ToUpload)
  | commitAsync (tpl : TopicPartitionList)
  | commitSync (tpl : TopicPartitionList)
  | deleteFile (path : PathBuf)
  | drainAndShutdown
  | fatal (error : SinkError)
  deriving DecidableEq

structure StateMachineConfiguration where
  maxActiveFileTimeoutMs : Nat
  maxConcurrentUploads : Nat
  maxUploadsRetry : Nat
  targetFileSizeB : Nat
  deriving DecidableEq

structure StateMachine (F K : Type) where
  cache : Cache
  fileRegistry : F
  keyGenerator : K
  serializer : JsonSerializer
  streams : HashMap StreamId StreamState
  offsetsUploaded : HashMap TopicId (BTreeSet Offset)
  offsetsWatermark : HashMap TopicId Int
  inFlightUploads : Nat
  config : StateMachineConfiguration
  responses : List Response

/-- What one request reads from outside the state machine. -/
structure Ambient where
  now : Instant
  /-- the error of `add_partition_offset`, if it fails -/
  refuses : TopicId → Int → Option SinkError

namespace StateMachine

variable {F K : Type}

def new (inputTopics : List (TopicConfig × List TopicName)) (fileRegistry : F) (keyGenerator : K)
    (config : StateMachineConfiguration) : StateMachine F K :=
  { cache := Cache.new inputTopics
    fileRegistry := fileRegistry
    keyGenerator := keyGenerator
    serializer := JsonSerializer.new
    streams := ∅
    offsetsUploaded := ∅
    offsetsWatermark := ∅
    inFlightUploads := 0
    config := config
    responses := [] }

/-- `self.responses.push(response)`. -/
def push (self : StateMachine F K) (response : Response) : StateMachine F K :=
  { self with responses := self.responses ++ [response] }

/-! ## Sealing a stream -/

section Handlers

variable [FileRegistry F] [KeyGenerator K]

def closeAndUpload (streamId : StreamId) (streamState : StreamState) (self : StateMachine F K) :
    StateMachine F K :=
  match FileRegistry.close self.fileRegistry streamId with
  -- no slot is taken when the file cannot be closed
  | (.error sinkError, fileRegistry) => { self with fileRegistry }.push (.fatal sinkError)
  | (.ok (path, compressedSizeB), fileRegistry) =>
      let self := { self with fileRegistry, inFlightUploads := self.inFlightUploads + 1 }
      let sealedFile : SealedFile :=
        { path := path
          rawSizeB := streamState.bytesConsumed
          compressedSizeB := compressedSizeB
          recordCount := streamState.recordsConsumed
          offsetsConsumed := streamState.offsetsConsumed
          createdAt := streamState.createdAt }
      let (objectKey, keyGenerator) := KeyGenerator.key self.keyGenerator streamId
      let toUpload : ToUpload := ⟨objectKey, sealedFile, self.config.maxUploadsRetry⟩
      { self with keyGenerator }.push (.readyForUpload toUpload)

/-- Close and upload the given streams one after the other. -/
def closeAndUploadAll (streams : List (StreamId × StreamState)) (self : StateMachine F K) :
    StateMachine F K :=
  streams.foldl (fun self e => closeAndUpload e.1 e.2 self) self

/-! ## Handlers -/

/-- `ProcessRecord` from the decoded metadata on. -/
def handleDecodedRecord (record : Message) (metadata : RecordMetadata) (now : Instant)
    (self : StateMachine F K) : StateMachine F K :=
  let topicId : TopicId := ⟨metadata.topicName, record.partition⟩
  -- get or create stream state, add consumed offset, +1 records consumed
  let streamState := ((self.streams.get? metadata.streamId).getD (StreamState.new now)).consume
    topicId record.offset
  let self := { self with
    streams := self.streams.insert metadata.streamId streamState
    offsetsWatermark := self.offsetsWatermark.orInsert topicId record.offset.val }
  match self.serializer.serialize record metadata.config.decoder with
  | (.ok (some payload), serializer) =>
      let streamState :=
        { streamState with bytesConsumed := streamState.bytesConsumed + payload.length }
      let self := { self with
        serializer
        streams := self.streams.insert metadata.streamId streamState }
      match FileRegistry.writeAll self.fileRegistry metadata.streamId payload with
      | (.error sinkError, fileRegistry) => { self with fileRegistry }.push (.fatal sinkError)
      | (.ok (), fileRegistry) =>
          let self := { self with fileRegistry }.push .recordConsumed
          -- should seal and upload?
          if self.config.targetFileSizeB ≤ streamState.bytesConsumed ∧
              self.inFlightUploads < self.config.maxConcurrentUploads then
            -- the entry removed is the one inserted above
            closeAndUpload metadata.streamId streamState
              { self with streams := self.streams.erase metadata.streamId }
          else
            self
  -- nothing to write, and nothing is answered
  | (.ok none, serializer) => { self with serializer }
  | (.error sinkError, serializer) => { self with serializer }.push (.fatal sinkError)

def missingTopicConfiguration (record : Message) : SinkError :=
  .configuration s!"missing topic configuration for '{record.topic}'"

def handleProcessRecord (record : Message) (now : Instant) (self : StateMachine F K) :
    StateMachine F K :=
  match self.cache.getOrCreateRecordMetadata record with
  | (none, cache) => { self with cache }.push (.fatal (missingTopicConfiguration record))
  | (some metadata, cache) => handleDecodedRecord record metadata now { self with cache }

def handleUploadTick (now : Instant) (self : StateMachine F K) : StateMachine F K :=
  let cutOff := now - fromMillis self.config.maxActiveFileTimeoutMs
  -- subtraction on `Nat` is `saturating_sub`
  let uploadsCapacity := self.config.maxConcurrentUploads - self.inFlightUploads
  let (expired, streams) :=
    self.streams.extractIfTake (fun _ state => state.createdAt ≤ cutOff) uploadsCapacity
  closeAndUploadAll expired { self with streams }

def handleShutdownSignal (self : StateMachine F K) : StateMachine F K :=
  (closeAndUploadAll self.streams.toList { self with streams := ∅ }).push .drainAndShutdown

def revokeStream (streamId : StreamId) (self : StateMachine F K) : StateMachine F K :=
  match FileRegistry.revoke self.fileRegistry streamId with
  | (some pathBuf, fileRegistry) => { self with fileRegistry }.push (.deleteFile pathBuf)
  | (none, fileRegistry) => { self with fileRegistry }

/-- Revoke the file of every dropped stream. -/
def revokeAll (streams : List (StreamId × StreamState)) (self : StateMachine F K) :
    StateMachine F K :=
  streams.foldl (fun self e => revokeStream e.1 self) self

def revokedTopicIds (partitions : List (String × Int)) : List TopicId :=
  partitions.map fun p => ⟨⟨p.1⟩, p.2⟩

def handleRevokePartitions (partitions : List (String × Int)) (self : StateMachine F K) :
    StateMachine F K :=
  let revoked := revokedTopicIds partitions
  -- drop streams whose every consumed partition is revoked
  let (dropped, streams) := self.streams.extractIf fun _ streamState =>
    streamState.offsetsConsumed.keys.all fun topicId => topicId ∈ revoked
  let self := revokeAll dropped { self with streams }
  { self with
    offsetsWatermark := revoked.foldl (fun acc topicId => acc.erase topicId) self.offsetsWatermark
    offsetsUploaded := revoked.foldl (fun acc topicId => acc.erase topicId) self.offsetsUploaded }

/-- `offsets_uploaded.entry(topic_id).or_default().extend(offsets)`. -/
def extendUploaded (uploaded : HashMap TopicId (BTreeSet Offset))
    (e : TopicId × List Offset) : HashMap TopicId (BTreeSet Offset) :=
  uploaded.insert e.1 (((uploaded.get? e.1).getD ∅).extend e.2)

def handleUploadCompletion (uploadResult : UploadResult) (self : StateMachine F K) :
    StateMachine F K :=
  match uploadResult with
  | .failure toUpload _ =>
      -- the slot is freed only when the upload is not tried again
      if 0 < toUpload.retries then
        self.push (.readyForUpload toUpload.decrement)
      else
        { self with inFlightUploads := u64Pred self.inFlightUploads }.push
          (.fatal (.s3Upload "maximum number of retries reached for S3 upload"))
  | .success fileToGc offsets =>
      { self with
        offsetsUploaded := offsets.toList.foldl extendUploaded self.offsetsUploaded
        inFlightUploads := u64Pred self.inFlightUploads }.push (.deleteFile fileToGc)

end Handlers

/-! ## Commits -/

/-- The loop over `offsets.range(watermark..)`. -/
def contiguousEnd : Int → List Offset → Int
  | offsetToCommit, [] => offsetToCommit
  | offsetToCommit, offset :: offsets =>
      -- find the first contiguous offset which is not present
      if offset.val = offsetToCommit then
        contiguousEnd (i64Succ offsetToCommit) offsets
      else
        offsetToCommit

/-- The first offset from the watermark on that has not been uploaded. -/
def commitPoint (watermark : Int) (offsets : BTreeSet Offset) : Int :=
  contiguousEnd watermark (offsets.restrict fun offset => watermark ≤ offset.val).toList

/-- What the loop over `offsets_uploaded` has built and changed so far. -/
structure CommitScan where
  result : TopicPartitionList
  keysForGc : List TopicId
  offsetsUploaded : HashMap TopicId (BTreeSet Offset)
  offsetsWatermark : HashMap TopicId Int

/-- `*offsets = offsets.split_off(&offset_to_commit)`, and note the key if nothing is left. -/
def CommitScan.splitOff (scan : CommitScan) (key : TopicId) (offsets : BTreeSet Offset)
    (offsetToCommit : Int) : CommitScan :=
  let offsets := offsets.restrict fun offset => offsetToCommit ≤ offset.val
  { scan with
    offsetsUploaded := scan.offsetsUploaded.insert key offsets
    keysForGc := if offsets.isEmpty then scan.keysForGc ++ [key] else scan.keysForGc }

/-- The body of the loop over `offsets_uploaded`. -/
def scanPartition (ambient : Ambient) (currentAssignment : TopicPartitionList) (key : TopicId)
    (offsets : BTreeSet Offset) (scan : CommitScan) : Except SinkError CommitScan :=
  if ¬ currentAssignment.Assigns key then
    -- garbage collect any partitions we no longer own
    .ok { scan with keysForGc := scan.keysForGc ++ [key] }
  else
    match scan.offsetsWatermark.get? key with
    | none =>
        -- just assigned, a late completion inserted stale offsets, no new record consumed yet
        .ok scan
    | some watermark =>
        let offsetToCommit := commitPoint watermark offsets
        if watermark < offsetToCommit then
          match scan.result.addPartitionOffset (ambient.refuses key offsetToCommit)
              key.topicName.name key.partition offsetToCommit with
          | .error sinkError => .error sinkError
          | .ok result =>
              let offsetsWatermark := scan.offsetsWatermark.insert key offsetToCommit
              .ok ({ scan with result, offsetsWatermark }.splitOff key offsets offsetToCommit)
        else
          -- no progress, the watermark stays
          .ok (scan.splitOff key offsets offsetToCommit)

/-- The loop over `offsets_uploaded`; an error leaves it at once, with what it changed so far. -/
def scanPartitions (ambient : Ambient) (currentAssignment : TopicPartitionList) :
    List (TopicId × BTreeSet Offset) → CommitScan → Option SinkError × CommitScan
  | [], scan => (none, scan)
  | (key, offsets) :: rest, scan =>
      match scanPartition ambient currentAssignment key offsets scan with
      | .error sinkError => (some sinkError, scan)
      | .ok scan => scanPartitions ambient currentAssignment rest scan

def makeTopicPartitionList (ambient : Ambient) (currentAssignment : TopicPartitionList)
    (self : StateMachine F K) : Except SinkError TopicPartitionList × StateMachine F K :=
  match scanPartitions ambient currentAssignment self.offsetsUploaded.toList
      ⟨TopicPartitionList.new, [], self.offsetsUploaded, self.offsetsWatermark⟩ with
  -- `?` returns before the keys are garbage collected
  | (some sinkError, scan) =>
      (.error sinkError, { self with
        offsetsUploaded := scan.offsetsUploaded
        offsetsWatermark := scan.offsetsWatermark })
  | (none, scan) =>
      (.ok scan.result, { self with
        offsetsUploaded :=
          scan.keysForGc.foldl (fun acc key => acc.erase key) scan.offsetsUploaded
        offsetsWatermark := scan.offsetsWatermark })

def handleFinalCommit (ambient : Ambient) (currentAssignment : TopicPartitionList)
    (self : StateMachine F K) : StateMachine F K :=
  match self.makeTopicPartitionList ambient currentAssignment with
  | (.ok tpl, self) => self.push (.commitSync tpl)
  | (.error sinkError, self) => self.push (.fatal sinkError)

def handleCommitTick (ambient : Ambient) (currentAssignment : TopicPartitionList)
    (self : StateMachine F K) : StateMachine F K :=
  match self.makeTopicPartitionList ambient currentAssignment with
  | (.ok tpl, self) => self.push (.commitAsync tpl)
  | (.error sinkError, self) => self.push (.fatal sinkError)

/-! ## Requests -/

section Requests

variable [FileRegistry F] [KeyGenerator K]

/-- The handler of a request, on a state whose response buffer is clear. -/
def dispatch (ambient : Ambient) (request : Request) (self : StateMachine F K) :
    StateMachine F K :=
  match request with
  | .processRecord record => handleProcessRecord record ambient.now self
  | .commitTick currentAssignment => handleCommitTick ambient currentAssignment self
  | .uploadTick => handleUploadTick ambient.now self
  | .uploadCompletion uploadResult => handleUploadCompletion uploadResult self
  | .finalCommit currentAssignment => handleFinalCommit ambient currentAssignment self
  | .revokePartitions partitions => handleRevokePartitions partitions self
  | .shutdownSignal => handleShutdownSignal self

/-- Handle one request and drain the responses. -/
def handleInner (ambient : Ambient) (request : Request) (self : StateMachine F K) :
    List Response × StateMachine F K :=
  let self := dispatch ambient request { self with responses := [] }
  (self.responses, { self with responses := [] })

end Requests

end StateMachine

end S3Sink
