import S3Sink.Record

/-!
# Cache — topic configurations and memoized stream ids

`getOrCreateRecordMetadata` looks up the configuration of a record's topic and derives its stream id
(`cache.rs`).  The set of ids only saves allocations: `getOrCreateRecordMetadata_fst` gives the
answer as a function of the configurations and the record alone.
-/

namespace S3Sink

structure RecordMetadata where
  topicName : TopicName
  streamId : StreamId
  config : TopicConfig
  deriving DecidableEq, Repr

structure Cache where
  buf : String
  ids : List StreamId
  configs : HashMap TopicName TopicConfig

namespace Cache

/-- Every topic of every entry gets that entry's configuration, later entries winning. -/
def newConfigs (inputTopics : List (TopicConfig × List TopicName)) :
    HashMap TopicName TopicConfig :=
  inputTopics.foldl
    (fun acc entry => entry.2.foldl (fun acc topic => acc.insert topic entry.1) acc) ∅

def new (inputTopics : List (TopicConfig × List TopicName)) : Cache :=
  { buf := ""
    ids := []
    configs := newConfigs inputTopics }

def getOrCreateStreamId (self : Cache) (record : Message) (strategy : RouterStrategy) :
    StreamId × Cache :=
  let buf := strategy.writeId record
  -- a known id is shared, a new one is remembered
  match self.ids.find? (fun id => id.id = buf) with
  | some cached => (cached, { self with buf := buf })
  | none => (⟨buf⟩, { self with buf := buf, ids := ⟨buf⟩ :: self.ids })

def getOrCreateRecordMetadata (self : Cache) (record : Message) : Option RecordMetadata × Cache :=
  match self.configs.get? ⟨record.topic⟩ with
  | none => (none, self)
  | some config =>
      let (streamId, self) := self.getOrCreateStreamId record config.router
      (some ⟨⟨record.topic⟩, streamId, config⟩, self)

/-! ## The answer as a function of the configurations -/

/-- The metadata of a record under the given configurations. -/
def metadata (configs : HashMap TopicName TopicConfig) (record : Message) :
    Option RecordMetadata :=
  (configs.get? ⟨record.topic⟩).map fun config =>
    ⟨⟨record.topic⟩, ⟨config.router.writeId record⟩, config⟩

theorem getOrCreateStreamId_fst (self : Cache) (record : Message) (strategy : RouterStrategy) :
    (self.getOrCreateStreamId record strategy).1 = ⟨strategy.writeId record⟩ := by
  unfold getOrCreateStreamId
  dsimp only
  cases hfind : self.ids.find? (fun id => id.id = strategy.writeId record) with
  | none => rfl
  | some cached =>
      -- the id found has the text asked for
      have hid : cached.id = strategy.writeId record := by
        simpa using List.find?_some hfind
      simp [← hid]

theorem getOrCreateStreamId_configs (self : Cache) (record : Message) (strategy : RouterStrategy) :
    (self.getOrCreateStreamId record strategy).2.configs = self.configs := by
  unfold getOrCreateStreamId
  dsimp only
  split <;> rfl

theorem getOrCreateRecordMetadata_fst (self : Cache) (record : Message) :
    (self.getOrCreateRecordMetadata record).1 = metadata self.configs record := by
  unfold getOrCreateRecordMetadata metadata
  cases self.configs.get? ⟨record.topic⟩ with
  | none => rfl
  | some config => simp [getOrCreateStreamId_fst]

theorem getOrCreateRecordMetadata_configs (self : Cache) (record : Message) :
    (self.getOrCreateRecordMetadata record).2.configs = self.configs := by
  unfold getOrCreateRecordMetadata
  split
  · rfl
  · exact getOrCreateStreamId_configs _ _ _

theorem metadata_topicName {configs : HashMap TopicName TopicConfig} {record : Message}
    {found : RecordMetadata} (hfound : metadata configs record = some found) :
    found.topicName = ⟨record.topic⟩ := by
  obtain ⟨config, -, rfl⟩ := Option.map_eq_some_iff.1 hfound
  rfl

end Cache

end S3Sink
