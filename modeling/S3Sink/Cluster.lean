import S3Sink.Commit.Broker
import S3Sink.Sink.CommitSafety

/-!
# Cluster — a consumer group of sinks

Several sinks consume from one Kafka cluster under one group id and store their objects in one
bucket.  Kafka assigns and revokes partitions at any time; a sink may stop at any time, and starts
again with nothing but the offsets committed.

* `Log` — the records Kafka holds;
* `Consumer`, `Consumer.Feeds` — the consumer of a sink (`kafka_consumer.rs`): the positions in its
  partitions, and the rebalance channel between `pre_rebalance` and the event loop;
* `ClusterStep`, `Cluster.system` — the members, the offsets committed and the objects stored.

`pre_rebalance` and the event loop run on one thread: a rebalance happens only while the sink waits,
in `select!` or in the drain, never between the record taken and the channel read behind it.  A
rebalance that ends in an error (`Rebalance::Error`), and a position that Kafka resets because its
offset is out of range, are left out.
-/

namespace S3Sink

open TransitionSystem StateMachine

/-- The records Kafka holds, one at each offset of a partition. -/
structure Log where
  Holds : Message → Prop
  unique : ∀ {record record' : Message}, Holds record → Holds record' →
    record.topicId = record'.topicId → record.offset = record'.offset → record = record'

/-! ## The consumer -/

/-- The consumer of a sink. -/
structure Consumer where
  /-- the offset to fetch next from each partition assigned -/
  position : TopicId → Option Int
  /-- the partitions revoked, one message for each rebalance, the oldest first -/
  rebalanceChannel : List (List (String × Int))

namespace Consumer

def new : Consumer := ⟨fun _ => none, []⟩

/-- A partition is assigned, with the offset to begin at. -/
def assign (self : Consumer) (p : TopicId) (offset : Int) : Consumer :=
  { self with position := Function.update self.position p (some offset) }

/-- `pre_rebalance` on `Rebalance::Revoke`: the sender never waits. -/
def preRebalance (self : Consumer) (partitions : List (String × Int)) : Consumer :=
  { position := fun p => if p ∈ revokedTopicIds partitions then none else self.position p
    rebalanceChannel := self.rebalanceChannel ++ [partitions] }

/-- `recv`: the position moves behind the record. -/
def receive (self : Consumer) (record : Message) : Consumer :=
  self.assign record.topicId (record.offset.val + 1)

/-- The record is the next one of its partition. -/
def IsNext (log : Log) (self : Consumer) (record : Message) : Prop :=
  log.Holds record ∧ ∃ offset, self.position record.topicId = some offset ∧
    offset ≤ record.offset.val ∧
    ∀ earlier, log.Holds earlier → earlier.topicId = record.topicId →
      earlier.offset.val < record.offset.val → earlier.offset.val < offset

/-- `consumer.assignment()`. -/
def AssignmentIs (self : Consumer) (currentAssignment : TopicPartitionList) : Prop :=
  ∀ p, currentAssignment.Assigns p ↔ self.position p ≠ none

/-- What an event of the sink reads from its consumer, and leaves in it. -/
inductive Feeds {F K : Type} (log : Log) (self : Consumer) : SinkEvent F K → Consumer → Prop
  | record {record : Message} (hnext : self.IsNext log record) :
      Feeds log self (.poll (.record record)) (self.receive record)
  | commitTick {currentAssignment : TopicPartitionList}
      (hassignment : self.AssignmentIs currentAssignment) :
      Feeds log self (.poll (.commitTick currentAssignment)) self
  | tick : Feeds log self (.poll .uploadTick) self
  | completion {toUpload : ToUpload} {failure : Option SinkError} :
      Feeds log self (.poll (.uploadCompletion toUpload failure)) self
  | shutdown : Feeds log self (.poll .shutdown) self
  | skip : Feeds log self .skip self
  | abort {error : SinkError} : Feeds log self (.abort error) self
  -- `rebalance_rx.try_recv()`
  | revoke {e : Step F K} {actions : List Action} {partitions : List (String × Int)}
      {rest : List (List (String × Int))}
      (hchannel : self.rebalanceChannel = partitions :: rest)
      (hrequest : e.request = .revokePartitions partitions) :
      Feeds log self (.handled .revoke e actions) { self with rebalanceChannel := rest }
  -- the channel is read until it is empty
  | event {e : Step F K} {actions : List Action} (hchannel : self.rebalanceChannel = []) :
      Feeds log self (.handled .event e actions) self
  -- the drain never reads it
  | drain {e : Step F K} {actions : List Action} : Feeds log self (.handled .drain e actions) self
  | final {e : Step F K} {actions : List Action}
      (hassignment : ∀ currentAssignment, e.request = .finalCommit currentAssignment →
        self.AssignmentIs currentAssignment) :
      Feeds log self (.handled .final e actions) self

end Consumer

/-! ## The group -/

/-- The lists handed to `consumer.commit`, in order. -/
def commitsOf (actions : List Action) : List TopicPartitionList :=
  actions.filterMap fun action =>
    match action with
    | .commit tpl _ => some tpl
    | _ => none

/-- The sink waits, in `select!` or for an upload in the drain. -/
def Phase.waits : Phase → Bool
  | .eventLoop => true
  | .draining => true
  | _ => false

/-- A sink and its consumer. -/
structure Member (K : Type) where
  sink : SinkState DiskFileRegistry K
  consumer : Consumer

structure Cluster (ι K : Type) where
  members : ι → Member K
  /-- the offset the broker keeps for each partition, if one was committed -/
  committed : TopicId → Option Int
  /-- the lists handed to `consumer.commit` so far -/
  commits : List TopicPartitionList
  /-- the content of the objects whose upload was reported, before compression -/
  objects : List Bytes
  /-- the offsets the group began at: one committed before, or one of `auto.offset.reset` -/
  origins : TopicId → List Int

inductive ClusterEvent (ι K : Type)
  /-- a partition is assigned to a member, which begins at the given offset -/
  | assign (i : ι) (p : TopicId) (offset : Int)
  /-- partitions are revoked from a member -/
  | rebalance (i : ι) (partitions : List (String × Int))
  | sink (i : ι) (event : SinkEvent DiskFileRegistry K)
  /-- the broker takes a list it was sent -/
  | accept (tpl : TopicPartitionList)
  /-- a member stops, wherever it is, and is started again -/
  | restart (i : ι)

variable {ι K : Type} [DecidableEq ι]

/-- A member that has just been started. -/
def Member.Started (inputTopics : List (TopicConfig × List TopicName)) (self : Member K) : Prop :=
  ∃ directory os keyGenerator config,
    self = ⟨⟨StateMachine.new inputTopics (DiskFileRegistry.new directory os) keyGenerator config,
      0, .eventLoop⟩, Consumer.new⟩

namespace Cluster

def withMember (self : Cluster ι K) (i : ι) (member : Member K) : Cluster ι K :=
  { self with members := Function.update self.members i member }

/-- A partition is assigned to a member. -/
def assign (self : Cluster ι K) (i : ι) (p : TopicId) (offset : Int) : Cluster ι K :=
  self.withMember i
    { self.members i with consumer := (self.members i).consumer.assign p offset }

/-- The group begins at an offset that was not committed. -/
def beginAt (self : Cluster ι K) (p : TopicId) (offset : Int) : Cluster ι K :=
  { self with origins := Function.update self.origins p (offset :: self.origins p) }

theorem channel_assign (self : Cluster ι K) (i j : ι) (p : TopicId) (offset : Int) :
    ((self.assign i p offset).members j).consumer.rebalanceChannel =
      (self.members j).consumer.rebalanceChannel := by
  by_cases hj : j = i
  · subst hj
    simp [assign, withMember, Consumer.assign]
  · simp [assign, withMember, Function.update_of_ne hj]

@[simp] theorem origins_beginAt (self : Cluster ι K) (i : ι) (p : TopicId) (offset : Int) :
    ((self.assign i p offset).beginAt p offset).origins =
      Function.update self.origins p (offset :: self.origins p) := rfl

/-- The content stored by the upload whose success an event reports to the state machine. -/
def storedBy (event : SinkEvent DiskFileRegistry K) (reg : DiskFileRegistry) : List Bytes :=
  match event with
  | .handled _ e _ =>
      match e.request with
      | .uploadCompletion (.success path _) => [reg.content path]
      | _ => []
  | _ => []

/-- The lists an event hands to `consumer.commit`. -/
def committedBy : SinkEvent DiskFileRegistry K → List TopicPartitionList
  | .handled _ _ actions => commitsOf actions
  | _ => []

/-- An event of one member, which commits and stores objects. -/
def afterSink (self : Cluster ι K) (i : ι) (event : SinkEvent DiskFileRegistry K)
    (sink : SinkState DiskFileRegistry K) (consumer : Consumer) : Cluster ι K :=
  { self.withMember i ⟨sink, consumer⟩ with
    commits := self.commits ++ committedBy event
    objects := self.objects ++ storedBy event sink.stateMachine.fileRegistry }

end Cluster

/-- The events of a member since it was last started, newest first. -/
def sinkEvents (i : ι) : List (ClusterEvent ι K) → List (SinkEvent DiskFileRegistry K)
  | [] => []
  | .sink j event :: h => if j = i then event :: sinkEvents i h else sinkEvents i h
  | .restart j :: h => if j = i then [] else sinkEvents i h
  | _ :: h => sinkEvents i h

/-- The rebalances of a member since it was last started, the oldest first. -/
def rebalances (i : ι) : List (ClusterEvent ι K) → List (List (String × Int))
  | [] => []
  | .rebalance j partitions :: h =>
      if j = i then rebalances i h ++ [partitions] else rebalances i h
  | .restart j :: h => if j = i then [] else rebalances i h
  | _ :: h => rebalances i h

/-- The partitions assigned, the newest first. -/
def assigned : List (ClusterEvent ι K) → List TopicId
  | [] => []
  | .assign _ p _ :: h => p :: assigned h
  | _ :: h => assigned h

theorem sinkEvents_sink_self (i : ι) (event : SinkEvent DiskFileRegistry K)
    (h : List (ClusterEvent ι K)) : sinkEvents i (.sink i event :: h) = event :: sinkEvents i h :=
  if_pos rfl

theorem sinkEvents_sink_other {i j : ι} (hne : j ≠ i) (event : SinkEvent DiskFileRegistry K)
    (h : List (ClusterEvent ι K)) : sinkEvents j (.sink i event :: h) = sinkEvents j h :=
  if_neg hne.symm

variable [KeyGenerator K]

/-- One event of the group. -/
inductive ClusterStep (log : Log) (inputTopics : List (TopicConfig × List TopicName))
    (c : Cluster ι K) : ClusterEvent ι K → Cluster ι K → Prop
  -- consumption begins at the offset committed, …
  | resume {i : ι} {p : TopicId} {offset : Int}
      (hwaits : (c.members i).sink.phase.waits = true)
      (hfree : (c.members i).consumer.position p = none)
      (hcommitted : c.committed p = some offset) :
      ClusterStep log inputTopics c (.assign i p offset) (c.assign i p offset)
  -- … or, if there is none, where `auto.offset.reset` says
  | reset {i : ι} {p : TopicId} (offset : Int)
      (hwaits : (c.members i).sink.phase.waits = true)
      (hfree : (c.members i).consumer.position p = none)
      (hcommitted : c.committed p = none) :
      ClusterStep log inputTopics c (.assign i p offset) ((c.assign i p offset).beginAt p offset)
  | rebalance {i : ι} (partitions : List (String × Int))
      (hwaits : (c.members i).sink.phase.waits = true) :
      ClusterStep log inputTopics c (.rebalance i partitions)
        (c.withMember i
          { c.members i with consumer := (c.members i).consumer.preRebalance partitions })
  | sink {i : ι} {event : SinkEvent DiskFileRegistry K} {sink' : SinkState DiskFileRegistry K}
      {consumer' : Consumer} (hstep : SinkStep (c.members i).sink event sink')
      (hfeeds : (c.members i).consumer.Feeds log event consumer') :
      ClusterStep log inputTopics c (.sink i event) (c.afterSink i event sink' consumer')
  -- at any time and in any order, as often as the request is sent
  | accept {tpl : TopicPartitionList} (hsent : tpl ∈ c.commits) :
      ClusterStep log inputTopics c (.accept tpl)
        { c with committed := fun p => (tpl.offsetOf p).or (c.committed p) }
  | restart {i : ι} {member : Member K} (hstarted : member.Started inputTopics) :
      ClusterStep log inputTopics c (.restart i) (c.withMember i member)

namespace Cluster

/-- All runs of a group that has just been started. -/
def system (log : Log) (inputTopics : List (TopicConfig × List TopicName)) :
    TransitionSystem (Cluster ι K) (ClusterEvent ι K) where
  init c := (∀ i, (c.members i).Started inputTopics) ∧ c.commits = [] ∧ c.objects = [] ∧
    ∀ p, c.origins p = (c.committed p).toList
  step := ClusterStep log inputTopics

end Cluster

end S3Sink
