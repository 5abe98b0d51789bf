import S3Sink.Cluster

/-!
# Tracking — what a consumer and its sink know of each other

The consumer of a member knows at once which partitions it has lost; the state machine learns it
when the message in the rebalance channel is read.  `Tracks` relates the two, and `Tracks.sink`
keeps the relation in every event of a sink that has not returned.

What the earlier results assume of the requests follows from it: the offsets of a partition arrive
in increasing order between two revocations, and every assignment a commit request comes with
contains the partitions consumed from.
-/

namespace S3Sink

open TransitionSystem StateMachine Sink

/-! ## Records below an offset -/

/-- Every record of the partition before the given offset is delivered. -/
def Log.DeliveredBelow (log : Log) (delivered : Message → Prop) (p : TopicId) (n : Int) : Prop :=
  ∀ record, log.Holds record → record.topicId = p → record.offset.val < n → delivered record

theorem Log.DeliveredBelow.mono {log : Log} {delivered delivered' : Message → Prop} {p : TopicId}
    {n : Int} (h : log.DeliveredBelow delivered p n)
    (himp : ∀ record, delivered record → delivered' record) : log.DeliveredBelow delivered' p n :=
  fun record hheld hp hlt => himp record (h record hheld hp hlt)

/-- Between the position of a consumer and the next record there is none. -/
theorem Log.DeliveredBelow.next {log : Log} {delivered : Message → Prop} {consumer : Consumer}
    {record : Message} (hnext : consumer.IsNext log record) {n : Int}
    (hposition : consumer.position record.topicId = some n)
    (h : log.DeliveredBelow delivered record.topicId n) :
    log.DeliveredBelow delivered record.topicId record.offset.val := by
  obtain ⟨-, offset, hoffset, -, hnone⟩ := hnext
  rw [hposition] at hoffset
  cases hoffset
  exact fun earlier hheld hp hlt => h earlier hheld hp (hnone earlier hheld hp hlt)

/-! ## Lost partitions -/

/-- The partition is revoked, and the message waits in the channel. -/
def Consumer.Lost (self : Consumer) (p : TopicId) : Prop :=
  ∃ partitions ∈ self.rebalanceChannel, p ∈ revokedTopicIds partitions

instance (self : Consumer) (p : TopicId) : Decidable (self.Lost p) :=
  inferInstanceAs (Decidable (∃ partitions ∈ self.rebalanceChannel, _))

/-- The offsets consumed from a partition since it was last revoked, whether or not the sink has
read that in the channel. -/
def Consumer.consumed (self : Consumer) (requests : List Request) (p : TopicId) : List Offset :=
  if self.Lost p then [] else History.consumedSince p requests

/-- The record taken, while pending revocations are processed. -/
def Phase.inHand : Phase → Option Message
  | .polled (.record record) => some record
  | _ => none

theorem Phase.inHand_of_waits {phase : Phase} (h : phase.waits = true) : phase.inHand = none := by
  cases phase with
  | polled branch => cases h
  | _ => rfl

theorem Phase.not_commitTick_of_waits {phase : Phase} (h : phase.waits = true)
    (currentAssignment : TopicPartitionList) : phase ≠ .polled (.commitTick currentAssignment) := by
  rintro rfl
  cases h

/-- The revocations handled, the oldest first. -/
def History.revocations : List Request → List (List (String × Int))
  | [] => []
  | .revokePartitions partitions :: requests => revocations requests ++ [partitions]
  | _ :: requests => revocations requests

theorem History.revocations_cons {request : Request}
    (h : ∀ partitions, request ≠ .revokePartitions partitions) (requests : List Request) :
    revocations (request :: requests) = revocations requests := by
  cases request with
  | revokePartitions partitions => exact absurd rfl (h partitions)
  | _ => rfl

/-- What is handled of the channel leaves it. -/
theorem Consumer.Feeds.revocations {K : Type} [KeyGenerator K] {log : Log}
    {s s' : SinkState DiskFileRegistry K} {h : List (SinkEvent DiskFileRegistry K)}
    {event : SinkEvent DiskFileRegistry K} {consumer consumer' : Consumer}
    (hfeeds : consumer.Feeds log event consumer') (hstep : SinkStep s event s') :
    History.revocations (requests (steps (event :: h))) ++ consumer'.rebalanceChannel =
      History.revocations (requests (steps h)) ++ consumer.rebalanceChannel := by
  -- a handled request that is no revocation
  have hkeeps : ∀ {e : Step DiskFileRegistry K} {consumer : Consumer},
      (∀ partitions, e.request ≠ .revokePartitions partitions) →
      History.revocations (e.request :: requests (steps h)) ++ consumer.rebalanceChannel =
        History.revocations (requests (steps h)) ++ consumer.rebalanceChannel := by
    intro e consumer hrequest
    rw [History.revocations_cons hrequest]
  cases hfeeds with
  | @revoke e _ partitions rest hchannel hrequest =>
      change History.revocations (e.request :: requests (steps h)) ++ _ = _
      rw [hrequest, hchannel]
      simp [History.revocations]
  | @event e _ hchannel =>
      cases hstep with
      | @event _ _ _ branch _ _ _ _ _ hrequest _ =>
          exact hkeeps fun partitions => by rw [hrequest]; cases branch <;> simp [Polled.request]
  | drain =>
      cases hstep with
      | drain _ hrequest _ => exact hkeeps fun partitions => by simp [hrequest]
  | final =>
      cases hstep with
      | final _ _ hrequest _ => exact hkeeps fun partitions => by simp [hrequest]
  | _ => rfl

/-! ## The relation -/

/-- The consumer of a sink, after the given requests, in the given phase. -/
structure Tracks (log : Log) (delivered : Message → Prop) (requests : List Request) (phase : Phase)
    (consumer : Consumer) : Prop where
  /-- nothing is known of a partition that is not assigned -/
  unassigned : ∀ p, consumer.position p = none →
    consumer.consumed requests p = [] ∧ ∀ record, phase.inHand = some record → record.topicId ≠ p
  /-- the position is behind everything consumed -/
  passed : ∀ p n, consumer.position p = some n → ∀ o ∈ consumer.consumed requests p, o.val < n
  /-- the record taken is behind everything consumed, and before the position -/
  inHand : ∀ record, phase.inHand = some record → log.Holds record ∧
    (∀ o ∈ consumer.consumed requests record.topicId, o.val < record.offset.val) ∧
    (∀ n, consumer.position record.topicId = some n → record.offset.val < n) ∧
    (consumer.consumed requests record.topicId = [] →
      log.DeliveredBelow delivered record.topicId record.offset.val)
  /-- a consumer begins where everything before is delivered -/
  entry : ∀ p n, consumer.position p = some n → consumer.consumed requests p = [] →
    (∀ record, phase.inHand = some record → record.topicId ≠ p) → log.DeliveredBelow delivered p n
  begins : ∀ p first, (History.consumedSince p requests).head? = some first →
    log.DeliveredBelow delivered p first.val
  ascending : ∀ p, (History.consumedSince p requests).Pairwise (· < ·)
  held : ∀ record ∈ consumedRecords requests, log.Holds record
  covered : History.AssignmentsCover requests
  /-- the assignment read with a commit tick -/
  assignment : ∀ currentAssignment, phase = .polled (.commitTick currentAssignment) →
    ∀ p, consumer.consumed requests p ≠ [] → currentAssignment.Assigns p

namespace Tracks

variable {log : Log} {delivered delivered' : Message → Prop} {requests requests' : List Request}
variable {phase phase' : Phase} {consumer consumer' : Consumer}

theorem start : Tracks log delivered [] .eventLoop Consumer.new where
  unassigned p _ := ⟨rfl, by simp [Phase.inHand]⟩
  passed p n hposition := by cases hposition
  inHand record h := by cases h
  entry p n hposition := by cases hposition
  begins p first h := by cases h
  ascending p := List.Pairwise.nil
  held record h := absurd h List.not_mem_nil
  covered := trivial
  assignment currentAssignment h := by cases h

theorem mono (h : Tracks log delivered requests phase consumer)
    (himp : ∀ record, delivered record → delivered' record) :
    Tracks log delivered' requests phase consumer where
  unassigned := h.unassigned
  passed := h.passed
  inHand record hhand := by
    obtain ⟨hheld, hbehind, hbefore, hfirst⟩ := h.inHand record hhand
    exact ⟨hheld, hbehind, hbefore, fun hnil => (hfirst hnil).mono himp⟩
  entry p n hposition hnil hhand := (h.entry p n hposition hnil hhand).mono himp
  begins p first hhead := (h.begins p first hhead).mono himp
  ascending := h.ascending
  held := h.held
  covered := h.covered
  assignment := h.assignment

/-! ## Rebalances -/

/-- A partition is assigned, to begin where everything before is delivered. -/
theorem assign (h : Tracks log delivered requests phase consumer) (hwaits : phase.waits = true)
    {p : TopicId} {n : Int} (hfree : consumer.position p = none)
    (hdelivered : log.DeliveredBelow delivered p n) :
    Tracks log delivered requests phase (consumer.assign p n) := by
  have hhand := Phase.inHand_of_waits hwaits
  have hother : ∀ p' n', (consumer.assign p n).position p' = some n' →
      (p' = p ∧ n' = n) ∨ consumer.position p' = some n' := by
    intro p' n' hposition
    by_cases hp : p' = p
    · subst hp
      simp only [Consumer.assign, Function.update_self, Option.some.injEq] at hposition
      exact Or.inl ⟨rfl, hposition.symm⟩
    · simp only [Consumer.assign, Function.update_of_ne hp] at hposition
      exact Or.inr hposition
  refine
    { unassigned := fun p' hposition => ?_
      passed := fun p' n' hposition => ?_
      inHand := fun record hrecord => by rw [hhand] at hrecord; cases hrecord
      entry := fun p' n' hposition => ?_
      begins := h.begins
      ascending := h.ascending
      held := h.held
      covered := h.covered
      assignment := fun a ha => absurd ha (Phase.not_commitTick_of_waits hwaits a) }
  · refine h.unassigned p' ?_
    by_cases hp : p' = p
    · rw [hp]
      exact hfree
    · simpa only [Consumer.assign, Function.update_of_ne hp] using hposition
  · rcases hother p' n' hposition with ⟨rfl, rfl⟩ | hold
    -- nothing was consumed from it
    · intro o ho
      change o ∈ consumer.consumed requests p' at ho
      rw [(h.unassigned p' hfree).1] at ho
      exact absurd ho List.not_mem_nil
    · exact h.passed p' n' hold
  · rcases hother p' n' hposition with ⟨rfl, rfl⟩ | hold
    · exact fun _ _ => hdelivered
    · exact h.entry p' n' hold

theorem lost_preRebalance {partitions : List (String × Int)} {p : TopicId} :
    (consumer.preRebalance partitions).Lost p ↔
      consumer.Lost p ∨ p ∈ revokedTopicIds partitions := by
  simp [Consumer.Lost, Consumer.preRebalance, or_and_right, exists_or]

/-- Partitions are revoked: what was consumed from them counts no more. -/
theorem preRebalance (h : Tracks log delivered requests phase consumer)
    (hwaits : phase.waits = true) (partitions : List (String × Int)) :
    Tracks log delivered requests phase (consumer.preRebalance partitions) := by
  have hhand := Phase.inHand_of_waits hwaits
  have hlost : ∀ p ∈ revokedTopicIds partitions,
      (consumer.preRebalance partitions).consumed requests p = [] :=
    fun p hp => if_pos (lost_preRebalance.2 (Or.inr hp))
  have hkept : ∀ p ∉ revokedTopicIds partitions,
      (consumer.preRebalance partitions).consumed requests p = consumer.consumed requests p ∧
        (consumer.preRebalance partitions).position p = consumer.position p := by
    intro p hp
    have hiff : (consumer.preRebalance partitions).Lost p ↔ consumer.Lost p :=
      lost_preRebalance.trans (or_iff_left hp)
    exact ⟨by simp only [Consumer.consumed, hiff], if_neg hp⟩
  have hgone : ∀ p ∈ revokedTopicIds partitions,
      (consumer.preRebalance partitions).position p = none :=
    fun p hp => if_pos hp
  refine
    { unassigned := fun p hposition => ?_
      passed := fun p n hposition => ?_
      inHand := fun record hrecord => by rw [hhand] at hrecord; cases hrecord
      entry := fun p n hposition => ?_
      begins := h.begins
      ascending := h.ascending
      held := h.held
      covered := h.covered
      assignment := fun a ha => absurd ha (Phase.not_commitTick_of_waits hwaits a) }
  · by_cases hp : p ∈ revokedTopicIds partitions
    · exact ⟨hlost p hp, by simp [hhand]⟩
    · rw [(hkept p hp).2] at hposition
      rw [(hkept p hp).1]
      exact h.unassigned p hposition
  · by_cases hp : p ∈ revokedTopicIds partitions
    · rw [hgone p hp] at hposition
      cases hposition
    · rw [(hkept p hp).2] at hposition
      rw [(hkept p hp).1]
      exact h.passed p n hposition
  · by_cases hp : p ∈ revokedTopicIds partitions
    · rw [hgone p hp] at hposition
      cases hposition
    · rw [(hkept p hp).2] at hposition
      rw [(hkept p hp).1]
      exact h.entry p n hposition

/-! ## Events of the sink -/

/-- A request that brings no record and revokes nothing. -/
theorem quiet (h : Tracks log delivered requests phase consumer)
    (hconsumed : ∀ p, History.consumedSince p requests' = History.consumedSince p requests)
    (hrecords : consumedRecords requests' = consumedRecords requests)
    (hcovered : History.AssignmentsCover requests') (hhand : phase.inHand = none)
    (hhand' : phase'.inHand = none)
    (htick : ∀ currentAssignment, phase' = .polled (.commitTick currentAssignment) →
      consumer.AssignmentIs currentAssignment) :
    Tracks log delivered requests' phase' consumer := by
  have hsame : ∀ p, consumer.consumed requests' p = consumer.consumed requests p := fun p => by
    simp only [Consumer.consumed, hconsumed p]
  refine
    { unassigned := fun p hposition => ⟨hsame p ▸ (h.unassigned p hposition).1, by simp [hhand']⟩
      passed := fun p n hposition => by rw [hsame p]; exact h.passed p n hposition
      inHand := fun record hrecord => by rw [hhand'] at hrecord; cases hrecord
      entry := fun p n hposition hnil _ => ?_
      begins := fun p first hhead => h.begins p first (hconsumed p ▸ hhead)
      ascending := fun p => hconsumed p ▸ h.ascending p
      held := hrecords ▸ h.held
      covered := hcovered
      assignment := fun currentAssignment hphase p hne => ?_ }
  · exact h.entry p n hposition (hsame p ▸ hnil) (by simp [hhand])
  -- what is consumed is assigned
  · refine (htick currentAssignment hphase p).2 fun hnone => hne ?_
    rw [hsame p]
    exact (h.unassigned p hnone).1

/-- `recv` returns a record. -/
theorem receive (h : Tracks log delivered requests .eventLoop consumer) {record : Message}
    (hnext : consumer.IsNext log record) :
    Tracks log delivered requests (.polled (.record record)) (consumer.receive record) := by
  obtain ⟨hheld, offset, hoffset, hle, hnone⟩ := hnext
  have hother : ∀ p n, (consumer.receive record).position p = some n →
      (p = record.topicId ∧ n = record.offset.val + 1) ∨
        (p ≠ record.topicId ∧ consumer.position p = some n) := by
    intro p n hposition
    by_cases hp : p = record.topicId
    · subst hp
      simp only [Consumer.receive, Consumer.assign, Function.update_self,
        Option.some.injEq] at hposition
      exact Or.inl ⟨rfl, hposition.symm⟩
    · simp only [Consumer.receive, Consumer.assign, Function.update_of_ne hp] at hposition
      exact Or.inr ⟨hp, hposition⟩
  have hbehind : ∀ o ∈ consumer.consumed requests record.topicId, o.val < record.offset.val :=
    fun o ho => (h.passed record.topicId offset hoffset o ho).trans_le hle
  refine
    { unassigned := fun p hposition => ?_
      passed := fun p n hposition => ?_
      inHand := fun record' hrecord => ?_
      entry := fun p n hposition hnil hhand => ?_
      begins := h.begins
      ascending := h.ascending
      held := h.held
      covered := h.covered
      assignment := fun currentAssignment hphase => by cases hphase }
  · by_cases hp : p = record.topicId
    · subst hp
      simp [Consumer.receive, Consumer.assign] at hposition
    · simp only [Consumer.receive, Consumer.assign, Function.update_of_ne hp] at hposition
      refine ⟨(h.unassigned p hposition).1, fun record' hrecord heq => ?_⟩
      cases hrecord
      exact hp heq.symm
  · rcases hother p n hposition with ⟨rfl, rfl⟩ | ⟨-, hold⟩
    · exact fun o ho => (hbehind o ho).trans (Int.lt_succ _)
    · exact h.passed p n hold
  · cases hrecord
    refine ⟨hheld, hbehind, fun n hposition => ?_, fun hnil => ?_⟩
    · rcases hother _ n hposition with ⟨-, rfl⟩ | ⟨hne, -⟩
      · exact Int.lt_succ _
      · exact absurd rfl hne
    -- the first record of the partition
    · exact (h.entry _ offset hoffset hnil (by simp [Phase.inHand])).next
        ⟨hheld, offset, hoffset, hle, hnone⟩ hoffset
  · rcases hother p n hposition with ⟨rfl, -⟩ | ⟨-, hold⟩
    · exact absurd rfl (hhand record rfl)
    · exact h.entry p n hold hnil (by simp [Phase.inHand])

/-- A message is read from the rebalance channel. -/
theorem revoke (h : Tracks log delivered requests phase consumer)
    {partitions : List (String × Int)} {rest : List (List (String × Int))}
    (hchannel : consumer.rebalanceChannel = partitions :: rest) :
    Tracks log delivered (.revokePartitions partitions :: requests) phase
      { consumer with rebalanceChannel := rest } := by
  have hlost : ∀ p, consumer.Lost p ↔ p ∈ revokedTopicIds partitions ∨
      Consumer.Lost { consumer with rebalanceChannel := rest } p := fun p => by
    simp [Consumer.Lost, hchannel]
  -- the sink learns what the consumer knew already
  have hsame : ∀ p, Consumer.consumed { consumer with rebalanceChannel := rest }
      (.revokePartitions partitions :: requests) p = consumer.consumed requests p := by
    intro p
    simp only [Consumer.consumed, hlost p, History.consumedSince]
    by_cases hp : p ∈ revokedTopicIds partitions <;> simp [hp]
  have hsince : ∀ p, History.consumedSince p (.revokePartitions partitions :: requests) = [] ∨
      History.consumedSince p (.revokePartitions partitions :: requests) =
        History.consumedSince p requests := by
    intro p
    by_cases hp : p ∈ revokedTopicIds partitions <;> simp [History.consumedSince, hp]
  exact
    { unassigned := fun p hposition => by rw [hsame p]; exact h.unassigned p hposition
      passed := fun p n hposition => by rw [hsame p]; exact h.passed p n hposition
      inHand := fun record hrecord => by rw [hsame _]; exact h.inHand record hrecord
      entry := fun p n hposition hnil => h.entry p n hposition (hsame p ▸ hnil)
      begins := fun p first hhead => by
        rcases hsince p with hnil | hold
        · rw [hnil] at hhead
          cases hhead
        · exact h.begins p first (hold ▸ hhead)
      ascending := fun p => by
        rcases hsince p with hnil | hold
        · rw [hnil]
          exact List.Pairwise.nil
        · exact hold ▸ h.ascending p
      held := h.held
      covered := ⟨fun _ hnone => (by cases hnone), h.covered⟩
      assignment := fun currentAssignment hphase p => by
        rw [hsame p]
        exact h.assignment currentAssignment hphase p }

/-- The record taken is handled. -/
theorem processRecord {record : Message}
    (h : Tracks log delivered requests (.polled (.record record)) consumer)
    (hchannel : consumer.rebalanceChannel = []) (hhand' : phase'.inHand = none)
    (htick : ∀ currentAssignment, phase' ≠ .polled (.commitTick currentAssignment)) :
    Tracks log delivered (.processRecord record :: requests) phase' consumer := by
  have hall : ∀ requests p, consumer.consumed requests p = History.consumedSince p requests :=
    fun requests p => if_neg (by simp [Consumer.Lost, hchannel])
  obtain ⟨hheld, hbehind, hbefore, hfirst⟩ := h.inHand record rfl
  rw [hall] at hbehind hfirst
  have hself : History.consumedSince record.topicId (.processRecord record :: requests) =
      History.consumedSince record.topicId requests ++ [record.offset] := if_pos rfl
  have hother : ∀ p, record.topicId ≠ p →
      History.consumedSince p (.processRecord record :: requests) =
        History.consumedSince p requests := fun p hp => if_neg hp
  refine
    { unassigned := fun p hposition => ?_
      passed := fun p n hposition => ?_
      inHand := fun record' hrecord => by rw [hhand'] at hrecord; cases hrecord
      entry := fun p n hposition hnil _ => ?_
      begins := fun p first hhead => ?_
      ascending := fun p => ?_
      held := fun record' hrecord => ?_
      covered := ⟨fun _ hnone => (by cases hnone), h.covered⟩
      assignment := fun currentAssignment hphase => absurd hphase (htick currentAssignment) }
  · obtain ⟨hnil, hne⟩ := h.unassigned p hposition
    rw [hall] at hnil
    rw [hall, hother p (hne record rfl)]
    exact ⟨hnil, by simp [hhand']⟩
  · have hold := h.passed p n hposition
    rw [hall] at hold ⊢
    by_cases hp : record.topicId = p
    · subst hp
      rw [hself]
      intro o ho
      rcases List.mem_append.1 ho with ho | ho
      · exact hold o ho
      · rw [List.mem_singleton.1 ho]
        exact hbefore n hposition
    · rw [hother p hp]
      exact hold
  · rw [hall] at hnil
    by_cases hp : record.topicId = p
    · subst hp
      rw [hself] at hnil
      simp at hnil
    · rw [hother p hp] at hnil
      refine h.entry p n hposition (by rw [hall]; exact hnil) fun record' hrecord => ?_
      cases hrecord
      exact hp
  · by_cases hp : record.topicId = p
    · subst hp
      rw [hself] at hhead
      cases hsince : History.consumedSince record.topicId requests with
      | nil =>
          rw [hsince] at hhead
          cases hhead
          exact hfirst hsince
      | cons o rest =>
          rw [hsince] at hhead
          cases hhead
          exact h.begins _ _ (by rw [hsince]; rfl)
    · rw [hother p hp] at hhead
      exact h.begins p first hhead
  · by_cases hp : record.topicId = p
    · subst hp
      rw [hself]
      refine List.pairwise_append.2
        ⟨h.ascending _, List.pairwise_singleton _ _, fun o ho o' ho' => ?_⟩
      rw [List.mem_singleton.1 ho']
      exact hbehind o ho
    · rw [hother p hp]
      exact h.ascending p
  · rcases List.mem_append.1 hrecord with hold | hnew
    · exact h.held record' hold
    · rw [List.mem_singleton.1 hnew]
      exact hheld

/-- A handled request that brings no record, revokes nothing and commits nothing. -/
theorem handled (h : Tracks log delivered requests phase consumer) {request : Request}
    (hrecord : ∀ record, request ≠ .processRecord record)
    (hrevoke : ∀ partitions, request ≠ .revokePartitions partitions)
    (hcovers : ∀ currentAssignment, History.assignment? request = some currentAssignment →
      ∀ p, History.consumedSince p requests ≠ [] → currentAssignment.Assigns p)
    (hhand : phase.inHand = none) (hwaits : phase'.waits = true) :
    Tracks log delivered (request :: requests) phase' consumer := by
  refine h.quiet (fun p => ?_) ?_ ⟨hcovers, h.covered⟩ hhand (Phase.inHand_of_waits hwaits)
    fun a ha => absurd ha (Phase.not_commitTick_of_waits hwaits a)
  all_goals
    cases request with
    | processRecord record => exact absurd rfl (hrecord record)
    | revokePartitions partitions => exact absurd rfl (hrevoke partitions)
    | _ => rfl

/-- The request of the branch taken is handled, the channel being empty. -/
theorem event {branch : Polled} (h : Tracks log delivered requests (.polled branch) consumer)
    (hchannel : consumer.rebalanceChannel = []) (hwaits : phase'.waits = true) :
    Tracks log delivered (branch.request :: requests) phase' consumer := by
  have hquiet : ∀ {request : Request}, (∀ record, request ≠ .processRecord record) →
      (∀ partitions, request ≠ .revokePartitions partitions) →
      History.assignment? request = none → Phase.inHand (.polled branch) = none →
      Tracks log delivered (request :: requests) phase' consumer := by
    intro request hrecord hrevoke hnone hhand
    exact h.handled hrecord hrevoke (fun a ha => by rw [hnone] at ha; cases ha) hhand hwaits
  cases branch with
  | record record =>
      exact h.processRecord hchannel (Phase.inHand_of_waits hwaits)
        (Phase.not_commitTick_of_waits hwaits)
  | commitTick currentAssignment =>
      refine h.handled (by simp [Polled.request]) (by simp [Polled.request]) ?_ rfl hwaits
      intro a ha p hne
      cases ha
      exact h.assignment _ rfl p (by simpa [Consumer.consumed, Consumer.Lost, hchannel] using hne)
  | uploadTick => exact hquiet (by simp [Polled.request]) (by simp [Polled.request]) rfl rfl
  | uploadCompletion toUpload failure =>
      exact hquiet (by simp [Polled.request]) (by simp [Polled.request]) rfl rfl
  | shutdown => exact hquiet (by simp [Polled.request]) (by simp [Polled.request]) rfl rfl

/-- One event of a sink that goes on. -/
theorem sink {K : Type} [KeyGenerator K] {s s' : SinkState DiskFileRegistry K}
    {h : List (SinkEvent DiskFileRegistry K)} {event : SinkEvent DiskFileRegistry K}
    (htracks : Tracks log delivered (S3Sink.requests (steps h)) s.phase consumer)
    (hstep : SinkStep s event s') (hfeeds : consumer.Feeds log event consumer')
    (hphase : ∀ result, s'.phase ≠ .returned result) :
    Tracks log delivered (S3Sink.requests (steps (event :: h))) s'.phase consumer' := by
  -- a branch that reads nothing else from the consumer
  have hpoll : ∀ {branch : Polled}, s.phase = .eventLoop → Phase.inHand (.polled branch) = none →
      (∀ a, branch = .commitTick a → consumer.AssignmentIs a) →
      Tracks log delivered (S3Sink.requests (steps h)) (.polled branch) consumer := by
    intro branch heventLoop hhand htick
    rw [heventLoop] at htracks
    exact htracks.quiet (fun _ => rfl) rfl htracks.covered rfl hhand fun a ha =>
      htick a (by cases ha; rfl)
  cases hfeeds with
  | record hnext =>
      cases hstep
      exact htracks.receive hnext
  | commitTick hassignment =>
      cases hstep
      exact hpoll rfl rfl fun a ha => by cases ha; exact hassignment
  | tick =>
      cases hstep
      exact hpoll rfl rfl fun a ha => by cases ha
  | completion =>
      cases hstep
      exact hpoll rfl rfl fun a ha => by cases ha
  | shutdown =>
      cases hstep
      exact hpoll rfl rfl fun a ha => by cases ha
  | skip =>
      cases hstep
      exact htracks
  | abort => cases hstep <;> exact absurd rfl (hphase _)
  | @revoke e _ partitions rest hchannel hrequest =>
      cases hstep
      have hcons := htracks.revoke hchannel
      rw [← hrequest] at hcons
      exact hcons
  | @event e _ hchannel =>
      cases hstep with
      | @event _ _ _ branch _ _ flow _ hsm hrequest hloop =>
          have hwaits : flow.afterEvent.waits = true := by
            cases flow with
            | returnErr error => exact absurd rfl (hphase _)
            | _ => rfl
          have hcons := htracks.event hchannel hwaits
          rw [← hrequest] at hcons
          exact hcons
  | @drain e =>
      cases hstep with
      | @drain _ _ _ _ _ _ _ flow hsm hrequest hloop =>
          have hwaits : flow.afterDrain.waits = true := by
            cases flow with
            | returnErr error => exact absurd rfl (hphase _)
            | _ => rfl
          have hcons : Tracks log delivered (e.request :: S3Sink.requests (steps h)) _ consumer :=
            htracks.handled (by simp [hrequest]) (by simp [hrequest])
              (by simp [hrequest, History.assignment?]) rfl hwaits
          exact hcons
  | final =>
      cases hstep with
      | @final _ _ _ _ _ flow => cases flow <;> exact absurd rfl (hphase _)

end Tracks

end S3Sink
