import S3Sink.Cluster.Provenance

/-!
# Once — duplicates come from partitions assigned again

At least once is not exactly once: a record consumed again is stored again.  But a partition is
consumed again only after it was assigned again, following a rebalance or a restart.  As long as no
partition was assigned twice, no record is in two objects, or twice in one.

* `received`, `Reads` — what a member has been handed by its consumer, each record once;
* `Filed`, `recordsBy_of_step` — what one event stores was not stored before;
* `Once` — what every event of the group keeps;
* `stored_once` — whole runs.
-/

namespace S3Sink

open TransitionSystem StateMachine Placement Sink

variable {ι K : Type}

/-! ## One member -/

/-- The records a member has been handed, the oldest first. -/
def received (requests : List Request) (phase : Phase) : List Message :=
  consumedRecords requests ++ phase.inHand.toList

/-- Each record was received once, and the consumer goes on behind it. -/
structure Reads (records : List Message) (consumer : Consumer) : Prop where
  passed : ∀ p n, consumer.position p = some n → ∀ record ∈ records, record.topicId = p →
    record.offset.val < n
  nodup : records.Nodup

/-- The member is assigned the partition, or has received records of it. -/
def Knows (records : List Message) (consumer : Consumer) (p : TopicId) : Prop :=
  consumer.position p ≠ none ∨ ∃ record ∈ records, record.topicId = p

theorem Reads.nil (consumer : Consumer) : Reads [] consumer where
  passed _ _ _ _ hmem := absurd hmem List.not_mem_nil
  nodup := List.nodup_nil

theorem not_knows_nil {consumer : Consumer} (hnone : ∀ p, consumer.position p = none)
    (p : TopicId) : ¬ Knows [] consumer p := by
  rintro (hassigned | ⟨record, hmem, -⟩)
  · exact hassigned (hnone p)
  · exact absurd hmem List.not_mem_nil

/-- A member that has just been started knows nothing. -/
theorem Member.Started.unread {inputTopics : List (TopicConfig × List TopicName)}
    {member : Member K} (h : member.Started inputTopics) :
    received [] member.sink.phase = [] ∧ ∀ p, member.consumer.position p = none := by
  obtain ⟨directory, os, keyGenerator, config, rfl⟩ := h
  exact ⟨rfl, fun _ => rfl⟩

/-- The record that an event brings. -/
def SinkEvent.brings : SinkEvent DiskFileRegistry K → Option Message
  | .poll (.record record) => some record
  | _ => none

section Member

variable [KeyGenerator K] {log : Log} {s s' : SinkState DiskFileRegistry K}
variable {h : List (SinkEvent DiskFileRegistry K)} {event : SinkEvent DiskFileRegistry K}
variable {consumer consumer' : Consumer}

/-- A record in hand is processed, so only the consumer brings new ones. -/
theorem received_of_step (hstep : SinkStep s event s') :
    received (requests (steps (event :: h))) s'.phase =
      received (requests (steps h)) s.phase ++ event.brings.toList := by
  have hquiet : ∀ {request : Request}, (∀ record, request ≠ .processRecord record) →
      consumedRecords (request :: requests (steps h)) = consumedRecords (requests (steps h)) := by
    intro request hrequest
    cases request with
    | processRecord record => exact absurd rfl (hrequest record)
    | _ => rfl
  cases hstep with
  | skip => exact (List.append_nil _).symm
  | poll branch =>
      cases branch with
      | record record =>
          change consumedRecords _ ++ [record] = consumedRecords _ ++ [] ++ [record]
          rw [List.append_nil]
          rfl
      | _ => exact (List.append_nil _).symm
  | abort error => exact (List.append_nil _).symm
  | abortDrain error => exact (List.append_nil _).symm
  | @revoke _ _ _ branch partitions e _ hrequest =>
      change consumedRecords (e.request :: requests (steps h)) ++ _ = _ ++ []
      rw [hquiet (by simp [hrequest]), List.append_nil]
      rfl
  | @event _ _ _ branch e _ flow _ _ hrequest _ =>
      have hhand : flow.afterEvent.inHand = none := by cases flow <;> rfl
      change consumedRecords (e.request :: requests (steps h)) ++ flow.afterEvent.inHand.toList =
        consumedRecords _ ++ _ ++ []
      rw [hhand, hrequest, List.append_nil]
      cases branch with
      | record record => exact List.append_nil _
      | _ => rfl
  | @drain _ _ _ _ _ e _ flow _ hrequest _ =>
      have hhand : flow.afterDrain.inHand = none := by cases flow <;> rfl
      change consumedRecords (e.request :: requests (steps h)) ++ flow.afterDrain.inHand.toList =
        consumedRecords _ ++ [] ++ []
      rw [hhand, hquiet (by simp [hrequest]), List.append_nil]
      rfl
  | @final _ _ _ e _ flow _ _ hrequest _ =>
      have hhand : flow.afterFinal.inHand = none := by cases flow <;> rfl
      change consumedRecords (e.request :: requests (steps h)) ++ flow.afterFinal.inHand.toList =
        consumedRecords _ ++ [] ++ []
      rw [hhand, hquiet (by simp [hrequest]), List.append_nil]
      rfl

omit [KeyGenerator K] in
/-- Only a record that is brought moves the position, and no record is brought twice. -/
theorem Consumer.Feeds.reads (hfeeds : consumer.Feeds log event consumer') {records : List Message}
    (hreads : Reads records consumer) :
    Reads (records ++ event.brings.toList) consumer' ∧
      (∀ p, Knows (records ++ event.brings.toList) consumer' p → Knows records consumer p) ∧
      ∀ record, event.brings = some record → record ∉ records ∧
        Knows records consumer record.topicId := by
  have hquiet : ∀ {event : SinkEvent DiskFileRegistry K}, event.brings = none →
      consumer'.position = consumer.position →
      Reads (records ++ event.brings.toList) consumer' ∧
        (∀ p, Knows (records ++ event.brings.toList) consumer' p → Knows records consumer p) ∧
        ∀ record, event.brings = some record → record ∉ records ∧
          Knows records consumer record.topicId := by
    intro event hbrings hposition
    rw [hbrings, Option.toList_none, List.append_nil]
    refine ⟨⟨fun p n => hposition ▸ hreads.passed p n, hreads.nodup⟩, fun p hknows => ?_,
      fun _ hsome => by cases hsome⟩
    rwa [Knows, hposition] at hknows
  cases hfeeds with
  | @record record hnext =>
      obtain ⟨-, offset, hposition, hle, -⟩ := hnext
      have hnew : record ∉ records := fun hmem =>
        absurd (hreads.passed _ offset hposition record hmem rfl) (not_lt.2 hle)
      have hknown : Knows records consumer record.topicId := Or.inl (by simp [hposition])
      have hreceived : (consumer.receive record).position =
          Function.update consumer.position record.topicId (some (record.offset.val + 1)) := rfl
      refine ⟨⟨fun p n hn record' hmem hp => ?_, ?_⟩, fun p hknows => ?_, ?_⟩
      · rw [hreceived] at hn
        by_cases hsame : p = record.topicId
        · subst hsame
          rw [Function.update_self, Option.some.injEq] at hn
          rcases List.mem_append.1 hmem with hold | hlast
          · have hlt := hreads.passed _ offset hposition record' hold hp
            omega
          · rw [List.mem_singleton.1 hlast]
            omega
        · rw [Function.update_of_ne hsame] at hn
          rcases List.mem_append.1 hmem with hold | hlast
          · exact hreads.passed p n hn record' hold hp
          · exact absurd (hp.symm.trans (by rw [List.mem_singleton.1 hlast])) hsame
      · refine List.nodup_append.2 ⟨hreads.nodup, List.nodup_singleton _, ?_⟩
        rintro record' hold _ hlast rfl
        exact hnew (List.mem_singleton.1 hlast ▸ hold)
      · by_cases hsame : p = record.topicId
        · exact hsame ▸ hknown
        · rcases hknows with hassigned | ⟨record', hmem, hp⟩
          · rw [hreceived, Function.update_of_ne hsame] at hassigned
            exact Or.inl hassigned
          · rcases List.mem_append.1 hmem with hold | hlast
            · exact Or.inr ⟨record', hold, hp⟩
            · exact absurd (hp.symm.trans (by rw [List.mem_singleton.1 hlast])) hsame
      · rintro record' hbrings
        cases hbrings
        exact ⟨hnew, hknown⟩
  | _ => exact hquiet rfl rfl

end Member

/-- The record is in a file whose upload was reported as successful. -/
def Filed (h : List (SinkEvent DiskFileRegistry K)) (record : Message) : Prop :=
  ∃ path, Reported h path ∧ (record, .file path) ∈ ledger (steps h)

theorem Filed.cons {h : List (SinkEvent DiskFileRegistry K)} {record : Message}
    (hfiled : Filed h record) (event : SinkEvent DiskFileRegistry K) :
    Filed (event :: h) record := by
  obtain ⟨path, hreported, hmem⟩ := hfiled
  cases event with
  | handled loop e actions =>
      refine ⟨path, ?_, mem_move.2 ⟨.file path, List.mem_append_left _ hmem, rfl⟩⟩
      obtain ⟨request, hrequest, hpath⟩ := List.mem_filterMap.1 hreported
      exact List.mem_filterMap.2 ⟨request, List.mem_cons_of_mem _ hrequest, hpath⟩
  | _ => exact ⟨path, hreported, hmem⟩

section Stored

variable [KeyGenerator K]
variable {inputTopics : List (TopicConfig × List TopicName)} {directory : PathBuf}
variable {os : OperatingSystem} {keyGenerator : K} {config : StateMachineConfiguration}
variable {s s' : SinkState DiskFileRegistry K} {h : List (SinkEvent DiskFileRegistry K)}
variable {event : SinkEvent DiskFileRegistry K}

/-- The records in an object were consumed, each once, and are in no object stored before. -/
theorem recordsBy_of_step
    (hrun : Run (Sink.system (new inputTopics (DiskFileRegistry.new directory os) keyGenerator
      config)) h s) (hstep : SinkStep s event s')
    (hnodup : (consumedRecords (requests (steps h))).Nodup) :
    (recordsBy event h).flatten.Nodup ∧ ∀ record ∈ (recordsBy event h).flatten,
      record ∈ consumedRecords (requests (steps h)) ∧ ¬ Filed h record ∧
        Filed (event :: h) record := by
  rcases recordsBy_cases event h s'.stateMachine.fileRegistry with
    ⟨loop, e, actions, path, offsets, rfl, hrequest, -, hrecords⟩ | ⟨-, hnone⟩
  · rw [hrecords, List.flatten_singleton]
    obtain ⟨hfree, -⟩ := sealed_of_success hrun hstep hrequest
    have hsteps : Run (StateMachine.system _) (e :: steps h) s'.stateMachine :=
      run_steps (Run.step hrun hstep)
    have hplaces : ((ledger (e :: steps h)).map Prod.fst).Nodup := by
      rw [map_fst_ledger hsteps hfree]
      change (consumedRecords (e.request :: requests (steps h))).Nodup
      rw [hrequest]
      exact hnodup
    have hreported : History.reportedPaths (requests (steps (.handled loop e actions :: h))) =
        path :: History.reportedPaths (requests (steps h)) := by
      change (e.request :: requests (steps h)).filterMap _ = _
      rw [hrequest]
      rfl
    constructor
    · rw [← map_fst_filter]
      exact hplaces.sublist (List.filter_sublist.map Prod.fst)
    · intro record hmem
      have hplaced := mem_itemsAt.1 hmem
      refine ⟨consumed_of_success hrun hstep hrequest hplaced, ?_, path, ?_, hplaced⟩
      -- the upload of the file would have been reported twice
      · rintro ⟨path', hreported', hmem'⟩
        have hplaced' : (record, Place.file path') ∈ ledger (e :: steps h) :=
          mem_move.2 ⟨.file path', List.mem_append_left _ hmem', rfl⟩
        cases List.inj_on_of_nodup_map hplaces hplaced hplaced' rfl
        obtain ⟨hone, hcount, -⟩ := pathCounts_of_run (Run.step hrun hstep) hfree path
        rw [map_fst_reportedParts, hreported, List.count_cons_self] at hcount
        have hbefore := List.count_pos_iff.2 hreported'
        omega
      · unfold Reported
        rw [hreported]
        exact List.mem_cons_self
  · rw [hnone]
    exact ⟨List.nodup_nil, fun record hmem => absurd hmem List.not_mem_nil⟩

end Stored

/-! ## The group -/

section Group

variable [DecidableEq ι]

namespace Cluster

/-- What a member has received since it was last started. -/
def received (self : Cluster ι K) (h : List (ClusterEvent ι K)) (i : ι) : List Message :=
  S3Sink.received (requests (steps (sinkEvents i h))) (self.members i).sink.phase

def Knows (self : Cluster ι K) (h : List (ClusterEvent ι K)) (i : ι) (p : TopicId) : Prop :=
  S3Sink.Knows (self.received h i) (self.members i).consumer p

end Cluster

/-- A partition is one member's for good, and what is stored of it was in a file of that member. -/
structure Once (h : List (ClusterEvent ι K)) (c : Cluster ι K) : Prop where
  reads : ∀ i, Reads (c.received h i) (c.members i).consumer
  known : ∀ i p, c.Knows h i p → p ∈ assigned h
  alone : ∀ i j p, c.Knows h i p → c.Knows h j p → i = j
  stored : ∀ record ∈ (storedRecords h).flatten, record.topicId ∈ assigned h
  own : ∀ record ∈ (storedRecords h).flatten, ∀ i, c.Knows h i record.topicId →
    record ∈ c.received h i
  filed : ∀ i, ∀ record ∈ c.received h i, record ∈ (storedRecords h).flatten →
    Filed (sinkEvents i h) record
  nodup : (storedRecords h).flatten.Nodup

/-- What an event of the member `i` does, which stores the records `new`. -/
structure Advances (h : List (ClusterEvent ι K)) (c : Cluster ι K) (i : ι)
    (event : ClusterEvent ι K) (c' : Cluster ι K) (new : List Message) : Prop where
  others : ∀ j, j ≠ i → c'.members j = c.members j ∧ sinkEvents j (event :: h) = sinkEvents j h
  assigned : assigned h ⊆ assigned (event :: h)
  stored : (storedRecords (event :: h)).flatten = (storedRecords h).flatten ++ new
  reads : Reads (c'.received (event :: h) i) (c'.members i).consumer
  /-- the member knows no other partition than before, unless one is assigned that is new -/
  knows : ∀ p, c'.Knows (event :: h) i p →
    c.Knows h i p ∨ p ∈ S3Sink.assigned (event :: h) ∧ p ∉ S3Sink.assigned h
  kept : ∀ p, c'.Knows (event :: h) i p → ∀ record ∈ c.received h i, record.topicId = p →
    record ∈ c'.received (event :: h) i
  nodup : new.Nodup
  fresh : ∀ record ∈ new, record ∈ c.received h i ∧ record ∈ c'.received (event :: h) i ∧
    record ∉ (storedRecords h).flatten
  filed : ∀ record ∈ c'.received (event :: h) i, record ∈ (storedRecords (event :: h)).flatten →
    Filed (sinkEvents i (event :: h)) record

/-- One event of one member. -/
theorem Once.advance {h : List (ClusterEvent ι K)} {c c' : Cluster ι K} {i : ι}
    {event : ClusterEvent ι K} {new : List Message} (honce : Once h c)
    (hadvances : Advances h c i event c' new) : Once (event :: h) c' := by
  have hreceived : ∀ j, j ≠ i → c'.received (event :: h) j = c.received h j := by
    intro j hj
    obtain ⟨hmember, hevents⟩ := hadvances.others j hj
    rw [Cluster.received, hmember, hevents, Cluster.received]
  have hknown : ∀ j p, j ≠ i → c'.Knows (event :: h) j p → c.Knows h j p := by
    intro j p hj hknows
    rwa [Cluster.Knows, hreceived j hj, (hadvances.others j hj).1] at hknows
  have howned : ∀ record ∈ new, c.Knows h i record.topicId := fun record hmem =>
    Or.inr ⟨record, (hadvances.fresh record hmem).1, rfl⟩
  -- a member other than `i` that knows a partition keeps `i` from it
  have hapart : ∀ j p, j ≠ i → c'.Knows (event :: h) j p → ¬ c'.Knows (event :: h) i p := by
    intro j p hj hknows hknows'
    have hbefore := hknown j p hj hknows
    rcases hadvances.knows p hknows' with hold | ⟨-, hnot⟩
    · exact hj (honce.alone j i p hbefore hold)
    · exact hnot (honce.known j p hbefore)
  exact
    { reads := fun j => by
        by_cases hj : j = i
        · exact hj ▸ hadvances.reads
        · rw [hreceived j hj, (hadvances.others j hj).1]
          exact honce.reads j
      known := fun j p hknows => by
        by_cases hj : j = i
        · subst hj
          exact (hadvances.knows p hknows).elim
            (fun hold => hadvances.assigned (honce.known j p hold)) fun hnew => hnew.1
        · exact hadvances.assigned (honce.known j p (hknown j p hj hknows))
      alone := fun j j' p hknows hknows' => by
        by_cases hj : j = i
        · subst hj
          by_contra hne
          exact hapart j' p (Ne.symm hne) hknows' hknows
        · by_cases hj' : j' = i
          · subst hj'
            exact absurd hknows' (hapart j p hj hknows)
          · exact honce.alone j j' p (hknown j p hj hknows) (hknown j' p hj' hknows')
      stored := fun record hmem => by
        rw [hadvances.stored] at hmem
        rcases List.mem_append.1 hmem with hold | hnew
        · exact hadvances.assigned (honce.stored record hold)
        · exact hadvances.assigned (honce.known i _ (howned record hnew))
      own := fun record hmem j hknows => by
        rw [hadvances.stored] at hmem
        by_cases hj : j = i
        · subst hj
          rcases List.mem_append.1 hmem with hold | hnew
          · rcases hadvances.knows _ hknows with hbefore | ⟨-, hnot⟩
            · exact hadvances.kept _ hknows record (honce.own record hold j hbefore) rfl
            · exact absurd (honce.stored record hold) hnot
          · exact (hadvances.fresh record hnew).2.1
        · have hbefore := hknown j _ hj hknows
          rw [hreceived j hj]
          rcases List.mem_append.1 hmem with hold | hnew
          · exact honce.own record hold j hbefore
          · exact absurd (honce.alone j i _ hbefore (howned record hnew)) hj
      filed := fun j record hmem hstored => by
        by_cases hj : j = i
        · subst hj
          exact hadvances.filed record hmem hstored
        · rw [hreceived j hj] at hmem
          rw [(hadvances.others j hj).2]
          rw [hadvances.stored] at hstored
          rcases List.mem_append.1 hstored with hold | hnew
          · exact honce.filed j record hmem hold
          · exact absurd (honce.alone j i _ (Or.inr ⟨record, hmem, rfl⟩) (howned record hnew)) hj
      nodup := by
        rw [hadvances.stored]
        refine List.nodup_append.2 ⟨honce.nodup, hadvances.nodup, ?_⟩
        rintro record hold _ hnew rfl
        exact (hadvances.fresh record hnew).2.2 hold }

/-! ## The events -/

section Events

variable {h : List (ClusterEvent ι K)} {c c' : Cluster ι K} {i : ι} {event : ClusterEvent ι K}

/-- An event of the consumer alone. -/
theorem Once.consumer (honce : Once h c) {consumer' : Consumer}
    (hmembers : c'.members = (c.withMember i ⟨(c.members i).sink, consumer'⟩).members)
    (hevents : ∀ j, sinkEvents j (event :: h) = sinkEvents j h)
    (hassigned : assigned h ⊆ assigned (event :: h))
    (hstored : storedRecords (event :: h) = storedRecords h)
    (hposition : ∀ p n, consumer'.position p = some n →
      (c.members i).consumer.position p = some n ∨
        p ∈ assigned (event :: h) ∧ p ∉ assigned h) : Once (event :: h) c' := by
  have hself : c'.members i = ⟨(c.members i).sink, consumer'⟩ := by
    rw [hmembers]
    exact Function.update_self _ _ _
  have hreceived : c'.received (event :: h) i = c.received h i := by
    rw [Cluster.received, hevents, hself, Cluster.received]
  refine honce.advance (i := i)
    { others := fun j hj => ⟨by rw [hmembers]; exact Function.update_of_ne hj _ _, hevents j⟩
      assigned := hassigned
      stored := by rw [hstored, List.append_nil]
      reads := ?_
      knows := fun p hknows => ?_
      kept := fun p _ record hmem _ => hreceived ▸ hmem
      nodup := List.nodup_nil
      fresh := fun record hmem => absurd hmem List.not_mem_nil
      filed := fun record hmem hrecord => ?_ }
  · rw [hreceived, hself]
    refine ⟨fun p n hn record hmem hp => ?_, (honce.reads i).nodup⟩
    rcases hposition p n hn with hold | ⟨-, hnew⟩
    · exact (honce.reads i).passed p n hold record hmem hp
    -- nothing was received of a partition that was never assigned
    · exact absurd (honce.known i p (Or.inr ⟨record, hmem, hp⟩)) hnew
  · rw [Cluster.Knows, hreceived, hself] at hknows
    rcases hknows with hassigns | hrecord
    · obtain ⟨n, hn⟩ := Option.ne_none_iff_exists'.1 hassigns
      exact (hposition p n hn).imp_left fun hold => Or.inl (by simp [hold])
    · exact Or.inl (Or.inr hrecord)
  · rw [hreceived] at hmem
    rw [hstored] at hrecord
    rw [hevents]
    exact honce.filed i record hmem hrecord

variable [KeyGenerator K] {log : Log} {inputTopics : List (TopicConfig × List TopicName)}

/-- An event of the sink. -/
theorem Once.sink (honce : Once h c) (hsound : c.Sound log inputTopics h)
    {event : SinkEvent DiskFileRegistry K} {sink' : SinkState DiskFileRegistry K}
    {consumer' : Consumer} (hstep : SinkStep (c.members i).sink event sink')
    (hfeeds : (c.members i).consumer.Feeds log event consumer') :
    Once (.sink i event :: h) (c.afterSink i event sink' consumer') := by
  have hself : (c.afterSink i event sink' consumer').members i = ⟨sink', consumer'⟩ :=
    Function.update_self _ _ _
  have hreceived : (c.afterSink i event sink' consumer').received (.sink i event :: h) i =
      c.received h i ++ event.brings.toList := by
    rw [Cluster.received, sinkEvents_sink_self, hself]
    exact received_of_step hstep
  obtain ⟨hreads, hknows, hbrings⟩ := hfeeds.reads (honce.reads i)
  obtain ⟨directory, os, keyGenerator, config, hrun⟩ := (hsound.members i).run
  obtain ⟨hnodup, hrecords⟩ := recordsBy_of_step hrun hstep
    ((honce.reads i).nodup.sublist (List.sublist_append_left _ _))
  have hstored : (storedRecords (.sink i event :: h)).flatten =
      (storedRecords h).flatten ++ (recordsBy event (sinkEvents i h)).flatten :=
    List.flatten_append
  refine honce.advance (i := i)
    { others := fun j hj => ⟨Function.update_of_ne hj _ _, sinkEvents_sink_other hj event h⟩
      assigned := List.Subset.refl _
      stored := hstored
      reads := by rw [hreceived, hself]; exact hreads
      knows := fun p hknown => ?_
      kept := fun p _ record hmem _ => by rw [hreceived]; exact List.mem_append_left _ hmem
      nodup := hnodup
      fresh := fun record hmem => ?_
      filed := fun record hmem hrecord => ?_ }
  · rw [Cluster.Knows, hreceived, hself] at hknown
    exact Or.inl (hknows p hknown)
  · obtain ⟨hconsumed, hnot, -⟩ := hrecords record hmem
    have hold : record ∈ c.received h i := List.mem_append_left _ hconsumed
    exact ⟨hold, by rw [hreceived]; exact List.mem_append_left _ hold,
      fun hmem' => hnot (honce.filed i record hold hmem')⟩
  · rw [sinkEvents_sink_self]
    rw [hreceived] at hmem
    rw [hstored] at hrecord
    rcases List.mem_append.1 hrecord with hold | hnew
    · refine Filed.cons (honce.filed i record ?_ hold) event
      rcases List.mem_append.1 hmem with hmem | hbrought
      · exact hmem
      -- a record brought now was not stored before
      · obtain ⟨-, hknown⟩ := hbrings record (Option.mem_toList.1 hbrought)
        exact honce.own record hold i hknown
    · exact (hrecords record hnew).2.2

omit [KeyGenerator K] in
/-- A member starts with nothing. -/
theorem Once.restart (honce : Once h c) {member : Member K}
    (hstarted : member.Started inputTopics) : Once (.restart i :: h) (c.withMember i member) := by
  have hself : (c.withMember i member).members i = member := Function.update_self _ _ _
  have hempty : (c.withMember i member).received (.restart i :: h) i = [] := by
    have hevents : sinkEvents i (.restart i :: h) = [] := if_pos rfl
    rw [Cluster.received, hevents, hself]
    exact hstarted.unread.1
  have hnone : ∀ p, ¬ (c.withMember i member).Knows (.restart i :: h) i p := by
    intro p
    rw [Cluster.Knows, hempty, hself]
    exact not_knows_nil hstarted.unread.2 p
  exact honce.advance (i := i)
    { others := fun j hj => ⟨Function.update_of_ne hj _ _, if_neg hj.symm⟩
      assigned := List.Subset.refl _
      stored := (List.append_nil _).symm
      reads := by
        rw [hempty]
        exact Reads.nil _
      knows := fun p hknows => absurd hknows (hnone p)
      kept := fun p hknows => absurd hknows (hnone p)
      nodup := List.nodup_nil
      fresh := fun record hmem => absurd hmem List.not_mem_nil
      filed := fun record hmem _ => by
        rw [hempty] at hmem
        exact absurd hmem List.not_mem_nil }

/-- One event of the group, which assigns no partition for the second time. -/
theorem Once.step (honce : Once h c) (hsound : c.Sound log inputTopics h)
    (hstep : ClusterStep log inputTopics c event c') (hnodup : (assigned (event :: h)).Nodup) :
    Once (event :: h) c' := by
  -- the position of a partition that is assigned
  have hassign : ∀ {i : ι} {p p' : TopicId} {offset n : Int},
      ((c.members i).consumer.assign p offset).position p' = some n → p ∉ assigned h →
        (c.members i).consumer.position p' = some n ∨ p' ∈ p :: assigned h ∧ p' ∉ assigned h := by
    intro i p p' offset n hn hnew
    by_cases hp : p' = p
    · exact Or.inr ⟨hp ▸ List.mem_cons_self, hp ▸ hnew⟩
    · exact Or.inl (by simpa [Consumer.assign, hp] using hn)
  cases hstep with
  | @resume i p offset =>
      exact honce.consumer (i := i) rfl (fun _ => rfl) (List.subset_cons_self _ _) rfl
        fun p' n hn => hassign hn (List.nodup_cons.1 hnodup).1
  | @reset i p offset =>
      exact honce.consumer (i := i) rfl (fun _ => rfl) (List.subset_cons_self _ _) rfl
        fun p' n hn => hassign hn (List.nodup_cons.1 hnodup).1
  | @rebalance i partitions =>
      refine honce.consumer (i := i) rfl (fun _ => rfl) (List.Subset.refl _) rfl fun p n hn => ?_
      by_cases hp : p ∈ revokedTopicIds partitions
      · simp [Consumer.preRebalance, hp] at hn
      · exact Or.inl (by simpa [Consumer.preRebalance, hp] using hn)
  | sink hsink hfeeds => exact honce.sink hsound hsink hfeeds
  | accept => exact ⟨honce.reads, honce.known, honce.alone, honce.stored, honce.own, honce.filed,
      honce.nodup⟩
  | restart hstarted => exact honce.restart hstarted

end Events

namespace Cluster

variable [KeyGenerator K] {log : Log} {inputTopics : List (TopicConfig × List TopicName)}
variable {h : List (ClusterEvent ι K)} {c : Cluster ι K}

theorem once_of_run (hrun : Run (system log inputTopics) h c) (hnodup : (assigned h).Nodup) :
    Once h c := by
  induction hrun with
  | @start c hinit =>
      have hempty : ∀ i, c.received [] i = [] := fun i => (hinit.1 i).unread.1
      have hnone : ∀ i p, ¬ c.Knows [] i p := by
        intro i p
        rw [Knows, hempty]
        exact not_knows_nil (hinit.1 i).unread.2 p
      exact
        { reads := fun i => by
            rw [hempty]
            exact Reads.nil _
          known := fun i p hknows => absurd hknows (hnone i p)
          alone := fun i j p hknows => absurd hknows (hnone i p)
          stored := fun record hmem => absurd hmem List.not_mem_nil
          own := fun record hmem => absurd hmem List.not_mem_nil
          filed := fun i record _ hmem => absurd hmem List.not_mem_nil
          nodup := List.nodup_nil }
  | @step h c c' event hprev hstep ih =>
      have hbefore : (assigned h).Nodup := by
        cases event with
        | assign i p offset => exact (List.nodup_cons.1 hnodup).2
        | _ => exact hnodup
      exact (ih hbefore).step (sound_of_run hprev) hstep hnodup

/-- In every run of the group in which no partition is assigned twice, the objects are the lines of
lists of records that Kafka holds, and no record is in two of the lists, or twice in one. -/
theorem stored_once (hrun : Run (system log inputTopics) h c) (hnodup : (assigned h).Nodup) :
    c.objects = (storedRecords h).map (fun records =>
      (records.filterMap (lineOf (Cache.newConfigs inputTopics))).flatten) ∧
    (storedRecords h).flatten.Nodup ∧
      ∀ record ∈ (storedRecords h).flatten, log.Holds record := by
  obtain ⟨hobjects, hrecords⟩ := objects_of_run hrun
  refine ⟨hobjects, (once_of_run hrun hnodup).nodup, fun record hmem => ?_⟩
  obtain ⟨records, hstored, hmem⟩ := List.mem_flatten.1 hmem
  obtain ⟨id, hgenuine⟩ := hrecords records hstored
  exact (hgenuine record hmem).1

end Cluster

end Group

/-- Two sinks with a partition each. -/
theorem stored_once_sample : ∃ (h : List (ClusterEvent Bool IdentityKeyGenerator))
    (c : Cluster Bool _), Run (Cluster.system sampleLog sampleTopics) h c ∧
      (storedRecords h).length = 2 ∧ (storedRecords h).flatten.Nodup := by
  obtain ⟨h, e, actions, c, hsample⟩ := sampleGroup_run
  have honce := Cluster.stored_once hsample.run
    (by rw [show assigned (.sink false _ :: h) = assigned h from rfl, hsample.assigned]; decide)
  exact ⟨_, c, hsample.run, by rw [← hsample.stored, honce.1, List.length_map], honce.2.1⟩

end S3Sink
