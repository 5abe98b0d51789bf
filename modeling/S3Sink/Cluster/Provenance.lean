import S3Sink.Cluster.Delivery
import S3Sink.Sink.Scratch
import S3Sink.StateMachine.Order

/-!
# Provenance — nothing is made up

What the group stores comes from Kafka: an object is the lines of records that Kafka holds, all of
one stream.  What it commits lies within Kafka's log: an offset committed is one the group was
given, or it comes right behind a record that is in an object.

* `owner_of_file` — the stream of a file;
* `storedRecords`, `objects_genuine` — the objects, and the records in them;
* `Behind`, `committed_in_range` — the offsets committed.
-/

namespace S3Sink

open TransitionSystem StateMachine Placement Sink

variable {ι K : Type} [KeyGenerator K]
variable {inputTopics : List (TopicConfig × List TopicName)} {directory : PathBuf}
variable {os : OperatingSystem} {keyGenerator : K} {config : StateMachineConfiguration}

namespace StateMachine

variable {h : List (Step DiskFileRegistry K)} {sm : StateMachine DiskFileRegistry K}

/-- The records of a file are routed to one stream. -/
theorem owner_of_file
    (hrun : Run (system (new inputTopics (DiskFileRegistry.new directory os) keyGenerator config))
      h sm) (hfree : FatalFree h) (path : PathBuf) :
    ∃ id, ∀ record, (record, .file path) ∈ ledger h →
      streamOf (Cache.newConfigs inputTopics) record = some id := by
  induction hrun with
  | start hinit => exact ⟨⟨""⟩, fun record hmem => absurd hmem List.not_mem_nil⟩
  | @step h sm sm' e hprev hstep ih =>
      by_cases hsome : ∃ record id, (record, .file path) ∈ ledger (e :: h) ∧
          streamOf (Cache.newConfigs inputTopics) record = some id
      · obtain ⟨record, id, hmem, hstream⟩ := hsome
        refine ⟨id, fun record' hmem' => ?_⟩
        rw [← hstream]
        exact oneStream_of_run (Run.step hprev hstep) hfree hmem' hmem
      · obtain ⟨id, hrecords⟩ := ih hfree.tail
        refine ⟨id, fun record hmem => ?_⟩
        rcases sealsTo_of_ledger hprev hstep hfree hmem with hold | ⟨id', hid', -⟩
        · exact hrecords record hold
        · exact absurd ⟨record, id', hmem, hid'⟩ hsome

end StateMachine

/-! ## Objects -/

/-- A success is reported of a file that was sealed, and is not answered `Fatal`. -/
theorem sealed_of_success {h : List (SinkEvent DiskFileRegistry K)}
    {s s' : SinkState DiskFileRegistry K} {loop : Loop} {e : Step DiskFileRegistry K}
    {actions : List Action} {path : PathBuf} {offsets : HashMap TopicId (List Offset)}
    (hrun : Run (Sink.system (new inputTopics (DiskFileRegistry.new directory os) keyGenerator
      config)) h s) (hstep : SinkStep s (.handled loop e actions) s')
    (hrequest : e.request = .uploadCompletion (.success path offsets)) :
    FatalFree (e :: steps h) ∧ path ∈ sealedPaths (e :: steps h) := by
  have hfree : FatalFree (e :: steps h) := by
    intro e' he'
    rcases List.mem_cons.1 he' with rfl | he'
    · rw [((sinkStep_steps hstep).cases_of hrequest).success_responses]
      simp [NoFatal]
    · exact fatalFree_of_run hrun (running_of_step hstep) e' he'
  have hreported : Reported (.handled loop e actions :: h) path :=
    List.mem_filterMap.2 ⟨e.request, List.mem_cons_self, by rw [hrequest]⟩
  refine ⟨hfree, List.mem_reverse.2 (List.count_pos_iff.1 ?_)⟩
  exact (List.count_pos_iff.2 (reported_iff.1 hreported)).trans_le
    (pathCounts_of_run (Run.step hrun hstep) hfree path).reported

/-- The records of the file of which a success is reported were consumed before. -/
theorem consumed_of_success {h : List (SinkEvent DiskFileRegistry K)}
    {s s' : SinkState DiskFileRegistry K} {loop : Loop} {e : Step DiskFileRegistry K}
    {actions : List Action} {path : PathBuf} {offsets : HashMap TopicId (List Offset)}
    (hrun : Run (Sink.system (new inputTopics (DiskFileRegistry.new directory os) keyGenerator
      config)) h s) (hstep : SinkStep s (.handled loop e actions) s')
    (hrequest : e.request = .uploadCompletion (.success path offsets)) {record : Message}
    {place : Place} (hmem : (record, place) ∈ ledger (e :: steps h)) :
    record ∈ consumedRecords (requests (steps h)) := by
  have hsteps : Run (StateMachine.system _) (e :: steps h) s'.stateMachine :=
    run_steps (Run.step hrun hstep)
  have hconsumed : record ∈ consumedRecords (requests (e :: steps h)) := by
    rw [← map_fst_ledger hsteps (sealed_of_success hrun hstep hrequest).1]
    exact List.mem_map_of_mem hmem
  rcases mem_consumedRecords_cons.1 hconsumed with hnew | hold
  · rw [hrequest] at hnew
    cases hnew
  · exact hold

/-- The records in the object that an event stores. -/
def recordsBy (event : SinkEvent DiskFileRegistry K) (h : List (SinkEvent DiskFileRegistry K)) :
    List (List Message) :=
  match event with
  | .handled _ e _ =>
      match e.request with
      | .uploadCompletion (.success path _) => [itemsAt (ledger (e :: steps h)) (.file path)]
      | _ => []
  | _ => []

omit [KeyGenerator K] in
/-- An event stores the object of the upload whose success it reports, or none. -/
theorem recordsBy_cases (event : SinkEvent DiskFileRegistry K)
    (h : List (SinkEvent DiskFileRegistry K)) (reg : DiskFileRegistry) :
    (∃ loop e actions path offsets, event = .handled loop e actions ∧
      e.request = .uploadCompletion (.success path offsets) ∧
      Cluster.storedBy event reg = [reg.content path] ∧
      recordsBy event h = [itemsAt (ledger (e :: steps h)) (.file path)]) ∨
    Cluster.storedBy event reg = [] ∧ recordsBy event h = [] := by
  cases event with
  | handled loop e actions =>
      unfold Cluster.storedBy recordsBy
      cases hrequest : e.request with
      | uploadCompletion result =>
          cases result with
          | success path offsets =>
              exact Or.inl ⟨loop, e, actions, path, offsets, rfl, hrequest, by simp [hrequest]⟩
          | failure toUpload error => exact Or.inr (by simp [hrequest])
      | _ => exact Or.inr (by simp [hrequest])
  | _ => exact Or.inr ⟨rfl, rfl⟩

/-- The records are of one stream, and Kafka holds them. -/
def Log.OneStream (log : Log) (configs : HashMap TopicName TopicConfig) (records : List Message) :
    Prop :=
  ∃ id, ∀ record ∈ records, log.Holds record ∧ streamOf configs record = some id

/-- What one member stores is the lines of records of one stream. -/
theorem Member.Sound.recordsBy {log : Log} {c : Cluster ι K} {member : Member K}
    {h : List (SinkEvent DiskFileRegistry K)} (hsound : member.Sound log inputTopics c h)
    {event : SinkEvent DiskFileRegistry K} {sink' : SinkState DiskFileRegistry K}
    (hstep : SinkStep member.sink event sink') :
    Cluster.storedBy event sink'.stateMachine.fileRegistry = (S3Sink.recordsBy event h).map
      (fun records => (records.filterMap (lineOf (Cache.newConfigs inputTopics))).flatten) ∧
    ∀ records ∈ S3Sink.recordsBy event h, log.OneStream (Cache.newConfigs inputTopics) records := by
  have hphase : ∀ result, member.sink.phase ≠ .returned result := running_of_step hstep
  obtain ⟨directory, os, keyGenerator, config, hrun⟩ := hsound.run
  rcases recordsBy_cases event h sink'.stateMachine.fileRegistry with
    ⟨loop, e, actions, path, offsets, rfl, hrequest, hobjects, hrecords⟩ | ⟨hobjects, hrecords⟩
  · rw [hobjects, hrecords]
    have hsteps : Run (StateMachine.system _) (e :: steps h) sink'.stateMachine :=
      run_steps (Run.step hrun hstep)
    obtain ⟨hfree, hsealed⟩ := sealed_of_success hrun hstep hrequest
    obtain ⟨id, howner⟩ := owner_of_file hsteps hfree path
    refine ⟨congrArg (fun object => [object]) (content_of_sealed hsteps hfree hsealed), ?_⟩
    intro records hmem
    obtain rfl := List.mem_singleton.1 hmem
    refine ⟨id, fun record hrecord => ?_⟩
    have hplaced := mem_itemsAt.1 hrecord
    exact ⟨(hsound.tracks hphase).held record
      (consumed_of_success hrun hstep hrequest hplaced), howner record hplaced⟩
  · rw [hobjects, hrecords]
    exact ⟨rfl, fun records hmem => absurd hmem List.not_mem_nil⟩

/-- The content is the lines of records of one stream that Kafka holds. -/
def Log.Genuine (log : Log) (configs : HashMap TopicName TopicConfig) (object : Bytes) : Prop :=
  ∃ (id : StreamId) (records : List Message),
    object = (records.filterMap (lineOf configs)).flatten ∧ ∀ record ∈ records,
      log.Holds record ∧ streamOf configs record = some id

section Stored

variable [DecidableEq ι]

/-- The records in each of the objects stored, the oldest first. -/
def storedRecords : List (ClusterEvent ι K) → List (List Message)
  | [] => []
  | .sink i event :: h => storedRecords h ++ recordsBy event (sinkEvents i h)
  | _ :: h => storedRecords h

namespace Cluster

variable {log : Log} {h : List (ClusterEvent ι K)} {c : Cluster ι K}

/-- The objects are the lines of the records stored, each of one stream. -/
theorem objects_of_run (hrun : Run (system log inputTopics) h c) :
    c.objects = (storedRecords h).map (fun records =>
      (records.filterMap (lineOf (Cache.newConfigs inputTopics))).flatten) ∧
    ∀ records ∈ storedRecords h, log.OneStream (Cache.newConfigs inputTopics) records := by
  induction hrun with
  | start hinit => exact ⟨hinit.2.2.1, fun records hmem => absurd hmem List.not_mem_nil⟩
  | step hprev hstep ih =>
      cases hstep with
      | sink hsink hfeeds =>
          obtain ⟨hobjects, hrecords⟩ := ((sound_of_run hprev).members _).recordsBy hsink
          refine ⟨(congrArg₂ (· ++ ·) ih.1 hobjects).trans List.map_append.symm, ?_⟩
          intro records hmem
          exact (List.mem_append.1 hmem).elim (ih.2 records) (hrecords records)
      | _ => exact ih

/-- In every run of the group, an object is the lines of records of one stream that Kafka holds. -/
theorem objects_genuine (hrun : Run (system log inputTopics) h c) :
    ∀ object ∈ c.objects, log.Genuine (Cache.newConfigs inputTopics) object := by
  obtain ⟨hobjects, hrecords⟩ := objects_of_run hrun
  intro object hmem
  rw [hobjects] at hmem
  obtain ⟨records, hstored, rfl⟩ := List.mem_map.1 hmem
  obtain ⟨id, hstream⟩ := hrecords records hstored
  exact ⟨id, records, rfl, hstream⟩

end Cluster

end Stored

theorem objects_genuine_sample : ∃ (h : List (ClusterEvent Bool IdentityKeyGenerator))
    (c : Cluster Bool _), Run (Cluster.system sampleLog sampleTopics) h c ∧ c.objects.length = 3 ∧
      ∀ object ∈ c.objects, sampleLog.Genuine (Cache.newConfigs sampleTopics) object := by
  obtain ⟨h, c, hrun, -, -, hstored, -⟩ := movedGroup_run
  exact ⟨h, c, hrun, hstored, Cluster.objects_genuine hrun⟩

/-! ## Offsets committed -/

/-- The offset comes right behind a record that Kafka holds and an object contains. -/
def Log.Behind (log : Log) (inputTopics : List (TopicConfig × List TopicName))
    (objects : List Bytes) (p : TopicId) (n : Int) : Prop :=
  ∃ record, log.Holds record ∧ record.topicId = p ∧ record.offset.val = n - 1 ∧
    ∀ line, lineOf (Cache.newConfigs inputTopics) record = some line →
      ∃ object ∈ objects, line <:+: object

omit [KeyGenerator K] in
theorem Log.Behind.mono {log : Log} {objects objects' : List Bytes} {p : TopicId} {n : Int}
    (h : log.Behind inputTopics objects p n) (hobjects : objects ⊆ objects') :
    log.Behind inputTopics objects' p n := by
  obtain ⟨record, hheld, hp, hn, hline⟩ := h
  refine ⟨record, hheld, hp, hn, fun line h => ?_⟩
  obtain ⟨object, hobject, hinfix⟩ := hline line h
  exact ⟨object, hobjects hobject, hinfix⟩

/-- An offset in a list that one member commits. -/
theorem Member.Sound.behind {log : Log} {c : Cluster ι K} {member : Member K}
    {h : List (SinkEvent DiskFileRegistry K)} (hsound : member.Sound log inputTopics c h)
    {loop : Loop} {e : Step DiskFileRegistry K} {actions : List Action}
    {sink' : SinkState DiskFileRegistry K}
    (hstep : SinkStep member.sink (.handled loop e actions) sink') {tpl : TopicPartitionList}
    (htpl : tpl ∈ commitsOf actions) {p : TopicId} {n : Int} (hn : tpl.offsetOf p = some n) :
    log.Behind inputTopics c.objects p n := by
  have hphase : ∀ result, member.sink.phase ≠ .returned result := running_of_step hstep
  obtain ⟨directory, os, keyGenerator, config, hrun⟩ := hsound.run
  obtain ⟨-, hlast⟩ := reported_of_list hrun hphase (sinkStep_steps hstep)
    (mem_committedBy hstep htpl) hn
  obtain ⟨record, hrecord, hp, hoffset, hline⟩ := hsound.stores hphase p _ hlast
  exact ⟨record, (hsound.tracks hphase).held record hrecord, hp, hoffset, hline⟩

namespace Cluster

variable [DecidableEq ι] {log : Log} {h : List (ClusterEvent ι K)} {c : Cluster ι K}

/-- In every run of the group, an offset committed is one the group began at, or comes right behind
a record in an object; and so does every offset handed to `consumer.commit`. -/
theorem behind_of_run (hrun : Run (system log inputTopics) h c) :
    (∀ tpl ∈ c.commits, ∀ p n, tpl.offsetOf p = some n →
      log.Behind inputTopics c.objects p n) ∧
    ∀ p n, c.committed p = some n → n ∈ c.origins p ∨ log.Behind inputTopics c.objects p n := by
  induction hrun with
  | start hinit =>
      obtain ⟨-, hcommits, -, horigins⟩ := hinit
      refine ⟨fun tpl hmem => ?_, fun p n hn => Or.inl ?_⟩
      · rw [hcommits] at hmem
        exact absurd hmem List.not_mem_nil
      · rw [horigins, hn]
        exact List.mem_cons_self
  | @step h c c' event hprev hstep ih =>
      obtain ⟨hcommits, hcommitted⟩ := ih
      cases hstep with
      | resume => exact ⟨hcommits, hcommitted⟩
      | @reset i p offset =>
          refine ⟨hcommits, fun p' n hn => (hcommitted p' n hn).imp_left fun horigin => ?_⟩
          by_cases hp : p' = p
          · subst hp
            rw [origins_beginAt, Function.update_self]
            exact List.mem_cons_of_mem _ horigin
          · rw [origins_beginAt, Function.update_of_ne hp]
            exact horigin
      | rebalance => exact ⟨hcommits, hcommitted⟩
      | @sink i event sink' consumer' hsink hfeeds =>
          have hobjects : c.objects ⊆ (c.afterSink i event sink' consumer').objects :=
            List.subset_append_left _ _
          refine ⟨fun tpl hmem p n hn => ?_, fun p n hn =>
            (hcommitted p n hn).imp_right fun hbehind => hbehind.mono hobjects⟩
          rcases List.mem_append.1 hmem with hold | hnew
          · exact (hcommits tpl hold p n hn).mono hobjects
          · cases event with
            | handled loop e actions =>
                exact (((sound_of_run hprev).members i).behind hsink hnew hn).mono hobjects
            | _ => exact absurd hnew List.not_mem_nil
      | @accept tpl hsent =>
          refine ⟨hcommits, fun p n hn => ?_⟩
          dsimp only at hn
          cases hoffset : tpl.offsetOf p with
          | none =>
              rw [hoffset, Option.none_or] at hn
              exact hcommitted p n hn
          | some n' =>
              rw [hoffset, Option.some_or] at hn
              cases hn
              exact Or.inr (hcommits tpl hsent p n hoffset)
      | restart => exact ⟨hcommits, hcommitted⟩

/-- In every run of the group, an offset committed is one the group began at, or comes right behind
a record that Kafka holds and whose line is in an object. -/
theorem committed_in_range (hrun : Run (system log inputTopics) h c) {p : TopicId} {n : Int}
    (hcommitted : c.committed p = some n) :
    n ∈ c.origins p ∨ log.Behind inputTopics c.objects p n :=
  (behind_of_run hrun).2 p n hcommitted

end Cluster

/-- The offset behind the second record is committed by the sink that went on behind the first. -/
theorem committed_in_range_sample : ∃ (h : List (ClusterEvent Bool IdentityKeyGenerator))
    (c : Cluster Bool _), Run (Cluster.system sampleLog sampleTopics) h c ∧
      c.committed samplePartition = some 2 ∧
      sampleLog.Behind sampleTopics c.objects samplePartition 2 := by
  obtain ⟨h, c, hrun, hcommitted, horigins, -⟩ := movedGroup_run
  refine ⟨h, c, hrun, hcommitted, (Cluster.committed_in_range hrun hcommitted).resolve_left ?_⟩
  rw [horigins]
  decide

end S3Sink
