import S3Sink.Sink.ObjectKeys
import S3Sink.StateMachine.Order

/-!
# Routing — an object holds what its key says

The folders of an object key are those of one stream.  Every record whose line is in the object is
one that the router of its topic sends to that stream.

* `Sealings.keyed`, `Handled.keyed` — the keys that one request draws;
* `keyed_of_run` — the files sealed in a run;
* `routed_of_run` — what the sink hands to the uploader.
-/

namespace S3Sink

open Placement TransitionSystem

namespace StateMachine

/-! ## Sealing -/

section Request

variable {config : StateMachineConfiguration} {reg reg' : DiskFileRegistry}
variable {gen gen' : S3Partitioner} {ambient : Ambient} {request : Request}
variable {sm sm' : StateMachine DiskFileRegistry S3Partitioner} {responses : List Response}

/-- Closing one file opens none. -/
theorem active_of_closed {reg₁ : DiskFileRegistry} {id id' : StreamId} {file : ActiveFile}
    {result : Except SinkError (PathBuf × Nat)}
    (hclose : FileRegistry.close reg id = (result, reg₁))
    (hget : reg₁.files.get? id' = some file) : reg.files.get? id' = some file := by
  have hfiles := (close_frame reg id).1
  rw [← DiskFileRegistry.fileRegistry_close, hclose] at hfiles
  rw [hfiles, HashMap.get?_erase] at hget
  split at hget
  · cases hget
  · exact hget

/-- The upload of a stream carries a key of the stream and its active file. -/
theorem Sealings.keyed {streams : List (StreamId × StreamState)}
    (h : Sealings config reg gen streams responses reg' gen') :
    ∀ u ∈ uploadsOf responses, ∃ id n, id ∈ streams.map Prod.fst ∧
      u.objectKey = gen.keyAt n id ∧ reg.files.get? id = some ⟨u.path⟩ := by
  induction h with
  | nil => exact fun u hu => absurd hu List.not_mem_nil
  | failed hclose _ ih =>
      intro u hu
      obtain ⟨id, n, hmem, hkey, hget⟩ := ih u hu
      exact ⟨id, n, List.mem_cons_of_mem _ hmem, hkey, active_of_closed hclose hget⟩
  | @ready _ _ _ gen _ _ id _ _ _ _ _ _ hclose hkey _ ih =>
      obtain ⟨rfl, rfl⟩ := Prod.mk.inj hkey
      intro u hu
      rcases List.mem_cons.1 hu with rfl | hu
      · exact ⟨id, gen.keys, List.mem_cons_self, rfl, (DiskFileRegistry.close_ok hclose).1⟩
      · obtain ⟨id', n, hmem, hkey', hget⟩ := ih u hu
        exact ⟨id', n, List.mem_cons_of_mem _ hmem, hkey', active_of_closed hclose hget⟩

theorem closeAndUploadAll_keyed {streams : List (StreamId × StreamState)}
    {answers : List Response} (hanswers : sm.responses = answers)
    (h : closeAndUploadAll streams sm = sm') :
    ∃ responses, sm'.responses = answers ++ responses ∧
      ∀ u ∈ uploadsOf responses, ∃ id n, id ∈ streams.map Prod.fst ∧
        u.objectKey = sm.keyGenerator.keyAt n id ∧
        sm.fileRegistry.files.get? id = some ⟨u.path⟩ := by
  obtain ⟨reg', gen', responses, heq, hsealings⟩ := closeAndUploadAll_sealings streams sm
  rw [← h, heq, ← hanswers]
  exact ⟨responses, rfl, hsealings.keyed⟩

/-- The upload carries a key of the stream that the request seals to its file. -/
def Keyed (sm : StateMachine DiskFileRegistry S3Partitioner) (request : Request) (u : ToUpload) :
    Prop :=
  ∃ id n, u.objectKey = sm.keyGenerator.keyAt n id ∧ SealsTo sm request id u.path

theorem Handled.keyed (h : Handled ambient sm request responses sm') :
    ∀ u ∈ sealedUploads request responses, Keyed sm request u := by
  -- streams that were open before the request
  have hopen : ∀ {answered : List Response} {streams : List (StreamId × StreamState)},
      (∀ record, request ≠ .processRecord record) →
      (∀ u ∈ uploadsOf answered, ∃ id n, id ∈ streams.map Prod.fst ∧
        u.objectKey = sm.keyGenerator.keyAt n id ∧
        sm.fileRegistry.files.get? id = some ⟨u.path⟩) →
      ∀ u ∈ uploadsOf answered, Keyed sm request u := by
    intro answered streams hrequest hkeyed u hu
    obtain ⟨id, n, -, hkey, hget⟩ := hkeyed u hu
    exact ⟨id, n, hkey, DiskFileRegistry.pathFor_of_active hget, Or.inr ⟨hrequest, _, hget⟩⟩
  cases h with
  | @sealed record metadata _ _ line _ _ hmetadata _ _ hwrite _ _ hclose =>
      have hall : closeAndUploadAll
          [(metadata.streamId, sm.writtenState record metadata ambient.now line)] _ = _ := hclose
      obtain ⟨responses, hresponses, hkeyed⟩ := closeAndUploadAll_keyed rfl hall
      rw [hresponses]
      intro u hu
      obtain ⟨id, n, hmem, hkey, hget⟩ := hkeyed u hu
      obtain rfl := List.mem_singleton.1 hmem
      refine ⟨_, n, hkey, ?_, Or.inl ⟨record, rfl, by simp [streamOf, hmetadata]⟩⟩
      -- the write has opened the file, or found it open
      rw [(DiskFileRegistry.writeAll_ok hwrite).get?_files, if_pos rfl] at hget
      exact congrArg ActiveFile.path (Option.some.inj hget)
  | uploadTick _ hclose =>
      obtain ⟨responses, hresponses, hkeyed⟩ := closeAndUploadAll_keyed rfl hclose
      rw [hresponses]
      exact hopen (by simp) hkeyed
  | shutdown hclose =>
      obtain ⟨responses, hresponses, hkeyed⟩ := closeAndUploadAll_keyed rfl hclose
      rw [hresponses, sealedUploads, List.nil_append, uploadsOf_append, uploadsOf_drainAndShutdown,
        List.append_nil]
      · exact hopen (by simp) hkeyed
      · simp
  | revoked _ hrevoke =>
      obtain ⟨fileRegistry, paths, rfl⟩ := revokedAll_spec hrevoke
      simp only [sealedUploads, List.nil_append, uploadsOf_deletes]
      exact fun u hu => absurd hu List.not_mem_nil
  | commitFailed hrequest =>
      rcases hrequest with rfl | rfl <;> exact fun u hu => absurd hu List.not_mem_nil
  | _ => exact fun u hu => absurd hu List.not_mem_nil

end Request

/-! ## Runs -/

section Runs

variable {inputTopics : List (TopicConfig × List TopicName)} {directory : PathBuf}
variable {os : OperatingSystem} {keyGenerator : S3Partitioner} {config : StateMachineConfiguration}
variable {h : List (Step DiskFileRegistry S3Partitioner)}
variable {sm : StateMachine DiskFileRegistry S3Partitioner}

theorem file_mem_sealedFiles {F K : Type} {h : List (Step F K)} {u : ToUpload}
    (hu : u ∈ uploadsSealed h) : u.file ∈ sealedFiles h := by
  induction h with
  | nil => exact absurd hu List.not_mem_nil
  | cons e h ih =>
      rw [sealedFiles_cons]
      rcases List.mem_append.1 hu with hold | hnew
      · exact List.mem_append_right _ (ih hold)
      · refine List.mem_append_left _ ?_
        generalize e.request = request at hnew ⊢
        cases request with
        | uploadCompletion result => exact absurd hnew List.not_mem_nil
        | _ => exact List.mem_map_of_mem hnew

/-- A file sealed carries a key of the stream that its records are routed to. -/
theorem keyed_of_run
    (hrun : Run (system (new inputTopics (DiskFileRegistry.new directory os) keyGenerator config))
      h sm) (hfree : FatalFree h) :
    ∀ u ∈ uploadsSealed h, ∃ id n, u.objectKey = keyGenerator.keyAt n id ∧
      ∀ record, (record, .file u.path) ∈ ledger h →
        streamOf (Cache.newConfigs inputTopics) record = some id := by
  induction hrun with
  | start hinit => exact fun u hu => absurd hu List.not_mem_nil
  | @step h sm sm' e hprev hstep ih =>
      have hsealed := (shelved_of_run hprev hfree.tail).sealed
      intro u hu
      rcases List.mem_append.1 hu with hold | hnew
      -- sealed before, so no other stream is sealed to the file now
      · obtain ⟨id, n, hkey, hrecords⟩ := ih hfree.tail u hold
        refine ⟨id, n, hkey, fun record hmem => ?_⟩
        rcases sealsTo_of_ledger hprev hstep hfree hmem with hearlier | ⟨id', -, hseals⟩
        · exact hrecords record hearlier
        · exact absurd (List.mem_map_of_mem (file_mem_sealedFiles hold))
            (hseals.notMem_sealed hprev hfree.tail hstep)
      · obtain ⟨id, n, hkey, hseals⟩ := hstep.cases.keyed u hnew
        refine ⟨id, n, ?_, fun record hmem => ?_⟩
        · have hgen : e.pre.keyGenerator = sm.keyGenerator := by rw [hstep.reordered.frame]
          rw [hkey, hgen, (named_of_run hprev).1]
          rfl
        · rcases sealsTo_of_ledger hprev hstep hfree hmem with hearlier | ⟨id', hid', hseals'⟩
          · exact absurd (hsealed.file_mem record u.path hearlier)
              (hseals.notMem_sealed hprev hfree.tail hstep)
          · have hnodup :=
              (Multiset.nodup_add.1 (lifecycle_of_run hprev hfree.tail).separate.distinct).1
            rw [← hstep.reordered.fileRegistry] at hnodup
            rw [hid', hseals.unique hseals' hnodup]

end Runs

end StateMachine

namespace Sink

open StateMachine

/-- The router of its topic sends the record to the stream. -/
def RoutedTo (configs : HashMap TopicName TopicConfig) (id : StreamId) (record : Message) : Prop :=
  ∃ topicConfig, configs.get? ⟨record.topic⟩ = some topicConfig ∧
    id = ⟨topicConfig.router.writeId record⟩

theorem routedTo_of_streamOf {configs : HashMap TopicName TopicConfig} {id : StreamId}
    {record : Message} (hstream : streamOf configs record = some id) :
    RoutedTo configs id record := by
  unfold streamOf Cache.metadata at hstream
  cases hconfig : configs.get? ⟨record.topic⟩ with
  | none => simp [hconfig] at hstream
  | some topicConfig =>
      simp only [hconfig, Option.map_some, Option.some.injEq] at hstream
      exact ⟨topicConfig, hconfig, hstream.symm⟩

/-- What is handed to the uploader is the lines of records of one stream, under a key of that
stream. -/
structure Routed (configs : HashMap TopicName TopicConfig) (keyGenerator : S3Partitioner)
    (consumed : List Message) (objectKey : String) (content : Bytes) (id : StreamId) : Prop where
  key : ∃ n, objectKey = keyGenerator.keyAt n id
  lines : ∃ records : List Message, content = (records.filterMap (lineOf configs)).flatten ∧
    ∀ record ∈ records, record ∈ consumed ∧ RoutedTo configs id record

/-- In every run without `Fatal`, an object is stored under a key of one stream, and its content is
the lines of records consumed that their routers send to that stream. -/
theorem routed_of_run {inputTopics : List (TopicConfig × List TopicName)} {directory : PathBuf}
    {os : OperatingSystem} {keyGenerator : S3Partitioner} {config : StateMachineConfiguration}
    {h : List (SinkEvent DiskFileRegistry S3Partitioner)}
    {s : SinkState DiskFileRegistry S3Partitioner}
    (hrun : Run (system (new inputTopics (DiskFileRegistry.new directory os) keyGenerator config))
      h s) (hfree : FatalFree (steps h)) :
    ∀ u ∈ handOvers h, ∃ id,
      Routed (Cache.newConfigs inputTopics) keyGenerator (consumedRecords (requests (steps h)))
        u.objectKey (s.stateMachine.fileRegistry.content u.path) id := by
  intro u hu
  have hsteps := run_steps hrun
  -- a retry keeps the key and the file it was sealed with
  obtain ⟨v, hv, hkey, hfile⟩ := handOvers_ofSealed hrun u hu
  obtain ⟨id, n, hkeyed, hrecords⟩ := keyed_of_run hsteps hfree v hv
  have hpath : u.path = v.path := congrArg SealedFile.path hfile.symm
  have hsealed : v.path ∈ sealedPaths (steps h) :=
    List.mem_reverse.2 (List.mem_map_of_mem (file_mem_sealedFiles hv))
  refine ⟨id, ⟨n, hkey ▸ hkeyed⟩, itemsAt (ledger (steps h)) (.file v.path), ?_, ?_⟩
  · rw [hpath]
    exact content_of_sealed hsteps hfree hsealed
  · intro record hmem
    have hplaced := mem_itemsAt.1 hmem
    refine ⟨?_, routedTo_of_streamOf (hrecords record hplaced)⟩
    rw [← map_fst_ledger hsteps hfree]
    exact List.mem_map_of_mem hplaced

/-- Two files of two streams, and the first of them once more. -/
theorem routed_of_run_sample :
    (handOvers (play partitionedStart twiceSealedChoices).1).map
        (fun u => ((play partitionedStart
          twiceSealedChoices).2.state.stateMachine.fileRegistry.content u.path).length) =
        [12, 35, 12] ∧
      ∀ u ∈ handOvers (play partitionedStart twiceSealedChoices).1, ∃ id,
        Routed partitionedStart.cache.configs sampleClock
          (consumedRecords (requests (steps (play partitionedStart twiceSealedChoices).1)))
          u.objectKey
          ((play partitionedStart twiceSealedChoices).2.state.stateMachine.fileRegistry.content
            u.path) id :=
  ⟨by decide, routed_of_run (run_play partitionedStart twiceSealedChoices) (by decide)⟩

end Sink

end S3Sink
