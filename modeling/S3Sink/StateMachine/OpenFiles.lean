import S3Sink.Files.Operations
import S3Sink.StateMachine.Run

/-!
# OpenFiles — open streams and active files

The stream table and the file registry should have the same keys.  They do as long as no record that
is skipped for want of a data body opens a stream: such a record creates a stream state but writes
nothing, so no file is created, and closing the stream later fails.

* `Handled.registry` — the registry changes only through its operations;
* `Handled.keysAgree_iff` — one request on a disk that never fails;
* `keys_agree_iff` — whole runs.
-/

namespace S3Sink

/-! ## The registry changes only through its operations -/

/-- A property of the registry that every operation preserves, whether it succeeds or not. -/
structure RegistryInvariant {F : Type} [FileRegistry F] (P : F → Prop) : Prop where
  close : ∀ reg id, P reg → P (FileRegistry.close reg id).2
  writeAll : ∀ reg id bytes, P reg → P (FileRegistry.writeAll reg id bytes).2
  revoke : ∀ reg id, P reg → P (FileRegistry.revoke reg id).2

theorem RegistryInvariant.of_writeAll {F : Type} [FileRegistry F] {P : F → Prop}
    (hP : RegistryInvariant P) {reg reg' : F} {id : StreamId} {bytes : Bytes}
    {result : Except SinkError Unit} (hwrite : FileRegistry.writeAll reg id bytes = (result, reg'))
    (hreg : P reg) : P reg' := by
  have hwritten := hP.writeAll reg id bytes hreg
  rw [hwrite] at hwritten
  exact hwritten

namespace StateMachine

variable {F K : Type} [FileRegistry F] [KeyGenerator K] {P : F → Prop}

theorem closeAndUpload_keeps (hclose : ∀ reg id, P reg → P (FileRegistry.close reg id).2)
    (streamId : StreamId) (streamState : StreamState) {sm : StateMachine F K}
    (hsm : P sm.fileRegistry) : P (closeAndUpload streamId streamState sm).fileRegistry := by
  have hclosed := hclose sm.fileRegistry streamId hsm
  unfold closeAndUpload
  generalize FileRegistry.close sm.fileRegistry streamId = out at hclosed
  obtain ⟨result, fileRegistry⟩ := out
  cases result <;> exact hclosed

theorem closeAndUploadAll_keeps (hclose : ∀ reg id, P reg → P (FileRegistry.close reg id).2)
    (streams : List (StreamId × StreamState)) : ∀ {sm : StateMachine F K},
    P sm.fileRegistry → P (closeAndUploadAll streams sm).fileRegistry := by
  induction streams with
  | nil => exact fun hsm => hsm
  | cons e streams ih => exact fun hsm => ih (closeAndUpload_keeps hclose e.1 e.2 hsm)

omit [KeyGenerator K] in
theorem revokeAll_keeps (hrevoke : ∀ reg id, P reg → P (FileRegistry.revoke reg id).2)
    (streams : List (StreamId × StreamState)) : ∀ {sm : StateMachine F K},
    P sm.fileRegistry → P (revokeAll streams sm).fileRegistry := by
  induction streams with
  | nil => exact fun hsm => hsm
  | cons e streams ih =>
      intro sm hsm
      apply @ih (revokeStream e.1 sm)
      have hrevoked := hrevoke sm.fileRegistry e.1 hsm
      unfold revokeStream
      generalize FileRegistry.revoke sm.fileRegistry e.1 = out at hrevoked
      obtain ⟨result, fileRegistry⟩ := out
      cases result <;> exact hrevoked

theorem closeAndUpload_registry (hP : RegistryInvariant P) (streamId : StreamId)
    (streamState : StreamState) {sm : StateMachine F K} (hsm : P sm.fileRegistry) :
    P (closeAndUpload streamId streamState sm).fileRegistry :=
  closeAndUpload_keeps hP.close streamId streamState hsm

theorem closeAndUploadAll_registry (hP : RegistryInvariant P)
    (streams : List (StreamId × StreamState)) {sm : StateMachine F K} (hsm : P sm.fileRegistry) :
    P (closeAndUploadAll streams sm).fileRegistry :=
  closeAndUploadAll_keeps hP.close streams hsm

omit [KeyGenerator K] in
theorem revokeAll_registry (hP : RegistryInvariant P) (streams : List (StreamId × StreamState))
    {sm : StateMachine F K} (hsm : P sm.fileRegistry) : P (revokeAll streams sm).fileRegistry :=
  revokeAll_keeps hP.revoke streams hsm

/-- A request preserves what every operation of the registry preserves. -/
theorem Handled.registry (hP : RegistryInvariant P) {ambient : Ambient} {sm sm' : StateMachine F K}
    {request : Request} {responses : List Response}
    (h : Handled ambient sm request responses sm') (hsm : P sm.fileRegistry) :
    P sm'.fileRegistry := by
  cases h with
  | writeFailed _ _ _ hwrite => exact hP.of_writeAll hwrite hsm
  | written _ _ _ hwrite _ => exact hP.of_writeAll hwrite hsm
  | sealed _ _ _ hwrite _ _ hclose =>
      subst hclose
      exact closeAndUpload_registry hP _ _ (hP.of_writeAll hwrite hsm)
  | uploadTick _ hclose =>
      subst hclose
      exact closeAndUploadAll_registry hP _ hsm
  | shutdown hclose =>
      subst hclose
      exact closeAndUploadAll_registry hP _ hsm
  | revoked _ hrevoke =>
      subst hrevoke
      exact revokeAll_registry hP _ hsm
  | committedAsync hcommitted => rw [hcommitted.frame]; exact hsm
  | committedSync hcommitted => rw [hcommitted.frame]; exact hsm
  | _ => exact hsm

theorem Steps.registry (hP : RegistryInvariant P) {sm sm' : StateMachine F K} {e : Step F K}
    (h : Steps sm e sm') (hsm : P sm.fileRegistry) : P sm'.fileRegistry := by
  rw [h.post]
  exact h.cases.registry hP (h.reordered.fileRegistry ▸ hsm)

end StateMachine

/-! ## A disk that never fails -/

namespace DiskFileRegistry

variable {os : OperatingSystem}

theorem registryInvariant_os (os : OperatingSystem) :
    RegistryInvariant fun reg : DiskFileRegistry => reg.os = os where
  close reg id hreg := by
    change (reg.close id).2.os = os
    unfold close closeActiveFile
    split
    · exact hreg
    · dsimp only
      split <;> exact hreg
  writeAll reg id bytes hreg := by
    change (reg.writeAll id bytes).2.os = os
    have hwrite : ∀ {reg : DiskFileRegistry} {file : ActiveFile}, reg.os = os →
        (reg.writeActiveFile file bytes).2.os = os := by
      intro reg file hreg
      unfold writeActiveFile
      dsimp only
      split <;> exact hreg
    have hnew : reg.newActiveFile.2.os = os := by
      unfold newActiveFile
      dsimp only
      split
      · exact hreg
      · split <;> exact hreg
    -- a write to the active file, or to one created first
    unfold writeAll getMutActiveFileOrCreate
    cases reg.files.get? id with
    | some file => exact hwrite hreg
    | none =>
        dsimp only
        generalize reg.newActiveFile = out at hnew
        obtain ⟨result, reg₁⟩ := out
        cases result with
        | error error => exact hnew
        | ok file => exact hwrite hnew
  revoke reg id hreg := by
    rcases revoke_cases reg id with ⟨-, heq⟩ | ⟨file, -, heq⟩
    · change (reg.revoke id).2.os = os
      rw [heq]
      exact hreg
    · change (reg.revoke id).2.os = os
      rw [heq]
      exact hreg

theorem writeAll_neverFails {reg : DiskFileRegistry} (hos : reg.os.NeverFails) (id : StreamId)
    (bytes : Bytes) : ∃ reg', reg.writeAll id bytes = (.ok (), reg') := by
  have hwrite : ∀ (reg₀ : DiskFileRegistry) (file : ActiveFile), reg₀.os = reg.os →
      ∃ reg', reg₀.writeActiveFile file bytes = (.ok (), reg') := by
    intro reg₀ file heq
    unfold writeActiveFile
    simp only [heq, hos.writeError]
    exact ⟨_, rfl⟩
  unfold writeAll getMutActiveFileOrCreate
  cases reg.files.get? id with
  | some file => exact hwrite reg file rfl
  | none =>
      simp only [newActiveFile, hos.openError, hos.encoderError]
      exact hwrite _ _ rfl

theorem close_neverFails {reg : DiskFileRegistry} (hos : reg.os.NeverFails) (id : StreamId) :
    (id ∉ reg.files ∧ reg.close id = (.error (notFound id), reg)) ∨
      (id ∈ reg.files ∧ ∃ path size, reg.close id = (.ok (path, size),
        { reg with files := reg.files.erase id, tick := reg.tick + 1 })) := by
  unfold close
  cases hget : reg.files.get? id with
  | none => exact Or.inl ⟨HashMap.get?_eq_none.1 hget, rfl⟩
  | some file =>
      refine Or.inr ⟨HashMap.mem_iff.2 ⟨file, hget⟩, ?_⟩
      obtain ⟨size, hsize⟩ := hos.closeResult reg.tick
      simp only [closeActiveFile, hsize]
      exact ⟨file.path, size, rfl⟩

end DiskFileRegistry

namespace StateMachine

open TransitionSystem DiskFileRegistry

variable {K : Type} [KeyGenerator K]

/-- The open streams are those with an active file. -/
def KeysAgree (sm : StateMachine DiskFileRegistry K) : Prop :=
  ∀ id, id ∈ sm.streams ↔ id ∈ sm.fileRegistry.files

/-- A record without a data body finds its stream open. -/
def SkipsIntoOpenStream (e : Step DiskFileRegistry K) : Prop :=
  ∀ record metadata, e.request = .processRecord record →
    Cache.metadata e.pre.cache.configs record = some metadata →
    JsonSerializer.serializeRecord metadata.config.decoder record = .ok none →
    metadata.streamId ∈ e.pre.streams

/-- The topic of a processed record is configured and its payload, if present, can be decoded. -/
def Decodable (e : Step DiskFileRegistry K) : Prop :=
  ∀ record, e.request = .processRecord record → ∃ metadata line,
    Cache.metadata e.pre.cache.configs record = some metadata ∧
      JsonSerializer.serializeRecord metadata.config.decoder record = .ok line

/-- The request neither completes an upload nor commits. -/
def SealsStreams : Request → Prop
  | .processRecord _ => True
  | .uploadTick => True
  | .shutdownSignal => True
  | _ => False

/-- The request opens no stream for a record without a data body. -/
def SkipsIntoOpen (sm : StateMachine DiskFileRegistry K) (request : Request) : Prop :=
  ∀ record metadata, request = .processRecord record →
    Cache.metadata sm.cache.configs record = some metadata →
    JsonSerializer.serializeRecord metadata.config.decoder record = .ok none →
    metadata.streamId ∈ sm.streams

/-! ## Closing and revoking -/

/-- Closing a stream removes its active file, if there is one. -/
theorem closeAndUpload_files {sm : StateMachine DiskFileRegistry K}
    (hos : sm.fileRegistry.os.NeverFails) (streamId : StreamId) (streamState : StreamState)
    (id : StreamId) :
    id ∈ (closeAndUpload streamId streamState sm).fileRegistry.files ↔
      id ≠ streamId ∧ id ∈ sm.fileRegistry.files := by
  unfold closeAndUpload
  rcases close_neverFails hos streamId with ⟨hnot, hclose⟩ | ⟨-, path, size, hclose⟩
  · rw [fileRegistry_close, hclose]
    constructor
    · intro hid
      exact ⟨fun heq => hnot (heq ▸ hid), hid⟩
    · exact fun hid => hid.2
  · rw [fileRegistry_close, hclose]
    exact AList.mem_erase

/-- Closing a stream with an active file is not fatal. -/
theorem closeAndUpload_noFatal {sm : StateMachine DiskFileRegistry K}
    (hos : sm.fileRegistry.os.NeverFails) {streamId : StreamId} (streamState : StreamState)
    (hfile : streamId ∈ sm.fileRegistry.files) (hfree : NoFatal sm.responses) :
    NoFatal (closeAndUpload streamId streamState sm).responses := by
  unfold closeAndUpload
  rcases close_neverFails hos streamId with ⟨hnot, -⟩ | ⟨-, path, size, hclose⟩
  · exact absurd hfile hnot
  · rw [fileRegistry_close, hclose]
    intro error hmem
    rcases List.mem_append.1 hmem with hmem | hmem
    · exact hfree error hmem
    · simp at hmem

theorem closeAndUpload_neverFails {sm : StateMachine DiskFileRegistry K}
    (hos : sm.fileRegistry.os.NeverFails) (streamId : StreamId) (streamState : StreamState) :
    (closeAndUpload streamId streamState sm).fileRegistry.os.NeverFails := by
  rw [closeAndUpload_registry (registryInvariant_os sm.fileRegistry.os) streamId streamState rfl]
  exact hos

theorem closeAndUploadAll_files (streams : List (StreamId × StreamState)) (id : StreamId) :
    ∀ {sm : StateMachine DiskFileRegistry K}, sm.fileRegistry.os.NeverFails →
      (id ∈ (closeAndUploadAll streams sm).fileRegistry.files ↔
        id ∉ streams.map Prod.fst ∧ id ∈ sm.fileRegistry.files) := by
  induction streams with
  | nil => simp [closeAndUploadAll]
  | cons e streams ih =>
      intro sm hos
      refine (ih (closeAndUpload_neverFails hos e.1 e.2)).trans ?_
      rw [closeAndUpload_files hos e.1 e.2 id, List.map_cons, List.mem_cons, not_or]
      tauto

theorem closeAndUploadAll_noFatal (streams : List (StreamId × StreamState)) :
    ∀ sm : StateMachine DiskFileRegistry K, sm.fileRegistry.os.NeverFails →
      (streams.map Prod.fst).Nodup →
      (∀ id ∈ streams.map Prod.fst, id ∈ sm.fileRegistry.files) →
      NoFatal sm.responses → NoFatal (closeAndUploadAll streams sm).responses := by
  induction streams with
  | nil => exact fun _ _ _ _ hfree => hfree
  | cons e streams ih =>
      intro sm hos hnodup hactive hfree
      rw [List.map_cons, List.nodup_cons] at hnodup
      rw [List.map_cons, List.forall_mem_cons] at hactive
      -- the first seal takes no file from the streams behind it, since they are distinct
      refine ih _ (closeAndUpload_neverFails hos e.1 e.2) hnodup.2 (fun id hid => ?_)
        (closeAndUpload_noFatal hos e.2 hactive.1 hfree)
      exact (closeAndUpload_files hos e.1 e.2 id).2
        ⟨fun heq => hnodup.1 (heq ▸ hid), hactive.2 id hid⟩

omit [KeyGenerator K] in
theorem revokeStream_files (sm : StateMachine DiskFileRegistry K) (streamId id : StreamId) :
    id ∈ (revokeStream streamId sm).fileRegistry.files ↔
      id ≠ streamId ∧ id ∈ sm.fileRegistry.files := by
  unfold revokeStream
  rcases revoke_cases sm.fileRegistry streamId with ⟨hnone, hrevoke⟩ | ⟨file, -, hrevoke⟩
  · rw [fileRegistry_revoke, hrevoke]
    constructor
    · intro hid
      exact ⟨fun heq => HashMap.get?_eq_none.1 hnone (heq ▸ hid), hid⟩
    · exact fun hid => hid.2
  · rw [fileRegistry_revoke, hrevoke]
    exact AList.mem_erase

omit [KeyGenerator K] in
theorem revokeAll_files (streams : List (StreamId × StreamState)) (id : StreamId) :
    ∀ {sm : StateMachine DiskFileRegistry K},
      id ∈ (revokeAll streams sm).fileRegistry.files ↔
        id ∉ streams.map Prod.fst ∧ id ∈ sm.fileRegistry.files := by
  induction streams with
  | nil => simp [revokeAll]
  | cons e streams ih =>
      intro sm
      refine ih.trans ?_
      rw [revokeStream_files sm e.1 id, List.map_cons, List.mem_cons, not_or]
      tauto

/-! ## One request -/

section Agreement

variable {ambient : Ambient} {sm sm' : StateMachine DiskFileRegistry K}
variable {request : Request} {responses : List Response}

omit [KeyGenerator K] in
/-- The same stream is added to the table and to the registry. -/
theorem KeysAgree.added (h : KeysAgree sm) {streamId : StreamId}
    (hstreams : ∀ id, id ∈ sm'.streams ↔ id = streamId ∨ id ∈ sm.streams)
    (hfiles : ∀ id, id ∈ sm'.fileRegistry.files ↔ id = streamId ∨ id ∈ sm.fileRegistry.files) :
    KeysAgree sm' := by
  intro id
  calc
    id ∈ sm'.streams ↔ id = streamId ∨ id ∈ sm.streams := hstreams id
    _ ↔ id = streamId ∨ id ∈ sm.fileRegistry.files := or_congr_right (h id)
    _ ↔ id ∈ sm'.fileRegistry.files := (hfiles id).symm

omit [KeyGenerator K] in
/-- The same streams are taken from the table and from the registry. -/
theorem KeysAgree.removed (h : KeysAgree sm) {ids : List StreamId}
    (hstreams : ∀ id, id ∈ sm'.streams ↔ id ∉ ids ∧ id ∈ sm.streams)
    (hfiles : ∀ id, id ∈ sm'.fileRegistry.files ↔ id ∉ ids ∧ id ∈ sm.fileRegistry.files) :
    KeysAgree sm' := by
  intro id
  calc
    id ∈ sm'.streams ↔ id ∉ ids ∧ id ∈ sm.streams := hstreams id
    _ ↔ id ∉ ids ∧ id ∈ sm.fileRegistry.files := and_congr_right' (h id)
    _ ↔ id ∈ sm'.fileRegistry.files := (hfiles id).symm

/-- On a disk that never fails a request that seals streams is not fatal, because every stream it
seals has an active file. -/
theorem Handled.noFatal (h : Handled ambient sm request responses sm')
    (hos : sm.fileRegistry.os.NeverFails)
    (hdecodable : ∀ record, request = .processRecord record → ∃ metadata line,
      Cache.metadata sm.cache.configs record = some metadata ∧
        JsonSerializer.serializeRecord metadata.config.decoder record = .ok line)
    (hagree : KeysAgree sm) (hseals : SealsStreams request) : NoFatal responses := by
  have hnone : NoFatal [] := fun _ => List.not_mem_nil
  cases h with
  | @unconfigured record _ hmetadata =>
      obtain ⟨metadata, line, hsome, -⟩ := hdecodable record rfl
      rw [hmetadata] at hsome
      cases hsome
  | @undecodable record metadata _ _ _ hmetadata _ herror =>
      obtain ⟨metadata', line, hsome, hok⟩ := hdecodable record rfl
      rw [hmetadata, Option.some.injEq] at hsome
      subst hsome
      rw [herror] at hok
      cases hok
  | skipped => exact hnone
  | @writeFailed record metadata _ _ line error _ _ _ _ hwrite =>
      obtain ⟨reg', hok⟩ := writeAll_neverFails hos metadata.streamId line
      rw [fileRegistry_writeAll, hok] at hwrite
      cases hwrite
  | written =>
      intro error hmem
      simp at hmem
  | @sealed _ metadata _ _ line reg' _ _ _ _ hwrite _ _ hclose =>
      have hos' : reg'.os.NeverFails := (writeAll_ok hwrite).os ▸ hos
      subst hclose
      refine closeAndUpload_noFatal hos' _ ?_ fun error hmem => by simp at hmem
      -- the line has just been written to the file that is closed
      change metadata.streamId ∈ reg'.files
      rw [(writeAll_ok hwrite).files]
      exact HashMap.mem_orInsert.2 (Or.inl rfl)
  | uploadTick hextract hclose =>
      subst hclose
      have hsplits := HashMap.splits_extractIfTake hextract
      exact closeAndUploadAll_noFatal _ _ hos hsplits.nodup
        (fun id hid => (hagree id).1 (hsplits.mem_of_taken hid)) hnone
  | shutdown hclose =>
      subst hclose
      intro error hmem
      rcases List.mem_append.1 hmem with hmem | hmem
      · have hsplits := HashMap.splits_drain sm.streams
        exact closeAndUploadAll_noFatal sm.streams.toList
          { sm with streams := ∅, responses := [] } hos hsplits.nodup
          (fun id hid => (hagree id).1 (hsplits.mem_of_taken hid)) hnone error hmem
      · simp at hmem
  | commitFailed hrequest => rcases hrequest with rfl | rfl <;> exact hseals.elim
  | _ => exact hseals.elim

/-- A request that opens no stream for a record without a data body keeps the agreement. -/
theorem Handled.keysAgree (h : Handled ambient sm request responses sm')
    (hos : sm.fileRegistry.os.NeverFails) (hfree : SealsStreams request → NoFatal responses)
    (hskips : SkipsIntoOpen sm request) (hagree : KeysAgree sm) : KeysAgree sm' := by
  cases h with
  | unconfigured => exact absurd List.mem_cons_self (hfree trivial _)
  | undecodable => exact absurd List.mem_cons_self (hfree trivial _)
  | writeFailed => exact absurd List.mem_cons_self (hfree trivial _)
  | @skipped record metadata _ _ hmetadata _ hnone =>
      -- the stream is open already, so counting the record adds no key
      have hopen := hskips record metadata rfl hmetadata hnone
      intro id
      refine (AList.mem_insert _).trans (Iff.trans ?_ (hagree id))
      exact or_iff_right_of_imp fun heq => heq ▸ hopen
  -- the stream counted is the stream whose file is written
  | written _ _ _ hwrite _ =>
      refine hagree.added (fun id => AList.mem_insert _) fun id => ?_
      rw [(writeAll_ok hwrite).files, HashMap.mem_orInsert]
  -- counted, written and taken away again, on both sides
  | @sealed record metadata cache serializer line reg' _ _ _ _ hwrite _ _ hclose =>
      have hos' : reg'.os.NeverFails := (writeAll_ok hwrite).os ▸ hos
      subst hclose
      intro id
      rw [closeAndUpload_streams, closeAndUpload_files hos', (writeAll_ok hwrite).files,
        HashMap.mem_orInsert, ← hagree id]
      refine AList.mem_erase.trans ?_
      tauto
  | uploadTick hextract hclose =>
      subst hclose
      refine hagree.removed (fun id => ?_) fun id => closeAndUploadAll_files _ id hos
      rw [closeAndUploadAll_streams]
      exact (HashMap.splits_extractIfTake hextract).mem_rest
  | shutdown hclose =>
      subst hclose
      refine hagree.removed (fun id => ?_) fun id => closeAndUploadAll_files _ id hos
      rw [closeAndUploadAll_streams]
      exact (HashMap.splits_drain sm.streams).mem_rest
  | revoked hextract hrevoke =>
      subst hrevoke
      refine hagree.removed (fun id => ?_) fun id => revokeAll_files _ id
      rw [revokeAll_streams]
      exact (HashMap.splits_extractIfTake hextract).mem_rest
  | committedAsync hcommitted =>
      rw [hcommitted.frame]
      exact hagree
  | committedSync hcommitted =>
      rw [hcommitted.frame]
      exact hagree
  | _ => exact hagree

/-- A record without a data body is counted in its stream and nothing is written. -/
theorem Handled.skipped_state {record : Message} {metadata : RecordMetadata}
    (h : Handled ambient sm (.processRecord record) responses sm')
    (hmetadata : Cache.metadata sm.cache.configs record = some metadata)
    (hnone : JsonSerializer.serializeRecord metadata.config.decoder record = .ok none) :
    metadata.streamId ∈ sm'.streams ∧ sm'.fileRegistry = sm.fileRegistry := by
  cases h with
  | skipped hmetadata' _ _ =>
      obtain rfl := Option.some.inj (hmetadata.symm.trans hmetadata')
      exact ⟨(AList.mem_insert _).2 (Or.inl rfl), rfl⟩
  | unconfigured hmetadata' _ => cases hmetadata.symm.trans hmetadata'
  | undecodable hmetadata' _ hline =>
      obtain rfl := Option.some.inj (hmetadata.symm.trans hmetadata')
      cases hnone.symm.trans hline
  | writeFailed hmetadata' _ hline _ =>
      obtain rfl := Option.some.inj (hmetadata.symm.trans hmetadata')
      cases hnone.symm.trans hline
  | written hmetadata' _ hline _ _ =>
      obtain rfl := Option.some.inj (hmetadata.symm.trans hmetadata')
      cases hnone.symm.trans hline
  | sealed hmetadata' _ hline _ _ _ _ =>
      obtain rfl := Option.some.inj (hmetadata.symm.trans hmetadata')
      cases hnone.symm.trans hline
  | commitFailed hrequest => rcases hrequest with h | h <;> cases h

/-- Streams and files agree after one request on a disk that never fails if they agreed before it,
unless a record without a data body opens a stream. -/
theorem Handled.keysAgree_iff (h : Handled ambient sm request responses sm')
    (hos : sm.fileRegistry.os.NeverFails)
    (hdecodable : ∀ record, request = .processRecord record → ∃ metadata line,
      Cache.metadata sm.cache.configs record = some metadata ∧
        JsonSerializer.serializeRecord metadata.config.decoder record = .ok line)
    (hagree : KeysAgree sm) :
    (KeysAgree sm' ↔ SkipsIntoOpen sm request) ∧ (SealsStreams request → NoFatal responses) := by
  have hfree := h.noFatal hos hdecodable hagree
  refine ⟨⟨fun hagree' => ?_, fun hskips => h.keysAgree hos hfree hskips hagree⟩, hfree⟩
  rintro record metadata rfl hmetadata hnone
  -- the record has opened its stream and written nothing, so agreement now needs a file before
  obtain ⟨hopen, hregistry⟩ := h.skipped_state hmetadata hnone
  have hfile := (hagree' metadata.streamId).1 hopen
  rw [hregistry] at hfile
  exact (hagree metadata.streamId).2 hfile

end Agreement

/-! ## Whole runs -/

/-- In a run over a disk that never fails, with every topic configured and every payload decodable:
after every request the open streams are those with an active file, and no request that seals
streams is fatal, exactly if every record without a data body finds its stream open. -/
theorem keys_agree_iff {inputTopics : List (TopicConfig × List TopicName)} {directory : PathBuf}
    {os : OperatingSystem} {keyGenerator : K} {config : StateMachineConfiguration}
    {h : List (Step DiskFileRegistry K)} {sm : StateMachine DiskFileRegistry K}
    (hrun : Run (system (new inputTopics (DiskFileRegistry.new directory os) keyGenerator config))
      h sm)
    (hos : os.NeverFails) (hdecodable : ∀ e ∈ h, Decodable e) :
    (∀ e ∈ h, KeysAgree e.post ∧ (SealsStreams e.request → NoFatal e.responses)) ↔
      ∀ e ∈ h, SkipsIntoOpenStream e := by
  -- streams and files agree at the end of a run in which either side holds
  suffices hboth : sm.fileRegistry.os = os ∧
      ((∀ e ∈ h, KeysAgree e.post) → KeysAgree sm) ∧
      ((∀ e ∈ h, KeysAgree e.post ∧ (SealsStreams e.request → NoFatal e.responses)) ↔
        ∀ e ∈ h, SkipsIntoOpenStream e) from hboth.2.2
  induction hrun with
  | start hinit =>
      subst hinit
      exact ⟨rfl, fun _ id => iff_of_false (AList.notMem_empty id) (AList.notMem_empty id), by simp⟩
  | @step h sm sm' e hprev hstep ih =>
      obtain ⟨hsmos, hagree, hiff⟩ :=
        ih fun e' he' => hdecodable e' (List.mem_cons_of_mem _ he')
      have hos' : e.pre.fileRegistry.os.NeverFails := by
        rw [hstep.reordered.fileRegistry, hsmos]
        exact hos
      refine ⟨hstep.registry (registryInvariant_os os) hsmos, fun hall => ?_, ?_⟩
      · rw [hstep.post]
        exact hall e List.mem_cons_self
      · -- the handled request starts from agreement once all earlier ones ended in it
        have hpre : (∀ e ∈ h, KeysAgree e.post) → KeysAgree e.pre := by
          intro hall id
          rw [hstep.reordered.fileRegistry, ← AList.mem_of_perm hstep.reordered.streams]
          exact hagree hall id
        have hone : (∀ e ∈ h, KeysAgree e.post) →
            (KeysAgree e.post ↔ SkipsIntoOpenStream e) ∧
              (SealsStreams e.request → NoFatal e.responses) := fun hall =>
          hstep.cases.keysAgree_iff hos' (hdecodable e List.mem_cons_self) (hpre hall)
        -- each side splits into the newest step and the run before it
        rw [List.forall_mem_cons, List.forall_mem_cons, ← hiff]
        constructor
        · rintro ⟨hhead, htail⟩
          exact ⟨(hone fun e' he' => (htail e' he').1).1.1 hhead.1, htail⟩
        · rintro ⟨hskips, htail⟩
          obtain ⟨hagrees, hfree⟩ := hone fun e' he' => (htail e' he').1
          exact ⟨⟨hagrees.2 hskips, hfree⟩, htail⟩

/-- A record without a payload. -/
def nullRecord : Message := ⟨"topic", 0, sampleOffset 0, none, none⟩

/-- A record opens a stream, and one without a payload finds it open. -/
def skippedInputs : List (Ambient × Request) :=
  [quiet .shutdownSignal, quiet (.processRecord { nullRecord with offset := sampleOffset 1 }),
    quiet (.processRecord (sampleRecord (sampleOffset 0)))]

theorem keys_agree_iff_sample :
    (∀ e ∈ (trace openStart skippedInputs).1,
        KeysAgree e.post ∧ (SealsStreams e.request → NoFatal e.responses)) ∧
      ∀ e ∈ (trace openStart skippedInputs).1, SkipsIntoOpenStream e := by
  have hiff := keys_agree_iff (run_trace openStart skippedInputs)
    OperatingSystem.faultless_neverFails ?_
  · have hskips : ∀ e ∈ (trace openStart skippedInputs).1, SkipsIntoOpenStream e := by
      intro e he record metadata hrequest hmetadata hnone
      rcases List.mem_cons.1 he with rfl | he
      · cases hrequest
      rcases List.mem_cons.1 he with rfl | he
      · cases hrequest
        obtain rfl := Option.some.inj hmetadata
        decide
      · obtain rfl := List.mem_singleton.1 he
        cases hrequest
        obtain rfl := Option.some.inj hmetadata
        cases hnone
    exact ⟨hiff.2 hskips, hskips⟩
  · intro e he record hrequest
    rcases List.mem_cons.1 he with rfl | he
    · cases hrequest
    rcases List.mem_cons.1 he with rfl | he
    · cases hrequest
      exact ⟨_, _, rfl, rfl⟩
    · obtain rfl := List.mem_singleton.1 he
      cases hrequest
      exact ⟨_, _, rfl, rfl⟩

/-- The first record of a stream has no payload: the stream is open without an active file, and
sealing it at the shutdown is fatal. -/
theorem null_payload_disagrees :
    ∃ (h : List (Step DiskFileRegistry IdentityKeyGenerator))
      (sm : StateMachine DiskFileRegistry IdentityKeyGenerator),
      Run (system sampleStart) h sm ∧
      sampleStart.fileRegistry.os.NeverFails ∧
      (∀ e ∈ h, Decodable e) ∧
      requests h = [.processRecord nullRecord] ∧
      ¬ KeysAgree sm ∧
      (stepOn sm (quiet .shutdownSignal)).responses =
        [.fatal (notFound ⟨"unknown_schema_name\x1Funknown_schema_version"⟩), .drainAndShutdown] := by
  refine ⟨_, _, run_trace sampleStart [quiet (.processRecord nullRecord)],
    OperatingSystem.faultless_neverFails, ?_, rfl, ?_, rfl⟩
  · intro e he record hrequest
    obtain rfl := List.mem_singleton.1 he
    cases hrequest
    exact ⟨_, _, rfl, rfl⟩
  · intro hagree
    have hfile := (hagree ⟨"unknown_schema_name\x1Funknown_schema_version"⟩).1 (by decide)
    exact absurd hfile (by decide)

end StateMachine

end S3Sink
