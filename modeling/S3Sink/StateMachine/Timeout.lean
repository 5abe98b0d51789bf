import S3Sink.StateMachine.Run
import S3Sink.Files.Operations

/-!
# Timeout — what an upload tick seals

`UploadTick` takes expired streams out of the map, at most as many as there are free slots, and
seals each of them.

* `Sealings` — streams sealed one after the other: the registry closes the file, the generator makes
  a key, and the answer carries what the stream has counted;
* `closeAndUploadAll_sealings` — the code seals its streams so, with every slot accounted for;
* `UploadTicked` — everything a tick does; `uploadTick_exact` proves it for every tick.
-/

namespace S3Sink

namespace StateMachine

open DiskFileRegistry

/-! ## Sealing one stream after the other -/

section

variable {F K : Type} [FileRegistry F] [KeyGenerator K]

/-- The upload of a stream whose file was closed. -/
def uploadOf (config : StateMachineConfiguration) (streamState : StreamState) (objectKey : String)
    (path : PathBuf) (compressedSizeB : Nat) : ToUpload :=
  { objectKey := objectKey
    file :=
      { path := path
        rawSizeB := streamState.bytesConsumed
        compressedSizeB := compressedSizeB
        recordCount := streamState.recordsConsumed
        offsetsConsumed := streamState.offsetsConsumed
        createdAt := streamState.createdAt }
    retries := config.maxUploadsRetry }

/-- Each stream is closed by the registry as the ones before it have left it; the answer is the
failure of the close, or an upload under the generator's next key. -/
inductive Sealings (config : StateMachineConfiguration) :
    F → K → List (StreamId × StreamState) → List Response → F → K → Prop
  | nil (reg : F) (gen : K) : Sealings config reg gen [] [] reg gen
  | failed {reg reg₁ reg' : F} {gen gen' : K} {id : StreamId} {streamState : StreamState}
      {error : SinkError} {streams : List (StreamId × StreamState)} {responses : List Response}
      (hclose : FileRegistry.close reg id = (.error error, reg₁))
      (hrest : Sealings config reg₁ gen streams responses reg' gen') :
      Sealings config reg gen ((id, streamState) :: streams) (.fatal error :: responses) reg' gen'
  | ready {reg reg₁ reg' : F} {gen gen₁ gen' : K} {id : StreamId} {streamState : StreamState}
      {path : PathBuf} {compressedSizeB : Nat} {objectKey : String}
      {streams : List (StreamId × StreamState)} {responses : List Response}
      (hclose : FileRegistry.close reg id = (.ok (path, compressedSizeB), reg₁))
      (hkey : KeyGenerator.key gen id = (objectKey, gen₁))
      (hrest : Sealings config reg₁ gen₁ streams responses reg' gen') :
      Sealings config reg gen ((id, streamState) :: streams)
        (.readyForUpload (uploadOf config streamState objectKey path compressedSizeB) :: responses)
        reg' gen'

theorem Sealings.length {config : StateMachineConfiguration} {reg reg' : F} {gen gen' : K}
    {streams : List (StreamId × StreamState)} {responses : List Response}
    (h : Sealings config reg gen streams responses reg' gen') :
    responses.length = streams.length := by
  induction h with
  | nil => rfl
  | failed _ _ ih => simp [ih]
  | ready _ _ _ ih => simp [ih]

/-- Sealing the given streams changes the registry, the generator and the number of uploads, and
answers one response for each. -/
theorem closeAndUploadAll_sealings (streams : List (StreamId × StreamState)) :
    ∀ sm : StateMachine F K, ∃ reg' gen' responses,
      closeAndUploadAll streams sm = { sm with
        fileRegistry := reg'
        keyGenerator := gen'
        inFlightUploads := sm.inFlightUploads + (uploadsOf responses).length
        responses := sm.responses ++ responses } ∧
      Sealings sm.config sm.fileRegistry sm.keyGenerator streams responses reg' gen' := by
  induction streams with
  | nil => exact fun sm => ⟨_, _, [], by simp [closeAndUploadAll, uploadsOf], Sealings.nil _ _⟩
  | cons e streams ih =>
      intro sm
      obtain ⟨id, streamState⟩ := e
      have hcons : closeAndUploadAll ((id, streamState) :: streams) sm =
          closeAndUploadAll streams (closeAndUpload id streamState sm) := rfl
      obtain ⟨reg', gen', responses, heq, hrest⟩ := ih (closeAndUpload id streamState sm)
      rw [hcons, heq]
      cases hclose : FileRegistry.close sm.fileRegistry id with
      | mk result reg₁ =>
          cases result with
          | error error =>
              have hone : closeAndUpload id streamState sm = { sm with
                  fileRegistry := reg₁
                  responses := sm.responses ++ [.fatal error] } := by
                simp [closeAndUpload, hclose, push]
              rw [hone] at hrest ⊢
              exact ⟨reg', gen', .fatal error :: responses, by simp [uploadsOf],
                Sealings.failed hclose hrest⟩
          | ok closed =>
              obtain ⟨path, compressedSizeB⟩ := closed
              cases hkey : KeyGenerator.key sm.keyGenerator id with
              | mk objectKey gen₁ =>
                  have hone : closeAndUpload id streamState sm = { sm with
                      fileRegistry := reg₁
                      keyGenerator := gen₁
                      inFlightUploads := sm.inFlightUploads + 1
                      responses := sm.responses ++ [.readyForUpload
                        (uploadOf sm.config streamState objectKey path compressedSizeB)] } := by
                    simp [closeAndUpload, hclose, hkey, push, uploadOf]
                  rw [hone] at hrest ⊢
                  refine ⟨reg', gen', .readyForUpload _ :: responses, ?_,
                    Sealings.ready hclose hkey hrest⟩
                  -- one slot for this stream, the others for the rest
                  have hslots : sm.inFlightUploads + 1 + (uploadsOf responses).length =
                      sm.inFlightUploads + (uploadsOf (.readyForUpload
                        (uploadOf sm.config streamState objectKey path compressedSizeB) ::
                          responses)).length := by
                    simp [uploadsOf]
                    omega
                  simp [hslots]

end

/-! ## Files of other streams -/

variable {K : Type} [KeyGenerator K]

/-- Whatever `close` answers, the stream has lost its active file and no byte was written. -/
theorem close_frame (reg : DiskFileRegistry) (id : StreamId) :
    (reg.close id).2.files = reg.files.erase id ∧ (reg.close id).2.written = reg.written := by
  unfold close
  cases hget : reg.files.get? id with
  | none => exact ⟨(HashMap.get?_erase_of_none hget).symm, rfl⟩
  | some file =>
      dsimp only [closeActiveFile]
      split
      · exact ⟨rfl, rfl⟩
      · exact ⟨rfl, rfl⟩

theorem closed_frame {reg reg₁ : DiskFileRegistry} {id : StreamId}
    {result : Except SinkError (PathBuf × Nat)}
    (hclose : FileRegistry.close reg id = (result, reg₁)) :
    (∀ id', id' ≠ id → reg₁.files.get? id' = reg.files.get? id') ∧ reg₁.written = reg.written := by
  obtain ⟨hfiles, hwritten⟩ := close_frame reg id
  rw [fileRegistry_close] at hclose
  rw [hclose] at hfiles hwritten
  refine ⟨fun id' hne => ?_, hwritten⟩
  rw [hfiles, HashMap.get?_erase, if_neg hne]

theorem Sealings.frame {config : StateMachineConfiguration} {reg reg' : DiskFileRegistry}
    {gen gen' : K} {streams : List (StreamId × StreamState)} {responses : List Response}
    (h : Sealings config reg gen streams responses reg' gen') :
    (∀ id, id ∉ streams.map Prod.fst → reg'.files.get? id = reg.files.get? id) ∧
      reg'.written = reg.written := by
  induction h with
  | nil => exact ⟨fun _ _ => rfl, rfl⟩
  | failed hclose _ ih =>
      obtain ⟨hfiles, hwritten⟩ := closed_frame hclose
      refine ⟨fun id hid => ?_, ih.2.trans hwritten⟩
      rw [List.map_cons, List.mem_cons, not_or] at hid
      exact (ih.1 id hid.2).trans (hfiles id hid.1)
  | ready hclose _ _ ih =>
      obtain ⟨hfiles, hwritten⟩ := closed_frame hclose
      refine ⟨fun id hid => ?_, ih.2.trans hwritten⟩
      rw [List.map_cons, List.mem_cons, not_or] at hid
      exact (ih.1 id hid.2).trans (hfiles id hid.1)

/-! ## Upload ticks -/

/-- What a tick at instant `now` does when it seals the streams `taken`. -/
structure UploadTicked (sm : StateMachine DiskFileRegistry K) (now : Instant)
    (taken : List (StreamId × StreamState)) (responses : List Response)
    (sm' : StateMachine DiskFileRegistry K) : Prop where
  /-- as many streams as have expired, up to the number of free slots -/
  length : taken.length = min (sm.config.maxConcurrentUploads - sm.inFlightUploads)
    (sm.streams.toList.countP fun s =>
      s.2.createdAt ≤ now - fromMillis sm.config.maxActiveFileTimeoutMs)
  distinct : (taken.map Prod.fst).Nodup
  expired : ∀ s ∈ taken, sm.streams.get? s.1 = some s.2 ∧
    s.2.createdAt ≤ now - fromMillis sm.config.maxActiveFileTimeoutMs
  /-- one answer for each stream taken -/
  answers : Sealings sm.config sm.fileRegistry sm.keyGenerator taken responses sm'.fileRegistry
    sm'.keyGenerator
  answers_length : responses.length = taken.length
  inFlightUploads : sm'.inFlightUploads = sm.inFlightUploads + (uploadsOf responses).length
  /-- the streams left are those not taken, as they were -/
  streams : ∀ id state, sm'.streams.get? id = some state ↔
    id ∉ taken.map Prod.fst ∧ sm.streams.get? id = some state
  files : ∀ id, id ∉ taken.map Prod.fst →
    sm'.fileRegistry.files.get? id = sm.fileRegistry.files.get? id
  content : ∀ path, sm'.fileRegistry.content path = sm.fileRegistry.content path
  offsetsUploaded : ∀ p, sm'.offsetsUploaded.get? p = sm.offsetsUploaded.get? p
  offsetsWatermark : sm'.offsetsWatermark = sm.offsetsWatermark

theorem Handled.uploadTicked {ambient : Ambient} {sm sm' : StateMachine DiskFileRegistry K}
    {responses : List Response} (h : Handled ambient sm .uploadTick responses sm') :
    ∃ taken, UploadTicked sm ambient.now taken responses sm' := by
  cases h with
  | commitFailed hrequest => rcases hrequest with h | h <;> cases h
  | @uploadTick expired streams _ hextract hclose =>
      have hsplits := HashMap.splits_extractIfTake hextract
      have hlength := HashMap.length_extractIfTake sm.streams
        (fun _ state => state.createdAt ≤
          ambient.now - fromMillis sm.config.maxActiveFileTimeoutMs)
        (sm.config.maxConcurrentUploads - sm.inFlightUploads)
      rw [hextract] at hlength
      obtain ⟨reg', gen', responses, heq, hsealings⟩ := closeAndUploadAll_sealings expired
        { sm with streams := streams, responses := [] }
      obtain ⟨hfiles, hwritten⟩ := hsealings.frame
      rw [← hclose, heq]
      exact ⟨expired,
        { length := hlength
          distinct := hsplits.nodup
          expired := fun s hs => ⟨hsplits.get?_taken s hs,
            of_decide_eq_true (HashMap.satisfies_of_taken hextract hs)⟩
          answers := hsealings
          answers_length := hsealings.length
          inFlightUploads := rfl
          streams := hsplits.get?_rest
          files := hfiles
          content := fun path => by rw [DiskFileRegistry.content, hwritten]; rfl
          offsetsUploaded := fun _ => rfl
          offsetsWatermark := rfl }⟩

/-- The order in which the maps are listed does not show. -/
theorem UploadTicked.reordered {sm pre sm' : StateMachine DiskFileRegistry K} {now : Instant}
    {taken : List (StreamId × StreamState)} {responses : List Response} (hsame : Reordered sm pre)
    (h : UploadTicked pre now taken responses sm') :
    UploadTicked sm now taken responses sm' := by
  have hkeyGenerator : pre.keyGenerator = sm.keyGenerator := by rw [hsame.frame]
  have hwatermark : pre.offsetsWatermark = sm.offsetsWatermark := by rw [hsame.frame]
  have hperm : pre.streams.toList.Perm sm.streams.toList := (hsame.streams.map _).symm
  exact
    { length := by
        have hlength := h.length
        rwa [hperm.countP_eq, hsame.config, hsame.inFlightUploads] at hlength
      distinct := h.distinct
      expired := fun s hs => by
        have hexpired := h.expired s hs
        rwa [hsame.get?_streams, hsame.config] at hexpired
      answers := by
        have hanswers := h.answers
        rwa [hsame.config, hsame.fileRegistry, hkeyGenerator] at hanswers
      answers_length := h.answers_length
      inFlightUploads := by rw [h.inFlightUploads, hsame.inFlightUploads]
      streams := fun id state => by rw [h.streams, hsame.get?_streams]
      files := fun id hid => by rw [h.files id hid, hsame.fileRegistry]
      content := fun path => by rw [h.content, hsame.fileRegistry]
      offsetsUploaded := fun p => by
        rw [h.offsetsUploaded, HashMap.get?_perm hsame.offsetsUploaded p]
      offsetsWatermark := h.offsetsWatermark.trans hwatermark }

/-- An upload tick seals exactly what it may, in every state and for every iteration order. -/
theorem uploadTick_exact {sm sm' : StateMachine DiskFileRegistry K} {e : Step DiskFileRegistry K}
    (hstep : Steps sm e sm') (hrequest : e.request = .uploadTick) :
    ∃ taken, UploadTicked sm e.ambient.now taken e.responses sm' := by
  obtain ⟨taken, hticked⟩ := (hstep.cases_of hrequest).uploadTicked
  rw [hstep.post]
  exact ⟨taken, hticked.reordered hstep.reordered⟩

/-- Two streams with one record each, and one slot. -/
def dormantStreams : StateMachine DiskFileRegistry IdentityKeyGenerator :=
  let config : StateMachineConfiguration :=
    { maxActiveFileTimeoutMs := 60000
      maxConcurrentUploads := 1
      maxUploadsRetry := 1
      targetFileSizeB := 1000 }
  let versioned (version : Bytes) : Message :=
    { sampleRecord (sampleOffset 0) with
      headers := some [⟨RouterStrategy.schemaVersionHeader, some version⟩] }
  (trace { sampleStart with config }
    [quiet (.processRecord (versioned [0x31])), quiet (.processRecord (versioned [0x32]))]).2

/-- A minute after both records, one of the two streams is sealed. -/
theorem uploadTick_exact_sample :
    let e := stepOn dormantStreams (⟨fromMillis 60000, fun _ _ => none⟩, .uploadTick)
    ∃ taken, taken.length = 1 ∧
      UploadTicked dormantStreams e.ambient.now taken e.responses e.post := by
  intro e
  have hstep : Steps dormantStreams e e.post := ⟨Reordered.refl _, rfl, rfl⟩
  obtain ⟨taken, hticked⟩ := uploadTick_exact hstep rfl
  exact ⟨taken, hticked.length.trans (by decide), hticked⟩

end StateMachine

end S3Sink
