import S3Sink.StateMachine.Shelf

/-!
# Ledger — where every processed record is kept

The ledger of a history lists every processed record, oldest first, with the place it is kept in: it
enters with its stream, leaves with it for a sealed file, or is dropped with it by a revocation.

* `ledger` — a function of the history; each record has one place;
* `Handled.shelved` — one request keeps streams and files described by their records;
* `shelved_of_run` — whole runs.
-/

namespace S3Sink

open Placement TransitionSystem

/-! ## The ledger of a history -/

/-- Where the records at a place are kept after a request on a state with registry `reg` has left
the streams `left` open. -/
def settle (reg : DiskFileRegistry) (request : Request) (left : HashMap StreamId StreamState)
    (position : Nat) : Place → Place
  | .stream id =>
      if id ∈ left then
        .stream id
      else
        match request with
        | .revokePartitions partitions => .revoked position id partitions
        | _ => .file (reg.pathFor id)
  | place => place

/-- A processed record enters with the stream of its metadata. -/
def entering (configs : HashMap TopicName TopicConfig) : Request → List (Message × Place)
  | .processRecord record =>
      match Cache.metadata configs record with
      | some metadata => [(record, .stream metadata.streamId)]
      | none => []
  | _ => []

/-- Every processed record, oldest first, and the place it is kept in. -/
def ledger {K : Type} : List (Step DiskFileRegistry K) → List (Message × Place)
  | [] => []
  | e :: h =>
      move (settle e.pre.fileRegistry e.request e.post.streams h.length)
        (ledger h ++ entering e.pre.cache.configs e.request)

/-- The processed records of a history, oldest first. -/
def consumedRecords : List Request → List Message
  | [] => []
  | .processRecord record :: requests => consumedRecords requests ++ [record]
  | _ :: requests => consumedRecords requests

theorem mem_consumedRecords_cons {record : Message} {request : Request} {requests : List Request} :
    record ∈ consumedRecords (request :: requests) ↔
      request = .processRecord record ∨ record ∈ consumedRecords requests := by
  cases request with
  | processRecord record' => simp [consumedRecords, or_comm, eq_comm]
  | _ => simp [consumedRecords]

/-! ## One request -/

section Settle

variable {configs : HashMap TopicName TopicConfig} {placed : List (Message × Place)}
variable {streams left : HashMap StreamId StreamState} {reg reg₁ : DiskFileRegistry}
variable {request : Request} {taken : List (StreamId × StreamState)} {position : Nat}

/-- If every stream stays open, every record stays in its place. -/
theorem move_settle_eq_self (h : OpenShelf configs placed left reg₁) :
    move (settle reg request left position) placed = placed := by
  apply move_eq_self
  intro e he
  cases hplace : e.2 with
  | stream id => exact if_pos (h.stream_mem e.1 id (hplace ▸ he))
  | _ => rfl

theorem relocates_settle_file (position : Nat) (hsplits : HashMap.Splits streams taken left)
    (hrequest : ∀ partitions, request ≠ .revokePartitions partitions)
    (hpath : ∀ id ∈ taken.map Prod.fst, reg.pathFor id = reg₁.pathFor id) :
    Relocates (settle reg request left position) left (taken.map Prod.fst)
      fun id => .file (reg₁.pathFor id) where
  stays id hid := if_pos hid
  goes id hid := by
    have hnot : id ∉ left := fun hmem => (hsplits.mem_rest.1 hmem).1 hid
    simp only [settle, if_neg hnot, ← hpath id hid]
  file _ := rfl
  revoked _ _ _ := rfl

theorem relocates_settle_revoked (reg : DiskFileRegistry) (position : Nat)
    (partitions : List (String × Int)) (hsplits : HashMap.Splits streams taken left) :
    Relocates (settle reg (.revokePartitions partitions) left position) left (taken.map Prod.fst)
      fun id => .revoked position id partitions where
  stays _ hid := if_pos hid
  goes _ hid := if_neg fun hmem => (hsplits.mem_rest.1 hmem).1 hid
  file _ := rfl
  revoked _ _ _ := rfl

end Settle

namespace StateMachine

variable {K : Type} [KeyGenerator K]

/-- Open streams and sealed files are described by the records placed in them. -/
structure Shelves (configs : HashMap TopicName TopicConfig) (placed : List (Message × Place))
    (streams : HashMap StreamId StreamState) (reg : DiskFileRegistry) (archived : List SealedFile) :
    Prop where
  opened : OpenShelf configs placed streams reg
  sealed : SealedShelf configs placed reg archived

/-- The shelves of a state. -/
abbrev Shelved (placed : List (Message × Place)) (sm : StateMachine DiskFileRegistry K)
    (archived : List SealedFile) : Prop :=
  Shelves sm.cache.configs placed sm.streams sm.fileRegistry archived

/-- The registry behind a shelf: paths of new files are new, and no two of the active and the sealed
files are the same. -/
structure Separate (reg : DiskFileRegistry) (archived : List SealedFile) : Prop where
  fresh : reg.Fresh
  active_written : ∀ path ∈ reg.activePaths, path ∈ reg.written
  archived_written : ∀ file ∈ archived, file.path ∈ reg.written
  distinct : (reg.activePaths + ↑(archived.map SealedFile.path)).Nodup

omit [KeyGenerator K] in
theorem lineOf_eq {configs : HashMap TopicName TopicConfig} {record : Message}
    {metadata : RecordMetadata} {line? : Option Bytes}
    (hmetadata : Cache.metadata configs record = some metadata)
    (hline : JsonSerializer.serializeRecord metadata.config.decoder record = .ok line?) :
    lineOf configs record = line? := by
  rw [lineOf, hmetadata]
  dsimp only
  rw [hline]

section Cases

variable {placed : List (Message × Place)} {sm sm' : StateMachine DiskFileRegistry K}
variable {archived : List SealedFile} {position : Nat} {responses : List Response}

omit [KeyGenerator K] in
/-- A record comes in and its line is written. -/
theorem Shelved.written (h : Shelved placed sm archived)
    (hseparate : Separate sm.fileRegistry archived) {record : Message}
    {metadata : RecordMetadata} {line : Bytes} {reg' : DiskFileRegistry} (now : Instant)
    (hmetadata : Cache.metadata sm.cache.configs record = some metadata)
    (hline : JsonSerializer.serializeRecord metadata.config.decoder record = .ok (some line))
    (hwrote : sm.fileRegistry.Wrote metadata.streamId line reg') :
    Shelves sm.cache.configs (placed ++ [(record, .stream metadata.streamId)])
      (sm.streams.insert metadata.streamId (sm.writtenState record metadata now line)) reg'
      archived := by
  have hactive : sm.fileRegistry.activePaths.Nodup := (Multiset.nodup_add.1 hseparate.distinct).1
  have hopened := h.opened.consumed record metadata.streamId now
    (by rw [lineOf_eq hmetadata hline]; exact hwrote.fileBytes_self hseparate.fresh)
    (fun id' hid => hwrote.fileBytes_other hseparate.fresh hseparate.active_written hactive hid)
    (fun id' hmem => by rw [hwrote.files, HashMap.mem_orInsert] at hmem; exact hmem)
  rw [lineOf_eq hmetadata hline] at hopened
  -- the file written to is active, so it is none of those sealed earlier
  refine ⟨hopened, h.sealed.consumed fun file hfile => ?_⟩
  refine hwrote.content_other hseparate.fresh (hseparate.archived_written file hfile) fun hget => ?_
  exact Multiset.disjoint_left.1 (Multiset.nodup_add.1 hseparate.distinct).2.2
    (DiskFileRegistry.mem_activePaths.2 ⟨_, hget⟩) (List.mem_map_of_mem hfile)

omit [KeyGenerator K] in
/-- A record without a data body comes in. -/
theorem Shelved.skipped (h : Shelved placed sm archived) {record : Message}
    {metadata : RecordMetadata} (now : Instant)
    (hmetadata : Cache.metadata sm.cache.configs record = some metadata)
    (hline : JsonSerializer.serializeRecord metadata.config.decoder record = .ok none) :
    Shelves sm.cache.configs (placed ++ [(record, .stream metadata.streamId)])
      (sm.streams.insert metadata.streamId (sm.countedState record metadata now)) sm.fileRegistry
      archived := by
  have hbytes : sm.fileRegistry.fileBytes metadata.streamId =
      sm.fileRegistry.fileBytes metadata.streamId ++
        (lineOf sm.cache.configs record).getD [] := by
    rw [lineOf_eq hmetadata hline]
    exact (List.append_nil _).symm
  have hopened := h.opened.consumed record metadata.streamId now hbytes
    (fun _ _ => rfl) (fun _ hmem => Or.inr hmem)
  rw [lineOf_eq hmetadata hline] at hopened
  exact ⟨hopened, h.sealed.consumed fun _ _ => rfl⟩

omit [KeyGenerator K] in
/-- If every stream stays open, the shelves stay as they are. -/
theorem Shelves.stays {configs : HashMap TopicName TopicConfig}
    {streams : HashMap StreamId StreamState} {reg reg₁ : DiskFileRegistry}
    (h : Shelves configs placed streams reg archived) (request : Request) :
    Shelves configs (move (settle reg₁ request streams position) placed) streams reg archived := by
  rw [move_settle_eq_self h.opened]
  exact h

omit [KeyGenerator K] in
/-- Streams are taken away and sealed. -/
theorem Shelves.sealedAll {configs : HashMap TopicName TopicConfig}
    {streams left : HashMap StreamId StreamState} {reg reg₁ reg' : DiskFileRegistry}
    {request : Request} {taken : List (StreamId × StreamState)} {uploads : List ToUpload}
    (h : Shelves configs placed streams reg₁ archived)
    (hsplits : HashMap.Splits streams taken left)
    (hrequest : ∀ partitions, request ≠ .revokePartitions partitions)
    (hpath : ∀ id ∈ taken.map Prod.fst, reg.pathFor id = reg₁.pathFor id)
    (hsealed : List.Forall₂ (SealedAs reg₁) taken uploads)
    (hreleased : Released reg₁ (taken.map Prod.fst) (uploads.map ToUpload.path) reg')
    (hdistinct : (reg₁.activePaths + ↑(archived.map SealedFile.path)).Nodup) :
    Shelves configs (move (settle reg request left position) placed) left reg'
      (uploads.map ToUpload.file ++ archived) := by
  have hmove := relocates_settle_file position hsplits hrequest hpath
  exact ⟨h.opened.released hsplits hreleased hmove (by simp),
    h.sealed.sealed h.opened hsplits hsealed hreleased hmove hdistinct⟩

/-- A record comes in, its line is written, and its stream is sealed. -/
theorem Shelved.recordSealed (h : Shelved placed sm archived)
    (hseparate : Separate sm.fileRegistry archived) {record : Message}
    {metadata : RecordMetadata} {line : Bytes} {reg₁ : DiskFileRegistry} {now : Instant}
    {sm₁ : StateMachine DiskFileRegistry K}
    (hmetadata : Cache.metadata sm.cache.configs record = some metadata)
    (hline : JsonSerializer.serializeRecord metadata.config.decoder record = .ok (some line))
    (hwrote : sm.fileRegistry.Wrote metadata.streamId line reg₁)
    (hregistry : sm₁.fileRegistry = reg₁)
    (hstreams : sm₁.streams = sm.streams.erase metadata.streamId)
    (hclose : closeAndUpload metadata.streamId (sm.writtenState record metadata now line) sm₁ = sm')
    (hresponses : uploadsOf sm₁.responses = []) (hfree : NoFatal sm'.responses)
    (hdistinct : (sm'.fileRegistry.activePaths +
      ↑((sealedBy (.processRecord record) sm'.responses ++ archived).map SealedFile.path)).Nodup) :
    Shelves sm.cache.configs
      (move (settle sm.fileRegistry (.processRecord record) sm'.streams position)
        (placed ++ [(record, .stream metadata.streamId)]))
      sm'.streams sm'.fileRegistry
      (sealedBy (.processRecord record) sm'.responses ++ archived) := by
  subst hregistry
  obtain ⟨u, hanswer, hseal, hreleased⟩ := closeAndUpload_released hclose hfree
  have hleft : sm'.streams = sm.streams.erase metadata.streamId := by
    rw [← hclose, closeAndUpload_streams, hstreams]
  have hsplits := HashMap.splits_erase (HashMap.get?_insert_self sm.streams metadata.streamId
    (sm.writtenState record metadata now line))
  rw [HashMap.erase_insert, ← hleft] at hsplits
  have hsealed : sealedBy (.processRecord record) sm'.responses = [u.file] := by
    change (uploadsOf sm'.responses).map ToUpload.file = _
    rw [hanswer, uploadsOf_append, hresponses]
    rfl
  -- the file just sealed was active when its line was written
  have hdistinct₁ : (sm₁.fileRegistry.activePaths + ↑(archived.map SealedFile.path)).Nodup := by
    rw [hsealed, List.map_append, ← Multiset.coe_add] at hdistinct
    rw [hreleased.active, add_assoc, add_left_comm]
    exact hdistinct
  rw [hsealed]
  refine (h.written hseparate now hmetadata hline hwrote).sealedAll hsplits (by simp)
    (fun id hid => ?_) (List.Forall₂.cons hseal List.Forall₂.nil) hreleased hdistinct₁
  obtain rfl := List.mem_singleton.1 hid
  exact hwrote.pathFor.symm

/-- Streams are taken away and sealed on a request that brings no record. -/
theorem Shelved.streamsSealed (h : Shelved placed sm archived)
    (hseparate : Separate sm.fileRegistry archived) (request : Request)
    {taken : List (StreamId × StreamState)} {left : HashMap StreamId StreamState}
    {sm₁ : StateMachine DiskFileRegistry K}
    (hclose : closeAndUploadAll taken sm₁ = sm') (hfree : NoFatal sm'.responses)
    (hregistry : sm₁.fileRegistry = sm.fileRegistry) (hstreams : sm₁.streams = left)
    (hsplits : HashMap.Splits sm.streams taken left)
    (hrequest : ∀ partitions, request ≠ .revokePartitions partitions) :
    ∃ uploads : List ToUpload, sm'.responses = sm₁.responses ++ uploads.map Response.readyForUpload ∧
      Shelves sm.cache.configs (move (settle sm.fileRegistry request sm'.streams position) placed)
        sm'.streams sm'.fileRegistry (uploads.map ToUpload.file ++ archived) := by
  obtain ⟨uploads, hanswer, hseal, hreleased⟩ := closeAndUploadAll_released hclose hfree
  have hleft : sm'.streams = left := by rw [← hclose, closeAndUploadAll_streams, hstreams]
  rw [hregistry] at hseal hreleased
  rw [← hleft] at hsplits
  exact ⟨uploads, hanswer, h.sealedAll hsplits hrequest (fun _ _ => rfl) hseal hreleased
    hseparate.distinct⟩

omit [KeyGenerator K] in
theorem entering_of_metadata {configs : HashMap TopicName TopicConfig} {record : Message}
    {metadata : RecordMetadata} (hmetadata : Cache.metadata configs record = some metadata) :
    entering configs (.processRecord record) = [(record, .stream metadata.streamId)] := by
  simp [entering, hmetadata]

/-- One request keeps every stream and every file described by its records. -/
theorem Handled.shelved {ambient : Ambient} {request : Request}
    (h : Handled ambient sm request responses sm') (hfree : NoFatal responses)
    (hshelved : Shelved placed sm archived) (hseparate : Separate sm.fileRegistry archived)
    (hdistinct : (sm'.fileRegistry.activePaths +
      ↑((sealedBy request responses ++ archived).map SealedFile.path)).Nodup) :
    Shelved (move (settle sm.fileRegistry request sm'.streams position)
      (placed ++ entering sm.cache.configs request)) sm'
      (sealedBy request responses ++ archived) := by
  unfold Shelved
  rw [h.configs]
  -- requests that bring no record
  have hquiet : placed ++ [] = placed := List.append_nil placed
  cases h with
  | unconfigured => exact absurd List.mem_cons_self (hfree _)
  | undecodable => exact absurd List.mem_cons_self (hfree _)
  | writeFailed => exact absurd List.mem_cons_self (hfree _)
  | exhausted => exact absurd List.mem_cons_self (hfree _)
  | commitFailed => exact absurd List.mem_cons_self (hfree _)
  | skipped hmetadata _ hline =>
      rw [entering_of_metadata hmetadata]
      exact (hshelved.skipped ambient.now hmetadata hline).stays _
  | written hmetadata _ hline hwrite _ =>
      rw [entering_of_metadata hmetadata]
      exact (hshelved.written hseparate ambient.now hmetadata hline
        (DiskFileRegistry.writeAll_ok hwrite)).stays _
  | sealed hmetadata _ hline hwrite _ _ hclose =>
      rw [entering_of_metadata hmetadata]
      exact hshelved.recordSealed hseparate hmetadata hline (DiskFileRegistry.writeAll_ok hwrite)
        rfl rfl hclose rfl hfree hdistinct
  | @uploadTick _ _ sm₁ hextract hclose =>
      obtain ⟨uploads, hanswer, hgoal⟩ := hshelved.streamsSealed hseparate .uploadTick hclose hfree
        rfl rfl (HashMap.splits_extractIfTake hextract) (by simp)
      have hsealed : sealedBy .uploadTick sm₁.responses = uploads.map ToUpload.file := by
        rw [hanswer]
        simp [sealedBy]
      rw [hsealed]
      exact hquiet.symm ▸ hgoal
  | @shutdown sm₁ hclose =>
      have hfree₁ : NoFatal sm₁.responses := fun error hmem =>
        hfree error (List.mem_append_left _ hmem)
      obtain ⟨uploads, hanswer, hgoal⟩ := hshelved.streamsSealed hseparate .shutdownSignal hclose
        hfree₁ rfl rfl (HashMap.splits_drain sm.streams) (by simp)
      have hsealed : sealedBy .shutdownSignal (sm₁.responses ++ [.drainAndShutdown]) =
          uploads.map ToUpload.file := by
        simp [hanswer, sealedBy, uploadsOf_append]
      rw [hsealed]
      exact hquiet.symm ▸ hgoal
  | @revoked partitions dropped streams sm₁ hextract hrevoke =>
      obtain ⟨paths, hanswer, hreleased⟩ := revokeAll_released hrevoke
      have hleft : sm₁.streams = streams := by rw [← hrevoke, revokeAll_streams]
      have hsealed : sealedBy (.revokePartitions partitions) sm₁.responses = [] := by
        rw [hanswer]
        simp [sealedBy]
      rw [← hleft] at hextract
      have hsplits := HashMap.splits_extractIfTake hextract
      have hmove := relocates_settle_revoked sm.fileRegistry position partitions hsplits
      rw [hsealed]
      exact hquiet.symm ▸ ⟨hshelved.opened.released hsplits hreleased hmove (by simp),
        hshelved.sealed.revoked hshelved.opened hsplits hreleased hmove (by simp)⟩
  | committedAsync hcommitted =>
      rw [hcommitted.frame]
      exact hquiet.symm ▸ hshelved.stays _
  | committedSync hcommitted =>
      rw [hcommitted.frame]
      exact hquiet.symm ▸ hshelved.stays _
  | _ => exact hquiet.symm ▸ hshelved.stays _

end Cases

/-! ## Whole runs -/

omit [KeyGenerator K] in
theorem Shelved.reordered {placed : List (Message × Place)}
    {sm sm' : StateMachine DiskFileRegistry K} {archived : List SealedFile}
    (h : Shelved placed sm archived) (hreordered : Reordered sm sm') :
    Shelved placed sm' archived := by
  have hmem : ∀ id, id ∈ sm'.streams ↔ id ∈ sm.streams := fun id => by
    simp only [HashMap.mem_iff, hreordered.get?_streams]
  constructor
  · rw [hreordered.cache, hreordered.fileRegistry]
    exact
      { stream_mem := fun record id hplaced => (hmem id).2 (h.opened.stream_mem record id hplaced)
        described := fun id state hget =>
          h.opened.described id state (hreordered.get?_streams id ▸ hget)
        files_open := fun id hid => (hmem id).2 (h.opened.files_open id hid) }
  · rw [hreordered.cache, hreordered.fileRegistry]
    exact h.sealed

omit [KeyGenerator K] in
theorem Lifecycle.separate {h : List (Step DiskFileRegistry K)}
    {sm : StateMachine DiskFileRegistry K} (hlife : Lifecycle h sm) :
    Separate sm.fileRegistry (sealedFiles h) where
  fresh := hlife.fresh
  active_written := hlife.active_written
  archived_written file hfile := by
    rw [← DiskFileRegistry.mem_createdPaths, ← hlife.accounted]
    exact Multiset.mem_add.2 (Or.inl (Multiset.mem_add.2 (Or.inr (List.mem_map_of_mem hfile))))
  distinct := (Multiset.nodup_add.1 hlife.nodup).1

variable {inputTopics : List (TopicConfig × List TopicName)} {directory : PathBuf}
variable {os : OperatingSystem} {keyGenerator : K} {config : StateMachineConfiguration}
variable {h : List (Step DiskFileRegistry K)} {sm : StateMachine DiskFileRegistry K}

/-- In every run without `Fatal` streams and files are described by the records placed in them. -/
theorem shelved_of_run
    (hrun : Run (system (new inputTopics (DiskFileRegistry.new directory os) keyGenerator config))
      h sm) (hfree : FatalFree h) : Shelved (ledger h) sm (sealedFiles h) := by
  induction hrun with
  | start hinit =>
      rw [hinit]
      refine
        ⟨⟨fun _ _ hmem => absurd hmem List.not_mem_nil, fun id state hget => ?_, fun id hid => ?_⟩,
          fun _ _ hmem => absurd hmem List.not_mem_nil, fun _ hmem => absurd hmem List.not_mem_nil⟩
      · cases hget
      · exact absurd hid (AList.notMem_empty id)
  | @step h sm sm' e hprev hstep ih =>
      have hlife := lifecycle_of_run hprev hfree.tail
      have hlife' := lifecycle_of_run (Run.step hprev hstep) hfree
      have hshelved := (ih hfree.tail).reordered hstep.reordered
      -- separate files before the request, distinct ones after it
      have hseparate := hlife.separate
      have hdistinct := hlife'.separate.distinct
      rw [← hstep.reordered.fileRegistry] at hseparate
      rw [hstep.post] at hdistinct ⊢
      exact hstep.cases.shelved hfree.head hshelved hseparate hdistinct

theorem configs_of_run
    (hrun : Run (system (new inputTopics (DiskFileRegistry.new directory os) keyGenerator config))
      h sm) : sm.cache.configs = Cache.newConfigs inputTopics := by
  induction hrun with
  | start hinit =>
      rw [hinit]
      rfl
  | @step h sm sm' e _ hstep ih =>
      calc
        sm'.cache.configs
            = e.post.cache.configs := by rw [hstep.post]
        _ = e.pre.cache.configs := hstep.cases.configs
        _ = sm.cache.configs := by rw [hstep.reordered.cache]
        _ = Cache.newConfigs inputTopics := ih

/-- A request that is not fatal enters its record, if it has one. -/
theorem map_fst_entering {ambient : Ambient} {sm sm' : StateMachine DiskFileRegistry K}
    {request : Request} {responses : List Response} (h : Handled ambient sm request responses sm')
    (hfree : NoFatal responses) (requests : List Request) :
    consumedRecords requests ++ (entering sm.cache.configs request).map Prod.fst =
      consumedRecords (request :: requests) := by
  cases request with
  | processRecord record =>
      cases hmetadata : Cache.metadata sm.cache.configs record with
      | some metadata => simp [entering, hmetadata, consumedRecords]
      | none =>
          cases h with
          | unconfigured => exact absurd List.mem_cons_self (hfree _)
          | commitFailed => exact absurd List.mem_cons_self (hfree _)
          | skipped hfound => rw [hmetadata] at hfound; cases hfound
          | undecodable hfound => rw [hmetadata] at hfound; cases hfound
          | writeFailed hfound => rw [hmetadata] at hfound; cases hfound
          | written hfound => rw [hmetadata] at hfound; cases hfound
          | sealed hfound => rw [hmetadata] at hfound; cases hfound
  | _ => exact List.append_nil _

/-- The ledger lists every processed record once. -/
theorem map_fst_ledger
    (hrun : Run (system (new inputTopics (DiskFileRegistry.new directory os) keyGenerator config))
      h sm) (hfree : FatalFree h) : (ledger h).map Prod.fst = consumedRecords (requests h) := by
  induction hrun with
  | start hinit => rfl
  | @step h sm sm' e hprev hstep ih =>
      -- a move changes places only, so the records are those before and the one that enters
      calc
        (ledger (e :: h)).map Prod.fst
            = (ledger h ++ entering e.pre.cache.configs e.request).map Prod.fst :=
                map_fst_move _ _
        _ = consumedRecords (requests h) ++
              (entering e.pre.cache.configs e.request).map Prod.fst := by
                rw [List.map_append, ih hfree.tail]
        _ = consumedRecords (requests (e :: h)) :=
                map_fst_entering hstep.cases hfree.head (requests h)

omit [KeyGenerator K] in
theorem revoked_notMem_entering {configs : HashMap TopicName TopicConfig} {request : Request}
    {record : Message} {position : Nat} {id : StreamId} {partitions : List (String × Int)} :
    (record, Place.revoked position id partitions) ∉ entering configs request := by
  cases request with
  | processRecord record' =>
      rw [entering]
      cases Cache.metadata configs record' <;> simp
  | _ => exact List.not_mem_nil

/-- A revoked stream had records of the revoked partitions only. -/
theorem Handled.revokes {ambient : Ambient} {sm sm' : StateMachine DiskFileRegistry K}
    {partitions : List (String × Int)} {responses : List Response}
    (h : Handled ambient sm (.revokePartitions partitions) responses sm') {id : StreamId}
    {state : StreamState} (hget : sm.streams.get? id = some state) (hgone : id ∉ sm'.streams)
    {p : TopicId} (hp : p ∈ state.offsetsConsumed.keys) : p ∈ revokedTopicIds partitions := by
  cases h with
  | @revoked _ dropped streams sm₁ hextract hrevoke =>
      have hstreams : sm₁.streams = streams := by rw [← hrevoke, revokeAll_streams]
      -- a stream left by the extraction would still be open
      rcases (HashMap.splits_extractIfTake hextract).taken_or_rest hget with htaken | hrest
      · simpa using List.all_eq_true.1 (HashMap.satisfies_of_taken hextract htaken) p hp
      · refine absurd ?_ hgone
        change id ∈ sm₁.streams
        rw [hstreams]
        exact HashMap.mem_iff.2 ⟨state, hrest⟩
  | commitFailed hrequest => rcases hrequest with h | h <;> cases h

/-- A record is dropped only by a revocation of its partition. -/
theorem revoked_of_ledger
    (hrun : Run (system (new inputTopics (DiskFileRegistry.new directory os) keyGenerator config))
      h sm) (hfree : FatalFree h) {record : Message} {position : Nat} {id : StreamId}
    {partitions : List (String × Int)}
    (hmem : (record, Place.revoked position id partitions) ∈ ledger h) :
    record.topicId ∈ revokedTopicIds partitions ∧
      (requests h).reverse[position]? = some (.revokePartitions partitions) := by
  induction hrun with
  | start hinit => exact absurd hmem List.not_mem_nil
  | @step h sm sm' e hprev hstep ih =>
      have hlength : (requests h).reverse.length = h.length := by simp [requests]
      have hreverse : (requests (e :: h)).reverse = (requests h).reverse ++ [e.request] :=
        List.reverse_cons
      rw [hreverse]
      obtain ⟨place, hplaced, hsettle⟩ := mem_move.1 hmem
      cases place with
      | file path => cases hsettle
      | revoked position' id' partitions' =>
          cases hsettle
          -- dropped earlier: the position is that of an older request
          have hold : (record, Place.revoked position id partitions) ∈ ledger h := by
            rcases List.mem_append.1 hplaced with hold | hnew
            · exact hold
            · exact absurd hnew revoked_notMem_entering
          obtain ⟨hp, hget⟩ := ih hfree.tail hold
          have hlt := (List.getElem?_eq_some_iff.1 hget).1
          exact ⟨hp, by rw [List.getElem?_append_left hlt]; exact hget⟩
      | stream id' =>
          -- the stream leaves in this step, and only a revocation drops its records
          by_cases hkept : id' ∈ e.post.streams
          · simp [settle, hkept] at hsettle
          · cases hrequest : e.request with
            | revokePartitions partitions' =>
                rw [hrequest, settle, if_neg hkept] at hsettle
                cases hsettle
                have hentering : entering e.pre.cache.configs (.revokePartitions partitions) = [] :=
                  rfl
                rw [hrequest, hentering, List.append_nil] at hplaced
                have hshelved := (shelved_of_run hprev hfree.tail).reordered hstep.reordered
                obtain ⟨state, hget⟩ :=
                  HashMap.mem_iff.1 (hshelved.opened.stream_mem record id hplaced)
                have hkey := (hshelved.opened.described id state hget).mem_offsets
                  (mem_itemsAt.2 hplaced)
                refine ⟨(hstep.cases_of hrequest).revokes hget hkept hkey, ?_⟩
                rw [← hlength, List.getElem?_concat_length]
            | _ => simp [settle, hkept, hrequest] at hsettle

end StateMachine

end S3Sink
