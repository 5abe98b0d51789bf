import S3Sink.StateMachine.OpenFiles
import S3Sink.StateMachine.Uploads
import Mathlib.Tactic.Abel

/-!
# Lifecycle — from an active file to a sealed or a revoked one

Every file the disk registry creates is active, then sealed or revoked, and never two of these:
`Lifecycle` states this as an equation between multisets of paths, and `lifecycle_of_run` proves it
for every run without `Fatal`.

`Released` says what taking files away from several streams does to the registry;
`closeAndUploadAll_released` and `revokeAll_released` are its two instances.
-/

namespace S3Sink

open DiskFileRegistry

/-! ## Taking files away -/

/-- The streams `ids` have lost their active files, which had the given paths. -/
structure Released (reg : DiskFileRegistry) (ids : List StreamId) (paths : List PathBuf)
    (reg' : DiskFileRegistry) : Prop where
  files : ∀ id file, reg'.files.get? id = some file ↔ id ∉ ids ∧ reg.files.get? id = some file
  active : reg.activePaths = ↑paths + reg'.activePaths
  written : reg'.written = reg.written
  directory : reg'.directory = reg.directory
  os : reg'.os = reg.os
  tick : reg.tick ≤ reg'.tick

namespace Released

variable {reg reg₁ reg₂ : DiskFileRegistry} {ids ids' : List StreamId} {paths paths' : List PathBuf}

theorem nil (reg : DiskFileRegistry) : Released reg [] [] reg where
  files := by simp
  active := by simp
  written := rfl
  directory := rfl
  os := rfl
  tick := le_rfl

theorem none {id : StreamId} (hnone : reg.files.get? id = none) : Released reg [id] [] reg where
  files id' file := by
    simp only [List.mem_singleton]
    refine ⟨fun hget => ⟨?_, hget⟩, fun h => h.2⟩
    rintro rfl
    rw [hnone] at hget
    cases hget
  active := by simp
  written := rfl
  directory := rfl
  os := rfl
  tick := le_rfl

theorem one {id : StreamId} {file : ActiveFile} (hget : reg.files.get? id = some file) {tick : Nat}
    (htick : reg.tick ≤ tick) :
    Released reg [id] [file.path] { reg with files := reg.files.erase id, tick := tick } where
  files id' file' := by
    simp only [List.mem_singleton]
    rw [HashMap.get?_erase]
    by_cases hid : id' = id <;> simp [hid]
  active := activePaths_erase hget tick
  written := rfl
  directory := rfl
  os := rfl
  tick := htick

theorem append (h : Released reg ids paths reg₁) (h' : Released reg₁ ids' paths' reg₂) :
    Released reg (ids ++ ids') (paths ++ paths') reg₂ where
  files id file := by
    rw [h'.files, h.files, List.mem_append, not_or]
    tauto
  active := by
    rw [h.active, h'.active, ← add_assoc]
    rfl
  written := h'.written.trans h.written
  directory := h'.directory.trans h.directory
  os := h'.os.trans h.os
  tick := h.tick.trans h'.tick

theorem createdPaths (h : Released reg ids paths reg₁) : reg₁.createdPaths = reg.createdPaths := by
  rw [DiskFileRegistry.createdPaths, h.written]
  rfl

theorem content (h : Released reg ids paths reg₁) (path : PathBuf) :
    reg₁.content path = reg.content path := by
  rw [DiskFileRegistry.content, h.written]
  rfl

theorem fresh (h : Released reg ids paths reg₁) (hfresh : reg.Fresh) : reg₁.Fresh := by
  intro path hpath
  rw [h.written] at hpath
  obtain ⟨tick, hlt, heq⟩ := hfresh path hpath
  exact ⟨tick, hlt.trans_le h.tick, by rw [h.directory, h.os]; exact heq⟩

end Released

/-! ## Sealing and revoking streams -/

/-- The upload of a sealed stream: the path of its active file and the stream's own bookkeeping. -/
structure SealedAs (reg : DiskFileRegistry) (e : StreamId × StreamState) (u : ToUpload) : Prop where
  path : reg.files.get? e.1 = some ⟨u.path⟩
  rawSizeB : u.file.rawSizeB = e.2.bytesConsumed
  recordCount : u.file.recordCount = e.2.recordsConsumed
  offsetsConsumed : u.file.offsetsConsumed = e.2.offsetsConsumed

namespace StateMachine

open TransitionSystem

variable {K : Type} [KeyGenerator K]

/-- Sealing one stream fails, or hands out the active file of the stream. -/
theorem closeAndUpload_released {streamId : StreamId} {streamState : StreamState}
    {sm sm' : StateMachine DiskFileRegistry K}
    (h : closeAndUpload streamId streamState sm = sm') (hfree : NoFatal sm'.responses) :
    ∃ u, sm'.responses = sm.responses ++ [.readyForUpload u] ∧
      SealedAs sm.fileRegistry (streamId, streamState) u ∧
      Released sm.fileRegistry [streamId] [u.path] sm'.fileRegistry := by
  unfold closeAndUpload at h
  split at h
  · subst h
    exact absurd (List.mem_append_right _ List.mem_cons_self) (hfree _)
  · next path size fileRegistry hclose =>
      obtain ⟨hget, rfl⟩ := close_ok hclose
      subst h
      exact ⟨_, rfl, ⟨hget, rfl, rfl, rfl⟩, Released.one hget (Nat.le_succ _)⟩

theorem closeAndUploadAll_released {streams : List (StreamId × StreamState)} :
    ∀ {sm sm' : StateMachine DiskFileRegistry K},
    closeAndUploadAll streams sm = sm' → NoFatal sm'.responses →
    ∃ uploads, sm'.responses = sm.responses ++ uploads.map Response.readyForUpload ∧
      List.Forall₂ (SealedAs sm.fileRegistry) streams uploads ∧
      Released sm.fileRegistry (streams.map Prod.fst) (uploads.map ToUpload.path)
        sm'.fileRegistry := by
  induction streams with
  | nil =>
      rintro sm sm' rfl -
      exact ⟨[], by simp [closeAndUploadAll], List.Forall₂.nil, Released.nil _⟩
  | cons e streams ih =>
      rintro sm sm' rfl hfree
      obtain ⟨uploads, hresponses, hsealed, hreleased⟩ := @ih (closeAndUpload e.1 e.2 sm) _ rfl hfree
      -- what the first seal answered is among the answers, so it was not fatal either
      have hprefix : NoFatal (closeAndUpload e.1 e.2 sm).responses := by
        intro error hmem
        apply hfree error
        change _ ∈ (closeAndUploadAll streams (closeAndUpload e.1 e.2 sm)).responses
        rw [hresponses]
        exact List.mem_append_left _ hmem
      obtain ⟨u, hresponse, hhead, hone⟩ := closeAndUpload_released rfl hprefix
      refine ⟨u :: uploads, ?_, List.Forall₂.cons hhead ?_, hone.append hreleased⟩
      · refine hresponses.trans ?_
        rw [hresponse]
        simp
      · -- what the first seal leaves was there before it
        exact hsealed.imp fun e' u' h =>
          { h with path := ((hone.files _ _).1 h.path).2 }

omit [KeyGenerator K] in
theorem revokeStream_released (streamId : StreamId) (sm : StateMachine DiskFileRegistry K) :
    ∃ paths, (revokeStream streamId sm).responses =
        sm.responses ++ paths.map Response.deleteFile ∧
      Released sm.fileRegistry [streamId] paths (revokeStream streamId sm).fileRegistry := by
  unfold revokeStream
  rcases revoke_cases sm.fileRegistry streamId with ⟨hnone, heq⟩ | ⟨file, hget, heq⟩
  · rw [fileRegistry_revoke, heq]
    exact ⟨[], by simp, Released.none hnone⟩
  · rw [fileRegistry_revoke, heq]
    exact ⟨[file.path], rfl, Released.one hget le_rfl⟩

omit [KeyGenerator K] in
theorem revokeAll_released {streams : List (StreamId × StreamState)} :
    ∀ {sm sm' : StateMachine DiskFileRegistry K}, revokeAll streams sm = sm' →
    ∃ paths, sm'.responses = sm.responses ++ paths.map Response.deleteFile ∧
      Released sm.fileRegistry (streams.map Prod.fst) paths sm'.fileRegistry := by
  induction streams with
  | nil =>
      rintro sm sm' rfl
      exact ⟨[], by simp [revokeAll], Released.nil _⟩
  | cons e streams ih =>
      rintro sm sm' rfl
      obtain ⟨paths, hresponses, hreleased⟩ := @ih (revokeStream e.1 sm) _ rfl
      obtain ⟨paths₁, hresponse, hhead⟩ := revokeStream_released e.1 sm
      refine ⟨paths₁ ++ paths, ?_, hhead.append hreleased⟩
      refine hresponses.trans ?_
      rw [hresponse]
      simp

/-- Sealing streams answers paths of active files, each once, also when some of the seals fail. -/
theorem closeAndUpload_active (streamId : StreamId) (streamState : StreamState)
    (sm : StateMachine DiskFileRegistry K) :
    ↑((uploadsOf (closeAndUpload streamId streamState sm).responses).map ToUpload.path) +
        (closeAndUpload streamId streamState sm).fileRegistry.activePaths ≤
      ↑((uploadsOf sm.responses).map ToUpload.path) + sm.fileRegistry.activePaths := by
  unfold closeAndUpload
  split
  · next error reg hclose =>
      -- a failed seal answers no upload, and its stream may have lost the file
      simp only [push, uploadsOf_append, List.map_append, ← Multiset.coe_add]
      refine add_le_add (by simp [uploadsOf]) ?_
      rw [fileRegistry_close] at hclose
      exact activePaths_close_error hclose
  · next path size reg hclose =>
      obtain ⟨hget, rfl⟩ := close_ok hclose
      simp only [push, uploadsOf_append, List.map_append, ← Multiset.coe_add]
      rw [activePaths_erase hget (sm.fileRegistry.tick + 1), add_assoc]
      exact le_rfl

theorem closeAndUploadAll_active (streams : List (StreamId × StreamState)) :
    ∀ sm : StateMachine DiskFileRegistry K,
    ↑((uploadsOf (closeAndUploadAll streams sm).responses).map ToUpload.path) +
        (closeAndUploadAll streams sm).fileRegistry.activePaths ≤
      ↑((uploadsOf sm.responses).map ToUpload.path) + sm.fileRegistry.activePaths := by
  induction streams with
  | nil => exact fun sm => le_rfl
  | cons e streams ih =>
      intro sm
      exact (ih (closeAndUpload e.1 e.2 sm)).trans (closeAndUpload_active e.1 e.2 sm)

/-! ## The invariant -/

/-- Every file created is active, sealed or revoked, and exactly one of these. -/
structure Lifecycle (h : List (Step DiskFileRegistry K)) (sm : StateMachine DiskFileRegistry K) :
    Prop where
  fresh : sm.fileRegistry.Fresh
  accounted : sm.fileRegistry.activePaths + ↑((sealedFiles h).map SealedFile.path) +
    ↑(revokedFiles h) = sm.fileRegistry.createdPaths

/-- What a request without `Fatal` does to the registry: it may write a line, and then it takes the
files it seals or revokes away from their streams. -/
theorem Handled.released {ambient : Ambient} {sm sm' : StateMachine DiskFileRegistry K}
    {request : Request} {responses : List Response}
    (h : Handled ambient sm request responses sm') (hfree : NoFatal responses) :
    ∃ reg₁ ids, (reg₁ = sm.fileRegistry ∨ ∃ id line, sm.fileRegistry.Wrote id line reg₁) ∧
      Released reg₁ ids
        ((sealedBy request responses).map SealedFile.path ++ revokedBy request responses)
        sm'.fileRegistry := by
  -- requests that leave the registry alone
  have hidle : ∀ {reg : DiskFileRegistry}, reg = sm.fileRegistry →
      ∃ reg₁ ids, (reg₁ = sm.fileRegistry ∨ ∃ id line, sm.fileRegistry.Wrote id line reg₁) ∧
        Released reg₁ ids [] reg := fun heq => ⟨_, [], Or.inl heq, Released.nil _⟩
  cases h with
  | unconfigured => exact absurd List.mem_cons_self (hfree _)
  | undecodable => exact absurd List.mem_cons_self (hfree _)
  | writeFailed => exact absurd List.mem_cons_self (hfree _)
  | exhausted => exact absurd List.mem_cons_self (hfree _)
  | commitFailed => exact absurd List.mem_cons_self (hfree _)
  | skipped => exact hidle rfl
  | written _ _ _ hwrite _ =>
      exact ⟨_, [], Or.inr ⟨_, _, writeAll_ok hwrite⟩, Released.nil _⟩
  | @sealed _ metadata _ _ _ _ _ _ _ _ hwrite _ _ hclose =>
      obtain ⟨u, hanswer, -, hreleased⟩ := closeAndUpload_released hclose hfree
      refine ⟨_, [metadata.streamId], Or.inr ⟨_, _, writeAll_ok hwrite⟩, ?_⟩
      rw [hanswer]
      exact hreleased
  | @uploadTick expired _ _ _ hclose =>
      obtain ⟨uploads, hanswer, -, hreleased⟩ := closeAndUploadAll_released hclose hfree
      refine ⟨_, expired.map Prod.fst, Or.inl rfl, ?_⟩
      simpa [hanswer, sealedBy, revokedBy, path_comp_file] using hreleased
  | retried => exact hidle rfl
  | uploaded => exact hidle rfl
  | committedAsync hcommitted => exact hidle (by rw [hcommitted.frame])
  | committedSync hcommitted => exact hidle (by rw [hcommitted.frame])
  | @revoked _ dropped _ _ _ hrevoke =>
      obtain ⟨paths, hanswer, hreleased⟩ := revokeAll_released hrevoke
      refine ⟨_, dropped.map Prod.fst, Or.inl rfl, ?_⟩
      simpa [hanswer, sealedBy, revokedBy] using hreleased
  | shutdown hclose =>
      obtain ⟨uploads, hanswer, -, hreleased⟩ := closeAndUploadAll_released hclose
        fun error hmem => hfree error (List.mem_append_left _ hmem)
      refine ⟨_, sm.streams.toList.map Prod.fst, Or.inl rfl, ?_⟩
      simpa [hanswer, sealedBy, revokedBy, uploadsOf_append, path_comp_file] using
        hreleased

/-- One request moves paths between active, sealed and revoked, and adds those it creates to the
active ones. -/
theorem Handled.lifecycle {ambient : Ambient} {sm sm' : StateMachine DiskFileRegistry K}
    {request : Request} {responses : List Response}
    (h : Handled ambient sm request responses sm') (hfree : NoFatal responses)
    (hfresh : sm.fileRegistry.Fresh)
    (hactive : ∀ path ∈ sm.fileRegistry.activePaths, path ∈ sm.fileRegistry.written) :
    sm'.fileRegistry.Fresh ∧
      sm'.fileRegistry.activePaths + ↑((sealedBy request responses).map SealedFile.path) +
          ↑(revokedBy request responses) + sm.fileRegistry.createdPaths =
        sm.fileRegistry.activePaths + sm'.fileRegistry.createdPaths := by
  obtain ⟨reg₁, ids, hwrote, hreleased⟩ := h.released hfree
  -- the write comes first, the files are taken away from what it leaves
  have hwritten : reg₁.Fresh ∧
      reg₁.activePaths + sm.fileRegistry.createdPaths =
        sm.fileRegistry.activePaths + reg₁.createdPaths := by
    rcases hwrote with rfl | ⟨id, line, hwrote⟩
    · exact ⟨hfresh, rfl⟩
    · exact ⟨hwrote.fresh hfresh hactive, hwrote.active hfresh hactive⟩
  refine ⟨hreleased.fresh hwritten.1, ?_⟩
  have htaken : reg₁.activePaths = sm'.fileRegistry.activePaths +
      (↑((sealedBy request responses).map SealedFile.path) + ↑(revokedBy request responses)) := by
    rw [hreleased.active, ← Multiset.coe_add, add_comm]
  calc
    sm'.fileRegistry.activePaths + ↑((sealedBy request responses).map SealedFile.path) +
          ↑(revokedBy request responses) + sm.fileRegistry.createdPaths
        = reg₁.activePaths + sm.fileRegistry.createdPaths := by
            rw [htaken, add_assoc sm'.fileRegistry.activePaths]
    _ = sm.fileRegistry.activePaths + reg₁.createdPaths := hwritten.2
    _ = sm.fileRegistry.activePaths + sm'.fileRegistry.createdPaths := by
            rw [hreleased.createdPaths]

omit [KeyGenerator K] in
theorem Lifecycle.active_written {h : List (Step DiskFileRegistry K)}
    {sm : StateMachine DiskFileRegistry K} (hlife : Lifecycle h sm) :
    ∀ path ∈ sm.fileRegistry.activePaths, path ∈ sm.fileRegistry.written := by
  intro path hpath
  rw [← mem_createdPaths, ← hlife.accounted]
  exact Multiset.mem_add.2 (Or.inl (Multiset.mem_add.2 (Or.inl hpath)))

theorem Lifecycle.step {h : List (Step DiskFileRegistry K)}
    {sm sm' : StateMachine DiskFileRegistry K} {e : Step DiskFileRegistry K}
    (hlife : Lifecycle h sm) (hstep : Steps sm e sm') (hfree : NoFatal e.responses) :
    Lifecycle (e :: h) sm' := by
  have hreg : e.pre.fileRegistry = sm.fileRegistry := hstep.reordered.fileRegistry
  obtain ⟨hfresh, haccounted⟩ := hstep.cases.lifecycle hfree (hreg ▸ hlife.fresh)
    (hreg ▸ hlife.active_written)
  rw [← hstep.post] at hfresh haccounted
  refine ⟨hfresh, ?_⟩
  rw [hreg] at haccounted
  rw [sealedFiles_cons, revokedFiles_cons, List.map_append, ← Multiset.coe_add, ← Multiset.coe_add]
  -- the equations of the step and of the run, the old active paths on both sides
  apply add_left_cancel (a := sm.fileRegistry.activePaths)
  calc
    _ = sm'.fileRegistry.activePaths +
          ↑((sealedBy e.request e.responses).map SealedFile.path) +
          ↑(revokedBy e.request e.responses) +
          (sm.fileRegistry.activePaths + ↑((sealedFiles h).map SealedFile.path) +
            ↑(revokedFiles h)) := by abel
    _ = sm'.fileRegistry.activePaths +
          ↑((sealedBy e.request e.responses).map SealedFile.path) +
          ↑(revokedBy e.request e.responses) + sm.fileRegistry.createdPaths := by
            rw [hlife.accounted]
    _ = sm.fileRegistry.activePaths + sm'.fileRegistry.createdPaths := haccounted

variable {inputTopics : List (TopicConfig × List TopicName)} {directory : PathBuf}
variable {os : OperatingSystem} {keyGenerator : K} {config : StateMachineConfiguration}

/-- In every run without `Fatal`, every file created is active, sealed or revoked, and exactly one
of these. -/
theorem lifecycle_of_run {h : List (Step DiskFileRegistry K)}
    {sm : StateMachine DiskFileRegistry K}
    (hrun : Run (system (new inputTopics (DiskFileRegistry.new directory os) keyGenerator config))
      h sm) (hfree : FatalFree h) : Lifecycle h sm := by
  induction hrun with
  | start hinit =>
      rw [hinit]
      exact ⟨fun path hpath => absurd hpath (AList.notMem_empty path), rfl⟩
  | step _ hstep ih => exact (ih hfree.tail).step hstep hfree.head

omit [KeyGenerator K] in
/-- No file is sealed or revoked twice, and none is both. -/
theorem Lifecycle.nodup {h : List (Step DiskFileRegistry K)}
    {sm : StateMachine DiskFileRegistry K} (hlife : Lifecycle h sm) :
    (sm.fileRegistry.activePaths + ↑((sealedFiles h).map SealedFile.path) +
      ↑(revokedFiles h)).Nodup := by
  rw [hlife.accounted]
  exact nodup_createdPaths _

/-- A request that answers `Fatal` seals active files, each once. -/
theorem Handled.sealed_active {ambient : Ambient} {sm sm' : StateMachine DiskFileRegistry K}
    {request : Request} {responses : List Response}
    (h : Handled ambient sm request responses sm') (hfatal : ¬ NoFatal responses) :
    ↑((uploadsOf responses).map ToUpload.path) ≤ sm.fileRegistry.activePaths := by
  have hnone : uploadsOf responses = [] →
      ↑((uploadsOf responses).map ToUpload.path) ≤ sm.fileRegistry.activePaths := by
    intro hnil
    rw [hnil]
    exact Multiset.zero_le _
  have hall : ∀ (streams : List (StreamId × StreamState)) (open' : HashMap StreamId StreamState),
      ↑((uploadsOf (closeAndUploadAll streams
          { sm with streams := open', responses := [] }).responses).map ToUpload.path) ≤
        sm.fileRegistry.activePaths := by
    intro streams open'
    exact (Multiset.le_add_right _ _).trans
      ((closeAndUploadAll_active streams _).trans_eq (zero_add _))
  cases h with
  | sealed _ _ _ _ _ _ hclose =>
      obtain ⟨fileRegistry, keyGenerator, response, rfl, hanswer⟩ := sealed_spec hclose
      -- one stream is sealed, or fails to be
      cases hanswer with
      | failed error => exact hnone rfl
      | ready u => exact absurd (by simp [NoFatal]) hfatal
  | uploadTick _ hclose => exact hclose ▸ hall _ _
  | shutdown hclose =>
      rw [uploadsOf_append, uploadsOf_drainAndShutdown, List.append_nil]
      exact hclose ▸ hall _ _
  | revoked _ hrevoke =>
      obtain ⟨fileRegistry, paths, rfl⟩ := revokedAll_spec hrevoke
      exact hnone (by simp)
  | retried => exact absurd (by simp [NoFatal]) hfatal
  | _ => exact hnone rfl

/-- The files a request seals are new and distinct, also when it answers `Fatal`. -/
theorem Lifecycle.sealed_nodup {h : List (Step DiskFileRegistry K)}
    {sm sm' : StateMachine DiskFileRegistry K} {e : Step DiskFileRegistry K}
    (hlife : Lifecycle h sm) (hstep : Steps sm e sm')
    (hrequest : ∀ result, e.request ≠ .uploadCompletion result) :
    ((uploadsOf e.responses).map ToUpload.path ++
      (sealedFiles h).map SealedFile.path).Nodup := by
  rw [← Multiset.coe_nodup]
  by_cases hfree : NoFatal e.responses
  · -- all of them are sealed after the step
    have hsealed : (uploadsOf e.responses).map ToUpload.path ++
        (sealedFiles h).map SealedFile.path = (sealedFiles (e :: h)).map SealedFile.path := by
      rw [sealedFiles_cons, List.map_append, sealedBy_eq e.responses hrequest, List.map_map,
        path_comp_file]
    rw [hsealed]
    refine Multiset.nodup_of_le ?_ (hlife.step hstep hfree).nodup
    exact (Multiset.le_add_left _ _).trans (Multiset.le_add_right _ _)
  · -- what was active before it had not been sealed
    have hactive := hstep.cases.sealed_active hfree
    rw [hstep.reordered.fileRegistry] at hactive
    rw [← Multiset.coe_add]
    refine Multiset.nodup_of_le ?_ hlife.nodup
    calc
      (↑((uploadsOf e.responses).map ToUpload.path) : Multiset PathBuf) +
            ↑((sealedFiles h).map SealedFile.path)
          ≤ sm.fileRegistry.activePaths + ↑((sealedFiles h).map SealedFile.path) :=
            add_le_add_left hactive _
      _ ≤ sm.fileRegistry.activePaths + ↑((sealedFiles h).map SealedFile.path) +
            ↑(revokedFiles h) := Multiset.le_add_right _ _

end StateMachine

end S3Sink
