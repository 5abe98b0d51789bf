import S3Sink.StateMachine.Ledger

/-!
# Order — records of a stream never overtake each other

The records of a stream leave it in the order they came: into files sealed one after the other, or
dropped by one revocation after the other.  What is still open came last.

* `InOrder` — the places of an older and a newer record of one stream;
* `InOrder.settle` — one request keeps the order;
* `inOrder_of_run` — whole runs;
* `stream_reassembled`, `offsets_in_order` — what the files of a stream then hold.
-/

namespace S3Sink

open Placement TransitionSystem

/-- The stream a record is routed to. -/
def streamOf (configs : HashMap TopicName TopicConfig) (record : Message) : Option StreamId :=
  (Cache.metadata configs record).map RecordMetadata.streamId

/-- The files sealed, the oldest first. -/
def sealedPaths {K : Type} (h : List (Step DiskFileRegistry K)) : List PathBuf :=
  ((sealedFiles h).map SealedFile.path).reverse

/-- The record was not dropped. -/
def Place.isKept : Place → Bool
  | .revoked _ _ _ => false
  | _ => true

/-- The records of a stream that were not dropped, in the order they came, and their places. -/
def keptOf (configs : HashMap TopicName TopicConfig) (id : StreamId)
    (placed : List (Message × Place)) : List (Message × Place) :=
  placed.filter fun e => streamOf configs e.1 = some id && e.2.isKept

/-- The files sealed from a stream, the oldest first. -/
def filesOf {K : Type} (configs : HashMap TopicName TopicConfig) (id : StreamId)
    (h : List (Step DiskFileRegistry K)) : List PathBuf :=
  (sealedPaths h).filter fun path =>
    (itemsAt (ledger h) (.file path)).any fun record => streamOf configs record = some id

/-- The places of an older and a newer record of one stream. -/
structure InOrder (archived : List PathBuf) (older newer : Place) : Prop where
  /-- the older one leaves no later -/
  leaves : (∀ id, newer ≠ .stream id) → ∀ id, older ≠ .stream id
  /-- they are in one file, or that of the older one was sealed before -/
  files : ∀ path path', older = .file path → newer = .file path' →
    path = path' ∨ [path, path'].Sublist archived
  /-- they were dropped by one revocation, or the older one by an earlier one -/
  drops : ∀ n id partitions n' id' partitions', older = .revoked n id partitions →
    newer = .revoked n' id' partitions' → n ≤ n'

namespace InOrder

theorem newest (archived : List PathBuf) (older : Place) (id : StreamId) :
    InOrder archived older (.stream id) where
  leaves h := absurd rfl (h id)
  files _ _ _ h := by cases h
  drops _ _ _ _ _ _ _ h := by cases h

section Settle

variable {archived added : List PathBuf} {older newer : Place} {reg : DiskFileRegistry}
variable {request : Request} {left : HashMap StreamId StreamState} {position : Nat}

/-- Where a place leads that no stream is left at. -/
inductive Settled (reg : DiskFileRegistry) (request : Request) (position : Nat) :
    Place → Place → Prop
  | file (path : PathBuf) : Settled reg request position (.file path) (.file path)
  | revoked (n : Nat) (id : StreamId) (partitions : List (String × Int)) :
      Settled reg request position (.revoked n id partitions) (.revoked n id partitions)
  | sealed (id : StreamId) : Settled reg request position (.stream id) (.file (reg.pathFor id))
  | dropped (id : StreamId) (partitions : List (String × Int)) :
      Settled reg request position (.stream id) (.revoked position id partitions)

/-- A place stays that of an open stream, or leads somewhere else. -/
theorem settle_cases (reg : DiskFileRegistry) (request : Request)
    (left : HashMap StreamId StreamState) (position : Nat) (place : Place) :
    (∃ id ∈ left, place = .stream id ∧ settle reg request left position place = .stream id) ∨
      (∀ id ∈ left, place ≠ .stream id) ∧
        Settled reg request position place (settle reg request left position place) := by
  cases place with
  | file path => exact Or.inr ⟨by simp, .file path⟩
  | revoked n id partitions => exact Or.inr ⟨by simp, .revoked n id partitions⟩
  | stream id =>
      by_cases hid : id ∈ left
      · exact Or.inl ⟨id, hid, rfl, if_pos hid⟩
      · refine Or.inr ⟨fun id' hid' heq => ?_, ?_⟩
        · cases heq
          exact hid hid'
        · simp only [settle, if_neg hid]
          cases request with
          | revokePartitions partitions => exact .dropped id partitions
          | _ => exact .sealed id

/-- A stream that leaves for a file leaves for its own. -/
theorem settle_file {id : StreamId} {path : PathBuf}
    (h : settle reg request left position (.stream id) = .file path) : reg.pathFor id = path := by
  rcases settle_cases reg request left position (.stream id) with ⟨id', -, -, hstays⟩ | ⟨-, hto⟩
  · rw [h] at hstays
    cases hstays
  · rw [h] at hto
    cases hto
    rfl

/-- Two records that have both left their stream. -/
theorem settled (h : InOrder archived older newer)
    (hsame : ∀ id id', older = .stream id → newer = .stream id' → id = id')
    (hold : ∀ path, older = .file path → path ∈ archived)
    (hpast : ∀ n id partitions, older = .revoked n id partitions → n ≤ position)
    {older' newer' : Place} (hfrom : Settled reg request position older older')
    (hto : Settled reg request position newer newer')
    (hadded : ∀ id path, newer = .stream id → newer' = .file path → path ∈ added) :
    InOrder (archived ++ added) older' newer' := by
  have hfirst : (∀ id, newer ≠ .stream id) → ∀ id, older ≠ .stream id := h.leaves
  cases hfrom with
  | file path =>
      refine ⟨by simp, fun path₁ path' heq hfile => ?_, by simp⟩
      cases heq
      cases hto with
      | file path'' =>
          cases hfile
          exact (h.files path path' rfl rfl).imp_right fun hsub =>
            hsub.trans (List.sublist_append_left _ _)
      -- the file of the older record was sealed by an earlier request
      | «sealed» id =>
          refine Or.inr ?_
          exact List.Sublist.append (List.singleton_sublist.2 (hold path rfl))
            (List.singleton_sublist.2 (hadded id path' rfl hfile))
      | revoked => cases hfile
      | dropped => cases hfile
  | revoked n id partitions =>
      refine ⟨by simp, by simp, fun n₁ id₁ partitions₁ n' id' partitions' heq hdropped => ?_⟩
      cases heq
      cases hto with
      | revoked =>
          cases hdropped
          exact h.drops n id partitions n' id' partitions' rfl rfl
      | dropped =>
          cases hdropped
          exact hpast n id partitions rfl
      | file => cases hdropped
      | «sealed» => cases hdropped
  | «sealed» id =>
      refine ⟨by simp, fun path path' heq hfile => ?_, by simp⟩
      cases heq
      cases hto with
      | «sealed» id' =>
          cases hfile
          exact Or.inl (by rw [hsame id id' rfl rfl])
      | file => exact absurd rfl (hfirst (by simp) id)
      | revoked => exact absurd rfl (hfirst (by simp) id)
      | dropped => cases hfile
  | dropped id partitions =>
      refine ⟨by simp, by simp, fun n₁ id₁ partitions₁ n' id' partitions' heq hdropped => ?_⟩
      cases heq
      cases hto with
      | dropped =>
          cases hdropped
          exact le_refl _
      | file => exact absurd rfl (hfirst (by simp) id)
      | revoked => exact absurd rfl (hfirst (by simp) id)
      | «sealed» => cases hdropped

/-- One request moves the records of a stream together. -/
theorem settle (h : InOrder archived older newer)
    (hsame : ∀ id id', older = .stream id → newer = .stream id' → id = id')
    (hold : ∀ path, older = .file path → path ∈ archived)
    (hpast : ∀ n id partitions, older = .revoked n id partitions → n ≤ position)
    (hadded : ∀ id path, newer = .stream id →
      S3Sink.settle reg request left position newer = .file path → path ∈ added) :
    InOrder (archived ++ added) (S3Sink.settle reg request left position older)
      (S3Sink.settle reg request left position newer) := by
  rcases settle_cases reg request left position newer with ⟨id, hid, rfl, hstays⟩ | ⟨hgone, hto⟩
  -- the newer record is still open
  · rw [hstays]
    exact newest _ _ id
  rcases settle_cases reg request left position older with ⟨id, hid, rfl, hstays⟩ | ⟨-, hfrom⟩
  -- then the older one would be open too
  · by_cases hopen : ∃ id', newer = .stream id'
    · obtain ⟨id', rfl⟩ := hopen
      obtain rfl := hsame id id' rfl rfl
      exact absurd rfl (hgone id hid)
    · exact absurd rfl (h.leaves (fun id' heq => hopen ⟨id', heq⟩) id)
  · exact h.settled hsame hold hpast hfrom hto hadded

end Settle

end InOrder

/-! ## Whole runs -/

namespace StateMachine

/-- A file about to be sealed is none of those sealed before. -/
theorem Separate.pathFor_notMem {reg : DiskFileRegistry} {archived : List SealedFile}
    (h : Separate reg archived) (id : StreamId) :
    reg.pathFor id ∉ archived.map SealedFile.path := by
  intro hmem
  cases hget : reg.files.get? id with
  | some file =>
      rw [DiskFileRegistry.pathFor_of_active hget] at hmem
      exact Multiset.disjoint_left.1 (Multiset.nodup_add.1 h.distinct).2.2
        (DiskFileRegistry.mem_activePaths.2 ⟨id, hget⟩) hmem
  | none =>
      have hpath : reg.pathFor id = reg.nextPath := by simp [DiskFileRegistry.pathFor, hget]
      obtain ⟨file, hfile, heq⟩ := List.mem_map.1 hmem
      exact h.fresh.nextPath_notMem (hpath ▸ heq ▸ h.archived_written file hfile)

theorem sealedPaths_cons {K : Type} (e : Step DiskFileRegistry K)
    (h : List (Step DiskFileRegistry K)) :
    sealedPaths (e :: h) =
      sealedPaths h ++ ((sealedBy e.request e.responses).map SealedFile.path).reverse := by
  simp [sealedPaths, sealedFiles_cons]

variable {K : Type} [KeyGenerator K]
variable {inputTopics : List (TopicConfig × List TopicName)} {directory : PathBuf}
variable {os : OperatingSystem} {keyGenerator : K} {config : StateMachineConfiguration}
variable {h : List (Step DiskFileRegistry K)} {sm : StateMachine DiskFileRegistry K}

omit [KeyGenerator K] in
theorem streamOf_of_entering {configs : HashMap TopicName TopicConfig} {request : Request}
    {record : Message} {place : Place} (hmem : (record, place) ∈ entering configs request) :
    ∃ id, place = .stream id ∧ streamOf configs record = some id := by
  cases request with
  | processRecord record' =>
      cases hmetadata : Cache.metadata configs record' with
      | none => simp [entering, hmetadata] at hmem
      | some metadata =>
          simp only [entering, hmetadata, List.mem_singleton, Prod.mk.injEq] at hmem
          obtain ⟨rfl, rfl⟩ := hmem
          exact ⟨metadata.streamId, rfl, by simp [streamOf, hmetadata]⟩
  | _ => exact absurd hmem List.not_mem_nil

/-- The records of an open stream are routed to it. -/
theorem streamOf_of_ledger
    (hrun : Run (system (new inputTopics (DiskFileRegistry.new directory os) keyGenerator config))
      h sm) {record : Message} {id : StreamId} (hmem : (record, .stream id) ∈ ledger h) :
    streamOf (Cache.newConfigs inputTopics) record = some id := by
  induction hrun with
  | start hinit => exact absurd hmem List.not_mem_nil
  | @step h sm sm' e hprev hstep ih =>
      obtain ⟨place, hplaced, hsettle⟩ := mem_move.1 hmem
      obtain rfl : place = .stream id := by
        rcases InOrder.settle_cases e.pre.fileRegistry e.request e.post.streams h.length place with
          ⟨id', -, rfl, hstays⟩ | ⟨-, hto⟩
        · exact hstays.symm.trans hsettle
        · rw [hsettle] at hto
          cases hto
      rcases List.mem_append.1 hplaced with hold | hnew
      · exact ih hold
      · obtain ⟨id', heq, hstream⟩ := streamOf_of_entering hnew
        cases heq
        rwa [hstep.reordered.cache, configs_of_run hprev] at hstream

/-- In every run without `Fatal` the records of a stream leave it in the order they came. -/
theorem inOrder_of_run
    (hrun : Run (system (new inputTopics (DiskFileRegistry.new directory os) keyGenerator config))
      h sm) (hfree : FatalFree h) :
    (ledger h).Pairwise fun older newer =>
      streamOf (Cache.newConfigs inputTopics) older.1 =
        streamOf (Cache.newConfigs inputTopics) newer.1 →
      InOrder (sealedPaths h) older.2 newer.2 := by
  induction hrun with
  | start hinit => exact List.Pairwise.nil
  | @step h sm sm' e hprev hstep ih =>
      have hlife := lifecycle_of_run hprev hfree.tail
      have hshelved := shelved_of_run hprev hfree.tail
      have hshelved' := shelved_of_run (Run.step hprev hstep) hfree
      have hconfigs : e.pre.cache.configs = Cache.newConfigs inputTopics := by
        rw [hstep.reordered.cache, configs_of_run hprev]
      have howner : ∀ (record : Message) (id : StreamId),
          (record, .stream id) ∈ ledger h ++ entering e.pre.cache.configs e.request →
          streamOf (Cache.newConfigs inputTopics) record = some id := by
        intro record id hmem
        rcases List.mem_append.1 hmem with hold | hnew
        · exact streamOf_of_ledger hprev hold
        · obtain ⟨id', heq, hstream⟩ := streamOf_of_entering hnew
          cases heq
          rwa [hconfigs] at hstream
      have hearlier : ∀ {record : Message} {place : Place},
          (record, place) ∈ ledger h ++ entering e.pre.cache.configs e.request →
          (∀ id, place ≠ .stream id) → (record, place) ∈ ledger h := by
        intro record place hmem hleft
        refine (List.mem_append.1 hmem).resolve_right fun hnew => ?_
        obtain ⟨id, hplace, -⟩ := streamOf_of_entering hnew
        exact hleft id hplace
      -- the record that enters is the newest of its stream
      have hplaced : (ledger h ++ entering e.pre.cache.configs e.request).Pairwise
          fun older newer => streamOf (Cache.newConfigs inputTopics) older.1 =
            streamOf (Cache.newConfigs inputTopics) newer.1 →
          InOrder (sealedPaths h) older.2 newer.2 := by
        refine List.pairwise_append.2 ⟨ih hfree.tail, ?_, ?_⟩
        · cases e.request with
          | processRecord record =>
              rw [entering]
              cases Cache.metadata e.pre.cache.configs record with
              | none => exact List.Pairwise.nil
              | some metadata => exact List.pairwise_singleton _ _
          | _ => exact List.Pairwise.nil
        · rintro older - ⟨newer, place⟩ hnew -
          obtain ⟨id, rfl, -⟩ := streamOf_of_entering hnew
          exact InOrder.newest _ _ id
      rw [sealedPaths_cons, ledger, move, List.pairwise_map]
      refine hplaced.imp_of_mem ?_
      rintro ⟨older, place⟩ ⟨newer, place'⟩ holder hnewer hinOrder hsame
      dsimp only at hsame ⊢
      refine (hinOrder hsame).settle ?_ ?_ ?_ ?_
      · rintro id id' rfl rfl
        rw [howner older id holder, howner newer id' hnewer] at hsame
        exact Option.some.inj hsame
      · rintro path rfl
        exact List.mem_reverse.2 (hshelved.sealed.file_mem older path (hearlier holder (by simp)))
      · rintro n id partitions rfl
        obtain ⟨-, hget⟩ := revoked_of_ledger hprev hfree.tail (hearlier holder (by simp))
        have hlt := (List.getElem?_eq_some_iff.1 hget).1
        rw [List.length_reverse, requests, List.length_map] at hlt
        exact hlt.le
      -- the file is sealed by this request
      · rintro id path rfl hto
        have hfile := hshelved'.sealed.file_mem newer path (mem_move.2 ⟨_, hnewer, hto⟩)
        rw [sealedFiles_cons, List.map_append] at hfile
        refine List.mem_reverse.2 ((List.mem_append.1 hfile).resolve_right fun hold => ?_)
        obtain rfl := InOrder.settle_file hto
        rw [hstep.reordered.fileRegistry] at hold
        exact hlife.separate.pathFor_notMem id hold

/-! ## Files of one stream -/

/-- The request brings a record of the stream. -/
def Brings (configs : HashMap TopicName TopicConfig) (request : Request) (id : StreamId) : Prop :=
  ∃ record, request = .processRecord record ∧ streamOf configs record = some id

omit [KeyGenerator K] in
theorem brings_of_entering {configs : HashMap TopicName TopicConfig} {request : Request}
    {record : Message} {id : StreamId} (hmem : (record, .stream id) ∈ entering configs request) :
    Brings configs request id ∧ streamOf configs record = some id := by
  obtain ⟨id', hplace, hstream⟩ := streamOf_of_entering hmem
  cases hplace
  refine ⟨?_, hstream⟩
  cases request with
  | processRecord record' =>
      cases hmetadata : Cache.metadata configs record' with
      | none => simp [entering, hmetadata] at hmem
      | some metadata =>
          simp only [entering, hmetadata, List.mem_singleton, Prod.mk.injEq] at hmem
          exact ⟨record', rfl, hmem.1 ▸ hstream⟩
  | _ => exact absurd hmem List.not_mem_nil

omit [KeyGenerator K] in
theorem forall₂_left {α β : Type} {R : α → β → Prop} {l : List α} {l' : List β}
    (h : List.Forall₂ R l l') {a : α} (ha : a ∈ l) : ∃ b ∈ l', R a b := by
  induction h with
  | nil => exact absurd ha List.not_mem_nil
  | cons hR _ ih =>
      rcases List.mem_cons.1 ha with rfl | ha
      · exact ⟨_, List.mem_cons_self, hR⟩
      · obtain ⟨b, hb, hR⟩ := ih ha
        exact ⟨b, List.mem_cons_of_mem _ hb, hR⟩

/-- A stream that a request seals is that of its record, or it had an active file. -/
theorem Handled.leaves {ambient : Ambient} {sm sm' : StateMachine DiskFileRegistry K}
    {request : Request} {responses : List Response} (h : Handled ambient sm request responses sm')
    (hfree : NoFatal responses) (hrequest : ∀ partitions, request ≠ .revokePartitions partitions)
    {id : StreamId} (hmem : id ∈ sm.streams ∨ Brings sm.cache.configs request id)
    (hgone : id ∉ sm'.streams) :
    Brings sm.cache.configs request id ∨
      (∀ record, request ≠ .processRecord record) ∧
        ∃ file, sm.fileRegistry.files.get? id = some file := by
  have hbrings : ∀ {record : Message} {metadata : RecordMetadata},
      Cache.metadata sm.cache.configs record = some metadata →
      Brings sm.cache.configs (.processRecord record) metadata.streamId :=
    fun hmetadata => ⟨_, rfl, by simp [streamOf, hmetadata]⟩
  -- streams taken away and sealed all have active files
  have htaken : ∀ {taken : List (StreamId × StreamState)}
      {sm₁ sm₂ : StateMachine DiskFileRegistry K}, closeAndUploadAll taken sm₁ = sm₂ →
      NoFatal sm₂.responses → sm₁.fileRegistry = sm.fileRegistry → id ∈ taken.map Prod.fst →
      ∃ file, sm.fileRegistry.files.get? id = some file := by
    intro taken sm₁ sm₂ hclose hfree hregistry hid
    obtain ⟨uploads, -, hseal, -⟩ := closeAndUploadAll_released hclose hfree
    obtain ⟨e, he, rfl⟩ := List.mem_map.1 hid
    obtain ⟨u, -, hsealedAs⟩ := forall₂_left hseal he
    exact ⟨_, hregistry ▸ hsealedAs.path⟩
  -- the stream of the record stays open
  have hinserted : ∀ {record : Message} {metadata : RecordMetadata} {state : StreamState},
      Cache.metadata sm.cache.configs record = some metadata →
      (id ∈ sm.streams ∨ Brings sm.cache.configs (.processRecord record) id) →
      id ∈ sm.streams.insert metadata.streamId state := by
    intro record metadata state hmetadata hmem
    refine (AList.mem_insert _).2 (hmem.symm.imp_left fun ⟨record', hrecord, hstream⟩ => ?_)
    cases hrecord
    simpa [streamOf, hmetadata, eq_comm] using hstream
  have hquiet : (∀ record, request ≠ .processRecord record) → id ∈ sm.streams :=
    fun hnone => hmem.resolve_right fun ⟨record, hrecord, _⟩ => hnone record hrecord
  cases h with
  | unconfigured => exact absurd List.mem_cons_self (hfree _)
  | undecodable => exact absurd List.mem_cons_self (hfree _)
  | writeFailed => exact absurd List.mem_cons_self (hfree _)
  | exhausted => exact absurd List.mem_cons_self (hfree _)
  | commitFailed => exact absurd List.mem_cons_self (hfree _)
  | skipped hmetadata => exact absurd (hinserted hmetadata hmem) hgone
  | written hmetadata => exact absurd (hinserted hmetadata hmem) hgone
  | retried => exact absurd (hquiet (by simp)) hgone
  | uploaded => exact absurd (hquiet (by simp)) hgone
  | committedAsync hcommitted =>
      rw [hcommitted.frame] at hgone
      exact absurd (hquiet (by simp)) hgone
  | committedSync hcommitted =>
      rw [hcommitted.frame] at hgone
      exact absurd (hquiet (by simp)) hgone
  | revoked => exact absurd rfl (hrequest _)
  | @sealed record metadata _ _ _ _ sm₁ hmetadata _ _ _ _ _ hclose =>
      left
      by_cases hid : id = metadata.streamId
      · exact hid ▸ hbrings hmetadata
      · refine hmem.resolve_left fun hopen => hgone ?_
        rw [← hclose, closeAndUpload_streams]
        exact AList.mem_erase.2 ⟨hid, hopen⟩
  | uploadTick hextract hclose =>
      right
      refine ⟨by simp, htaken hclose hfree rfl ?_⟩
      by_contra hnot
      refine hgone ?_
      rw [← hclose, closeAndUploadAll_streams]
      exact (HashMap.splits_extractIfTake hextract).mem_rest.2 ⟨hnot, hquiet (by simp)⟩
  | @shutdown sm₁ hclose =>
      right
      have hfree' : NoFatal _ := fun error herror => hfree error (List.mem_append_left _ herror)
      refine ⟨by simp, htaken hclose hfree' rfl ?_⟩
      by_contra hnot
      refine hgone ?_
      rw [← hclose, closeAndUploadAll_streams]
      exact (HashMap.splits_drain sm.streams).mem_rest.2 ⟨hnot, hquiet (by simp)⟩

/-- If the request seals the stream, then to the file at `path`. -/
structure SealsTo (sm : StateMachine DiskFileRegistry K) (request : Request) (id : StreamId)
    (path : PathBuf) : Prop where
  path : sm.fileRegistry.pathFor id = path
  active : Brings sm.cache.configs request id ∨
    (∀ record, request ≠ .processRecord record) ∧
      ∃ file, sm.fileRegistry.files.get? id = some file

omit [KeyGenerator K] in
/-- Two streams are not sealed to one file. -/
theorem SealsTo.unique {request : Request} {id id' : StreamId} {path : PathBuf}
    (h : SealsTo sm request id path) (h' : SealsTo sm request id' path)
    (hactive : sm.fileRegistry.activePaths.Nodup) : id = id' := by
  have hpath := h.path
  have hpath' := h'.path
  rcases h.active with ⟨r, hr, hstream⟩ | ⟨hnone, file, hget⟩
  all_goals rcases h'.active with ⟨r', hr', hstream'⟩ | ⟨hnone', file', hget'⟩
  · rw [hr] at hr'
    cases hr'
    exact Option.some.inj (hstream.symm.trans hstream')
  · exact absurd hr (hnone' r)
  · exact absurd hr' (hnone r')
  -- both were active, and active files have different paths
  · rw [DiskFileRegistry.pathFor_of_active hget] at hpath
    rw [DiskFileRegistry.pathFor_of_active hget'] at hpath'
    obtain ⟨path₁⟩ := file
    obtain ⟨path₂⟩ := file'
    cases hpath
    cases hpath'
    exact DiskFileRegistry.path_injective hactive hget hget'

/-- A record of a file was there before, or its stream is sealed to the file now. -/
theorem sealsTo_of_ledger
    (hrun : Run (system (new inputTopics (DiskFileRegistry.new directory os) keyGenerator config))
      h sm) {e : Step DiskFileRegistry K} {sm' : StateMachine DiskFileRegistry K}
    (hstep : Steps sm e sm') (hfree : FatalFree (e :: h)) {record : Message} {path : PathBuf}
    (hmoved : (record, .file path) ∈ ledger (e :: h)) :
    (record, .file path) ∈ ledger h ∨
      ∃ id, streamOf (Cache.newConfigs inputTopics) record = some id ∧
        SealsTo e.pre e.request id path := by
  have hshelved := shelved_of_run hrun hfree.tail
  have hconfigs : e.pre.cache.configs = Cache.newConfigs inputTopics := by
    rw [hstep.reordered.cache, configs_of_run hrun]
  obtain ⟨place, hplaced, hto⟩ := mem_move.1 hmoved
  cases place with
  | revoked n id partitions => cases hto
  | file path' =>
      cases hto
      refine Or.inl ((List.mem_append.1 hplaced).resolve_right fun hnew => ?_)
      obtain ⟨id, hplace, -⟩ := streamOf_of_entering hnew
      cases hplace
  | stream id =>
      refine Or.inr ⟨id, ?_⟩
      have hgone : id ∉ e.post.streams := fun hkept => by simp [settle, hkept] at hto
      have hrequest : ∀ partitions, e.request ≠ .revokePartitions partitions :=
        fun partitions heq => by simp [settle, hgone, heq] at hto
      have hopen : streamOf (Cache.newConfigs inputTopics) record = some id ∧
          (id ∈ e.pre.streams ∨ Brings e.pre.cache.configs e.request id) := by
        rcases List.mem_append.1 hplaced with hold | hnew
        · have hopen := hshelved.opened.stream_mem record id hold
          rw [HashMap.mem_iff, ← hstep.reordered.get?_streams, ← HashMap.mem_iff] at hopen
          exact ⟨streamOf_of_ledger hrun hold, Or.inl hopen⟩
        · obtain ⟨hbrings, hstream⟩ := brings_of_entering hnew
          exact ⟨hconfigs ▸ hstream, Or.inr hbrings⟩
      exact ⟨hopen.1, InOrder.settle_file hto,
        hstep.cases.leaves hfree.head hrequest hopen.2 hgone⟩

/-- A file sealed now is none of those sealed before. -/
theorem SealsTo.notMem_sealed
    (hrun : Run (system (new inputTopics (DiskFileRegistry.new directory os) keyGenerator config))
      h sm) (hfree : FatalFree h) {e : Step DiskFileRegistry K}
    {sm' : StateMachine DiskFileRegistry K} (hstep : Steps sm e sm') {id : StreamId}
    {path : PathBuf} (hseals : SealsTo e.pre e.request id path) :
    path ∉ (sealedFiles h).map SealedFile.path := by
  rw [← hseals.path, hstep.reordered.fileRegistry]
  exact (lifecycle_of_run hrun hfree).separate.pathFor_notMem id

/-- The records of a file are of one stream. -/
theorem oneStream_of_run
    (hrun : Run (system (new inputTopics (DiskFileRegistry.new directory os) keyGenerator config))
      h sm) (hfree : FatalFree h) {record record' : Message} {path : PathBuf}
    (hmem : (record, .file path) ∈ ledger h) (hmem' : (record', .file path) ∈ ledger h) :
    streamOf (Cache.newConfigs inputTopics) record =
      streamOf (Cache.newConfigs inputTopics) record' := by
  induction hrun with
  | start hinit => exact absurd hmem List.not_mem_nil
  | @step h sm sm' e hprev hstep ih =>
      have hsealed := (shelved_of_run hprev hfree.tail).sealed
      rcases sealsTo_of_ledger hprev hstep hfree hmem with hold | ⟨id, hid, hseals⟩
      all_goals
        rcases sealsTo_of_ledger hprev hstep hfree hmem' with hold' | ⟨id', hid', hseals'⟩
      · exact ih hfree.tail hold hold'
      · exact absurd (hsealed.file_mem record path hold)
          (hseals'.notMem_sealed hprev hfree.tail hstep)
      · exact absurd (hsealed.file_mem record' path hold')
          (hseals.notMem_sealed hprev hfree.tail hstep)
      · have hnodup :=
          (Multiset.nodup_add.1 (lifecycle_of_run hprev hfree.tail).separate.distinct).1
        rw [← hstep.reordered.fileRegistry] at hnodup
        rw [hid, hid', hseals.unique hseals' hnodup]

/-! ## Streams put together again -/

theorem mem_keptOf {configs : HashMap TopicName TopicConfig} {id : StreamId}
    {placed : List (Message × Place)} {record : Message} {place : Place} :
    (record, place) ∈ keptOf configs id placed ↔
      (record, place) ∈ placed ∧ streamOf configs record = some id ∧ place.isKept = true := by
  simp [keptOf, List.mem_filter]

/-- A record that was not dropped is in a file or still in its stream. -/
theorem mem_places
    (hrun : Run (system (new inputTopics (DiskFileRegistry.new directory os) keyGenerator config))
      h sm) (hfree : FatalFree h) {id : StreamId} {record : Message} {place : Place}
    (hmem : (record, place) ∈ keptOf (Cache.newConfigs inputTopics) id (ledger h)) :
    (∃ path ∈ sealedPaths h, place = .file path) ∨ place = .stream id := by
  obtain ⟨hplaced, hstream, hkept⟩ := mem_keptOf.1 hmem
  cases place with
  | file path =>
      have hfile := (shelved_of_run hrun hfree).sealed.file_mem record path hplaced
      exact Or.inl ⟨path, List.mem_reverse.2 hfile, rfl⟩
  | stream id' =>
      rw [streamOf_of_ledger hrun hplaced, Option.some.injEq] at hstream
      exact Or.inr (by rw [hstream])
  | revoked => cases hkept

/-- The records of a stream that were not dropped came in the order of its files. -/
theorem pairwise_places
    (hrun : Run (system (new inputTopics (DiskFileRegistry.new directory os) keyGenerator config))
      h sm) (hfree : FatalFree h) (id : StreamId) :
    (keptOf (Cache.newConfigs inputTopics) id (ledger h)).Pairwise fun older newer =>
      older.2 = newer.2 ∨
        [older.2, newer.2].Sublist ((sealedPaths h).map Place.file ++ [.stream id]) := by
  refine ((inOrder_of_run hrun hfree).filter _).imp_of_mem ?_
  rintro ⟨older, place⟩ ⟨newer, place'⟩ holder hnewer hinOrder
  obtain ⟨-, hstream, -⟩ := mem_keptOf.1 holder
  obtain ⟨-, hstream', -⟩ := mem_keptOf.1 hnewer
  have horder := hinOrder (hstream.trans hstream'.symm)
  rcases mem_places hrun hfree holder with ⟨path, hpath, rfl⟩ | rfl
  · rcases mem_places hrun hfree hnewer with ⟨path', -, rfl⟩ | rfl
    · refine (horder.files path path' rfl rfl).imp (congrArg Place.file) fun hsub => ?_
      exact (hsub.map Place.file).trans (List.sublist_append_left _ _)
    · exact Or.inr (List.Sublist.append (List.singleton_sublist.2 (List.mem_map_of_mem hpath))
        (List.Sublist.refl _))
  · rcases mem_places hrun hfree hnewer with ⟨path', -, rfl⟩ | rfl
    · exact absurd rfl (horder.leaves (by simp) id)
    · exact Or.inl rfl

/-- The records of a stream that were not dropped are those of its files, in the order these were
sealed, and those still open. -/
theorem keptOf_eq
    (hrun : Run (system (new inputTopics (DiskFileRegistry.new directory os) keyGenerator config))
      h sm) (hfree : FatalFree h) (id : StreamId) :
    (keptOf (Cache.newConfigs inputTopics) id (ledger h)).map Prod.fst =
      (filesOf (Cache.newConfigs inputTopics) id h).flatMap
          (fun path => itemsAt (ledger h) (.file path)) ++
        itemsAt (ledger h) (.stream id) := by
  have hnodup : (sealedPaths h).Nodup :=
    List.nodup_reverse.2 (Multiset.nodup_add.1 (lifecycle_of_run hrun hfree).separate.distinct).2.1
  have hplaces : ((sealedPaths h).map Place.file ++ [Place.stream id]).Nodup := by
    refine List.nodup_append.2 ⟨hnodup.map fun _ _ heq => Place.file.inj heq, by simp, ?_⟩
    rintro _ hfile _ hstream rfl
    obtain ⟨path, -, rfl⟩ := List.mem_map.1 hfile
    simp at hstream
  rw [map_fst_eq_flatMap hplaces ?_ (pairwise_places hrun hfree id), List.flatMap_append,
    List.flatMap_map]
  · congr 1
    · refine flatMap_filter_eq (fun path _ hholds => ?_) fun path _ hnot => ?_
      -- all records of the file are of the stream, or none is
      · obtain ⟨record', hrecord', hstream'⟩ := List.any_eq_true.1 hholds
        refine itemsAt_filter ?_
        rintro ⟨record, place⟩ hmem rfl
        rw [oneStream_of_run hrun hfree hmem (mem_itemsAt.1 hrecord')]
        simpa [Place.isKept] using hstream'
      · refine itemsAt_filter_eq_nil ?_
        rintro ⟨record, place⟩ hmem rfl
        have hother := List.any_eq_false.1 hnot record (mem_itemsAt.2 hmem)
        simpa using fun hstream => absurd (by simpa using hstream) hother
    · rw [List.flatMap_cons, List.flatMap_nil, List.append_nil]
      refine itemsAt_filter ?_
      rintro ⟨record, place⟩ hmem rfl
      simp [streamOf_of_ledger hrun hmem, Place.isKept]
  · rintro ⟨record, place⟩ hmem
    rcases mem_places hrun hfree hmem with ⟨path, hpath, rfl⟩ | rfl
    · exact List.mem_append_left _ (List.mem_map_of_mem hpath)
    · exact List.mem_append_right _ List.mem_cons_self

/-- A sealed file holds the lines of its records. -/
theorem content_of_sealed
    (hrun : Run (system (new inputTopics (DiskFileRegistry.new directory os) keyGenerator config))
      h sm) (hfree : FatalFree h) {path : PathBuf} (hpath : path ∈ sealedPaths h) :
    sm.fileRegistry.content path =
      ((itemsAt (ledger h) (.file path)).filterMap
        (lineOf (Cache.newConfigs inputTopics))).flatten := by
  obtain ⟨file, hfile, rfl⟩ := List.mem_map.1 (List.mem_reverse.1 hpath)
  rw [← configs_of_run hrun]
  exact ((shelved_of_run hrun hfree).sealed.described file hfile).content

/-- The file of a stream holds the lines of the records of the stream. -/
theorem fileBytes_of_open
    (hrun : Run (system (new inputTopics (DiskFileRegistry.new directory os) keyGenerator config))
      h sm) (hfree : FatalFree h) (id : StreamId) :
    sm.fileRegistry.fileBytes id =
      ((itemsAt (ledger h) (.stream id)).filterMap
        (lineOf (Cache.newConfigs inputTopics))).flatten := by
  rw [← configs_of_run hrun]
  exact ((shelved_of_run hrun hfree).opened.describes id 0).content

/-- The lines of the records, one after the other. -/
def linesAt (configs : HashMap TopicName TopicConfig) (records : List Message) : Bytes :=
  (records.filterMap (lineOf configs)).flatten

/-- A stream and its files. -/
structure Reassembled (configs : HashMap TopicName TopicConfig) (id : StreamId)
    (h : List (Step DiskFileRegistry K)) (reg : DiskFileRegistry) : Prop where
  /-- the records that were not dropped, in the order they came, lie file by file -/
  records : (keptOf configs id (ledger h)).map Prod.fst =
    (filesOf configs id h).flatMap (fun path => itemsAt (ledger h) (.file path)) ++
      itemsAt (ledger h) (.stream id)
  /-- no line is cut at a file boundary -/
  file : ∀ path ∈ filesOf configs id h,
    reg.content path = linesAt configs (itemsAt (ledger h) (.file path))
  opened : reg.fileBytes id = linesAt configs (itemsAt (ledger h) (.stream id))
  content : linesAt configs ((keptOf configs id (ledger h)).map Prod.fst) =
    (filesOf configs id h).flatMap reg.content ++ reg.fileBytes id

/-- In every run without `Fatal`, the files sealed from a stream, in the order they were sealed, and
the file still open hold the lines of the records of the stream that were not dropped, in the order
these were consumed, each file those of its own records. -/
theorem stream_reassembled
    (hrun : Run (system (new inputTopics (DiskFileRegistry.new directory os) keyGenerator config))
      h sm) (hfree : FatalFree h) (id : StreamId) :
    Reassembled (Cache.newConfigs inputTopics) id h sm.fileRegistry := by
  have hrecords := keptOf_eq hrun hfree id
  have hfile : ∀ path ∈ filesOf (Cache.newConfigs inputTopics) id h,
      sm.fileRegistry.content path =
        linesAt (Cache.newConfigs inputTopics) (itemsAt (ledger h) (.file path)) :=
    fun path hpath => content_of_sealed hrun hfree (List.mem_filter.1 hpath).1
  refine
    { records := hrecords
      file := hfile
      opened := fileBytes_of_open hrun hfree id
      content := ?_ }
  rw [hrecords, linesAt, List.filterMap_append, List.flatten_append,
    ← fileBytes_of_open hrun hfree id, List.flatMap_congr hfile, List.filterMap_flatMap]
  simp only [linesAt, List.flatMap_def, List.flatten_flatten, List.map_map, Function.comp_def]

/-- The stream of the records of `sampleStart`. -/
def sampleStream : StreamId := ⟨"unknown_schema_name\x1funknown_schema_version"⟩

/-- Two records of one stream, each sealed at once. -/
def orderedInputs : List (Ambient × Request) :=
  [quiet (.processRecord (sampleRecord (sampleOffset 1))),
    quiet (.processRecord (sampleRecord (sampleOffset 0)))]

theorem stream_reassembled_sample :
    (filesOf sampleStart.cache.configs sampleStream
        (trace sampleStart orderedInputs).1).length = 2 ∧
      Reassembled sampleStart.cache.configs sampleStream (trace sampleStart orderedInputs).1
        (trace sampleStart orderedInputs).2.fileRegistry :=
  ⟨by decide, stream_reassembled (run_trace sampleStart orderedInputs) (by decide) sampleStream⟩

/-- If the offsets of a partition arrive in increasing order, a file of a stream holds lower offsets
of it than the files sealed from the stream later. -/
theorem offsets_in_order
    (hrun : Run (system (new inputTopics (DiskFileRegistry.new directory os) keyGenerator config))
      h sm) (hfree : FatalFree h) {p : TopicId}
    (hascending : (consumedRecords (requests h)).Pairwise fun record record' =>
      record.topicId = p → record'.topicId = p → record.offset < record'.offset)
    {record record' : Message} {path path' : PathBuf}
    (hmem : (record, .file path) ∈ ledger h) (hmem' : (record', .file path') ∈ ledger h)
    (hstream : streamOf (Cache.newConfigs inputTopics) record =
      streamOf (Cache.newConfigs inputTopics) record')
    (hp : record.topicId = p) (hp' : record'.topicId = p)
    (hbefore : [path, path'].Sublist (sealedPaths h)) : record.offset < record'.offset := by
  have hnodup : (sealedPaths h).Nodup :=
    List.nodup_reverse.2 (Multiset.nodup_add.1 (lifecycle_of_run hrun hfree).separate.distinct).2.1
  rw [← map_fst_ledger hrun hfree, List.pairwise_map] at hascending
  have hboth := (inOrder_of_run hrun hfree).and hascending
  by_cases heq : (record, Place.file path) = (record', Place.file path')
  · cases heq
    have htwice := hbefore.nodup hnodup
    simp at htwice
  · rcases pairwise_or_swap hboth hmem hmem' heq with ⟨-, hlt⟩ | ⟨hinOrder, -⟩
    · exact hlt hp hp'
    -- the other way round the files would have been sealed the other way round
    · rcases (hinOrder hstream.symm).files path' path rfl rfl with rfl | hafter
      · have htwice := hbefore.nodup hnodup
        simp at htwice
      · exact absurd hafter (not_sublist_swap hnodup hbefore)

theorem offsets_in_order_sample :
    ["/scratch/.jsonl.zst", "/scratch/000.jsonl.zst"].Sublist
        (sealedPaths (trace sampleStart orderedInputs).1) ∧
      (sampleRecord (sampleOffset 0)).offset < (sampleRecord (sampleOffset 1)).offset := by
  have hmem : (sampleRecord (sampleOffset 0), Place.file "/scratch/.jsonl.zst") ∈
      ledger (trace sampleStart orderedInputs).1 := by decide
  have hmem' : (sampleRecord (sampleOffset 1), Place.file "/scratch/000.jsonl.zst") ∈
      ledger (trace sampleStart orderedInputs).1 := by decide
  have hbefore : ["/scratch/.jsonl.zst", "/scratch/000.jsonl.zst"].Sublist
      (sealedPaths (trace sampleStart orderedInputs).1) := by decide
  exact ⟨hbefore, offsets_in_order (p := samplePartition) (run_trace sampleStart orderedInputs)
    (by decide) (by decide) hmem hmem' rfl rfl rfl hbefore⟩

end StateMachine

end S3Sink
