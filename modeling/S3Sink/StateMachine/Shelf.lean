import S3Sink.Lib.Placement
import S3Sink.StateMachine.Lifecycle

/-!
# Shelf — the records of a file and its bookkeeping

Where a processed record is kept: in an open stream, in a sealed file, or nowhere any more, when its
stream was revoked.  `Describes` says what the counters, the offsets and the bytes of a stream or a
file have to do with its records.

* `OpenShelf` — the open streams; `SealedShelf` — the sealed files;
* `OpenShelf.consumed`, `OpenShelf.released`, `SealedShelf.sealed` — the three movements: a record
  comes in, streams are taken away, and the streams taken away become files.
-/

namespace S3Sink

open Placement

/-! ## Places -/

/-- Where a processed record is kept. -/
inductive Place
  /-- an open stream -/
  | stream (id : StreamId)
  /-- a sealed file -/
  | file (path : PathBuf)
  /-- dropped with its stream by the revocation at this position of the history -/
  | revoked (position : Nat) (id : StreamId) (partitions : List (String × Int))
  deriving DecidableEq

/-- The line a record adds to its file, if it has a data body. -/
def lineOf (configs : HashMap TopicName TopicConfig) (record : Message) : Option Bytes :=
  match Cache.metadata configs record with
  | none => none
  | some metadata =>
      match JsonSerializer.serializeRecord metadata.config.decoder record with
      | .ok line? => line?
      | .error _ => none

/-- The offsets of the records of a partition, in order; none if there is no such record. -/
def offsetsOf (p : TopicId) (records : List Message) : Option (List Offset) :=
  match records.filter (fun record => record.topicId = p) with
  | [] => none
  | record :: rest => some (record.offset :: rest.map Message.offset)

/-! ## Descriptions -/

/-- The bytes are the lines of the records, one after the other; the counters count bytes and
records; the offsets are those of the records, partition by partition. -/
structure Describes (configs : HashMap TopicName TopicConfig) (records : List Message)
    (bytes : Bytes) (bytesConsumed recordsConsumed : Nat)
    (offsets : HashMap TopicId (List Offset)) : Prop where
  content : bytes = (records.filterMap (lineOf configs)).flatten
  size : bytesConsumed = bytes.length
  count : recordsConsumed = records.length
  listed : ∀ p, offsets.get? p = offsetsOf p records

theorem offsetsOf_append (p : TopicId) (records : List Message) (record : Message) :
    offsetsOf p (records ++ [record]) =
      if p = record.topicId then some ((offsetsOf p records).getD [] ++ [record.offset])
      else offsetsOf p records := by
  unfold offsetsOf
  by_cases hp : p = record.topicId
  · subst hp
    simp only [List.filter_append, List.filter_singleton, decide_true, cond_true, if_true]
    cases records.filter (fun r => r.topicId = record.topicId) <;> simp
  · have hp' : ¬ record.topicId = p := fun heq => hp heq.symm
    simp only [List.filter_append, List.filter_singleton, decide_false, hp', cond_false, if_neg hp,
      List.append_nil]

theorem mem_offsetsOf {p : TopicId} {o : Offset} {records : List Message} :
    o ∈ (offsetsOf p records).getD [] ↔
      ∃ record ∈ records, record.topicId = p ∧ record.offset = o := by
  have hlist : (offsetsOf p records).getD [] =
      (records.filter (fun record => record.topicId = p)).map Message.offset := by
    unfold offsetsOf
    cases records.filter (fun record => record.topicId = p) <;> rfl
  rw [hlist, List.mem_map]
  simp only [List.mem_filter, decide_eq_true_eq, and_assoc]

namespace Describes

variable {configs : HashMap TopicName TopicConfig} {records : List Message} {bytes : Bytes}

theorem nil (now : Instant) : Describes configs [] [] (StreamState.new now).bytesConsumed
    (StreamState.new now).recordsConsumed (StreamState.new now).offsetsConsumed :=
  ⟨rfl, rfl, rfl, fun _ => rfl⟩

/-- A record is counted, and the line it adds, if any, is written. -/
theorem consume {state : StreamState}
    (h : Describes configs records bytes state.bytesConsumed state.recordsConsumed
      state.offsetsConsumed) (record : Message) :
    Describes configs (records ++ [record]) (bytes ++ (lineOf configs record).getD [])
      (state.bytesConsumed + ((lineOf configs record).getD []).length)
      (state.consume record.topicId record.offset).recordsConsumed
      (state.consume record.topicId record.offset).offsetsConsumed where
  content := by
    rw [h.content, List.filterMap_append, List.flatten_append]
    -- a record without a line adds nothing
    congr 1
    cases hline : lineOf configs record <;> simp [hline]
  size := by rw [List.length_append, h.size]
  count := by simp [StreamState.consume, h.count]
  listed p := by
    rw [offsetsOf_append, StreamState.consume]
    dsimp only
    rw [HashMap.get?_insert, h.listed, h.listed]
    by_cases hp : p = record.topicId
    · subst hp
      rfl
    · rw [if_neg hp, if_neg hp]

/-- A partition has offsets exactly if it has records. -/
theorem mem_offsets {bytesConsumed recordsConsumed : Nat} {offsets : HashMap TopicId (List Offset)}
    (h : Describes configs records bytes bytesConsumed recordsConsumed offsets) {record : Message}
    (hrecord : record ∈ records) : record.topicId ∈ offsets.keys := by
  cases hget : offsets.get? record.topicId with
  | some listed => exact AList.mem_keys.1 (HashMap.mem_iff.2 ⟨listed, hget⟩)
  | none =>
      have hoffset := mem_offsetsOf.2 ⟨record, hrecord, rfl, rfl⟩
      rw [← h.listed, hget] at hoffset
      exact absurd hoffset List.not_mem_nil

end Describes

/-! ## Shelves -/

/-- Every record of an open stream is one of a stream that is there, every stream is described, and
only open streams have active files. -/
structure OpenShelf (configs : HashMap TopicName TopicConfig) (placed : List (Message × Place))
    (streams : HashMap StreamId StreamState) (reg : DiskFileRegistry) : Prop where
  stream_mem : ∀ record id, (record, Place.stream id) ∈ placed → id ∈ streams
  described : ∀ id state, streams.get? id = some state →
    Describes configs (itemsAt placed (.stream id)) (reg.fileBytes id) state.bytesConsumed
      state.recordsConsumed state.offsetsConsumed
  files_open : ∀ id, id ∈ reg.files → id ∈ streams

/-- Every record of a sealed file is one of a file that was sealed, and every such file is
described. -/
structure SealedShelf (configs : HashMap TopicName TopicConfig) (placed : List (Message × Place))
    (reg : DiskFileRegistry) (sealed : List SealedFile) : Prop where
  file_mem : ∀ record path, (record, Place.file path) ∈ placed → path ∈ sealed.map SealedFile.path
  described : ∀ file ∈ sealed,
    Describes configs (itemsAt placed (.file file.path)) (reg.content file.path) file.rawSizeB
      file.recordCount file.offsetsConsumed

/-- The records of the streams `gone` are carried to the places `dest` names, those of the streams
left and those of files stay where they are. -/
structure Relocates (f : Place → Place) (left : HashMap StreamId StreamState)
    (gone : List StreamId) (dest : StreamId → Place) : Prop where
  stays : ∀ id ∈ left, f (.stream id) = .stream id
  goes : ∀ id ∈ gone, f (.stream id) = dest id
  file : ∀ path, f (.file path) = .file path
  revoked : ∀ position id partitions,
    f (.revoked position id partitions) = .revoked position id partitions

section Movements

variable {configs : HashMap TopicName TopicConfig} {placed : List (Message × Place)}
variable {streams streams' : HashMap StreamId StreamState} {reg reg' : DiskFileRegistry}
variable {archived : List SealedFile} {taken : List (StreamId × StreamState)}
variable {paths : List PathBuf} {f : Place → Place} {dest : StreamId → Place}

/-- A stream about to be opened has no records and no bytes yet. -/
theorem OpenShelf.describes (h : OpenShelf configs placed streams reg) (id : StreamId)
    (now : Instant) :
    Describes configs (itemsAt placed (.stream id)) (reg.fileBytes id)
      ((streams.get? id).getD (StreamState.new now)).bytesConsumed
      ((streams.get? id).getD (StreamState.new now)).recordsConsumed
      ((streams.get? id).getD (StreamState.new now)).offsetsConsumed := by
  cases hget : streams.get? id with
  | some state => exact h.described id state hget
  | none =>
      have hnot : id ∉ streams := HashMap.get?_eq_none.1 hget
      -- an unknown stream has no records, and no file
      have hitems : itemsAt placed (.stream id) = [] :=
        itemsAt_eq_nil.2 fun record hmem => hnot (h.stream_mem record id hmem)
      have hbytes : reg.fileBytes id = [] := by
        unfold DiskFileRegistry.fileBytes
        cases hfile : reg.files.get? id with
        | none => rfl
        | some file => exact absurd (h.files_open id (HashMap.mem_iff.2 ⟨file, hfile⟩)) hnot
      rw [hitems, hbytes]
      exact Describes.nil now

/-- A record comes in: its line, if any, is written for its stream and nothing else is written. -/
theorem OpenShelf.consumed (h : OpenShelf configs placed streams reg) (record : Message)
    (id : StreamId) (now : Instant)
    (hbytes : reg'.fileBytes id = reg.fileBytes id ++ (lineOf configs record).getD [])
    (hother : ∀ id', id' ≠ id → reg'.fileBytes id' = reg.fileBytes id')
    (hfiles : ∀ id', id' ∈ reg'.files → id' = id ∨ id' ∈ reg.files) :
    OpenShelf configs (placed ++ [(record, .stream id)])
      (streams.insert id
        { ((streams.get? id).getD (StreamState.new now)).consume record.topicId record.offset with
          bytesConsumed := ((streams.get? id).getD (StreamState.new now)).bytesConsumed +
            ((lineOf configs record).getD []).length }) reg' where
  stream_mem r id' hmem := by
    rw [AList.mem_insert]
    rcases List.mem_append.1 hmem with hold | hnew
    · exact Or.inr (h.stream_mem r id' hold)
    · rw [List.mem_singleton] at hnew
      cases hnew
      exact Or.inl rfl
  described id' state hget := by
    rw [itemsAt_append, itemsAt_singleton]
    rw [HashMap.get?_insert] at hget
    -- the stream of the record, or another one
    by_cases hid : id' = id
    · subst hid
      rw [if_pos rfl] at hget
      cases hget
      rw [if_pos rfl, hbytes]
      exact (h.describes id' now).consume record
    · have hplace : ¬ Place.stream id = Place.stream id' := by
        simpa using fun heq => hid heq.symm
      rw [if_neg hid] at hget
      rw [if_neg hplace, List.append_nil, hother id' hid]
      exact h.described id' state hget
  files_open id' hmem := by
    rw [AList.mem_insert]
    exact (hfiles id' hmem).imp_right (h.files_open id')

theorem SealedShelf.consumed (h : SealedShelf configs placed reg archived) {record : Message}
    {id : StreamId} (hcontent : ∀ file ∈ archived, reg'.content file.path = reg.content file.path) :
    SealedShelf configs (placed ++ [(record, .stream id)]) reg' archived where
  file_mem r path hmem := by
    rcases List.mem_append.1 hmem with hold | hnew
    · exact h.file_mem r path hold
    · rw [List.mem_singleton] at hnew
      cases hnew
  described file hfile := by
    rw [itemsAt_append, itemsAt_singleton, if_neg (by simp), List.append_nil, hcontent file hfile]
    exact h.described file hfile

/-- A record goes where its stream goes, or it stays in its place. -/
theorem OpenShelf.relocates (h : OpenShelf configs placed streams reg)
    (hsplits : HashMap.Splits streams taken streams')
    (hmove : Relocates f streams' (taken.map Prod.fst) dest) {record : Message} {place : Place}
    (hplaced : (record, place) ∈ placed) :
    (∃ id ∈ taken.map Prod.fst, place = .stream id ∧ f place = dest id) ∨
      (∀ id ∈ taken.map Prod.fst, place ≠ .stream id) ∧ f place = place := by
  cases place with
  | stream id =>
      by_cases hgone : id ∈ taken.map Prod.fst
      · exact Or.inl ⟨id, hgone, rfl, hmove.goes id hgone⟩
      · have hleft : id ∈ streams' := hsplits.mem_rest.2 ⟨hgone, h.stream_mem record id hplaced⟩
        refine Or.inr ⟨fun id' hgone' heq => ?_, hmove.stays id hleft⟩
        cases heq
        exact hgone hgone'
  | file path => exact Or.inr ⟨by simp, hmove.file path⟩
  | revoked position id partitions => exact Or.inr ⟨by simp, hmove.revoked position id partitions⟩

/-- Streams are taken away with their files; the others are as before. -/
theorem OpenShelf.released (h : OpenShelf configs placed streams reg)
    (hsplits : HashMap.Splits streams taken streams')
    (hreleased : Released reg (taken.map Prod.fst) paths reg')
    (hmove : Relocates f streams' (taken.map Prod.fst) dest)
    (hdest : ∀ id id', dest id ≠ .stream id') :
    OpenShelf configs (move f placed) streams' reg' := by
  -- a record is in an open stream afterwards only if it was in it before
  have hstream : ∀ record place id, (record, place) ∈ placed →
      (f place = .stream id ↔ place = .stream id ∧ id ∉ taken.map Prod.fst) := by
    intro record place id hplaced
    rcases h.relocates hsplits hmove hplaced with ⟨id', hgone, rfl, hto⟩ | ⟨hstay, hto⟩
    · rw [hto]
      apply iff_of_false (hdest id' id)
      rintro ⟨heq, hnot⟩
      cases heq
      exact hnot hgone
    · rw [hto]
      exact (and_iff_left_of_imp fun hplace hgone => hstay id hgone hplace).symm
  refine ⟨?_, ?_, ?_⟩
  · intro record id hmem
    obtain ⟨place, hplaced, heq⟩ := mem_move.1 hmem
    obtain ⟨rfl, hnot⟩ := (hstream record place id hplaced).1 heq
    exact hsplits.mem_rest.2 ⟨hnot, h.stream_mem record id hplaced⟩
  -- a stream left has the same records and the same bytes
  · intro id state hget
    obtain ⟨hnot, hget⟩ := (hsplits.get?_rest id state).1 hget
    have hitems : itemsAt (move f placed) (.stream id) = itemsAt placed (.stream id) :=
      itemsAt_move fun e he => (hstream e.1 e.2 id he).trans (and_iff_left hnot)
    have hbytes : reg'.fileBytes id = reg.fileBytes id := by
      have hget' : reg'.files.get? id = reg.files.get? id :=
        Option.ext fun file => (hreleased.files id file).trans (and_iff_right hnot)
      unfold DiskFileRegistry.fileBytes
      rw [hget']
      cases reg.files.get? id with
      | none => rfl
      | some file => exact hreleased.content file.path
    rw [hitems, hbytes]
    exact h.described id state hget
  · intro id hmem
    obtain ⟨file, hget⟩ := HashMap.mem_iff.1 hmem
    obtain ⟨hnot, hget⟩ := (hreleased.files id file).1 hget
    exact hsplits.mem_rest.2 ⟨hnot, h.files_open id (HashMap.mem_iff.2 ⟨file, hget⟩)⟩

/-- A file sealed earlier keeps its records and its bytes. -/
theorem SealedShelf.described_move (h : SealedShelf configs placed reg archived)
    (hopen : OpenShelf configs placed streams reg)
    (hsplits : HashMap.Splits streams taken streams')
    (hreleased : Released reg (taken.map Prod.fst) paths reg')
    (hmove : Relocates f streams' (taken.map Prod.fst) dest)
    (hdest : ∀ id ∈ taken.map Prod.fst, ∀ file ∈ archived, dest id ≠ .file file.path) :
    ∀ file ∈ archived, Describes configs (itemsAt (move f placed) (.file file.path))
      (reg'.content file.path) file.rawSizeB file.recordCount file.offsetsConsumed := by
  intro file hfile
  have hitems : itemsAt (move f placed) (.file file.path) = itemsAt placed (.file file.path) := by
    apply itemsAt_move
    intro e he
    rcases hopen.relocates hsplits hmove he with ⟨id, hgone, hplace, hto⟩ | ⟨-, hto⟩
    · rw [hto, hplace]
      exact iff_of_false (hdest id hgone file hfile) (by simp)
    · rw [hto]
  rw [hitems, hreleased.content]
  exact h.described file hfile

/-- Revoked streams do not become files. -/
theorem SealedShelf.revoked (h : SealedShelf configs placed reg archived)
    (hopen : OpenShelf configs placed streams reg)
    (hsplits : HashMap.Splits streams taken streams')
    (hreleased : Released reg (taken.map Prod.fst) paths reg')
    (hmove : Relocates f streams' (taken.map Prod.fst) dest)
    (hdest : ∀ id path, dest id ≠ .file path) :
    SealedShelf configs (move f placed) reg' archived := by
  refine ⟨?_, h.described_move hopen hsplits hreleased hmove fun id _ file _ => hdest id file.path⟩
  intro record path hmem
  obtain ⟨place, hplaced, heq⟩ := mem_move.1 hmem
  rcases hopen.relocates hsplits hmove hplaced with ⟨id, -, -, hto⟩ | ⟨-, hto⟩
  · exact absurd (hto.symm.trans heq) (hdest id path)
  · obtain rfl : place = .file path := hto.symm.trans heq
    exact h.file_mem record path hplaced

theorem forall₂_sealed {uploads : List ToUpload}
    (hsealed : List.Forall₂ (SealedAs reg) taken uploads) :
    (∀ e ∈ taken, ∃ u ∈ uploads, SealedAs reg e u) ∧
      ∀ u ∈ uploads, ∃ e ∈ taken, SealedAs reg e u := by
  induction hsealed with
  | nil => exact ⟨fun _ hmem => absurd hmem List.not_mem_nil, fun _ hmem =>
      absurd hmem List.not_mem_nil⟩
  | cons hhead _ ih =>
      constructor
      · intro e he
        rcases List.mem_cons.1 he with rfl | he
        · exact ⟨_, List.mem_cons_self, hhead⟩
        · obtain ⟨u, hu, hseal⟩ := ih.1 e he
          exact ⟨u, List.mem_cons_of_mem _ hu, hseal⟩
      · intro u hu
        rcases List.mem_cons.1 hu with rfl | hu
        · exact ⟨_, List.mem_cons_self, hhead⟩
        · obtain ⟨e, he, hseal⟩ := ih.2 u hu
          exact ⟨e, List.mem_cons_of_mem _ he, hseal⟩

/-- Two streams are sealed to the same file only if they are the same. -/
theorem SealedAs.path_eq_iff (hactive : reg.activePaths.Nodup) {e e' : StreamId × StreamState}
    {u u' : ToUpload} (hseal : SealedAs reg e u) (hseal' : SealedAs reg e' u') :
    u'.path = u.path ↔ e'.1 = e.1 := by
  constructor
  · intro hsame
    have hget := hseal'.path
    rw [hsame] at hget
    exact DiskFileRegistry.path_injective hactive hget hseal.path
  · intro hsame
    have hget := hseal'.path
    rw [hsame, hseal.path] at hget
    exact (ActiveFile.mk.inj (Option.some.inj hget)).symm

section Sealing

variable {uploads : List ToUpload}

/-- The records of a new file are those of the stream sealed to it. -/
theorem SealedShelf.items_move (h : SealedShelf configs placed reg archived)
    (hopen : OpenShelf configs placed streams reg)
    (hsplits : HashMap.Splits streams taken streams')
    (hsealed : List.Forall₂ (SealedAs reg) taken uploads)
    (hmove : Relocates f streams' (taken.map Prod.fst) fun id => .file (reg.pathFor id))
    (hdistinct : (reg.activePaths + ↑(archived.map SealedFile.path)).Nodup)
    {e : StreamId × StreamState} {u : ToUpload} (he : e ∈ taken) (hseal : SealedAs reg e u) :
    itemsAt (move f placed) (.file u.path) = itemsAt placed (.stream e.1) := by
  obtain ⟨hactive, -, hdisjoint⟩ := Multiset.nodup_add.1 hdistinct
  apply itemsAt_move
  intro entry hentry
  rcases hopen.relocates hsplits hmove hentry with ⟨id, hgone, hplace, hto⟩ | ⟨hstay, hto⟩
  · obtain ⟨e', he', rfl⟩ := List.mem_map.1 hgone
    obtain ⟨u', -, hseal'⟩ := (forall₂_sealed hsealed).1 e' he'
    rw [hto, hplace, DiskFileRegistry.pathFor_of_active hseal'.path, Place.file.injEq,
      Place.stream.injEq]
    exact hseal.path_eq_iff hactive hseal'
  · -- an active file is none of those sealed earlier
    rw [hto]
    refine iff_of_false (fun hplace => ?_) (hstay e.1 (List.mem_map_of_mem he))
    exact Multiset.disjoint_left.1 hdisjoint (DiskFileRegistry.mem_activePaths.2 ⟨_, hseal.path⟩)
      (h.file_mem entry.1 u.path (hplace ▸ hentry))

/-- Streams taken away become files with the same records. -/
theorem SealedShelf.sealed (h : SealedShelf configs placed reg archived)
    (hopen : OpenShelf configs placed streams reg)
    (hsplits : HashMap.Splits streams taken streams')
    (hsealed : List.Forall₂ (SealedAs reg) taken uploads)
    (hreleased : Released reg (taken.map Prod.fst) paths reg')
    (hmove : Relocates f streams' (taken.map Prod.fst) fun id => .file (reg.pathFor id))
    (hdistinct : (reg.activePaths + ↑(archived.map SealedFile.path)).Nodup) :
    SealedShelf configs (move f placed) reg' (uploads.map ToUpload.file ++ archived) := by
  obtain ⟨hforth, hback⟩ := forall₂_sealed hsealed
  refine ⟨?_, ?_⟩
  · intro record path hmem
    rw [List.map_append, List.mem_append]
    obtain ⟨place, hplaced, heq⟩ := mem_move.1 hmem
    -- in a new file with its stream, or in an old one already
    rcases hopen.relocates hsplits hmove hplaced with ⟨id, hgone, -, hto⟩ | ⟨-, hto⟩
    · obtain ⟨e, he, rfl⟩ := List.mem_map.1 hgone
      obtain ⟨u, hu, hseal⟩ := hforth e he
      rw [hto, DiskFileRegistry.pathFor_of_active hseal.path, Place.file.injEq] at heq
      subst heq
      exact Or.inl (List.mem_map.2 ⟨u.file, List.mem_map_of_mem hu, rfl⟩)
    · obtain rfl : place = .file path := hto.symm.trans heq
      exact Or.inr (h.file_mem record path hplaced)
  · intro file hfile
    rcases List.mem_append.1 hfile with hnew | hold
    · obtain ⟨u, hu, rfl⟩ := List.mem_map.1 hnew
      obtain ⟨e, he, hseal⟩ := hback u hu
      have hitems : itemsAt (move f placed) (.file u.file.path) = itemsAt placed (.stream e.1) :=
        h.items_move hopen hsplits hsealed hmove hdistinct he hseal
      -- the bytes of the new file are those written for its stream
      have hbytes : reg.fileBytes e.1 = reg.content u.file.path := by
        unfold DiskFileRegistry.fileBytes
        rw [hseal.path]
        rfl
      rw [hitems, hreleased.content, hseal.rawSizeB, hseal.recordCount, hseal.offsetsConsumed,
        ← hbytes]
      exact hopen.described e.1 e.2 (hsplits.get?_taken e he)
    · refine h.described_move hopen hsplits hreleased hmove ?_ file hold
      intro id hgone file hfile heq
      obtain ⟨e, he, rfl⟩ := List.mem_map.1 hgone
      obtain ⟨u, -, hseal⟩ := hforth e he
      rw [DiskFileRegistry.pathFor_of_active hseal.path, Place.file.injEq] at heq
      exact Multiset.disjoint_left.1 (Multiset.nodup_add.1 hdistinct).2.2
        (DiskFileRegistry.mem_activePaths.2 ⟨_, hseal.path⟩)
        (List.mem_map.2 ⟨file, hfile, heq.symm⟩)

end Sealing

end Movements

end S3Sink
