import S3Sink.JsonSerializer.Decoding
import S3Sink.StateMachine.Order

/-!
# ReadBack — the files of a stream, read line by line

A reader of the object store cuts a file behind its newlines and reads every line back.  What it
gets is what the records said: data body and kept headers, record by record.

* `contentOf` — what a record says; `readFile` — what a reader gets from a file;
* `readFile_lines` — a file of lines is read back as its records;
* `stream_read_back` — whole runs.
-/

namespace S3Sink

open Placement TransitionSystem JsonSerializer

/-! ## Records and lines -/

/-- The data body of a record, if there is one to write. -/
def bodyOf (configs : HashMap TopicName TopicConfig) (record : Message) : Option Bytes :=
  (Cache.metadata configs record).bind fun metadata =>
    (dataBody record metadata.config.decoder).filter (!·.isEmpty)

/-- What a record says to a reader: its data body and the headers that are kept. -/
def contentOf (configs : HashMap TopicName TopicConfig) (record : Message) :
    Option (Bytes × List Header) :=
  (bodyOf configs record).map fun body => (body, keptHeaders record)

/-- A file, cut behind its newlines and read back line by line. -/
def readFile (content : Bytes) : List (Bytes × List Header) :=
  (splitInclusive newline content).map decodeLine

/-- The data body of the record, if there is one, is a JSON text on one line. -/
def Readable (configs : HashMap TopicName TopicConfig) (record : Message) : Prop :=
  ∀ body, bodyOf configs record = some body → Json.Text Json.Whitespace body ∧ newline ∉ body

theorem lineOf_bodyOf (configs : HashMap TopicName TopicConfig) (record : Message) :
    lineOf configs record =
      (bodyOf configs record).map fun body => lineBody record body ++ [newline] := by
  unfold lineOf bodyOf serializeRecord dataBody
  cases Cache.metadata configs record with
  | none => rfl
  | some metadata =>
      dsimp only [Option.bind_some]
      cases record.payload with
      | none => rfl
      | some rawPayload =>
          dsimp only [Option.bind_some]
          cases metadata.config.decoder.dataPayload rawPayload with
          | none => rfl
          | some body => cases body <;> rfl

/-- The lines of readable records are read back as what the records say. -/
theorem readFile_lines {configs : HashMap TopicName TopicConfig} {records : List Message}
    (hreadable : ∀ record ∈ records, Readable configs record) :
    readFile (records.filterMap (lineOf configs)).flatten =
      records.filterMap (contentOf configs) := by
  have hlines : records.filterMap (lineOf configs) =
      (records.filterMap fun record => (bodyOf configs record).map (lineBody record)).map
        (· ++ [newline]) := by
    rw [List.map_filterMap]
    refine List.filterMap_congr fun record _ => ?_
    rw [lineOf_bodyOf, Option.map_map]
    rfl
  have hsplit : splitInclusive newline (records.filterMap (lineOf configs)).flatten =
      records.filterMap (lineOf configs) := by
    rw [hlines]
    refine splitInclusive_flatten_iff.2 fun line hline => ?_
    obtain ⟨record, hrecord, hmap⟩ := List.mem_filterMap.1 hline
    obtain ⟨body, hbody, rfl⟩ := Option.map_eq_some_iff.1 hmap
    exact fun hmem => (hreadable record hrecord body hbody).2 (newline_mem_lineBody.1 hmem)
  rw [readFile, hsplit, List.map_filterMap]
  refine List.filterMap_congr fun record hrecord => ?_
  rw [lineOf_bodyOf, contentOf, Option.map_map]
  cases hbody : bodyOf configs record with
  | none => rfl
  | some body => exact congrArg some (decodeLine_lineBody (hreadable record hrecord body hbody).1)

namespace StateMachine

/-! ## Runs -/

section Runs

variable {K : Type} [KeyGenerator K]
variable {inputTopics : List (TopicConfig × List TopicName)} {directory : PathBuf}
variable {os : OperatingSystem} {keyGenerator : K} {config : StateMachineConfiguration}
variable {h : List (Step DiskFileRegistry K)} {sm : StateMachine DiskFileRegistry K}

/-- In every run without `Fatal` over readable records, the files sealed from a stream and the file
still open, read one after the other, say what the records of the stream said, in the order these
were consumed: all that were not dropped, and nothing else. -/
theorem stream_read_back
    (hrun : Run (system (new inputTopics (DiskFileRegistry.new directory os) keyGenerator config))
      h sm) (hfree : FatalFree h)
    (hreadable : ∀ record ∈ consumedRecords (requests h),
      Readable (Cache.newConfigs inputTopics) record) (id : StreamId) :
    (filesOf (Cache.newConfigs inputTopics) id h).flatMap
          (fun path => readFile (sm.fileRegistry.content path)) ++
        readFile (sm.fileRegistry.fileBytes id) =
      ((keptOf (Cache.newConfigs inputTopics) id (ledger h)).map Prod.fst).filterMap
        (contentOf (Cache.newConfigs inputTopics)) := by
  have hat : ∀ place, ∀ record ∈ itemsAt (ledger h) place,
      Readable (Cache.newConfigs inputTopics) record := by
    intro place record hrecord
    refine hreadable record ?_
    rw [← map_fst_ledger hrun hfree]
    exact List.mem_map_of_mem (mem_itemsAt.1 hrecord)
  have hfiles : ∀ path ∈ filesOf (Cache.newConfigs inputTopics) id h,
      readFile (sm.fileRegistry.content path) =
        (itemsAt (ledger h) (.file path)).filterMap
          (contentOf (Cache.newConfigs inputTopics)) := by
    intro path hpath
    rw [content_of_sealed hrun hfree (List.mem_filter.1 hpath).1, readFile_lines (hat _)]
  rw [keptOf_eq hrun hfree id, List.filterMap_append, List.filterMap_flatMap,
    fileBytes_of_open hrun hfree id, readFile_lines (hat _), List.flatMap_congr hfiles]

end Runs

theorem stream_read_back_sample :
    (filesOf sampleStart.cache.configs sampleStream (trace sampleStart orderedInputs).1).flatMap
          (fun path => readFile ((trace sampleStart orderedInputs).2.fileRegistry.content path)) ++
        readFile ((trace sampleStart orderedInputs).2.fileRegistry.fileBytes sampleStream) =
      ((keptOf sampleStart.cache.configs sampleStream
        (ledger (trace sampleStart orderedInputs).1)).map Prod.fst).filterMap
          (contentOf sampleStart.cache.configs) ∧
      (ledger (trace sampleStart orderedInputs).1).length = 2 := by
  refine ⟨stream_read_back (run_trace sampleStart orderedInputs) (by decide) ?_ sampleStream,
    by decide⟩
  have hconsumed : consumedRecords (requests (trace sampleStart orderedInputs).1) =
      [StateMachine.sampleRecord (sampleOffset 0), StateMachine.sampleRecord (sampleOffset 1)] := by
    decide
  have htext : Json.Text Json.Whitespace [0x7B, 0x7D] :=
    text_emptyObject fun _ hmem => absurd hmem List.not_mem_nil
  intro record hrecord body hbody
  rw [hconsumed, List.mem_cons, List.mem_singleton] at hrecord
  rcases hrecord with rfl | rfl
  all_goals
    obtain rfl := Option.some.inj hbody
    exact ⟨htext, by decide⟩

end StateMachine

end S3Sink
