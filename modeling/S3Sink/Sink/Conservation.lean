import S3Sink.StateMachine.Ledger
import S3Sink.Sink.Accounts

/-!
# Conservation — no record is lost or duplicated between files

As long as the drain has not begun, every processed record is in one open stream, in one upload
under way, in one uploaded file, or was dropped with its stream by a revocation of all its
partitions; and the bookkeeping of every stream and every upload describes the bytes written.
-/

namespace S3Sink
namespace Sink

open TransitionSystem StateMachine Placement

/-- The event completes an upload in the drain. -/
def SinkEvent.inDrain {F K : Type} : SinkEvent F K → Bool
  | .handled .drain _ _ => true
  | _ => false

/-- The drain has not begun. -/
def BeforeDrain {F K : Type} (h : List (SinkEvent F K)) : Prop :=
  ∀ event ∈ h, SinkEvent.inDrain event = false

instance {F K : Type} (h : List (SinkEvent F K)) : Decidable (BeforeDrain h) :=
  inferInstanceAs (Decidable (∀ event ∈ h, SinkEvent.inDrain event = false))

variable {K : Type}

/-- Every record is kept in one place, and what is kept describes its records. -/
structure Conserved (configs : HashMap TopicName TopicConfig)
    (h : List (SinkEvent DiskFileRegistry K)) (s : SinkState DiskFileRegistry K) : Prop where
  /-- every processed record has its place in the ledger -/
  once : (ledger (steps h)).map Prod.fst = consumedRecords (requests (steps h))
  /-- the stream of a record is open -/
  stream : ∀ record id, (record, Place.stream id) ∈ ledger (steps h) → id ∈ s.stateMachine.streams
  /-- the file of a record is under way once and not reported, or reported once and not under way -/
  file : ∀ record path, (record, Place.file path) ∈ ledger (steps h) →
    ((inFlight s).map ToUpload.path).count path +
      (History.reportedPaths (requests (steps h))).count path = 1
  /-- a record is dropped only by a revocation of its partition -/
  revoked : ∀ record position id partitions,
    (record, Place.revoked position id partitions) ∈ ledger (steps h) →
    record.topicId ∈ revokedTopicIds partitions ∧
      (requests (steps h)).reverse[position]? = some (.revokePartitions partitions)
  describesStream : ∀ id state, s.stateMachine.streams.get? id = some state →
    Describes configs (itemsAt (ledger (steps h)) (.stream id))
      (s.stateMachine.fileRegistry.fileBytes id) state.bytesConsumed state.recordsConsumed
      state.offsetsConsumed
  describesUpload : ∀ u ∈ inFlight s,
    Describes configs (itemsAt (ledger (steps h)) (.file u.path))
      (s.stateMachine.fileRegistry.content u.path) u.rawSizeB u.recordCount u.file.offsetsConsumed

theorem BeforeDrain.droppedUploads {h : List (SinkEvent DiskFileRegistry K)}
    (hdrain : BeforeDrain h) : droppedUploads h = [] := by
  apply List.flatMap_eq_nil_iff.2
  intro event hmem
  have hevent := hdrain event hmem
  cases event with
  | handled loop e actions =>
      cases loop with
      | drain => cases hevent
      | _ => rfl
  | _ => rfl

variable [KeyGenerator K]
variable {inputTopics : List (TopicConfig × List TopicName)} {directory : PathBuf}
variable {os : OperatingSystem} {keyGenerator : K} {config : StateMachineConfiguration}

/-- In every run without `Fatal`, up to and including `ShutdownSignal`, no record is lost or
duplicated. -/
theorem records_conserved {h : List (SinkEvent DiskFileRegistry K)}
    {s : SinkState DiskFileRegistry K}
    (hrun : Run (system (new inputTopics (DiskFileRegistry.new directory os) keyGenerator config))
      h s)
    (hfree : FatalFree (steps h)) (hdrain : BeforeDrain h) :
    Conserved (Cache.newConfigs inputTopics) h s := by
  have hsteps := run_steps hrun
  have hshelved := shelved_of_run hsteps hfree
  have hconfigs := configs_of_run hsteps
  have haccounts := accounts_of_run hrun hfree
  have hlife := lifecycle_of_run hsteps hfree
  refine
    { once := map_fst_ledger hsteps hfree
      stream := hshelved.opened.stream_mem
      file := fun record path hmem => ?_
      revoked := fun record position id partitions hmem => revoked_of_ledger hsteps hfree hmem
      describesStream := fun id state hget => hconfigs ▸ hshelved.opened.described id state hget
      describesUpload := fun u hu => hconfigs ▸ hshelved.sealed.described u.file
        ((files_of_run hrun hfree).1 u hu) }
  -- a sealed file is counted once, and nothing was dropped before the drain
  have hpaths := congrArg (Multiset.count path) haccounts.paths
  have hone : Multiset.count path ↑((sealedFiles (steps h)).map SealedFile.path) = 1 := by
    refine Multiset.count_eq_one_of_mem ?_ (hshelved.sealed.file_mem record path hmem)
    exact (Multiset.nodup_add.1 hlife.separate.distinct).2.1
  rw [hone, hdrain.droppedUploads, map_fst_reportedParts] at hpaths
  simpa using hpaths.symm

/-- A record that fills a file of thirteen bytes. -/
def longRecord (offset : Offset) : Message :=
  { sampleRecord offset with payload := some [0x7B, 0x20, 0x20, 0x7D] }

/-- `sampleStart` with files of thirteen bytes, one more than the line of a `sampleRecord`. -/
def thirteenStart : StateMachine DiskFileRegistry IdentityKeyGenerator :=
  new [(⟨.jsonStringDecoder, .topicVersion⟩, [⟨"topic"⟩])]
    (DiskFileRegistry.new "/scratch" OperatingSystem.faultless) {}
    { sampleStart.config with targetFileSizeB := 13 }

/-- Two files are sealed and the upload of one of them completes; then a record opens a third. -/
def conservedChoices : List (Ambient × Choice) :=
  [calm (.handle none), calm (.ready (.record (sampleRecord (sampleOffset 2)))),
    calm (.handle none), calm (.complete 0 none), calm (.handle none),
    calm (.ready (.record (longRecord (sampleOffset 1)))), calm (.handle none),
    calm (.ready (.record (longRecord (sampleOffset 0))))]

/-- One record in an open stream, one in an upload under way, one in an upload that completed. -/
theorem records_conserved_sample :
    (play thirteenStart conservedChoices).2.stateMachine.streams.keys.length = 1 ∧
      (play thirteenStart conservedChoices).2.uploadPool.length = 1 ∧
      (History.reportedPaths (requests (steps (play thirteenStart conservedChoices).1))).length =
        1 ∧
      Conserved thirteenStart.cache.configs (play thirteenStart conservedChoices).1
        (play thirteenStart conservedChoices).2.state :=
  ⟨by decide, by decide, by decide,
    records_conserved (run_play thirteenStart conservedChoices) (by decide) (by decide)⟩

end Sink
end S3Sink
