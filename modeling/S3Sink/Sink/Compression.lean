import S3Sink.Cluster.Delivery
import S3Sink.Sink.Backend
import S3Sink.StateMachine.Compression

/-!
# Compression — the sink over compressed files

What is proved of the sink with compression left out holds of the sink over the files of the disk,
whose runs are the same event by event.

* `transparent_of_run` — every run is one with compression left out;
* `committed_on_disk` — what is committed can be decompressed.
-/

namespace S3Sink
namespace Sink

open TransitionSystem StateMachine FileIo

variable {σ K : Type} [Zstd σ] [LawfulZstd σ] [KeyGenerator K]
variable {inputTopics : List (TopicConfig × List TopicName)} {directory : PathBuf}
variable {compressionLevel : Int} {disk : FileIo.System} {keyGenerator : K}
variable {config : StateMachineConfiguration}
variable {h : List (SinkEvent (FileIo.DiskFileRegistry σ) K)}
variable {s : SinkState (FileIo.DiskFileRegistry σ) K}

/-- Compression does not show: every run over the files of the disk, whatever the disk and the
encoder answer, is a run with compression left out, event by event and answer by answer, over an
operating system that answers as they did; and at its end the streams have the same active files. -/
theorem transparent_of_run
    (hrun : Run (system (new inputTopics
      (FileIo.DiskFileRegistry.new directory compressionLevel disk) keyGenerator config)) h s) :
    ∃ os h' s', Run (system (new inputTopics (S3Sink.DiskFileRegistry.new directory os)
        keyGenerator config)) h' s' ∧
      List.Forall₂ AlikeEvent h h' ∧
      SimilarSink (FileIo.DiskFileRegistry.Refines os) s s' := by
  obtain ⟨h', s', hrun', hsimilar, halike⟩ :=
    backend_of_run (FileIo.DiskFileRegistry.registrySimulation_refines _) (similar_new _) hrun
      (foretold_of_run (run_steps hrun))
  obtain ⟨reg, heq, -, hrefines⟩ := hsimilar.stateMachine
  exact ⟨_, h', s', hrun', halike, ⟨reg, heq, hrefines⟩, hsimilar.uploadPool, hsimilar.phase⟩

theorem transparent_of_run_sample :
    ∃ os h' s', Run (system (sampleStart.withRegistry
        (S3Sink.DiskFileRegistry.new "scratch" os))) h' s' ∧
      List.Forall₂ AlikeEvent (play sampleStartOnDisk commitChoices).1 h' ∧
      SimilarSink (FileIo.DiskFileRegistry.Refines os)
        (play sampleStartOnDisk commitChoices).2.state s' :=
  transparent_of_run (run_play sampleStartOnDisk commitChoices)

omit [Zstd σ] [LawfulZstd σ] in
/-- An upload reported is that of a file sealed. -/
theorem sealed_of_reported {start : StateMachine S3Sink.DiskFileRegistry K}
    {h : List (SinkEvent S3Sink.DiskFileRegistry K)} {s : SinkState S3Sink.DiskFileRegistry K}
    (hrun : Run (system start) h s) (hfree : FatalFree (steps h)) {path : PathBuf}
    (hpath : Reported h path) : ∃ file ∈ sealedFiles (steps h), file.path = path := by
  have hpaths := (accounts_of_run hrun hfree).paths
  have hmem : path ∈ (↑((sealedFiles (steps h)).map SealedFile.path) : Multiset PathBuf) := by
    rw [hpaths]
    exact Multiset.mem_add.2 (Or.inl (Multiset.mem_add.2 (Or.inr (reported_iff.1 hpath))))
  exact List.mem_map.1 hmem

/-- Whenever the sink hands a list to `consumer.commit` that names an offset of a partition: every
offset before it, from the first one consumed since the partition was last revoked, is that of a
record processed, and the line of the record is found by decompressing a file reported as uploaded,
as the registry left it on disk. -/
theorem committed_on_disk {s' : SinkState (FileIo.DiskFileRegistry σ) K} {loop : Loop}
    {e : Step (FileIo.DiskFileRegistry σ) K} {actions : List Action} {tpl : TopicPartitionList}
    {p : TopicId} {c : Int}
    (hrun : Run (system (new inputTopics
      (FileIo.DiskFileRegistry.new directory compressionLevel disk) keyGenerator config)) h s)
    (hstep : SinkStep s (.handled loop e actions) s') (hcommit : tpl ∈ commitsOf actions)
    (hoffset : tpl.offsetOf p = some c) :
    ∃ first, (History.consumedSince p (requests (steps h))).head? = some first ∧
      ∀ n, first.val ≤ n → n < c →
        ∃ record ∈ consumedRecords (requests (steps h)), record.topicId = p ∧
          record.offset.val = n ∧
          ∀ line, lineOf (Cache.newConfigs inputTopics) record = some line →
            ∃ path content, Reported h path ∧
              Zstd.decodeAll σ (s.stateMachine.fileRegistry.onDisk path) = some content ∧
              line <:+: content := by
  have hsim := FileIo.DiskFileRegistry.registrySimulation_refines (σ := σ)
    (disk.replay s'.stateMachine.fileRegistry.operations)
  have hgood' := foretold_of_run (run_steps (Run.step hrun hstep))
  have hgood := Classical.not_not.1 fun hbad => sinkStep_registry hsim.good hstep hbad hgood'
  -- the same run with compression left out, and its next event
  obtain ⟨h₁, s₁, hrun₁, hsimilar, halike⟩ := backend_of_run hsim (similar_new _) hrun hgood
  obtain ⟨event₁, s₁', hstep₁, -, hevent⟩ := sinkStep_similar hsim hstep hsimilar hgood'
  cases hevent with
  | @handled _ _ e₁ _ he =>
      have halike' := steps_alike halike
      have hphase := running_of_step hstep₁
      have hfree₁ := fatalFree_of_run hrun₁ hphase
      have hfree := fatalFree_of_run hrun (by rwa [← hsimilar.phase])
      obtain ⟨reg, heq, -, hrefines⟩ := hsimilar.stateMachine
      have hregistry : s₁.stateMachine.fileRegistry = reg := by rw [heq]; rfl
      obtain ⟨⟨first, hfirst, hreported⟩, -⟩ := reported_of_list hrun₁ hphase
        (sinkStep_steps hstep₁) (mem_committedBy hstep₁ hcommit) hoffset
      rw [← requests_alike halike']
      refine ⟨first, hfirst, fun n hle hlt => ?_⟩
      obtain ⟨record, hrecord, hp, hn, hline⟩ :=
        reported_record hrun₁ hfree₁ (hreported n hle hlt)
      refine ⟨record, hrecord, hp, hn, fun line h => ?_⟩
      obtain ⟨path, hpath, hinfix⟩ := hline line h
      obtain ⟨file, hfile, rfl⟩ := sealed_of_reported hrun₁ hfree₁ hpath
      have hdecoded := decoded_of_sealed (run_steps hrun) hfree hrefines
        (sealedFiles_alike halike' ▸ hfile)
      refine ⟨file.path, _, ?_, hdecoded.2, hregistry ▸ hinfix⟩
      unfold Reported at hpath ⊢
      rwa [← requests_alike halike']

theorem committed_on_disk_sample :
    ∃ first, (History.consumedSince samplePartition
        (requests (steps (play sampleStartOnDisk commitChoices).1))).head? = some first ∧
      ∀ n, first.val ≤ n → n < 2 →
        ∃ record ∈ consumedRecords (requests (steps (play sampleStartOnDisk commitChoices).1)),
          record.topicId = samplePartition ∧ record.offset.val = n ∧
          ∀ line, lineOf sampleStart.cache.configs record = some line →
            ∃ path content, Reported (play sampleStartOnDisk commitChoices).1 path ∧
              Zstd.decodeAll RawBlocks ((play sampleStartOnDisk
                commitChoices).2.state.stateMachine.fileRegistry.onDisk path) = some content ∧
              line <:+: content :=
  committed_on_disk (run_play sampleStartOnDisk commitChoices)
    (sinkStep_advance (show advance (calm (.handle none)).1 (.handle none)
      (play sampleStartOnDisk commitChoices).2 = some (.handled .event _ _, _) from rfl))
    (show (⟨[⟨"topic", 0, some 2⟩]⟩ : TopicPartitionList) ∈ _ by decide) (by decide)

end Sink
end S3Sink
