import S3Sink.StateMachine.Ledger
import S3Sink.Stats

/-!
# Metered — the statistics of a run

The handlers count on `stats` what they do, and never read it.  `measure` follows them and counts;
a commit request prints a report behind its answer.

* `measure`, `metered` — the calls of one request and of a whole run;
* `counted`, `Handled.measure` — what one request adds;
* `windowTotal`, `mem_reports` — what the reports of a run say together, and each by itself.
-/

namespace S3Sink

open TransitionSystem

/-- `FileRegistry::active_file_count`, which only the reports read. -/
class ActiveFileCount (F : Type) where
  activeFileCount : F → Nat

def DiskFileRegistry.activeFileCount (self : DiskFileRegistry) : Nat :=
  self.files.keys.length

instance : ActiveFileCount DiskFileRegistry where
  activeFileCount := DiskFileRegistry.activeFileCount

namespace StateMachine

variable {F K : Type}

/-- The size of the offsets tracked, at eight bytes each. -/
def offsetsSize (self : StateMachine F K) : Nat :=
  self.offsetsUploaded.toList.foldl (fun size next => size + next.2.toList.length) 0 * 8

section Handlers

variable [FileRegistry F]

/-- The calls of `handle_process_record` on `stats`. -/
def measureProcessRecord (record : Message) (now : Instant) (self : StateMachine F K)
    (stats : Stats) : Stats :=
  match (self.cache.getOrCreateRecordMetadata record).1 with
  | none => stats
  | some metadata =>
      match (self.serializer.serialize record metadata.config.decoder).1 with
      | .ok (some payload) =>
          -- counted before it is written
          let stats := stats.incBytesConsumed payload.length
          match (FileRegistry.writeAll self.fileRegistry metadata.streamId payload).1 with
          | .error _ => stats
          | .ok () =>
              -- should seal and upload?
              if self.config.targetFileSizeB ≤
                    (self.writtenState record metadata now payload).bytesConsumed ∧
                  self.inFlightUploads < self.config.maxConcurrentUploads then
                stats.incFilesSealed
              else
                stats
      | _ => stats

/-- The calls of `handle_upload_tick` on `stats`. -/
def measureUploadTick (now : Instant) (self : StateMachine F K) (stats : Stats) : Stats :=
  let expired := (self.streams.extractIfTake
    (fun _ state => state.createdAt ≤ now - fromMillis self.config.maxActiveFileTimeoutMs)
    (self.config.maxConcurrentUploads - self.inFlightUploads)).1
  expired.foldl (fun stats _ => stats.incFilesSealed.incDormantFiles) stats

/-- The calls of `handle_upload_completion` on `stats`. -/
def measureUploadCompletion (uploadResult : UploadResult) (stats : Stats) : Stats :=
  match uploadResult with
  | .failure _ _ => stats.incFailureUploads
  | .success _ _ => stats.incSuccessUploads

/-- The calls of the handlers on `stats`.  Neither a revocation nor the shutdown counts anything. -/
def measure (ambient : Ambient) (request : Request) (self : StateMachine F K) (stats : Stats) :
    Stats :=
  match request with
  | .processRecord record => measureProcessRecord record ambient.now self stats
  | .uploadTick => measureUploadTick ambient.now self stats
  | .uploadCompletion uploadResult => measureUploadCompletion uploadResult stats
  | _ => stats

end Handlers

/-- The report behind a commit request. -/
def printReport [ActiveFileCount F] (self : StateMachine F K) (stats : Stats) : Report × Stats :=
  stats.printReport (ActiveFileCount.activeFileCount self.fileRegistry) self.inFlightUploads
    self.offsetsSize

/-- The statistics after a history, and its reports, the newest first. -/
def metered [FileRegistry F] [ActiveFileCount F] : List (Step F K) → Stats × List Report
  | [] => (Stats.new, [])
  | e :: h =>
      let stats := measure e.ambient e.request e.pre (metered h).1
      match e.request with
      | .commitTick _ =>
          ((e.post.printReport stats).2, (e.post.printReport stats).1 :: (metered h).2)
      | .finalCommit _ =>
          ((e.post.printReport stats).2, (e.post.printReport stats).1 :: (metered h).2)
      | _ => (stats, (metered h).2)

/-! ## One request -/

/-- The lines a request writes. -/
def linesBy (configs : HashMap TopicName TopicConfig) : Request → List Bytes
  | .processRecord record => (lineOf configs record).toList
  | _ => []

/-- What a request without `Fatal` adds to the counters. -/
def counted (configs : HashMap TopicName TopicConfig) (request : Request)
    (responses : List Response) : Figure → Nat
  | .recordCount => (linesBy configs request).length
  | .bytesConsumed => (linesBy configs request).flatten.length
  | .filesSealed =>
      match request with
      | .shutdownSignal => 0
      | _ => (sealedBy request responses).length
  | .successUploads => request.reported.length
  | .failureUploads =>
      match request with
      | .uploadCompletion (.failure _ _) => 1
      | _ => 0
  | .dormantFiles =>
      match request with
      | .uploadTick => (uploadsOf responses).length
      | _ => 0

theorem adds_measureUploadTick (expired : List (StreamId × StreamState)) (stats : Stats) :
    Stats.Adds stats
      (expired.foldl (fun stats _ => stats.incFilesSealed.incDormantFiles) stats)
      (fun figure => Stats.amountOf .filesSealed expired.length figure +
        Stats.amountOf .dormantFiles expired.length figure) := by
  induction expired generalizing stats with
  | nil =>
      refine (Stats.Adds.zero stats).of_eq fun figure => ?_
      cases figure <;> rfl
  | cons e expired ih =>
      have hone := (stats.adds_incFilesSealed).trans stats.incFilesSealed.adds_incDormantFiles
      have hall := hone.trans (ih _)
      intro figure
      rw [List.foldl_cons, hall figure]
      cases figure <;> simp [Stats.amountOf, Nat.add_comm]

variable [FileRegistry F]

/-- A record with a line is counted, and perhaps a file sealed. -/
theorem measureProcessRecord_line {record : Message} {now : Instant} {sm : StateMachine F K}
    {metadata : RecordMetadata} {line : Bytes} {fileRegistry : F} {stats : Stats}
    (hmetadata : Cache.metadata sm.cache.configs record = some metadata)
    (hline : JsonSerializer.serializeRecord metadata.config.decoder record = .ok (some line))
    (hwrite : FileRegistry.writeAll sm.fileRegistry metadata.streamId line =
      (.ok (), fileRegistry)) :
    measureProcessRecord record now sm stats =
      if sm.config.targetFileSizeB ≤ (sm.writtenState record metadata now line).bytesConsumed ∧
          sm.inFlightUploads < sm.config.maxConcurrentUploads then
        (stats.incBytesConsumed line.length).incFilesSealed
      else
        stats.incBytesConsumed line.length := by
  unfold measureProcessRecord
  rw [Cache.getOrCreateRecordMetadata_fst, hmetadata]
  dsimp only
  rw [JsonSerializer.serialize_result, hline]
  dsimp only
  rw [hwrite]

omit [FileRegistry F] in
/-- Without `Fatal` every stream sealed is answered by an upload. -/
theorem length_uploadsOf_sealed {config : StateMachineConfiguration}
    {streams : List (StreamId × StreamState)} {responses : List Response}
    (h : List.Forall₂ (fun e response => SealAnswer config e.2 response) streams responses)
    (hfree : NoFatal responses) : (uploadsOf responses).length = streams.length := by
  induction h with
  | nil => rfl
  | @cons e response streams responses hanswer _ ih =>
      have htail : NoFatal responses := fun error hmem => hfree error (List.mem_cons_of_mem _ hmem)
      cases hanswer with
      | failed error => exact absurd List.mem_cons_self (hfree error)
      | ready u =>
          have hcons : uploadsOf (.readyForUpload u :: responses) = u :: uploadsOf responses := rfl
          rw [hcons, List.length_cons, List.length_cons, ih htail]

variable [KeyGenerator K]

/-- What the handlers of a request without `Fatal` count is what it did. -/
theorem Handled.measure {ambient : Ambient} {sm sm' : StateMachine F K} {request : Request}
    {responses : List Response} (h : Handled ambient sm request responses sm')
    (hfree : NoFatal responses) (stats : Stats) :
    Stats.Adds stats (measure ambient request sm stats)
      (counted sm.cache.configs request responses) := by
  cases h with
  | unconfigured => exact absurd List.mem_cons_self (hfree _)
  | undecodable => exact absurd List.mem_cons_self (hfree _)
  | writeFailed => exact absurd List.mem_cons_self (hfree _)
  | @skipped record metadata _ _ hmetadata _ hline =>
      have hnone : measureProcessRecord record ambient.now sm stats = stats := by
        unfold measureProcessRecord
        rw [Cache.getOrCreateRecordMetadata_fst, hmetadata]
        dsimp only
        rw [JsonSerializer.serialize_result, hline]
      have hskipped := lineOf_eq hmetadata hline
      change Stats.Adds stats (measureProcessRecord record ambient.now sm stats) _
      rw [hnone]
      refine (Stats.Adds.zero stats).of_eq fun figure => ?_
      cases figure <;> simp [counted, linesBy, hskipped, sealedBy, uploadsOf, Request.reported]
  | @written record metadata _ _ line _ hmetadata _ hline hwrite hopen =>
      have hline' := lineOf_eq hmetadata hline
      change Stats.Adds stats (measureProcessRecord record ambient.now sm stats) _
      rw [measureProcessRecord_line hmetadata hline hwrite, if_neg hopen]
      refine (stats.adds_incBytesConsumed line.length).of_eq fun figure => ?_
      cases figure <;>
        simp [counted, linesBy, hline', sealedBy, uploadsOf, Request.reported, Stats.lineAmount]
  | @sealed record metadata _ _ line _ _ hmetadata _ hline hwrite hsize hroom hclose =>
      have hline' := lineOf_eq hmetadata hline
      obtain ⟨fileRegistry, keyGenerator, response, rfl, hanswer⟩ := sealed_spec hclose
      change Stats.Adds stats (measureProcessRecord record ambient.now sm stats) _
      rw [measureProcessRecord_line hmetadata hline hwrite, if_pos ⟨hsize, hroom⟩]
      refine ((stats.adds_incBytesConsumed line.length).trans
        (Stats.adds_incFilesSealed _)).of_eq fun figure => ?_
      cases hanswer with
      | failed error => exact absurd (List.mem_append_right _ List.mem_cons_self) (hfree error)
      | ready u =>
          cases figure <;> simp [counted, linesBy, hline', sealedBy, uploadsOf, Request.reported,
            Stats.lineAmount, Stats.amountOf]
  | @uploadTick expired _ _ hextract hclose =>
      obtain ⟨fileRegistry, keyGenerator, responses, rfl, hanswers⟩ := sealedAll_spec hclose
      have hlength := length_uploadsOf_sealed hanswers hfree
      change Stats.Adds stats (measureUploadTick ambient.now sm stats) _
      unfold measureUploadTick
      rw [hextract]
      refine (adds_measureUploadTick expired stats).of_eq fun figure => ?_
      cases figure <;> simp [counted, linesBy, sealedBy, Request.reported, Stats.amountOf, hlength]
  | retried =>
      intro figure
      cases figure <;> rfl
  | exhausted => exact absurd List.mem_cons_self (hfree _)
  | uploaded =>
      intro figure
      cases figure <;> rfl
  | committedAsync =>
      intro figure
      cases figure <;> rfl
  | committedSync =>
      intro figure
      cases figure <;> rfl
  | commitFailed => exact absurd List.mem_cons_self (hfree _)
  | revoked _ hrevoke =>
      obtain ⟨fileRegistry, paths, rfl⟩ := revokedAll_spec hrevoke
      refine (Stats.Adds.zero stats).of_eq fun figure => ?_
      cases figure <;> simp [counted, linesBy, sealedBy, Request.reported]
  | shutdown =>
      intro figure
      cases figure <;> rfl

/-! ## Runs -/

section Runs

variable [ActiveFileCount F]

/-- The figures of all windows so far, the one that has begun included. -/
def windowTotal (h : List (Step F K)) (figure : Figure) : Nat :=
  ((metered h).2.map (·.window figure)).sum + ((metered h).1.counter figure).window

omit [KeyGenerator K] in
/-- A report moves the window it prints behind the others. -/
theorem metered_cons (e : Step F K) (h : List (Step F K)) (figure : Figure) :
    ((metered (e :: h)).1.counter figure).aggregate =
        ((measure e.ambient e.request e.pre (metered h).1).counter figure).aggregate ∧
      windowTotal (e :: h) figure = ((metered h).2.map (·.window figure)).sum +
        ((measure e.ambient e.request e.pre (metered h).1).counter figure).window := by
  have hprinted : ∀ (stats : Stats) (reports : List Report),
      ((e.post.printReport stats).2.counter figure).aggregate =
          (stats.counter figure).aggregate ∧
        (((e.post.printReport stats).1 :: reports).map (·.window figure)).sum +
            ((e.post.printReport stats).2.counter figure).window =
          (reports.map (·.window figure)).sum + (stats.counter figure).window := by
    intro stats reports
    have hreset : (e.post.printReport stats).2.counter figure =
        ⟨(stats.counter figure).aggregate, 0⟩ := stats.counter_resetWindow figure
    rw [hreset, List.map_cons, List.sum_cons]
    exact ⟨rfl, Nat.add_comm (stats.counter figure).window _⟩
  unfold windowTotal
  rw [metered]
  cases e.request with
  | commitTick currentAssignment => exact hprinted _ _
  | finalCommit currentAssignment => exact hprinted _ _
  | _ => exact ⟨rfl, rfl⟩

/-- A request without `Fatal` adds what it did to the aggregate and to the windows. -/
theorem metered_step {sm sm' : StateMachine F K} {e : Step F K} {h : List (Step F K)}
    (hstep : Steps sm e sm') (hfree : NoFatal e.responses) (figure : Figure) :
    ((metered (e :: h)).1.counter figure).aggregate =
        ((metered h).1.counter figure).aggregate +
          counted sm.cache.configs e.request e.responses figure ∧
      windowTotal (e :: h) figure =
        windowTotal h figure + counted sm.cache.configs e.request e.responses figure := by
  have hadds := hstep.cases.measure hfree (metered h).1 figure
  rw [hstep.reordered.cache] at hadds
  obtain ⟨haggregate, hwindow⟩ := metered_cons e h figure
  rw [haggregate, hwindow, hadds]
  exact ⟨rfl, (Nat.add_assoc _ _ _).symm⟩

omit [KeyGenerator K] in
/-- A report says what the counters say behind it. -/
theorem mem_reports {e : Step F K} {h : List (Step F K)} {report : Report}
    (hmem : report ∈ (metered (e :: h)).2) :
    report ∈ (metered h).2 ∨ report.inFlightUploads = e.post.inFlightUploads ∧
      ∀ figure, report.aggregate figure = ((metered (e :: h)).1.counter figure).aggregate := by
  have hprinted : ∀ (stats : Stats) (figure : Figure),
      (e.post.printReport stats).1.aggregate figure =
        ((e.post.printReport stats).2.counter figure).aggregate := by
    intro stats figure
    exact (congrArg Counter.aggregate (stats.counter_resetWindow figure)).symm
  rw [metered] at hmem ⊢
  cases hrequest : e.request with
  | commitTick currentAssignment =>
      rw [hrequest] at hmem
      rcases List.mem_cons.1 hmem with rfl | hold
      · exact Or.inr ⟨rfl, hprinted _⟩
      · exact Or.inl hold
  | finalCommit currentAssignment =>
      rw [hrequest] at hmem
      rcases List.mem_cons.1 hmem with rfl | hold
      · exact Or.inr ⟨rfl, hprinted _⟩
      · exact Or.inl hold
  | _ =>
      rw [hrequest] at hmem
      exact Or.inl hmem

end Runs

end StateMachine
end S3Sink
