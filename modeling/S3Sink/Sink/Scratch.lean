import S3Sink.StateMachine.Lifecycle
import S3Sink.Sink.Accounts

/-!
# Scratch — which scratch files leak

Every file in the scratch directory is active, waits for its upload, or has been removed, as long as
the event loop handles the completions.  The drain ignores the deletion answered for a successful
upload, so the file stays behind.

* `NoLeak` — no scratch file is leaked;
* `no_leak_iff` — this holds exactly when no upload succeeds in the drain.
-/

namespace S3Sink
namespace Sink

open TransitionSystem StateMachine

/-- No successful upload is delivered to the drain. -/
def NoDrainSuccess {F K : Type} (h : List (SinkEvent F K)) : Prop :=
  ∀ e actions, .handled .drain e actions ∈ h → ∀ path offsets,
    e.request ≠ .uploadCompletion (.success path offsets)

variable {K : Type}

/-- Every file the registry created is active, or sealed and not reported as uploaded, or has been
removed; when the sink has returned `Ok`, every file reported as uploaded has been removed. -/
structure NoLeak (h : List (SinkEvent DiskFileRegistry K)) (s : SinkState DiskFileRegistry K) :
    Prop where
  created : ∀ path ∈ s.stateMachine.fileRegistry.createdPaths,
    path ∈ s.stateMachine.fileRegistry.activePaths ∨
      (path ∈ (sealedFiles (steps h)).map SealedFile.path ∧ ¬ Reported h path) ∨
      path ∈ removedFiles h
  uploaded : s.phase = .returned (.ok ()) → ∀ path, Reported h path → path ∈ removedFiles h

/-- What is reported in the drain is a deletion the drain ignores. -/
theorem mem_ignoredDeletes {F : Type} [FileRegistry F] [KeyGenerator K]
    {start : StateMachine F K} {h : List (SinkEvent F K)} {s : SinkState F K}
    (hrun : Run (system start) h s) {path : PathBuf} :
    path ∈ ignoredDeletes h ↔ ∃ e actions offsets, .handled .drain e actions ∈ h ∧
      e.request = .uploadCompletion (.success path offsets) := by
  unfold ignoredDeletes
  rw [List.mem_flatMap]
  constructor
  · rintro ⟨event, hmem, hpath⟩
    obtain ⟨h₀, s₀, s₁, -, -, hstep⟩ := hrun.step_of_mem hmem
    -- only the drain ignores deletions, and it is answered one for a success
    cases hstep with
    | @drain sm sm' pool toUpload failure e actions flow hstep hrequest hloop =>
        have hdeletes := (hstep.cases_of hrequest).deletes
        dsimp only at hpath
        rw [hdeletes] at hpath
        cases failure with
        | some error => exact absurd hpath List.not_mem_nil
        | none =>
            obtain rfl := List.mem_singleton.1 hpath
            exact ⟨e, actions, _, hmem, hrequest⟩
    | _ => exact absurd hpath List.not_mem_nil
  · rintro ⟨e, actions, offsets, hmem, hrequest⟩
    obtain ⟨h₀, s₀, s₁, -, -, hstep⟩ := hrun.step_of_mem hmem
    refine ⟨_, hmem, ?_⟩
    cases hstep with
    | drain hstep _ _ => simp [(hstep.cases_of hrequest).success_responses, deletesOf]

variable [KeyGenerator K]
variable {inputTopics : List (TopicConfig × List TopicName)} {directory : PathBuf}
variable {os : OperatingSystem} {keyGenerator : K} {config : StateMachineConfiguration}

section Counts

variable {h : List (SinkEvent DiskFileRegistry K)} {s : SinkState DiskFileRegistry K}

/-- How often a path occurs: once among the active, the sealed and the revoked ones, reported at
most as often as sealed, and removed or ignored as often as revoked or reported. -/
structure PathCounts (h : List (SinkEvent DiskFileRegistry K)) (s : SinkState DiskFileRegistry K)
    (path : PathBuf) : Prop where
  one : s.stateMachine.fileRegistry.activePaths.count path +
    ((sealedFiles (steps h)).map SealedFile.path).count path +
      (revokedFiles (steps h)).count path ≤ 1
  reported : ((reportedParts (steps h)).map Prod.fst).count path ≤
    ((sealedFiles (steps h)).map SealedFile.path).count path
  removed : (removedFiles h).count path + (ignoredDeletes h).count path =
    (revokedFiles (steps h)).count path + ((reportedParts (steps h)).map Prod.fst).count path

theorem pathCounts_of_run
    (hrun : Run (system (new inputTopics (DiskFileRegistry.new directory os) keyGenerator config))
      h s) (hfree : FatalFree (steps h)) (path : PathBuf) : PathCounts h s path := by
  have haccounts := accounts_of_run hrun hfree
  have hnodup := (lifecycle_of_run (run_steps hrun) hfree).nodup
  constructor
  · have hone := Multiset.nodup_iff_count_le_one.1 hnodup path
    simpa only [Multiset.count_add, Multiset.coe_count] using hone
  · have hpaths := congrArg (Multiset.count path) haccounts.paths
    simp only [Multiset.count_add, Multiset.coe_count] at hpaths
    omega
  · have hremoved := congrArg (Multiset.count path) haccounts.removed
    simpa only [Multiset.count_add, Multiset.coe_count] using hremoved

variable {path : PathBuf}

omit [KeyGenerator K] in
/-- A file whose deletion was ignored is neither active nor removed. -/
theorem PathCounts.of_ignored (hcounts : PathCounts h s path) (hignored : path ∈ ignoredDeletes h)
    (hreported : path ∈ (reportedParts (steps h)).map Prod.fst) :
    path ∉ s.stateMachine.fileRegistry.activePaths ∧ path ∉ removedFiles h := by
  have hignored' := List.count_pos_iff.2 hignored
  have hreported' := List.count_pos_iff.2 hreported
  obtain ⟨hone, hsealed, hremoved⟩ := hcounts
  -- a second occurrence would exceed the one sealing
  constructor
  · intro hactive
    have hactive' := Multiset.count_pos.2 hactive
    omega
  · intro hgone
    have hgone' := List.count_pos_iff.2 hgone
    omega

omit [KeyGenerator K] in
/-- A file revoked or reported whose deletion was not ignored is removed. -/
theorem PathCounts.mem_removedFiles (hcounts : PathCounts h s path)
    (hignored : path ∉ ignoredDeletes h)
    (hdone : path ∈ revokedFiles (steps h) ∨ path ∈ (reportedParts (steps h)).map Prod.fst) :
    path ∈ removedFiles h := by
  have hzero := List.count_eq_zero.2 hignored
  have hremoved := hcounts.removed
  rw [← List.count_pos_iff]
  rcases hdone with hrevoked | hreported
  · have hpos := List.count_pos_iff.2 hrevoked
    omega
  · have hpos := List.count_pos_iff.2 hreported
    omega

end Counts

/-- No scratch file is leaked exactly when no upload has succeeded in the drain. -/
theorem no_leak_iff {h : List (SinkEvent DiskFileRegistry K)} {s : SinkState DiskFileRegistry K}
    (hrun : Run (system (new inputTopics (DiskFileRegistry.new directory os) keyGenerator config))
      h s)
    (hfree : FatalFree (steps h)) : NoLeak h s ↔ NoDrainSuccess h := by
  have haccounted := (lifecycle_of_run (run_steps hrun) hfree).accounted
  have hcounts := pathCounts_of_run hrun hfree
  constructor
  · intro hleak e actions hevent path offsets hrequest
    have hignored : path ∈ ignoredDeletes h :=
      (mem_ignoredDeletes hrun).2 ⟨e, actions, offsets, hevent, hrequest⟩
    have hreported : Reported h path := by
      refine List.mem_filterMap.2 ⟨e.request, List.mem_map.2 ⟨e, ?_, rfl⟩, by rw [hrequest]⟩
      exact List.mem_filterMap.2 ⟨_, hevent, rfl⟩
    obtain ⟨hnotActive, hnotRemoved⟩ :=
      (hcounts path).of_ignored hignored (reported_iff.1 hreported)
    -- a reported file was sealed, so it was created
    have hcreated : path ∈ s.stateMachine.fileRegistry.createdPaths := by
      rw [← haccounted]
      refine Multiset.mem_add.2 (Or.inl (Multiset.mem_add.2 (Or.inr ?_)))
      have hpos := List.count_pos_iff.2 (reported_iff.1 hreported)
      exact List.count_pos_iff.1 (hpos.trans_le (hcounts path).reported)
    rcases hleak.created path hcreated with hactive | ⟨-, hnot⟩ | hgone
    · exact hnotActive hactive
    · exact hnot hreported
    · exact hnotRemoved hgone
  · intro hdrain
    have hignored : ∀ path, path ∉ ignoredDeletes h := by
      intro path hmem
      obtain ⟨e, actions, offsets, hevent, hrequest⟩ := (mem_ignoredDeletes hrun).1 hmem
      exact hdrain e actions hevent path offsets hrequest
    have hreported : ∀ path, Reported h path → path ∈ removedFiles h := fun path hdone =>
      (hcounts path).mem_removedFiles (hignored path) (Or.inr (reported_iff.1 hdone))
    refine ⟨fun path hcreated => ?_, fun _ => hreported⟩
    rw [← haccounted, Multiset.mem_add, Multiset.mem_add] at hcreated
    -- active, sealed or revoked
    rcases hcreated with (hactive | hsealed) | hrevoked
    · exact Or.inl hactive
    · by_cases hdone : Reported h path
      · exact Or.inr (Or.inr (hreported path hdone))
      · exact Or.inr (Or.inl ⟨hsealed, hdone⟩)
    · exact Or.inr (Or.inr ((hcounts path).mem_removedFiles (hignored path) (Or.inl hrevoked)))

/-- Two files are sealed.  The upload of the newer one completes and its file is removed; that of
the older one fails in the drain, and nothing is committed. -/
def removedChoices : List (Ambient × Choice) :=
  [calm (.final sampleAssignment none), calm (.complete 0 (some (.s3Upload "timeout"))),
    calm (.handle none), calm (.ready .shutdown), calm (.handle none), calm (.complete 0 none),
    calm (.handle none), calm (.ready (.record (sampleRecord (sampleOffset 1))))] ++ sealedChoices

theorem no_leak_sample :
    (play sampleStart removedChoices).2.state.phase = .returned (.ok ()) ∧
      removedFiles (play sampleStart removedChoices).1 = ["/scratch/000.jsonl.zst"] ∧
      NoDrainSuccess (play sampleStart removedChoices).1 ∧
      NoLeak (play sampleStart removedChoices).1 (play sampleStart removedChoices).2.state := by
  have hrun := run_play sampleStart removedChoices
  have hignored : ignoredDeletes (play sampleStart removedChoices).1 = [] := by decide
  have hdrain : NoDrainSuccess (play sampleStart removedChoices).1 := by
    intro e actions hevent path offsets hrequest
    have hmem := (mem_ignoredDeletes hrun).2 ⟨e, actions, offsets, hevent, hrequest⟩
    rw [hignored] at hmem
    exact absurd hmem List.not_mem_nil
  exact ⟨rfl, by decide, hdrain, (no_leak_iff hrun (by decide)).2 hdrain⟩

/-- One record is consumed, its file is sealed, and its upload succeeds in the drain.  The sink
returns `Ok`, but the file was not removed. -/
theorem drain_leaks_file :
    ∃ (h : List (SinkEvent DiskFileRegistry IdentityKeyGenerator))
      (s : SinkState DiskFileRegistry IdentityKeyGenerator) (path : PathBuf),
      Run (system sampleStart) h s ∧ FatalFree (steps h) ∧ s.phase = .returned (.ok ()) ∧
      path ∈ s.stateMachine.fileRegistry.createdPaths ∧
      path ∉ s.stateMachine.fileRegistry.activePaths ∧
      Reported h path ∧ path ∉ removedFiles h ∧ ¬ NoLeak h s := by
  have hreported : Reported (play sampleStart (calm (.final sampleAssignment none) ::
      drainedChoices none)).1 (sampleStart.fileRegistry.nextPath) := by
    unfold Reported
    decide
  have hkept : sampleStart.fileRegistry.nextPath ∉ removedFiles (play sampleStart
      (calm (.final sampleAssignment none) :: drainedChoices none)).1 := by decide
  refine ⟨_, _, sampleStart.fileRegistry.nextPath, run_play sampleStart
    (calm (.final sampleAssignment none) :: drainedChoices none), by decide, rfl, by decide,
    by decide, hreported, hkept, fun hleak => ?_⟩
  exact hkept (hleak.uploaded rfl _ hreported)

end Sink
end S3Sink
