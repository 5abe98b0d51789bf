import S3Sink.Sink.CommitSafety
import S3Sink.Sink.Scratch

/-!
# Removal — no scratch file is removed too early

`fs::remove_file` is called at most once for a file, and only when its upload was reported as
successful or its stream was dropped by a revocation.  So nothing is removed that is still written
to or still to be uploaded.

* `removed_of_step` — one event removes what it was answered to delete;
* `Removed` — what has been removed so far;
* `removed_of_run` — whole runs, also those that end in an error.
-/

namespace S3Sink

open TransitionSystem StateMachine

namespace StateMachine

/-- A request that is answered a deletion is not answered `Fatal`. -/
theorem Handled.noFatal_of_delete {F K : Type} [FileRegistry F] [KeyGenerator K]
    {ambient : Ambient} {sm sm' : StateMachine F K} {request : Request} {responses : List Response}
    (h : Handled ambient sm request responses sm') {path : PathBuf}
    (hdelete : .deleteFile path ∈ responses) : NoFatal responses := by
  have hmem := mem_deletesOf.2 hdelete
  rw [h.deletes] at hmem
  rcases List.mem_append.1 hmem with hrevoked | hreported
  · cases request with
    | revokePartitions partitions =>
        obtain ⟨paths, rfl⟩ := h.revoke_responses
        simp [NoFatal]
    | _ => exact absurd hrevoked List.not_mem_nil
  · cases request with
    | uploadCompletion result =>
        cases result with
        | success path offsets =>
            rw [h.success_responses]
            simp [NoFatal]
        | failure toUpload error => exact absurd hreported List.not_mem_nil
    | _ => exact absurd hreported List.not_mem_nil

end StateMachine

namespace Sink

section Event

variable {F K : Type} [FileRegistry F] [KeyGenerator K]

omit [FileRegistry F] [KeyGenerator K] in
theorem mem_filesRemoved {path : PathBuf} {actions : List Action} :
    path ∈ filesRemoved actions ↔ .removeFile path ∈ actions := by
  unfold filesRemoved
  rw [List.mem_filterMap]
  constructor
  · rintro ⟨action, haction, hpath⟩
    cases action with
    | removeFile path' => exact Option.some.inj hpath ▸ haction
    | _ => cases hpath
  · exact fun hmem => ⟨_, hmem, rfl⟩

/-- A file an event removes is one that it was answered to delete. -/
theorem removed_of_step {s s' : SinkState F K} {loop : Loop} {e : Step F K} {actions : List Action}
    (h : SinkStep s (.handled loop e actions) s') {path : PathBuf}
    (hmem : path ∈ filesRemoved actions) : .deleteFile path ∈ e.responses := by
  rw [mem_filesRemoved] at hmem
  cases h with
  | revoke =>
      obtain ⟨response, hresponse, haction⟩ := mem_forResponses hmem
      cases response with
      | deleteFile path' =>
          cases List.mem_singleton.1 haction
          exact hresponse
      | _ => exact absurd haction List.not_mem_nil
  | event commitError _ _ hloop =>
      have hactions : actions = (forResponses (eventLoopResponse commitError) e.responses).1 := by
        rw [hloop]
      rw [hactions] at hmem
      obtain ⟨response, hresponse, haction⟩ := mem_forResponses hmem
      have hpath := mem_filesRemoved.2 haction
      rw [filesRemoved_response] at hpath
      obtain rfl := List.mem_singleton.1 (mem_deletesOf.1 hpath)
      exact hresponse
  | drain _ _ hloop =>
      rw [drain_actions hloop] at hmem
      exact absurd hmem List.not_mem_nil
  | final commitError _ _ hloop =>
      have hnone := (final_carriesOut commitError e.responses).2
      rw [hloop] at hnone
      exact absurd (hnone ▸ mem_filesRemoved.2 hmem) List.not_mem_nil

/-- A run without `Fatal` so far, or its last event was answered it and has removed nothing. -/
theorem fatal_cases {start : StateMachine F K} {h : List (SinkEvent F K)} {s : SinkState F K}
    (hrun : Run (system start) h s) :
    FatalFree (steps h) ∨ ∃ loop e actions h₀ s₀, h = .handled loop e actions :: h₀ ∧
      Run (system start) h₀ s₀ ∧ FatalFree (steps h₀) ∧ removedFiles h = removedFiles h₀ := by
  cases hrun with
  | start hinit => exact Or.inl fun e he => absurd he List.not_mem_nil
  | @step h₀ s₀ s event hprev hstep =>
      have hfree := fatalFree_of_run hprev (running_of_step hstep)
      cases event with
      | handled loop e actions =>
          by_cases hnofatal : NoFatal e.responses
          · refine Or.inl fun e' he' => ?_
            rcases List.mem_cons.1 he' with rfl | he'
            · exact hnofatal
            · exact hfree e' he'
          · refine Or.inr ⟨loop, e, actions, h₀, s₀, rfl, hprev, hfree, ?_⟩
            have hnone : filesRemoved actions = [] := by
              refine List.eq_nil_iff_forall_not_mem.2 fun path hmem => hnofatal ?_
              exact (sinkStep_steps hstep).cases.noFatal_of_delete (removed_of_step hstep hmem)
            change filesRemoved actions ++ removedFiles h₀ = removedFiles h₀
            rw [hnone, List.nil_append]
      | _ => exact Or.inl hfree

end Event

variable {K : Type} [KeyGenerator K]
variable {inputTopics : List (TopicConfig × List TopicName)} {directory : PathBuf}
variable {os : OperatingSystem} {keyGenerator : K} {config : StateMachineConfiguration}
variable {h : List (SinkEvent DiskFileRegistry K)} {s : SinkState DiskFileRegistry K}

/-- Each file was removed once, and was uploaded or revoked. -/
structure Removed (h : List (SinkEvent DiskFileRegistry K)) : Prop where
  once : (removedFiles h).Nodup
  done : ∀ path ∈ removedFiles h, path ∈ revokedFiles (steps h) ∨ Reported h path

/-- A file that is active, that is under way or that was not reported yet is still there. -/
structure Kept (h : List (SinkEvent DiskFileRegistry K)) (s : SinkState DiskFileRegistry K) :
    Prop where
  active : ∀ path ∈ s.stateMachine.fileRegistry.activePaths, path ∉ removedFiles h
  flying : ∀ u ∈ inFlight s, u.path ∉ removedFiles h
  waiting : ∀ path ∈ (sealedFiles (steps h)).map SealedFile.path,
    ¬ Reported h path → path ∉ removedFiles h

theorem removed_of_fatalFree
    (hrun : Run (system (new inputTopics (DiskFileRegistry.new directory os) keyGenerator config))
      h s) (hfree : FatalFree (steps h)) : Removed h := by
  have hcounts := pathCounts_of_run hrun hfree
  constructor
  · refine List.nodup_iff_count_le_one.2 fun path => ?_
    obtain ⟨hone, hreported, hremoved⟩ := hcounts path
    omega
  · intro path hmem
    obtain ⟨-, -, hremoved⟩ := hcounts path
    have hpos := List.count_pos_iff.2 hmem
    by_cases hrevoked : path ∈ revokedFiles (steps h)
    · exact Or.inl hrevoked
    · rw [List.count_eq_zero.2 hrevoked] at hremoved
      exact Or.inr (reported_iff.2 (List.count_pos_iff.1 (by omega)))

theorem kept_of_fatalFree
    (hrun : Run (system (new inputTopics (DiskFileRegistry.new directory os) keyGenerator config))
      h s) (hfree : FatalFree (steps h)) : Kept h s := by
  have hcounts := pathCounts_of_run hrun hfree
  have hpaths := (accounts_of_run hrun hfree).paths
  have hwaiting : ∀ path ∈ (sealedFiles (steps h)).map SealedFile.path,
      ¬ Reported h path → path ∉ removedFiles h := by
    intro path hsealed hnot hmem
    obtain ⟨hone, -, hremoved⟩ := hcounts path
    have hpos := List.count_pos_iff.2 hsealed
    have hgone := List.count_pos_iff.2 hmem
    rw [List.count_eq_zero.2 fun hreported => hnot (reported_iff.2 hreported)] at hremoved
    omega
  refine ⟨fun path hactive hmem => ?_, fun u hu => hwaiting u.path ?_ ?_, hwaiting⟩
  · obtain ⟨hone, hreported, hremoved⟩ := hcounts path
    have hpos := Multiset.count_pos.2 hactive
    have hgone := List.count_pos_iff.2 hmem
    omega
  -- what is under way was sealed, and not reported besides
  · refine Multiset.mem_coe.1 (hpaths ▸ ?_)
    exact Multiset.mem_add.2 (Or.inl (Multiset.mem_add.2 (Or.inl (Multiset.mem_map_of_mem _ hu))))
  · intro hreported
    obtain ⟨hone, -, -⟩ := hcounts u.path
    have hflying := Multiset.count_pos.2 (Multiset.mem_map_of_mem ToUpload.path hu)
    have hdone := List.count_pos_iff.2 (reported_iff.1 hreported)
    have hcount := congrArg (Multiset.count u.path) hpaths
    simp only [Multiset.count_add, Multiset.coe_count] at hcount
    omega

/-- In every run, also one that ends in an error, each file is removed at most once, and only when
its upload was reported or its stream was revoked.  Before `Fatal`, no file is removed that is
active, under way or not reported yet. -/
theorem removed_of_run
    (hrun : Run (system (new inputTopics (DiskFileRegistry.new directory os) keyGenerator config))
      h s) : Removed h ∧ (FatalFree (steps h) → Kept h s) := by
  refine ⟨?_, kept_of_fatalFree hrun⟩
  rcases fatal_cases hrun with hfree | ⟨loop, e, actions, h₀, s₀, rfl, hrun₀,
    hfree₀, hsame⟩
  · exact removed_of_fatalFree hrun hfree
  · obtain ⟨honce, hdone⟩ := removed_of_fatalFree hrun₀ hfree₀
    refine ⟨hsame ▸ honce, fun path hmem => ?_⟩
    rw [reported_iff, steps_handled, revokedFiles_cons, reportedParts_cons, List.map_append]
    refine (hdone path (hsame ▸ hmem)).imp (List.mem_append_right _) fun hreported => ?_
    exact List.mem_append_right _ (reported_iff.1 hreported)

theorem removed_of_run_sample :
    removedFiles (play sampleStart commitChoices).1 =
        ["/scratch/.jsonl.zst", "/scratch/000.jsonl.zst"] ∧
      Removed (play sampleStart commitChoices).1 ∧
      Kept (play sampleStart commitChoices).1 (play sampleStart commitChoices).2.state := by
  obtain ⟨hremoved, hkept⟩ := removed_of_run (run_play sampleStart commitChoices)
  exact ⟨by decide, hremoved, hkept (by decide)⟩

end Sink
end S3Sink
