import S3Sink.Sink.Accounts
import S3Sink.StateMachine.Metered

/-!
# Reports — the statistics of the sink balance

What the reports of a sink say is what it did, and it adds up: over the windows, and between the
files sealed, the uploads that succeeded and those under way.

* `Handled.balance` — one request;
* `Balanced` — the counters and the reports of a run;
* `reports_balance` — whole runs.
-/

namespace S3Sink

open TransitionSystem

/-- The files sealed are those uploaded and those whose upload is under way. -/
def Report.Balances (self : Report) : Prop :=
  self.aggregate .filesSealed = self.aggregate .successUploads + self.inFlightUploads

namespace StateMachine

variable {F K : Type} [FileRegistry F] [KeyGenerator K]

/-- Before the shutdown, what is sealed is uploaded, or its upload is under way. -/
theorem Handled.balance {ambient : Ambient} {sm sm' : StateMachine F K} {request : Request}
    {responses : List Response} (h : Handled ambient sm request responses sm')
    (hfree : NoFatal responses) (hpos : request.completions ≤ sm.inFlightUploads)
    (hrequest : request ≠ .shutdownSignal) (configs : HashMap TopicName TopicConfig) :
    counted configs request responses .filesSealed + sm.inFlightUploads =
      counted configs request responses .successUploads + sm'.inFlightUploads := by
  have hslots := h.slots hpos
  cases request with
  | uploadCompletion result =>
      cases result with
      | success path offsets =>
          rw [h.success_responses] at hslots ⊢
          change 0 + sm.inFlightUploads = 1 + sm'.inFlightUploads
          change sm'.inFlightUploads + 1 = sm.inFlightUploads + 0 at hslots
          omega
      | failure toUpload error =>
          rw [h.failure_responses hfree] at hslots ⊢
          change 0 + sm.inFlightUploads = 0 + sm'.inFlightUploads
          change sm'.inFlightUploads + 1 = sm.inFlightUploads + 1 at hslots
          omega
  | shutdownSignal => exact absurd rfl hrequest
  | _ =>
      simp only [counted, sealedBy, Request.reported, List.length_map, List.length_nil, zero_add]
      change sm'.inFlightUploads + 0 = _ at hslots
      omega

/-- Before the shutdown every report balances. -/
theorem balances_of_run [ActiveFileCount F] {start sm : StateMachine F K} {h : List (Step F K)}
    (hslots : start.inFlightUploads = 0) (hrun : Run (system start) h sm) (hfree : FatalFree h)
    (hpos : ∀ e ∈ h, e.request.completions ≤ e.pre.inFlightUploads)
    (hbefore : ∀ e ∈ h, e.request ≠ .shutdownSignal) :
    ((metered h).1.counter .filesSealed).aggregate =
        ((metered h).1.counter .successUploads).aggregate + sm.inFlightUploads ∧
      ∀ report ∈ (metered h).2, report.Balances := by
  induction hrun with
  | start hinit =>
      rw [hinit, hslots]
      exact ⟨rfl, fun report hmem => absurd hmem List.not_mem_nil⟩
  | @step h sm sm' e _ hstep ih =>
      obtain ⟨hsealed, hreports⟩ := ih hfree.tail
        (fun e' hmem => hpos e' (List.mem_cons_of_mem _ hmem))
        (fun e' hmem => hbefore e' (List.mem_cons_of_mem _ hmem))
      have hbalance := hstep.cases.balance hfree.head (hpos e List.mem_cons_self)
        (hbefore e List.mem_cons_self) sm.cache.configs
      have hnew : ((metered (e :: h)).1.counter .filesSealed).aggregate =
          ((metered (e :: h)).1.counter .successUploads).aggregate + e.post.inFlightUploads := by
        rw [(metered_step hstep hfree.head _).1, (metered_step hstep hfree.head _).1, hsealed,
          ← hstep.reordered.inFlightUploads]
        omega
      refine ⟨hstep.post ▸ hnew, fun report hmem => ?_⟩
      rcases mem_reports hmem with hold | ⟨hflight, hfigures⟩
      · exact hreports report hold
      · unfold Report.Balances
        rw [hfigures, hfigures, hflight]
        exact hnew

end StateMachine

namespace Sink

open StateMachine

variable {K : Type} [KeyGenerator K]

/-- The lines of the records processed. -/
def linesOf (configs : HashMap TopicName TopicConfig) (requests : List Request) : List Bytes :=
  (consumedRecords requests).filterMap (lineOf configs)

omit [KeyGenerator K] in
theorem linesOf_cons (configs : HashMap TopicName TopicConfig) (request : Request)
    (requests : List Request) :
    linesOf configs (request :: requests) =
      linesOf configs requests ++ linesBy configs request := by
  cases request with
  | processRecord record =>
      unfold linesOf linesBy
      rw [consumedRecords, List.filterMap_append]
      cases hline : lineOf configs record <;> simp [hline]
  | _ => exact (List.append_nil _).symm

/-- The counters say what the run did, and no window is lost. -/
structure Balanced (configs : HashMap TopicName TopicConfig)
    (h : List (Step DiskFileRegistry K)) : Prop where
  recordCount : ((metered h).1.counter .recordCount).aggregate =
    (linesOf configs (requests h)).length
  bytesConsumed : ((metered h).1.counter .bytesConsumed).aggregate =
    (linesOf configs (requests h)).flatten.length
  successUploads : ((metered h).1.counter .successUploads).aggregate =
    (History.reportedPaths (requests h)).length
  windows : ∀ figure, windowTotal h figure = ((metered h).1.counter figure).aggregate

variable {inputTopics : List (TopicConfig × List TopicName)} {directory : PathBuf}
variable {os : OperatingSystem} {keyGenerator : K} {config : StateMachineConfiguration}

theorem balanced_of_run {h : List (Step DiskFileRegistry K)} {sm : StateMachine DiskFileRegistry K}
    (hrun : Run (StateMachine.system (new inputTopics (DiskFileRegistry.new directory os)
      keyGenerator config)) h sm) (hfree : FatalFree h) :
    Balanced (Cache.newConfigs inputTopics) h := by
  induction hrun with
  | start _ => exact ⟨rfl, rfl, rfl, fun figure => by cases figure <;> rfl⟩
  | @step h sm sm' e hprev hstep ih =>
      have hbalanced := ih hfree.tail
      -- every counter is increased by what the request did
      have hcounted := metered_step (h := h) hstep hfree.head
      rw [configs_of_run hprev] at hcounted
      have hlines := linesOf_cons (Cache.newConfigs inputTopics) e.request (requests h)
      have hrequests : requests (e :: h) = e.request :: requests h := rfl
      exact
        { recordCount := by
            rw [(hcounted _).1, hbalanced.recordCount, hrequests, hlines, List.length_append]
            rfl
          bytesConsumed := by
            rw [(hcounted _).1, hbalanced.bytesConsumed, hrequests, hlines, List.flatten_append,
              List.length_append]
            rfl
          successUploads := by
            rw [(hcounted _).1, hbalanced.successUploads, ← map_fst_reportedParts,
              ← map_fst_reportedParts, List.length_map, List.length_map, reportedParts_cons,
              List.length_append, Nat.add_comm]
            rfl
          windows := fun figure => by
            rw [(hcounted figure).2, (hcounted figure).1, hbalanced.windows figure] }

/-- In every run without `Fatal`: the lines and bytes counted are those of the records processed,
the uploads counted as successful are those reported, and the windows reported and the current one
add up to the aggregate.  In every report printed before the shutdown the files sealed are those
uploaded and those under way. -/
theorem reports_balance {h : List (SinkEvent DiskFileRegistry K)}
    {s : SinkState DiskFileRegistry K}
    (hrun : Run (system (new inputTopics (DiskFileRegistry.new directory os) keyGenerator config))
      h s) (hfree : FatalFree (steps h)) :
    Balanced (Cache.newConfigs inputTopics) (steps h) ∧
      (BeforeShutdown h → ∀ report ∈ (metered (steps h)).2, report.Balances) := by
  have hsteps := run_steps hrun
  refine ⟨balanced_of_run hsteps hfree, fun hbefore => ?_⟩
  exact (balances_of_run rfl hsteps hfree (slots_of_run hrun).positive hbefore).2

/-- A commit tick while the upload of the file sealed is under way. -/
def reportChoices : List (Ambient × Choice) :=
  [calm (.handle none), calm (.ready (.commitTick sampleAssignment))] ++ sealedChoices

theorem reports_balance_sample :
    Balanced sampleStart.cache.configs (steps (play sampleStart reportChoices).1) ∧
      (∀ report ∈ (metered (steps (play sampleStart reportChoices).1)).2, report.Balances) ∧
      (metered (steps (play sampleStart reportChoices).1)).2.map Report.inFlightUploads = [1] := by
  obtain ⟨hbalanced, hreports⟩ :=
    reports_balance (run_play sampleStart reportChoices) (by decide)
  exact ⟨hbalanced, hreports (by unfold BeforeShutdown; decide), by decide⟩

end Sink
end S3Sink
