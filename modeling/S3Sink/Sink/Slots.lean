import S3Sink.Sink.Loops

/-!
# Slots — upload slots and the upload pool

`in_flight_uploads` counts the uploads in the pool: a sealed file takes a slot, a retry keeps it, a
completion that is not retried frees it.

* `Handled.slots` — what one request does to the counter;
* `Slots` — the invariant of the sink: exact in the event loop, an upper bound in the drain;
* `slot_accounting` — exactness, no underflow, and the configured bound until the shutdown.
-/

namespace S3Sink

open TransitionSystem

/-- A request that ends an upload attempt. -/
def Request.completions : Request → Nat
  | .uploadCompletion _ => 1
  | _ => 0

namespace StateMachine

variable {F K : Type} [FileRegistry F] [KeyGenerator K]

/-- The counter moves by the uploads answered less the completion handled. -/
theorem Handled.slots {ambient : Ambient} {sm sm' : StateMachine F K} {request : Request}
    {responses : List Response} (h : Handled ambient sm request responses sm')
    (hpos : request.completions ≤ sm.inFlightUploads) :
    sm'.inFlightUploads + request.completions =
      sm.inFlightUploads + (uploadsOf responses).length := by
  cases h with
  | sealed _ _ _ _ _ _ hclose =>
      obtain ⟨fileRegistry, keyGenerator, response, rfl, -⟩ := sealed_spec hclose
      simp [Request.completions, uploadsOf]
  | uploadTick _ hclose =>
      obtain ⟨fileRegistry, keyGenerator, responses, rfl, -⟩ := sealedAll_spec hclose
      simp [Request.completions]
  | shutdown hclose =>
      obtain ⟨fileRegistry, keyGenerator, responses, rfl, -⟩ := sealedAll_spec hclose
      simp [Request.completions, uploadsOf]
  | retried => rfl
  | exhausted =>
      simp only [Request.completions] at hpos
      simp only [u64Pred_of_pos hpos, Request.completions, uploadsOf, List.filterMap_cons,
        List.filterMap_nil, List.length_nil]
      omega
  | uploaded =>
      simp only [Request.completions] at hpos
      simp only [u64Pred_of_pos hpos, Request.completions, uploadsOf, List.filterMap_cons,
        List.filterMap_nil, List.length_nil]
      omega
  | committedAsync hcommitted => rw [hcommitted.frame]; rfl
  | committedSync hcommitted => rw [hcommitted.frame]; rfl
  | commitFailed hrequest => rcases hrequest with rfl | rfl <;> rfl
  | revoked _ hrevoke =>
      obtain ⟨fileRegistry, paths, rfl⟩ := revokedAll_spec hrevoke
      simp [Request.completions, uploadsOf]
  | _ => rfl

/-- Only the shutdown takes slots beyond the configured number. -/
theorem Handled.bounded {ambient : Ambient} {sm sm' : StateMachine F K} {request : Request}
    {responses : List Response} (h : Handled ambient sm request responses sm')
    (hpos : request.completions ≤ sm.inFlightUploads) (hrequest : request ≠ .shutdownSignal)
    (hbound : sm.inFlightUploads ≤ sm.config.maxConcurrentUploads) :
    sm'.inFlightUploads ≤ sm'.config.maxConcurrentUploads := by
  have hslots := h.slots hpos
  rw [h.config]
  cases h with
  | sealed _ _ _ _ _ hroom hclose =>
      obtain ⟨fileRegistry, keyGenerator, response, rfl, hanswer⟩ := sealed_spec hclose
      have hone : (uploadsOf [response]).length ≤ 1 := by
        simpa [uploadsOf] using List.length_filterMap_le _ [response]
      dsimp only
      omega
  | uploadTick hextract hclose =>
      obtain ⟨fileRegistry, keyGenerator, responses, rfl, hanswers⟩ := sealedAll_spec hclose
      -- at most as many streams are taken as slots are free
      have hcapacity := HashMap.length_extractIfTake sm.streams (fun _ state =>
          state.createdAt ≤ ambient.now - fromMillis sm.config.maxActiveFileTimeoutMs)
        (sm.config.maxConcurrentUploads - sm.inFlightUploads)
      rw [hextract] at hcapacity
      have hexpired : _ ≤ sm.config.maxConcurrentUploads - sm.inFlightUploads :=
        hcapacity.trans_le (min_le_left _ _)
      dsimp only at hexpired
      have hle : (uploadsOf responses).length ≤ responses.length := List.length_filterMap_le _ _
      have hlength := hanswers.length_eq
      dsimp only
      omega
  | shutdown => exact absurd rfl hrequest
  | retried => exact hbound
  | exhausted => simp only [Request.completions, uploadsOf] at hslots ⊢; simp at hslots; omega
  | uploaded => simp only [Request.completions, uploadsOf] at hslots ⊢; simp at hslots; omega
  | committedAsync hcommitted => rw [hcommitted.frame]; exact hbound
  | committedSync hcommitted => rw [hcommitted.frame]; exact hbound
  | revoked _ hrevoke =>
      obtain ⟨fileRegistry, paths, rfl⟩ := revokedAll_spec hrevoke
      exact hbound
  | _ => exact hbound

end StateMachine

namespace Sink

open StateMachine

variable {F K : Type} [FileRegistry F] [KeyGenerator K]

/-- The uploads under way: those in the pool, and the one just taken from it. -/
def inFlight (s : SinkState F K) : Multiset ToUpload :=
  match s.phase with
  | .polled branch => branch.taken + s.uploadPool
  | _ => s.uploadPool

/-- The counter and the pool, phase by phase. -/
def SlotsAgree (s : SinkState F K) : Prop :=
  match s.phase with
  | .eventLoop => s.stateMachine.inFlightUploads = (inFlight s).card
  | .polled _ => s.stateMachine.inFlightUploads = (inFlight s).card
  | .draining => (inFlight s).card ≤ s.stateMachine.inFlightUploads
  | .returned _ => True

/-- No `ShutdownSignal` has been handled. -/
def BeforeShutdown (h : List (SinkEvent F K)) : Prop :=
  ∀ e ∈ steps h, e.request ≠ .shutdownSignal

/-- The invariant of the upload slots. -/
structure Slots (h : List (SinkEvent F K)) (s : SinkState F K) : Prop where
  agree : SlotsAgree s
  positive : ∀ e ∈ steps h, e.request.completions ≤ e.pre.inFlightUploads
  bounded : BeforeShutdown h →
    s.stateMachine.inFlightUploads ≤ s.stateMachine.config.maxConcurrentUploads

theorem completions_eq_taken (branch : Polled) :
    branch.request.completions = branch.taken.card := by
  cases branch <;> rfl

/-- A handled request keeps the positivity and the bound. -/
theorem Slots.handled {h : List (SinkEvent F K)} {s : SinkState F K} (hslots : Slots h s)
    {e : Step F K} {sm' : StateMachine F K} (hstep : Steps s.stateMachine e sm') (loop : Loop)
    (actions : List Action) (hpos : e.request.completions ≤ s.stateMachine.inFlightUploads) :
    (∀ e' ∈ steps (.handled loop e actions :: h), e'.request.completions ≤ e'.pre.inFlightUploads) ∧
      (BeforeShutdown (.handled loop e actions :: h) →
        sm'.inFlightUploads ≤ sm'.config.maxConcurrentUploads) ∧
      sm'.inFlightUploads + e.request.completions =
        s.stateMachine.inFlightUploads + (uploadsOf e.responses).length := by
  have hpre : e.pre.inFlightUploads = s.stateMachine.inFlightUploads :=
    hstep.reordered.inFlightUploads
  have hpos' : e.request.completions ≤ e.pre.inFlightUploads := hpre ▸ hpos
  refine ⟨?_, ?_, ?_⟩
  · intro e' he'
    rcases List.mem_cons.1 he' with rfl | he'
    · exact hpos'
    · exact hslots.positive e' he'
  · intro hbefore
    rw [hstep.post]
    apply hstep.cases.bounded hpos' (hbefore e List.mem_cons_self)
    rw [hpre, hstep.reordered.config]
    exact hslots.bounded fun e' he' => hbefore e' (List.mem_cons_of_mem _ he')
  · rw [hstep.post, ← hpre]
    exact hstep.cases.slots hpos'

theorem Slots.step {h : List (SinkEvent F K)} {s s' : SinkState F K} {event : SinkEvent F K}
    (hslots : Slots h s) (hstep : SinkStep s event s') : Slots (event :: h) s' := by
  have hagree := hslots.agree
  cases hstep with
  | skip => exact ⟨hagree, hslots.positive, hslots.bounded⟩
  | poll branch =>
      refine ⟨?_, hslots.positive, hslots.bounded⟩
      simpa [SlotsAgree, inFlight] using hagree
  | abort error => exact ⟨trivial, hslots.positive, hslots.bounded⟩
  | abortDrain error => exact ⟨trivial, hslots.positive, hslots.bounded⟩
  | @revoke sm sm' pool branch partitions e hstep hrequest =>
      have hzero : e.request.completions = 0 := by rw [hrequest]; rfl
      obtain ⟨hpositive, hbounded, hcount⟩ := hslots.handled hstep .revoke
        (forResponses revokeResponse e.responses).1 (by omega)
      refine ⟨?_, hpositive, hbounded⟩
      -- a revocation answers no upload
      obtain ⟨paths, hpaths⟩ := (hstep.cases_of hrequest).revoke_responses
      rw [hpaths, uploadsOf_deletes, hzero] at hcount
      simp only [SlotsAgree, inFlight] at hagree ⊢
      exact hcount.trans hagree
  | @event sm sm' pool branch e actions flow commitError hstep hrequest hloop =>
      have htaken := completions_eq_taken branch
      simp only [SlotsAgree, inFlight, Multiset.card_add] at hagree
      obtain ⟨hpositive, hbounded, hcount⟩ := hslots.handled hstep .event actions
        (by rw [hrequest, htaken]; dsimp only; omega)
      refine ⟨?_, hpositive, hbounded⟩
      rw [hrequest, htaken] at hcount
      have hlast : ∀ before after, e.responses = before ++ .drainAndShutdown :: after →
          after = [] := fun before after => hstep.cases.drainAndShutdown_last
      cases flow with
      | returnErr error => trivial
      | next | breakEventLoop =>
          -- every upload answered is started
          obtain ⟨hstarted, -, -⟩ := eventLoop_carriesOut hlast hloop (by simp)
          simp only [SlotsAgree, inFlight, Flow.afterEvent, Multiset.card_add, Multiset.coe_card,
            hstarted]
          dsimp only at hcount
          omega
  | @drain sm sm' pool toUpload failure e actions flow hstep hrequest hloop =>
      simp only [SlotsAgree, inFlight, Multiset.card_cons] at hagree
      have hone : e.request.completions = 1 := by rw [hrequest]; rfl
      obtain ⟨hpositive, hbounded, hcount⟩ := hslots.handled hstep .drain actions
        (by rw [hone]; dsimp only; omega)
      refine ⟨?_, hpositive, hbounded⟩
      -- what the state machine answers is dropped, so the pool shrinks in any case
      obtain rfl := drain_actions hloop
      rw [hone] at hcount
      cases flow with
      | returnErr error => trivial
      | _ =>
          simp only [SlotsAgree, inFlight, Flow.afterDrain, uploadsStarted, List.filterMap_nil,
            Multiset.coe_nil, zero_add]
          dsimp only at hcount
          omega
  | @final sm sm' currentAssignment e actions flow commitError hstep hrequest hloop =>
      have hzero : e.request.completions = 0 := by rw [hrequest]; rfl
      obtain ⟨hpositive, hbounded, -⟩ := hslots.handled hstep .final actions
        (by omega)
      refine ⟨?_, hpositive, hbounded⟩
      cases flow <;> trivial

variable {inputTopics : List (TopicConfig × List TopicName)} {fileRegistry : F} {keyGenerator : K}
variable {config : StateMachineConfiguration}

theorem slots_of_run {h : List (SinkEvent F K)} {s : SinkState F K}
    (hrun : Run (system (new inputTopics fileRegistry keyGenerator config)) h s) : Slots h s :=
  hrun.invariant
    (fun s hinit => by
      subst hinit
      exact ⟨rfl, by simp [steps], fun _ => Nat.zero_le _⟩)
    (fun _ _ _ _ _ hslots hstep => hslots.step hstep)

/-- Between two iterations of the event loop the counter is the size of the pool, in the drain it is
not smaller; a completion is handled only when the counter is positive; and until `ShutdownSignal`
is handled the counter does not exceed the configured number of uploads. -/
theorem slot_accounting {h : List (SinkEvent F K)} {s : SinkState F K}
    (hrun : Run (system (new inputTopics fileRegistry keyGenerator config)) h s) :
    (s.phase = .eventLoop → s.stateMachine.inFlightUploads = s.uploadPool.card) ∧
      (s.phase = .draining → s.uploadPool.card ≤ s.stateMachine.inFlightUploads) ∧
      (∀ e ∈ steps h, ∀ result, e.request = .uploadCompletion result →
        0 < e.pre.inFlightUploads) ∧
      (BeforeShutdown h → s.stateMachine.inFlightUploads ≤ config.maxConcurrentUploads) := by
  have hslots := slots_of_run hrun
  have hagree := hslots.agree
  refine ⟨?_, ?_, ?_, ?_⟩
  · intro hphase
    simpa [SlotsAgree, inFlight, hphase] using hagree
  · intro hphase
    simpa [SlotsAgree, inFlight, hphase] using hagree
  · intro e he result hrequest
    have hpositive := hslots.positive e he
    rw [hrequest] at hpositive
    exact hpositive
  · intro hbefore
    have hconfig : s.stateMachine.config = config := config_of_run (run_steps hrun)
    rw [← hconfig]
    exact hslots.bounded hbefore

theorem slot_accounting_sample :
    (play sampleStart sealedChoices).2.stateMachine.inFlightUploads =
        (play sampleStart sealedChoices).2.state.uploadPool.card ∧
      (play sampleStart sealedChoices).2.stateMachine.inFlightUploads ≤ 2 := by
  obtain ⟨hloop, -, -, hbound⟩ := slot_accounting (run_play sampleStart sealedChoices)
  exact ⟨hloop rfl, hbound (by unfold BeforeShutdown; decide)⟩

end Sink
end S3Sink
