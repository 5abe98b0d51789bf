import S3Sink.Sink.Slots

/-!
# Drain — the shutdown comes to an end

Once `ShutdownSignal` is handled the sink only waits for the uploads under way.  Each of them
completes once and none is started, so the number of events left is known when the signal comes.

* `remaining`, `remaining_lt` — every event of the drain brings its end closer;
* `drain_progress` — the drain is never stuck;
* `shutdown_bounded` — how many events follow a shutdown at most.
-/

namespace S3Sink

namespace Sink

open TransitionSystem StateMachine

variable {F K : Type} [FileRegistry F] [KeyGenerator K]
variable {s s' : SinkState F K} {event : SinkEvent F K}

/-- The event loop is left. -/
def Leaving (s : SinkState F K) : Prop :=
  s.phase = .draining ∨ ∃ result, s.phase = .returned result

/-- The events of the drain still to come: a completion for each upload, and `FinalCommit`. -/
def remaining (s : SinkState F K) : Nat :=
  match s.phase with
  | .draining => s.uploadPool.card + 1
  | _ => 0

/-- Nothing is carried out but a commit. -/
def CommitsOnly : SinkEvent F K → Prop
  | .handled _ _ actions => uploadsStarted actions = [] ∧ filesRemoved actions = []
  | _ => True

/-! ## One event -/

/-- An event of the drain starts no upload and brings the end closer. -/
theorem remaining_lt (hstep : SinkStep s event s') (hleaving : Leaving s) :
    Leaving s' ∧ remaining s' < remaining s ∧ CommitsOnly event := by
  cases hstep with
  | abortDrain error => exact ⟨Or.inr ⟨_, rfl⟩, Nat.zero_lt_succ _, trivial⟩
  | @drain _ _ pool toUpload _ _ _ flow _ _ hloop =>
      obtain rfl := drain_actions hloop
      refine ⟨?_, ?_, rfl, rfl⟩
      · cases flow with
        | returnErr error => exact Or.inr ⟨_, rfl⟩
        | _ => exact Or.inl rfl
      · cases flow with
        | returnErr error => exact Nat.zero_lt_succ _
        | _ => simp [remaining, Flow.afterDrain, uploadsStarted]
  | @final _ _ _ e _ flow commitError _ _ hloop =>
      have hcarries := final_carriesOut commitError e.responses
      rw [hloop] at hcarries
      refine ⟨?_, ?_, hcarries⟩
      · cases flow <;> exact Or.inr ⟨_, rfl⟩
      · cases flow <;> exact Nat.zero_lt_succ _
  | _ => rcases hleaving with hphase | ⟨result, hphase⟩ <;> cases hphase

/-- The event loop is left at the latest when `ShutdownSignal` is handled. -/
theorem leaving_of_shutdown {loop : Loop} {e : Step F K} {actions : List Action}
    (hstep : SinkStep s (.handled loop e actions) s') (hrequest : e.request = .shutdownSignal) :
    Leaving s' ∧ loop = .event := by
  cases hstep with
  | revoke _ hrevoke => cases hrequest.symm.trans hrevoke
  | drain _ hcompletion => cases hrequest.symm.trans hcompletion
  | final _ _ hfinal => cases hrequest.symm.trans hfinal
  | @event _ _ _ _ _ _ flow _ hsteps _ hloop =>
      refine ⟨?_, rfl⟩
      cases flow with
      | returnErr error => exact Or.inr ⟨_, rfl⟩
      | breakEventLoop => exact Or.inl rfl
      | next =>
          -- the answers end with `DrainAndShutdown`, so the loop is not continued
          obtain ⟨-, -, hiff⟩ := eventLoop_carriesOut
            (fun before after => hsteps.cases.drainAndShutdown_last) hloop (by simp)
          rcases hsteps.cases.drainAndShutdown with ⟨hnot, -⟩ | ⟨-, answers, hanswers, -⟩
          · exact absurd hrequest hnot
          · cases hiff.2 (by simp [hanswers])

/-- As long as the sink has not returned, the drain goes on. -/
theorem drain_progress (hleaving : Leaving s) :
    (∃ result, s.phase = .returned result) ∨ ∃ event s', SinkStep s event s' := by
  obtain ⟨sm, pool, phase⟩ := s
  rcases hleaving with hphase | hreturned
  · obtain rfl : phase = .draining := hphase
    have hsteps : ∀ input, Steps sm (stepOn sm input) (stepOn sm input).post := fun input =>
      ⟨Reordered.refl sm, rfl, rfl⟩
    refine Or.inr ?_
    rcases Multiset.empty_or_exists_mem pool with rfl | ⟨toUpload, hmem⟩
    · exact ⟨_, _, SinkStep.final none (hsteps ⟨⟨0, fun _ _ => none⟩,
        .finalCommit TopicPartitionList.new⟩) rfl rfl⟩
    · obtain ⟨rest, rfl⟩ := Multiset.exists_cons_of_mem hmem
      exact ⟨_, _, SinkStep.drain (hsteps ⟨⟨0, fun _ _ => none⟩,
        .uploadCompletion (uploadResult toUpload none)⟩) rfl rfl⟩
  · exact Or.inl hreturned

/-! ## Whole runs -/

variable {start : StateMachine F K} {h after : List (SinkEvent F K)}

/-- From a state of the drain on, every event brings the end closer. -/
theorem remaining_of_run (hrun : Run (system start) (after ++ h) s) :
    ∃ s₀, Run (system start) h s₀ ∧ (Leaving s₀ →
      Leaving s ∧ after.length + remaining s ≤ remaining s₀ ∧
        ∀ event ∈ after, CommitsOnly event) := by
  induction after generalizing s with
  | nil => exact ⟨s, hrun, fun hleaving => ⟨hleaving, by simp, by simp⟩⟩
  | cons event after ih =>
      obtain ⟨s', hprev, hstep⟩ := Run.cons_iff.1 hrun
      obtain ⟨s₀, hrun₀, hrest⟩ := ih hprev
      refine ⟨s₀, hrun₀, fun hleaving₀ => ?_⟩
      obtain ⟨hleaving', hlength, honly'⟩ := hrest hleaving₀
      obtain ⟨hleaving, hlt, honly⟩ := remaining_lt hstep hleaving'
      refine ⟨hleaving, ?_, List.forall_mem_cons.2 ⟨honly, honly'⟩⟩
      rw [List.length_cons]
      omega

/-- No shutdown was handled before the event loop was left. -/
theorem beforeShutdown_of_run (hrun : Run (system start) h s) (hloop : ¬ Leaving s) :
    BeforeShutdown h := by
  intro e he hrequest
  obtain ⟨event, hevent, hstep?⟩ := List.mem_filterMap.1 he
  cases event with
  | handled loop e' actions =>
      obtain rfl := Option.some.inj hstep?
      obtain ⟨earlier, later, rfl⟩ := List.append_of_mem hevent
      obtain ⟨s₁, hrun₁, hrest⟩ := remaining_of_run hrun
      obtain ⟨s₀, -, hstep⟩ := Run.cons_iff.1 hrun₁
      exact hloop (hrest (leaving_of_shutdown hstep hrequest).1).1
  | _ => cases hstep?

/-- At most one upload is started for each stream that is open at the shutdown. -/
theorem started_at_shutdown {ambient : Ambient} {sm sm' : StateMachine F K}
    {responses : List Response} (h : Handled ambient sm .shutdownSignal responses sm')
    {actions : List Action} (hstarted : (uploadsStarted actions).Sublist (uploadsOf responses)) :
    (uploadsStarted actions).length ≤ sm.streams.keys.length := by
  refine hstarted.length_le.trans ?_
  cases h with
  | commitFailed hcommit => rcases hcommit with hcommit | hcommit <;> cases hcommit
  | shutdown hclose =>
      obtain ⟨fileRegistry, keyGenerator, responses, rfl, hanswers⟩ := sealedAll_spec hclose
      rw [uploadsOf_append, uploadsOf_drainAndShutdown, List.append_nil, List.nil_append]
      calc
        (uploadsOf responses).length
            ≤ responses.length := List.length_filterMap_le _ _
        _ = sm.streams.toList.length := hanswers.length_eq.symm
        _ = sm.streams.keys.length := by
            rw [← HashMap.map_fst_toList, List.length_map]

/-- In every run, after `ShutdownSignal` at most one event follows for each upload slot and each
stream that was open, and one for `FinalCommit`; none of them starts an upload or removes a file.
Until the sink has returned, there is always a next event. -/
theorem shutdown_bounded {inputTopics : List (TopicConfig × List TopicName)} {fileRegistry : F}
    {keyGenerator : K} {config : StateMachineConfiguration} {loop : Loop} {e : Step F K}
    {actions : List Action}
    (hrun : Run (system (new inputTopics fileRegistry keyGenerator config))
      (after ++ .handled loop e actions :: h) s) (hrequest : e.request = .shutdownSignal) :
    after.length ≤ config.maxConcurrentUploads + e.pre.streams.keys.length + 1 ∧
      (∀ event ∈ after, CommitsOnly event) ∧
      ((∃ result, s.phase = .returned result) ∨ ∃ event s', SinkStep s event s') := by
  obtain ⟨s₁, hrun₁, hrest⟩ := remaining_of_run hrun
  obtain ⟨s₀, hrun₀, hstep⟩ := Run.cons_iff.1 hrun₁
  obtain ⟨hleaving₁, rfl⟩ := leaving_of_shutdown hstep hrequest
  obtain ⟨hleaving, hlength, honly⟩ := hrest hleaving₁
  refine ⟨?_, honly, drain_progress hleaving⟩
  have hslots := slots_of_run hrun₀
  have hbefore : BeforeShutdown h := beforeShutdown_of_run hrun₀ fun hleaving₀ => by
    cases hstep with
    | event => rcases hleaving₀ with hphase | ⟨result, hphase⟩ <;> cases hphase
  have hconfig : s₀.stateMachine.config = config := config_of_run (run_steps hrun₀)
  have hbounded := hslots.bounded hbefore
  have hagree := hslots.agree
  rw [hconfig] at hbounded
  cases hstep with
  | @event sm sm' pool branch _ _ flow commitError hsteps _ hloop =>
      have hstarted := started_at_shutdown (hsteps.cases_of hrequest)
        (eventLoop_started_sublist hloop)
      have hremaining : remaining ⟨sm', ↑(uploadsStarted actions) + pool, flow.afterEvent⟩ ≤
          (uploadsStarted actions).length + pool.card + 1 := by
        cases flow <;> simp [remaining, Flow.afterEvent]
      simp only [SlotsAgree, inFlight, Multiset.card_add] at hagree
      dsimp only at hbounded
      omega

/-- A stream is open at the shutdown; its upload completes in the drain and the offsets are
committed. -/
def finishedChoices : List (Ambient × Choice) :=
  calm (.final sampleAssignment none) :: drainedChoices none

theorem shutdown_bounded_sample :
    let h := (play openStart finishedChoices).1
    (∀ event ∈ h.take 2, CommitsOnly event) ∧ (h.take 2).length ≤ 2 + 1 + 1 ∧
      (play openStart finishedChoices).2.state.phase = .returned (.ok ()) := by
  intro h
  have hrun : Run (system openStart) (h.take 2 ++ h.drop 2)
      (play openStart finishedChoices).2.state := by
    rw [List.take_append_drop]
    exact run_play openStart finishedChoices
  obtain ⟨hlength, honly, -⟩ := shutdown_bounded hrun rfl
  exact ⟨honly, hlength, rfl⟩

end Sink

end S3Sink
