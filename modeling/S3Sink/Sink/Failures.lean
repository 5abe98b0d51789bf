import S3Sink.Sink.Retries
import S3Sink.StateMachine.OpenFiles

/-!
# Failures — what can end the sink

`Sink::start` returns an error as soon as one is answered.  Each error has a cause outside the sink:
a record that cannot be handled, a file the disk or S3 refuses, an answer of Kafka.  If none of the
former occurs, only Kafka can end the sink.

* `Untroubled` — nothing the state machine handles gives a reason to stop;
* `Steps.noFatal` — one request;
* `only_kafka_stops` — whole runs.
-/

namespace S3Sink

open TransitionSystem

namespace StateMachine

/-! ## Commit requests -/

section Commits

variable {F K : Type} {ambient : Ambient} {currentAssignment : TopicPartitionList}

/-- As long as rdkafka accepts every offset, the loop over the partitions runs to its end. -/
theorem scanPartitions_accepted (haccepts : ∀ p n, ambient.refuses p n = none) :
    ∀ (partitions : List (TopicId × BTreeSet Offset)) (scan : CommitScan),
      (scanPartitions ambient currentAssignment partitions scan).1 = none
  | [], _ => rfl
  | (key, offsets) :: partitions, scan => by
      have hpartition : ∃ scan', scanPartition ambient currentAssignment key offsets scan =
          .ok scan' := by
        unfold scanPartition
        split
        · exact ⟨_, rfl⟩
        · cases scan.offsetsWatermark.get? key with
          | none => exact ⟨_, rfl⟩
          | some watermark =>
              dsimp only
              split
              · rw [haccepts]
                exact ⟨_, rfl⟩
              · exact ⟨_, rfl⟩
      obtain ⟨scan', hscan⟩ := hpartition
      rw [scanPartitions, hscan]
      exact scanPartitions_accepted haccepts partitions scan'

variable [FileRegistry F] [KeyGenerator K] {sm sm' : StateMachine F K} {e : Step F K}

theorem Steps.commit_noFatal (hstep : Steps sm e sm')
    (hrequest : e.request = .commitTick currentAssignment ∨
      e.request = .finalCommit currentAssignment)
    (haccepts : ∀ p n, e.ambient.refuses p n = none) : NoFatal e.responses := by
  -- the list is built from the maps of the state before, whatever the buffer holds
  have hmade : ∀ sm : StateMachine F K, ∃ tpl sm',
      sm.makeTopicPartitionList e.ambient currentAssignment = (.ok tpl, sm') ∧
        sm'.responses = sm.responses := by
    intro sm
    have hscan : (scanPartitions e.ambient currentAssignment sm.offsetsUploaded.toList
        ⟨TopicPartitionList.new, [], sm.offsetsUploaded, sm.offsetsWatermark⟩).1 = none :=
      scanPartitions_accepted haccepts _ _
    unfold makeTopicPartitionList
    generalize scanPartitions _ _ _ _ = out at hscan
    obtain ⟨error?, scan⟩ := out
    cases hscan
    exact ⟨_, _, rfl, rfl⟩
  obtain ⟨tpl, sm₁, hlist, hresponses⟩ := hmade { e.pre with responses := [] }
  have hanswers : (handleInner e.ambient e.request e.pre).1 = e.responses :=
    congrArg Prod.fst hstep.handled
  intro error hmem
  rw [← hanswers] at hmem
  rcases hrequest with hrequest | hrequest
  · simp [handleInner, dispatch, hrequest, handleCommitTick, hlist, push, hresponses] at hmem
  · simp [handleInner, dispatch, hrequest, handleFinalCommit, hlist, push, hresponses] at hmem

end Commits

end StateMachine

namespace Sink

open StateMachine

/-! ## One request -/

variable {K : Type} [KeyGenerator K]

/-- Nothing among the requests handled is a reason to stop: records are decodable, those without a
data body belong to open streams, rdkafka accepts every offset, and no upload fails more often than
it may be retried. -/
structure Untroubled (m : Nat) (h : List (Step DiskFileRegistry K)) : Prop where
  decodable : ∀ e ∈ h, Decodable e
  skips : ∀ e ∈ h, SkipsIntoOpenStream e
  accepted : ∀ e ∈ h, ∀ p n, e.ambient.refuses p n = none
  retried : ∀ path, failures path (requests h) ≤ m

omit [KeyGenerator K] in
theorem Untroubled.tail {m : Nat} {e : Step DiskFileRegistry K} {h : List (Step DiskFileRegistry K)}
    (huntroubled : Untroubled m (e :: h)) : Untroubled m h where
  decodable e' he' := huntroubled.decodable e' (List.mem_cons_of_mem _ he')
  skips e' he' := huntroubled.skips e' (List.mem_cons_of_mem _ he')
  accepted e' he' := huntroubled.accepted e' (List.mem_cons_of_mem _ he')
  retried path := by
    have hle := huntroubled.retried path
    rw [failures_cons] at hle
    exact (Nat.le_add_left _ _).trans hle

variable {inputTopics : List (TopicConfig × List TopicName)} {directory : PathBuf}
variable {os : OperatingSystem} {keyGenerator : K} {config : StateMachineConfiguration}
variable {h : List (SinkEvent DiskFileRegistry K)} {s s' : SinkState DiskFileRegistry K}
variable {e : Step DiskFileRegistry K} {actions : List Action}

/-- A request is not fatal if nothing about it is a reason to stop. -/
theorem noFatal_of_untroubled
    (hrun : Run (system (new inputTopics (DiskFileRegistry.new directory os) keyGenerator config))
      h s) (hfree : FatalFree (steps h)) (htaken : Taken s e actions s')
    (hos : e.pre.fileRegistry.os.NeverFails) (hagree : KeysAgree e.pre)
    (huntroubled : Untroubled config.maxUploadsRetry (e :: steps h)) : NoFatal e.responses := by
  have hseals : SealsStreams e.request → NoFatal e.responses :=
    htaken.steps.cases.noFatal hos (huntroubled.decodable e List.mem_cons_self) hagree
  cases hrequest : e.request with
  | processRecord record => exact hseals (hrequest ▸ trivial)
  | uploadTick => exact hseals (hrequest ▸ trivial)
  | shutdownSignal => exact hseals (hrequest ▸ trivial)
  | commitTick currentAssignment =>
      exact htaken.steps.commit_noFatal (Or.inl hrequest)
        (huntroubled.accepted e List.mem_cons_self)
  | finalCommit currentAssignment =>
      exact htaken.steps.commit_noFatal (Or.inr hrequest)
        (huntroubled.accepted e List.mem_cons_self)
  | revokePartitions partitions =>
      obtain ⟨paths, hpaths⟩ := (htaken.steps.cases_of hrequest).revoke_responses
      intro error hmem
      rw [hpaths] at hmem
      simp at hmem
  | uploadCompletion result =>
      rcases (budget_of_run hrun hfree).fatal htaken hrequest with
        ⟨⟨u, _, -, hspent⟩, -⟩ | ⟨-, hnot⟩
      -- the failure that exceeds the budget does not occur
      · exact absurd (huntroubled.retried u.path) (by omega)
      · exact hnot

/-! ## Whole runs -/

/-- No `Fatal` is answered in a run in which nothing is a reason to stop. -/
theorem fatalFree_of_untroubled
    (hrun : Run (system (new inputTopics (DiskFileRegistry.new directory os) keyGenerator config))
      h s) (hos : os.NeverFails) (huntroubled : Untroubled config.maxUploadsRetry (steps h)) :
    FatalFree (steps h) ∧ KeysAgree s.stateMachine ∧ s.stateMachine.fileRegistry.os = os := by
  induction hrun with
  | start hinit =>
      cases hinit
      exact ⟨fun e he => absurd he List.not_mem_nil,
        fun id => iff_of_false (AList.notMem_empty id) (AList.notMem_empty id), rfl⟩
  | @step h s s' event hprev hstep ih =>
      cases hevent : step? event with
      | none =>
          obtain ⟨hsm, -⟩ := sinkStep_idle hstep hevent
          rw [steps_idle hevent] at huntroubled ⊢
          rw [hsm]
          exact ih huntroubled
      | some e =>
          cases event with
          | handled loop e actions =>
              obtain ⟨hfree, hagree, hsame⟩ := ih huntroubled.tail
              have htaken := sinkStep_taken hstep
              have hreordered := htaken.steps.reordered
              have hos' : e.pre.fileRegistry.os.NeverFails := by
                rw [hreordered.fileRegistry, hsame]
                exact hos
              have hpre : KeysAgree e.pre := by
                intro id
                rw [hreordered.fileRegistry, ← AList.mem_of_perm hreordered.streams]
                exact hagree id
              have hnot := noFatal_of_untroubled hprev hfree htaken hos' hpre huntroubled
              refine ⟨?_, ?_,
                htaken.steps.registry (DiskFileRegistry.registryInvariant_os os) hsame⟩
              · intro e' he'
                rcases List.mem_cons.1 he' with rfl | he'
                · exact hnot
                · exact hfree e' he'
              · rw [htaken.steps.post]
                exact htaken.steps.cases.keysAgree hos' (fun _ => hnot)
                  (huntroubled.skips e List.mem_cons_self) hpre
          | _ => cases hevent

/-- The last action is a commit, and `consumer.commit` refuses it with the error. -/
def CommitRefused (commitError : Option SinkError) (error : SinkError) (actions : List Action) :
    Prop :=
  commitError = some error ∧ ∃ tpl mode, actions.getLast? = some (.commit tpl mode)

/-- A loop over responses without `Fatal` returns an error only at a commit that was refused with
it. -/
theorem commit_of_returnErr {commitError : Option SinkError}
    {body : Response → List Action × Flow}
    (hbody : ∀ response error, (body response).2 = .returnErr error →
      (∃ error, response = .fatal error) ∨ CommitRefused commitError error (body response).1)
    {responses : List Response} (hfree : NoFatal responses) {error : SinkError}
    (hloop : forResponses body responses = (actions, .returnErr error)) :
    CommitRefused commitError error actions := by
  rcases forResponses_cases body responses with ⟨heq, -⟩ | ⟨before, response, after, rfl, -, -, heq⟩
  · rw [hloop] at heq
    cases heq
  · rw [hloop, Prod.mk.injEq] at heq
    obtain ⟨rfl, hflow⟩ := heq
    rcases hbody response error hflow.symm with ⟨error', rfl⟩ | ⟨hrefused, tpl, mode, hcommit⟩
    · exact absurd (by simp) (hfree error')
    · exact ⟨hrefused, tpl, mode, by rw [List.getLast?_append, hcommit, Option.some_or]⟩

theorem commit_of_handleCommit {commitError : Option SinkError} {tpl : TopicPartitionList}
    {mode : CommitMode} {error : SinkError}
    (hflow : (handleCommit commitError tpl mode).2 = .returnErr error) :
    CommitRefused commitError error (handleCommit commitError tpl mode).1 := by
  unfold handleCommit at hflow ⊢
  split at hflow
  · next hcount =>
      rw [if_pos hcount]
      cases commitError with
      | none => cases hflow
      | some commitError =>
          cases hflow
          exact ⟨rfl, tpl, mode, rfl⟩
  · cases hflow

theorem refused_of_eventLoop {commitError : Option SinkError} {responses : List Response}
    (hfree : NoFatal responses) {error : SinkError}
    (hloop : forResponses (eventLoopResponse commitError) responses =
      (actions, .returnErr error)) : CommitRefused commitError error actions := by
  refine commit_of_returnErr (fun response error hflow => ?_) hfree hloop
  cases response with
  | fatal error => exact Or.inl ⟨error, rfl⟩
  | commitAsync tpl => exact Or.inr (commit_of_handleCommit hflow)
  | commitSync tpl => exact Or.inr (commit_of_handleCommit hflow)
  | _ => cases hflow

theorem refused_of_final {commitError : Option SinkError} {responses : List Response}
    (hfree : NoFatal responses) {error : SinkError}
    (hloop : forResponses (finalResponse commitError) responses =
      (actions, .returnErr error)) : CommitRefused commitError error actions := by
  refine commit_of_returnErr (fun response error hflow => ?_) hfree hloop
  cases response with
  | fatal error => exact Or.inl ⟨error, rfl⟩
  | commitSync tpl => exact Or.inr (commit_of_handleCommit hflow)
  | _ => cases hflow

/-- Nothing is committed in the drain, so only `Fatal` ends it. -/
theorem not_returnErr_of_drain {responses : List Response} (hfree : NoFatal responses)
    {error : SinkError} :
    forResponses drainResponse responses ≠ (actions, .returnErr error) := by
  intro hloop
  have hrefused : CommitRefused none error actions := by
    refine commit_of_returnErr (fun response error hflow => ?_) hfree hloop
    cases response with
    | fatal error => exact Or.inl ⟨error, rfl⟩
    | _ => cases hflow
  cases hrefused.1

/-- The event hands an error of Kafka to the sink: the consumer has failed with it, or the last
action was a commit, and the response loop ends so if the commit is refused with the error. -/
def OfKafka (error : SinkError) : SinkEvent DiskFileRegistry K → Prop
  | .abort consumerError => consumerError = error
  | .handled loop e actions =>
      (∃ tpl mode, actions.getLast? = some (.commit tpl mode)) ∧
        match loop with
        | .event => forResponses (eventLoopResponse (some error)) e.responses =
            (actions, .returnErr error)
        | .final => forResponses (finalResponse (some error)) e.responses =
            (actions, .returnErr error)
        | _ => False
  | _ => False

/-- In every run in which the disk never fails and nothing that is handled is a reason to stop, no
`Fatal` is answered, and if the sink has returned an error its last event was one of Kafka. -/
theorem only_kafka_stops
    (hrun : Run (system (new inputTopics (DiskFileRegistry.new directory os) keyGenerator config))
      h s) (hos : os.NeverFails) (huntroubled : Untroubled config.maxUploadsRetry (steps h)) :
    FatalFree (steps h) ∧ ∀ error, s.phase = .returned (.error error) →
      ∃ event earlier, h = event :: earlier ∧ OfKafka error event := by
  obtain ⟨hfree, -, -⟩ := fatalFree_of_untroubled hrun hos huntroubled
  refine ⟨hfree, fun error hreturned => ?_⟩
  cases hrun with
  | start hinit =>
      cases hinit
      cases hreturned
  | @step h s s' event hprev hstep =>
      refine ⟨event, h, rfl, ?_⟩
      cases hstep with
      | abort error' =>
          cases hreturned
          rfl
      | abortDrain error' =>
          cases hreturned
          rfl
      | @event _ _ _ _ _ actions flow commitError hsteps hrequest hloop =>
          cases flow with
          | returnErr error' =>
              cases hreturned
              obtain ⟨rfl, hcommit⟩ := refused_of_eventLoop hfree.head hloop
              exact ⟨hcommit, hloop⟩
          | _ => cases hreturned
      | @drain _ _ _ _ _ _ actions flow hsteps hrequest hloop =>
          cases flow with
          | returnErr error' =>
              exact absurd hloop (not_returnErr_of_drain hfree.head)
          | _ => cases hreturned
      | @final _ _ _ _ actions flow commitError hsteps hrequest hloop =>
          cases flow with
          | returnErr error' =>
              cases hreturned
              obtain ⟨rfl, hcommit⟩ := refused_of_final hfree.head hloop
              exact ⟨hcommit, hloop⟩
          | _ => cases hreturned
      | _ => cases hreturned

/-- The file of `sealedChoices` fails once, is uploaded by its retry, and the commit is refused. -/
def refusedChoices : List (Ambient × Choice) :=
  [calm (.handle (some (.kafka "refused"))), calm (.ready (.commitTick sampleAssignment)),
    calm (.handle none), calm (.complete 0 none)] ++ failedChoices ++ sealedChoices

theorem only_kafka_stops_sample :
    (play sampleStart refusedChoices).2.state.phase = .returned (.error (.kafka "refused")) ∧
      FatalFree (steps (play sampleStart refusedChoices).1) ∧
      ∃ event earlier, (play sampleStart refusedChoices).1 = event :: earlier ∧
        OfKafka (.kafka "refused") event := by
  have hreturned :
      (play sampleStart refusedChoices).2.state.phase = .returned (.error (.kafka "refused")) := rfl
  have huntroubled : Untroubled 1 (steps (play sampleStart refusedChoices).1) := by
    -- the one record is handled first, so it stands last
    have hsteps : ∀ e ∈ steps (play sampleStart refusedChoices).1,
        (∀ p n, e.ambient.refuses p n = none) ∧ ∀ record, e.request = .processRecord record →
          e.pre = sampleStart ∧ record = sampleRecord (sampleOffset 0) := by
      intro e he
      rcases List.mem_cons.1 he with rfl | he
      · exact ⟨fun _ _ => rfl, fun _ hrequest => by cases hrequest⟩
      rcases List.mem_cons.1 he with rfl | he
      · exact ⟨fun _ _ => rfl, fun _ hrequest => by cases hrequest⟩
      rcases List.mem_cons.1 he with rfl | he
      · exact ⟨fun _ _ => rfl, fun _ hrequest => by cases hrequest⟩
      obtain rfl := List.mem_singleton.1 he
      refine ⟨fun _ _ => rfl, fun _ hrequest => ?_⟩
      cases hrequest
      exact ⟨rfl, rfl⟩
    constructor
    · intro e he record hrequest
      obtain ⟨hpre, rfl⟩ := (hsteps e he).2 record hrequest
      rw [hpre]
      exact ⟨_, _, rfl, rfl⟩
    · intro e he record metadata hrequest hmetadata hnone
      obtain ⟨hpre, rfl⟩ := (hsteps e he).2 record hrequest
      rw [hpre] at hmetadata
      obtain rfl := Option.some.inj hmetadata
      cases hnone
    · exact fun e he => (hsteps e he).1
    · intro path
      exact (List.count_le_length (a := path)
        (l := (requests (steps (play sampleStart refusedChoices).1)).flatMap Request.failed)).trans
        (by decide)
  obtain ⟨hfree, hkafka⟩ := only_kafka_stops (run_play sampleStart refusedChoices)
    OperatingSystem.faultless_neverFails huntroubled
  exact ⟨hreturned, hfree, hkafka _ hreturned⟩

end Sink

end S3Sink
