import S3Sink.StateMachine.Run
import Mathlib.Algebra.Order.Group.Multiset

/-!
# Sink — the event loop, the drain and the upload pool

`Sink::start` (`sink.rs`) as a transition system over the state machine and the pool of uploads
under way.  The pool is a multiset: an upload may complete at any time, successfully or not, in any
order.

* `forResponses` with `revokeResponse`, `eventLoopResponse`, `drainResponse` and `finalResponse` —
  the four loops over responses and what each of them carries out;
* `SinkStep` — one event; `Sink.system` — all runs;
* `steps`, `Sink.run_steps` — every run of the sink is a run of the state machine.
-/

namespace S3Sink

open TransitionSystem StateMachine

/-! ## Responses -/

inductive CommitMode
  | async
  | sync
  deriving DecidableEq, Repr

/-- What a loop over responses carries out. -/
inductive Action
  | upload (toUpload : ToUpload)
  | commit (tpl : TopicPartitionList) (mode : CommitMode)
  | removeFile (path : PathBuf)
  deriving DecidableEq

/-- How a response is done with: the loop goes on, the event loop breaks, or the sink returns. -/
inductive Flow
  | next
  | breakEventLoop
  | returnErr (error : SinkError)
  deriving DecidableEq

/-- `Sink::handle_commit`, with the error `consumer.commit` answers, if it does. -/
def handleCommit (commitError : Option SinkError) (tpl : TopicPartitionList) (mode : CommitMode) :
    List Action × Flow :=
  if 0 < tpl.count then
    match commitError with
    | none => ([.commit tpl mode], .next)
    | some error => ([.commit tpl mode], .returnErr error)
  else
    ([], .next)

/-- A response to `RevokePartitions`. -/
def revokeResponse : Response → List Action × Flow
  | .deleteFile path => ([.removeFile path], .next)
  | _ => ([], .next)

/-- A response to the request of the event loop. -/
def eventLoopResponse (commitError : Option SinkError) : Response → List Action × Flow
  | .recordConsumed => ([], .next)
  -- `uploader.upload` is pushed into the pool
  | .readyForUpload toUpload => ([.upload toUpload], .next)
  | .commitAsync tpl => handleCommit commitError tpl .async
  | .commitSync tpl => handleCommit commitError tpl .sync
  | .deleteFile path => ([.removeFile path], .next)
  | .drainAndShutdown => ([], .breakEventLoop)
  | .fatal error => ([], .returnErr error)

/-- A response to an upload completed during the drain. -/
def drainResponse : Response → List Action × Flow
  -- only `Fatal` is looked for
  | .fatal error => ([], .returnErr error)
  -- retries and deletions fall through
  | _ => ([], .next)

/-- A response to `FinalCommit`. -/
def finalResponse (commitError : Option SinkError) : Response → List Action × Flow
  | .commitSync tpl => handleCommit commitError tpl .sync
  | .fatal error => ([], .returnErr error)
  | _ => ([], .next)

/-- A loop over responses. -/
def forResponses (body : Response → List Action × Flow) : List Response → List Action × Flow
  | [] => ([], .next)
  | response :: responses =>
      -- `break` and `return` leave the loop, the responses behind them are dropped
      match body response with
      | (actions, .next) =>
          (actions ++ (forResponses body responses).1, (forResponses body responses).2)
      | (actions, flow) => (actions, flow)

/-- The uploads started, in order. -/
def uploadsStarted (actions : List Action) : List ToUpload :=
  actions.filterMap fun action =>
    match action with
    | .upload toUpload => some toUpload
    | _ => none

/-- The files handed to `fs::remove_file`, in order. -/
def filesRemoved (actions : List Action) : List PathBuf :=
  actions.filterMap fun action =>
    match action with
    | .removeFile path => some path
    | _ => none

/-! ## State -/

/-- What the uploader reports. -/
def uploadResult (toUpload : ToUpload) (failure : Option SinkError) : UploadResult :=
  match failure with
  | none => .success toUpload.intoParts.1 toUpload.intoParts.2
  | some error => .failure toUpload error

/-- The branch `select!` took. -/
inductive Polled
  | uploadTick
  | uploadCompletion (toUpload : ToUpload) (failure : Option SinkError)
  | commitTick (currentAssignment : TopicPartitionList)
  | record (nextRecord : Message)
  | shutdown

namespace Polled

def request : Polled → Request
  | .uploadTick => .uploadTick
  | .uploadCompletion toUpload failure => .uploadCompletion (uploadResult toUpload failure)
  | .commitTick currentAssignment => .commitTick currentAssignment
  | .record nextRecord => .processRecord nextRecord
  | .shutdown => .shutdownSignal

/-- The upload taken from the pool. -/
def taken : Polled → Multiset ToUpload
  | .uploadCompletion toUpload _ => {toUpload}
  | _ => 0

end Polled

inductive Phase
  /-- at the top of the event loop -/
  | eventLoop
  /-- a branch is taken, pending revocations are being processed -/
  | polled (branch : Polled)
  /-- in `drain_and_shutdown` -/
  | draining
  /-- `Sink::start` has returned -/
  | returned (result : Except SinkError Unit)

/-- Where a response loop of the event loop leads. -/
def Flow.afterEvent : Flow → Phase
  | .next => .eventLoop
  | .breakEventLoop => .draining
  | .returnErr error => .returned (.error error)

/-- Where a response loop of the drain leads. -/
def Flow.afterDrain : Flow → Phase
  | .returnErr error => .returned (.error error)
  | _ => .draining

/-- Where the last response loop leads. -/
def Flow.afterFinal : Flow → Phase
  | .returnErr error => .returned (.error error)
  | _ => .returned (.ok ())

structure SinkState (F K : Type) where
  stateMachine : StateMachine F K
  uploadPool : Multiset ToUpload
  phase : Phase

/-- Which of the four response loops ran. -/
inductive Loop
  | revoke
  | event
  | drain
  | final
  deriving DecidableEq, Repr

inductive SinkEvent (F K : Type)
  /-- `select!` takes a branch -/
  | poll (branch : Polled)
  /-- the consumer meets an unknown topic, and the event loop continues -/
  | skip
  /-- the consumer fails, and the sink returns its error -/
  | abort (error : SinkError)
  /-- a request is handled and the given actions are carried out -/
  | handled (loop : Loop) (step : Step F K) (actions : List Action)

/-! ## Runs -/

variable {F K : Type} [FileRegistry F] [KeyGenerator K]

/-- One event of the sink. -/
inductive SinkStep : SinkState F K → SinkEvent F K → SinkState F K → Prop
  | skip {sm : StateMachine F K} {pool : Multiset ToUpload} :
      SinkStep ⟨sm, pool, .eventLoop⟩ .skip ⟨sm, pool, .eventLoop⟩
  -- a completed upload leaves the pool when its branch is taken
  | poll {sm : StateMachine F K} {pool : Multiset ToUpload} (branch : Polled) :
      SinkStep ⟨sm, branch.taken + pool, .eventLoop⟩ (.poll branch) ⟨sm, pool, .polled branch⟩
  | abort {sm : StateMachine F K} {pool : Multiset ToUpload} (error : SinkError) :
      SinkStep ⟨sm, pool, .eventLoop⟩ (.abort error) ⟨sm, pool, .returned (.error error)⟩
  -- no assignment can be read, so `FinalCommit` is not handled
  | abortDrain {sm : StateMachine F K} (error : SinkError) :
      SinkStep ⟨sm, 0, .draining⟩ (.abort error) ⟨sm, 0, .returned (.error error)⟩
  -- pending revocations come before the request of the branch, any number of them
  | revoke {sm sm' : StateMachine F K} {pool : Multiset ToUpload} {branch : Polled}
      {partitions : List (String × Int)} {e : Step F K}
      (hstep : Steps sm e sm') (hrequest : e.request = .revokePartitions partitions) :
      SinkStep ⟨sm, pool, .polled branch⟩
        (.handled .revoke e (forResponses revokeResponse e.responses).1)
        ⟨sm', pool, .polled branch⟩
  | event {sm sm' : StateMachine F K} {pool : Multiset ToUpload} {branch : Polled}
      {e : Step F K} {actions : List Action} {flow : Flow} (commitError : Option SinkError)
      (hstep : Steps sm e sm') (hrequest : e.request = branch.request)
      (hloop : forResponses (eventLoopResponse commitError) e.responses = (actions, flow)) :
      SinkStep ⟨sm, pool, .polled branch⟩ (.handled .event e actions)
        ⟨sm', ↑(uploadsStarted actions) + pool, flow.afterEvent⟩
  -- `drain_and_shutdown` takes a completed upload from the pool
  | drain {sm sm' : StateMachine F K} {pool : Multiset ToUpload} {toUpload : ToUpload}
      {failure : Option SinkError} {e : Step F K} {actions : List Action} {flow : Flow}
      (hstep : Steps sm e sm')
      (hrequest : e.request = .uploadCompletion (uploadResult toUpload failure))
      (hloop : forResponses drainResponse e.responses = (actions, flow)) :
      SinkStep ⟨sm, toUpload ::ₘ pool, .draining⟩ (.handled .drain e actions)
        ⟨sm', ↑(uploadsStarted actions) + pool, flow.afterDrain⟩
  -- the pool has run empty
  | final {sm sm' : StateMachine F K} {currentAssignment : TopicPartitionList} {e : Step F K}
      {actions : List Action} {flow : Flow} (commitError : Option SinkError)
      (hstep : Steps sm e sm') (hrequest : e.request = .finalCommit currentAssignment)
      (hloop : forResponses (finalResponse commitError) e.responses = (actions, flow)) :
      SinkStep ⟨sm, 0, .draining⟩ (.handled .final e actions)
        ⟨sm', ↑(uploadsStarted actions) + 0, flow.afterFinal⟩

namespace Sink

/-- The sink, started with the given state machine and an empty pool. -/
def system (start : StateMachine F K) : TransitionSystem (SinkState F K) (SinkEvent F K) where
  init s := s = ⟨start, 0, .eventLoop⟩
  step := SinkStep

/-- The step of the state machine in an event. -/
def step? : SinkEvent F K → Option (Step F K)
  | .handled _ e _ => some e
  | _ => none

/-- The history of the state machine in a history of the sink. -/
def steps (h : List (SinkEvent F K)) : List (Step F K) :=
  h.filterMap step?

omit [FileRegistry F] [KeyGenerator K] in
theorem steps_handled (loop : Loop) (e : Step F K) (actions : List Action)
    (h : List (SinkEvent F K)) : steps (.handled loop e actions :: h) = e :: steps h := rfl

omit [FileRegistry F] [KeyGenerator K] in
theorem steps_idle {event : SinkEvent F K} (hidle : step? event = none)
    (h : List (SinkEvent F K)) : steps (event :: h) = steps h :=
  List.filterMap_cons_none hidle

/-- A run of the sink is a run of its state machine. -/
theorem run_steps {start : StateMachine F K} {h : List (SinkEvent F K)} {s : SinkState F K}
    (hrun : Run (system start) h s) : Run (StateMachine.system start) (steps h) s.stateMachine := by
  -- an event is matched by the step it carries, or by none
  obtain ⟨sm, hsm, heq⟩ := Run.simulate (N := StateMachine.system start)
    (R := fun s sm => s.stateMachine = sm) (f := step?)
    (fun s hinit => ⟨start, rfl, by rw [hinit]⟩)
    (fun s e s' sm hstep heq => by
      subst heq
      cases hstep with
      | skip => rfl
      | poll => rfl
      | abort => rfl
      | abortDrain => rfl
      | revoke hstep _ => exact ⟨_, hstep, rfl⟩
      | event _ hstep _ _ => exact ⟨_, hstep, rfl⟩
      | drain hstep _ _ => exact ⟨_, hstep, rfl⟩
      | final _ hstep _ _ => exact ⟨_, hstep, rfl⟩)
    hrun
  rw [heq]
  exact hsm

/-! ## Concrete runs -/

/-- What happens next: a branch becomes ready, an upload of the pool completes, partitions are
revoked, or the pending request is handled. -/
inductive Choice
  | ready (branch : Polled)
  | complete (index : Nat) (failure : Option SinkError)
  | revoke (partitions : List (String × Int))
  | handle (commitError : Option SinkError)
  | final (currentAssignment : TopicPartitionList) (commitError : Option SinkError)

/-- A state of the sink with its pool listed. -/
structure Play (F K : Type) where
  stateMachine : StateMachine F K
  uploadPool : List ToUpload
  phase : Phase

def Play.state (s : Play F K) : SinkState F K :=
  ⟨s.stateMachine, s.uploadPool, s.phase⟩

/-- Carry out a choice, if it is possible. -/
def advance (ambient : Ambient) (choice : Choice) (s : Play F K) :
    Option (SinkEvent F K × Play F K) :=
  match s.phase, choice with
  -- a completion is chosen by its place in the pool
  | .eventLoop, .ready (.uploadCompletion _ _) => none
  | .eventLoop, .ready branch => some (.poll branch, { s with phase := .polled branch })
  | .eventLoop, .complete index failure =>
      s.uploadPool[index]?.map fun toUpload =>
        (.poll (.uploadCompletion toUpload failure),
          { s with
            uploadPool := s.uploadPool.eraseIdx index
            phase := .polled (.uploadCompletion toUpload failure) })
  | .polled _, .revoke partitions =>
      let e := stepOn s.stateMachine (ambient, .revokePartitions partitions)
      some (.handled .revoke e (forResponses revokeResponse e.responses).1,
        { s with stateMachine := e.post })
  | .polled branch, .handle commitError =>
      let e := stepOn s.stateMachine (ambient, branch.request)
      let (actions, flow) := forResponses (eventLoopResponse commitError) e.responses
      some (.handled .event e actions,
        ⟨e.post, uploadsStarted actions ++ s.uploadPool, flow.afterEvent⟩)
  | .draining, .complete index failure =>
      s.uploadPool[index]?.map fun toUpload =>
        let e := stepOn s.stateMachine (ambient, .uploadCompletion (uploadResult toUpload failure))
        let (actions, flow) := forResponses drainResponse e.responses
        (.handled .drain e actions,
          ⟨e.post, uploadsStarted actions ++ s.uploadPool.eraseIdx index, flow.afterDrain⟩)
  | .draining, .final currentAssignment commitError =>
      if s.uploadPool = [] then
        let e := stepOn s.stateMachine (ambient, .finalCommit currentAssignment)
        let (actions, flow) := forResponses (finalResponse commitError) e.responses
        some (.handled .final e actions, ⟨e.post, uploadsStarted actions ++ [], flow.afterFinal⟩)
      else
        none
  | _, _ => none

theorem cons_eraseIdx {pool : List ToUpload} {index : Nat} {toUpload : ToUpload}
    (hget : pool[index]? = some toUpload) :
    (pool : Multiset ToUpload) = toUpload ::ₘ ↑(pool.eraseIdx index) := by
  obtain ⟨hlt, rfl⟩ := List.getElem?_eq_some_iff.1 hget
  exact (Multiset.coe_eq_coe.2 (List.getElem_cons_eraseIdx_perm hlt)).symm

theorem sinkStep_advance {ambient : Ambient} {choice : Choice} {s s' : Play F K}
    {event : SinkEvent F K} (h : advance ambient choice s = some (event, s')) :
    SinkStep s.state event s'.state := by
  obtain ⟨sm, pool, phase⟩ := s
  have hsteps : ∀ input, Steps sm (stepOn sm input) (stepOn sm input).post :=
    fun input => ⟨Reordered.refl sm, rfl, rfl⟩
  cases phase with
  | eventLoop =>
      cases choice with
      | ready branch =>
          -- these branches take nothing from the pool
          have hzero : ∀ {branch : Polled}, branch.taken = 0 →
              SinkStep (⟨sm, ↑pool, .eventLoop⟩ : SinkState F K) (.poll branch)
                ⟨sm, ↑pool, .polled branch⟩ := by
            intro branch htaken
            have hpoll : SinkStep ⟨sm, branch.taken + ↑pool, .eventLoop⟩ _ _ := SinkStep.poll branch
            rwa [htaken, zero_add] at hpoll
          cases branch with
          | uploadCompletion toUpload failure => cases h
          | uploadTick => cases h; exact hzero rfl
          | commitTick currentAssignment => cases h; exact hzero rfl
          | record nextRecord => cases h; exact hzero rfl
          | shutdown => cases h; exact hzero rfl
      | complete index failure =>
          obtain ⟨toUpload, hget, heq⟩ := Option.map_eq_some_iff.1 h
          cases heq
          have hpoll :
              SinkStep ⟨sm, Polled.taken (.uploadCompletion toUpload failure) +
                ↑(pool.eraseIdx index), .eventLoop⟩ _ _ :=
            SinkStep.poll (.uploadCompletion toUpload failure)
          have hpool : Polled.taken (.uploadCompletion toUpload failure) +
              ↑(pool.eraseIdx index) = (pool : Multiset ToUpload) :=
            (Multiset.singleton_add _ _).trans (cons_eraseIdx hget).symm
          rw [hpool] at hpoll
          exact hpoll
      | _ => cases h
  | polled branch =>
      cases choice with
      | revoke partitions =>
          cases h
          exact SinkStep.revoke (hsteps _) rfl
      | handle commitError =>
          cases h
          exact SinkStep.event commitError (hsteps _) rfl rfl
      | _ => cases h
  | draining =>
      cases choice with
      | complete index failure =>
          obtain ⟨toUpload, hget, heq⟩ := Option.map_eq_some_iff.1 h
          cases heq
          change SinkStep (⟨sm, ↑pool, .draining⟩ : SinkState F K) _ _
          rw [cons_eraseIdx hget]
          exact SinkStep.drain (hsteps _) rfl rfl
      | final currentAssignment commitError =>
          by_cases hpool : pool = []
          · subst hpool
            cases h
            exact SinkStep.final commitError (hsteps _) rfl rfl
          · simp [advance, hpool] at h
      | _ => cases h
  | returned result => cases choice <;> cases h

/-- Carry out the choices, the newest listed first; an impossible one is passed over. -/
def play (start : StateMachine F K) : List (Ambient × Choice) →
    List (SinkEvent F K) × Play F K
  | [] => ([], ⟨start, [], .eventLoop⟩)
  | (ambient, choice) :: choices =>
      let (h, s) := play start choices
      match advance ambient choice s with
      | some (event, s') => (event :: h, s')
      | none => (h, s)

theorem run_play (start : StateMachine F K) : ∀ choices : List (Ambient × Choice),
    Run (system start) (play start choices).1 (play start choices).2.state
  | [] => Run.start rfl
  | (ambient, choice) :: choices => by
      have hrun := run_play start choices
      rw [play]
      cases hadvance : advance ambient choice (play start choices).2 with
      | none => simpa only [hadvance] using hrun
      | some out =>
          simp only [hadvance]
          exact Run.step hrun (sinkStep_advance hadvance)

/-- Time stands still and no offset is refused. -/
def calm (choice : Choice) : Ambient × Choice :=
  (⟨0, fun _ _ => none⟩, choice)

/-- A record is consumed and sealed, so that its upload is under way. -/
def sealedChoices : List (Ambient × Choice) :=
  [calm (.handle none), calm (.ready (.record (sampleRecord (sampleOffset 0))))]

/-- The shutdown begins with one upload under way, which completes in the drain. -/
def drainedChoices (failure : Option SinkError) : List (Ambient × Choice) :=
  [calm (.complete 0 failure), calm (.handle none), calm (.ready .shutdown)] ++ sealedChoices

end Sink

end S3Sink
