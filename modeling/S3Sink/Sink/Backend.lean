import S3Sink.Sink
import S3Sink.StateMachine.Backend

/-!
# Backend — the sink over another file registry

The sink reaches the file registry through its state machine only, so it goes on alike over a
registry that answers alike.

* `SimilarSink`, `AlikeEvent` — two sinks that differ in the registry, and what they do;
* `backend_of_run` — a run over one registry is a run over the other.
-/

namespace S3Sink
namespace Sink

open TransitionSystem StateMachine

variable {F F' K : Type}

/-- The two sinks differ in the registries of their state machines only. -/
structure SimilarSink (R : F → F' → Prop) (s : SinkState F K) (s' : SinkState F' K) : Prop where
  stateMachine : Similar R s.stateMachine s'.stateMachine
  uploadPool : s'.uploadPool = s.uploadPool
  phase : s'.phase = s.phase

/-- The same happened, and the state machine answered the same way. -/
inductive AlikeEvent : SinkEvent F K → SinkEvent F' K → Prop
  | poll (branch : Polled) : AlikeEvent (.poll branch) (.poll branch)
  | skip : AlikeEvent .skip .skip
  | abort (error : SinkError) : AlikeEvent (.abort error) (.abort error)
  | handled (loop : Loop) {e : Step F K} {e' : Step F' K} (actions : List Action)
      (he : Alike e e') : AlikeEvent (.handled loop e actions) (.handled loop e' actions)

theorem steps_alike {h : List (SinkEvent F K)} {h' : List (SinkEvent F' K)}
    (halike : List.Forall₂ AlikeEvent h h') : List.Forall₂ Alike (steps h) (steps h') := by
  induction halike with
  | nil => exact List.Forall₂.nil
  | cons hevent _ ih =>
      cases hevent with
      | handled loop actions he => exact List.Forall₂.cons he ih
      | _ => exact ih

variable [FileRegistry F] [FileRegistry F'] [KeyGenerator K]

theorem sinkStep_registry {P : F → Prop} (hP : RegistryInvariant P) {s s' : SinkState F K}
    {event : SinkEvent F K} (h : SinkStep s event s') (hs : P s.stateMachine.fileRegistry) :
    P s'.stateMachine.fileRegistry := by
  cases h with
  | skip => exact hs
  | poll => exact hs
  | abort => exact hs
  | abortDrain => exact hs
  | revoke hstep _ => exact Steps.registry hP hstep hs
  | event _ hstep _ _ => exact Steps.registry hP hstep hs
  | drain hstep _ _ => exact Steps.registry hP hstep hs
  | final _ hstep _ _ => exact Steps.registry hP hstep hs

variable {Good : F → Prop} {R : F → F' → Prop}

theorem sinkStep_similar (hsim : RegistrySimulation Good R) {s₀ s : SinkState F K}
    {s₀' : SinkState F' K} {event : SinkEvent F K} (hstep : SinkStep s₀ event s)
    (h : SimilarSink R s₀ s₀') (hgood : Good s.stateMachine.fileRegistry) :
    ∃ event' s', SinkStep s₀' event' s' ∧ SimilarSink R s s' ∧ AlikeEvent event event' := by
  obtain ⟨sm, pool, phase⟩ := s₀'
  obtain ⟨hsm, rfl, rfl⟩ := h
  cases hstep with
  | skip => exact ⟨.skip, _, SinkStep.skip, ⟨hsm, rfl, rfl⟩, AlikeEvent.skip⟩
  | poll branch =>
      exact ⟨.poll branch, _, SinkStep.poll branch, ⟨hsm, rfl, rfl⟩, AlikeEvent.poll branch⟩
  | abort error =>
      exact ⟨.abort error, _, SinkStep.abort error, ⟨hsm, rfl, rfl⟩, AlikeEvent.abort error⟩
  | abortDrain error =>
      exact ⟨.abort error, _, SinkStep.abortDrain error, ⟨hsm, rfl, rfl⟩, AlikeEvent.abort error⟩
  | revoke hstep hrequest =>
      obtain ⟨e', sm', hstep', hsm', he⟩ := Steps.similar hsim hstep hsm hgood
      refine ⟨_, _, SinkStep.revoke hstep' (he.request.trans hrequest), ⟨hsm', rfl, rfl⟩, ?_⟩
      rw [he.responses]
      exact AlikeEvent.handled _ _ he
  | event commitError hstep hrequest hloop =>
      obtain ⟨e', sm', hstep', hsm', he⟩ := Steps.similar hsim hstep hsm hgood
      exact ⟨_, _, SinkStep.event commitError hstep' (he.request.trans hrequest)
        (he.responses ▸ hloop), ⟨hsm', rfl, rfl⟩, AlikeEvent.handled _ _ he⟩
  | drain hstep hrequest hloop =>
      obtain ⟨e', sm', hstep', hsm', he⟩ := Steps.similar hsim hstep hsm hgood
      exact ⟨_, _, SinkStep.drain hstep' (he.request.trans hrequest) (he.responses ▸ hloop),
        ⟨hsm', rfl, rfl⟩, AlikeEvent.handled _ _ he⟩
  | final commitError hstep hrequest hloop =>
      obtain ⟨e', sm', hstep', hsm', he⟩ := Steps.similar hsim hstep hsm hgood
      exact ⟨_, _, SinkStep.final commitError hstep' (he.request.trans hrequest)
        (he.responses ▸ hloop), ⟨hsm', rfl, rfl⟩, AlikeEvent.handled _ _ he⟩

/-- Every run of the sink over a registry is a run of it over one that answers alike. -/
theorem backend_of_run (hsim : RegistrySimulation Good R) {start : StateMachine F K}
    {start' : StateMachine F' K} {h : List (SinkEvent F K)} {s : SinkState F K}
    (hstart : Similar R start start') (hrun : Run (system start) h s)
    (hgood : Good s.stateMachine.fileRegistry) :
    ∃ h' s', Run (system start') h' s' ∧ SimilarSink R s s' ∧ List.Forall₂ AlikeEvent h h' := by
  refine Run.lockstep (P := fun s => Good s.stateMachine.fileRegistry) ?_ ?_ ?_ hrun hgood
  · intro s hinit
    rw [hinit]
    exact ⟨⟨start', 0, .eventLoop⟩, rfl, hstart, rfl, rfl⟩
  · intro s event s' hstep hgood
    exact Classical.not_not.1 fun hbad => sinkStep_registry hsim.good hstep hbad hgood
  · intro s event s' s₂ hstep hgood hsimilar
    exact sinkStep_similar hsim hstep hsimilar hgood

end Sink
end S3Sink
