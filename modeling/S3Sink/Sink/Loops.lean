import S3Sink.Sink

/-!
# Loops — what the response loops carry out

A loop over responses carries out the actions of every response up to the first one that stops it.
The event loop carries out everything it is answered unless it meets `Fatal` or a failed commit; the
drain carries out nothing.
-/

namespace S3Sink

open TransitionSystem StateMachine

/-- The actions of a list of responses, none of which stops the loop. -/
def allActions (body : Response → List Action × Flow) (responses : List Response) : List Action :=
  responses.flatMap fun response => (body response).1

/-- A loop runs to its end, or up to the first response that stops it. -/
theorem forResponses_cases (body : Response → List Action × Flow) : ∀ responses : List Response,
    (forResponses body responses = (allActions body responses, .next) ∧
      ∀ response ∈ responses, (body response).2 = .next) ∨
    ∃ before response after, responses = before ++ response :: after ∧
      (∀ r ∈ before, (body r).2 = .next) ∧ (body response).2 ≠ .next ∧
      forResponses body responses =
        (allActions body before ++ (body response).1, (body response).2)
  | [] => Or.inl ⟨rfl, by simp⟩
  | response :: responses => by
      cases hbody : body response with
      | mk actions flow =>
          by_cases hflow : flow = .next
          · subst hflow
            rcases forResponses_cases body responses with ⟨heq, hnext⟩ | ⟨before, r, after, rfl,
              hbefore, hstop, heq⟩
            · refine Or.inl ⟨by simp [forResponses, hbody, heq, allActions], ?_⟩
              intro r hr
              rcases List.mem_cons.1 hr with rfl | hr
              · rw [hbody]
              · exact hnext r hr
            · refine Or.inr ⟨response :: before, r, after, rfl, ?_, hstop, ?_⟩
              · intro r' hr'
                rcases List.mem_cons.1 hr' with rfl | hr'
                · rw [hbody]
                · exact hbefore r' hr'
              · simp [forResponses, hbody, heq, allActions]
          · refine Or.inr ⟨[], response, responses, rfl, by simp, by rw [hbody]; exact hflow, ?_⟩
            cases flow with
            | next => exact absurd rfl hflow
            | breakEventLoop => simp [forResponses, hbody, allActions]
            | returnErr error => simp [forResponses, hbody, allActions]

/-- What a loop carries out is the action of one of the responses. -/
theorem mem_forResponses {body : Response → List Action × Flow} {action : Action}
    {responses : List Response} (hmem : action ∈ (forResponses body responses).1) :
    ∃ response ∈ responses, action ∈ (body response).1 := by
  have hall : ∀ {responses' : List Response}, action ∈ allActions body responses' →
      ∃ response ∈ responses', action ∈ (body response).1 := fun h => List.mem_flatMap.1 h
  rcases forResponses_cases body responses with ⟨heq, -⟩ | ⟨before, response, after, rfl, -, -, heq⟩
  · rw [heq] at hmem
    exact hall hmem
  · rw [heq] at hmem
    rcases List.mem_append.1 hmem with hbefore | hlast
    · obtain ⟨earlier, hearlier, haction⟩ := hall hbefore
      exact ⟨earlier, List.mem_append_left _ hearlier, haction⟩
    · exact ⟨response, List.mem_append_right _ List.mem_cons_self, hlast⟩

/-! ## The event loop -/

theorem handleCommit_uploadsStarted (commitError : Option SinkError) (tpl : TopicPartitionList)
    (mode : CommitMode) : uploadsStarted (handleCommit commitError tpl mode).1 = [] := by
  unfold handleCommit
  split
  · cases commitError <;> rfl
  · rfl

theorem handleCommit_filesRemoved (commitError : Option SinkError) (tpl : TopicPartitionList)
    (mode : CommitMode) : filesRemoved (handleCommit commitError tpl mode).1 = [] := by
  unfold handleCommit
  split
  · cases commitError <;> rfl
  · rfl

theorem handleCommit_flow (commitError : Option SinkError) (tpl : TopicPartitionList)
    (mode : CommitMode) : (handleCommit commitError tpl mode).2 ≠ .breakEventLoop := by
  unfold handleCommit
  split
  · cases commitError <;> simp
  · simp

theorem uploadsStarted_append (actions actions' : List Action) :
    uploadsStarted (actions ++ actions') = uploadsStarted actions ++ uploadsStarted actions' :=
  List.filterMap_append

theorem filesRemoved_append (actions actions' : List Action) :
    filesRemoved (actions ++ actions') = filesRemoved actions ++ filesRemoved actions' :=
  List.filterMap_append

theorem uploadsStarted_response (commitError : Option SinkError) (response : Response) :
    uploadsStarted (eventLoopResponse commitError response).1 = uploadsOf [response] := by
  cases response with
  | commitAsync tpl => exact handleCommit_uploadsStarted commitError tpl .async
  | commitSync tpl => exact handleCommit_uploadsStarted commitError tpl .sync
  | _ => rfl

theorem filesRemoved_response (commitError : Option SinkError) (response : Response) :
    filesRemoved (eventLoopResponse commitError response).1 = deletesOf [response] := by
  cases response with
  | commitAsync tpl => exact handleCommit_filesRemoved commitError tpl .async
  | commitSync tpl => exact handleCommit_filesRemoved commitError tpl .sync
  | _ => rfl

theorem uploadsStarted_allActions (commitError : Option SinkError) : ∀ responses : List Response,
    uploadsStarted (allActions (eventLoopResponse commitError) responses) = uploadsOf responses
  | [] => rfl
  | response :: responses => by
      rw [allActions, List.flatMap_cons, uploadsStarted_append, ← allActions,
        uploadsStarted_allActions commitError responses, uploadsStarted_response,
        ← uploadsOf_append]
      rfl

theorem filesRemoved_allActions (commitError : Option SinkError) : ∀ responses : List Response,
    filesRemoved (allActions (eventLoopResponse commitError) responses) = deletesOf responses
  | [] => rfl
  | response :: responses => by
      rw [allActions, List.flatMap_cons, filesRemoved_append, ← allActions,
        filesRemoved_allActions commitError responses, filesRemoved_response,
        ← deletesOf_append]
      rfl

theorem eventLoopResponse_stops {commitError : Option SinkError} {response : Response}
    (hstop : (eventLoopResponse commitError response).2 ≠ .next) :
    response = .drainAndShutdown ∨
      ∃ error, (eventLoopResponse commitError response).2 = .returnErr error := by
  cases response with
  | drainAndShutdown => exact Or.inl rfl
  | fatal error => exact Or.inr ⟨error, rfl⟩
  | commitAsync tpl =>
      have hflow := handleCommit_flow commitError tpl .async
      simp only [eventLoopResponse] at hstop ⊢
      cases hcommit : (handleCommit commitError tpl .async).2 with
      | next => exact absurd hcommit hstop
      | breakEventLoop => exact absurd hcommit hflow
      | returnErr error => exact Or.inr ⟨error, rfl⟩
  | commitSync tpl =>
      have hflow := handleCommit_flow commitError tpl .sync
      simp only [eventLoopResponse] at hstop ⊢
      cases hcommit : (handleCommit commitError tpl .sync).2 with
      | next => exact absurd hcommit hstop
      | breakEventLoop => exact absurd hcommit hflow
      | returnErr error => exact Or.inr ⟨error, rfl⟩
  | _ => exact absurd rfl hstop

/-- Unless the sink returns an error, the event loop carries out everything it is answered: it
starts every upload and removes every file.  `DrainAndShutdown` comes last. -/
theorem eventLoop_carriesOut {commitError : Option SinkError} {responses : List Response}
    {actions : List Action} {flow : Flow}
    (hlast : ∀ before after, responses = before ++ .drainAndShutdown :: after → after = [])
    (hloop : forResponses (eventLoopResponse commitError) responses = (actions, flow))
    (hflow : ∀ error, flow ≠ .returnErr error) :
    uploadsStarted actions = uploadsOf responses ∧ filesRemoved actions = deletesOf responses ∧
      (flow = .breakEventLoop ↔ .drainAndShutdown ∈ responses) := by
  rcases forResponses_cases (eventLoopResponse commitError) responses with
    ⟨heq, hnext⟩ | ⟨before, response, after, rfl, hbefore, hstop, heq⟩
  · rw [hloop] at heq
    cases heq
    refine ⟨uploadsStarted_allActions _ _, filesRemoved_allActions _ _, ?_⟩
    simp only [reduceCtorEq, false_iff]
    intro hmem
    cases hnext _ hmem
  · rw [hloop] at heq
    cases heq
    rcases eventLoopResponse_stops hstop with rfl | ⟨error, herror⟩
    · have hnil := hlast before after rfl
      subst hnil
      refine ⟨?_, ?_, by simp [eventLoopResponse]⟩
      · rw [uploadsStarted_append, uploadsStarted_allActions, uploadsStarted_response,
          uploadsOf_append]
      · rw [filesRemoved_append, filesRemoved_allActions, filesRemoved_response,
          deletesOf_append]
    · exact absurd herror (hflow error)

theorem forResponses_singleton (body : Response → List Action × Flow) (response : Response) :
    forResponses body [response] = body response := by
  rw [forResponses]
  cases hbody : body response with
  | mk actions flow => cases flow <;> simp [forResponses]

/-- Without `Fatal` the event loop carries out everything it is answered, even if a commit fails. -/
theorem eventLoop_carriesOut_of_noFatal {F K : Type} [FileRegistry F] [KeyGenerator K]
    {ambient : Ambient} {sm sm' : StateMachine F K} {request : Request} {responses : List Response}
    {commitError : Option SinkError} {actions : List Action} {flow : Flow}
    (h : Handled ambient sm request responses sm') (hfree : NoFatal responses)
    (hloop : forResponses (eventLoopResponse commitError) responses = (actions, flow)) :
    uploadsStarted actions = uploadsOf responses ∧ filesRemoved actions = deletesOf responses := by
  rcases h.commit_responses with hcommit | ⟨_, tpl, -, hanswer⟩
  · have hflow : ∀ error, flow ≠ .returnErr error := by
      rintro error rfl
      rcases forResponses_cases (eventLoopResponse commitError) responses with
        ⟨heq, -⟩ | ⟨before, response, after, heq, -, -, hstop⟩
      · rw [hloop] at heq
        cases heq
      · rw [hloop] at hstop
        have hflow : (eventLoopResponse commitError response).2 = .returnErr error :=
          (congrArg Prod.snd hstop).symm
        have hmem : response ∈ responses := by simp [heq]
        cases response with
        | fatal error => exact hfree error hmem
        | commitAsync tpl => exact (hcommit tpl).1 hmem
        | commitSync tpl => exact (hcommit tpl).2 hmem
        | _ => cases hflow
    obtain ⟨hstarted, hremoved, -⟩ := eventLoop_carriesOut
      (fun before after => h.drainAndShutdown_last) hloop hflow
    exact ⟨hstarted, hremoved⟩
  -- a list to commit is the only answer, so a failed commit cuts nothing off
  · have hone : ∃ response, responses = [response] := by
      rcases hanswer with ⟨-, rfl⟩ | ⟨-, rfl⟩ <;> exact ⟨_, rfl⟩
    obtain ⟨response, rfl⟩ := hone
    rw [forResponses_singleton] at hloop
    have hactions : actions = (eventLoopResponse commitError response).1 := by rw [hloop]
    rw [hactions, uploadsStarted_response, filesRemoved_response]
    exact ⟨rfl, rfl⟩

/-- Whatever stops the event loop, it starts uploads it was answered, each at most once. -/
theorem eventLoop_started_sublist {commitError : Option SinkError} {responses : List Response}
    {actions : List Action} {flow : Flow}
    (hloop : forResponses (eventLoopResponse commitError) responses = (actions, flow)) :
    (uploadsStarted actions).Sublist (uploadsOf responses) := by
  rcases forResponses_cases (eventLoopResponse commitError) responses with
    ⟨heq, -⟩ | ⟨before, response, after, rfl, -, -, heq⟩
  · rw [hloop] at heq
    cases heq
    rw [uploadsStarted_allActions]
  · rw [hloop] at heq
    cases heq
    have hsplit : before ++ response :: after = before ++ [response] ++ after := by simp
    rw [uploadsStarted_append, uploadsStarted_allActions, uploadsStarted_response, hsplit,
      uploadsOf_append, uploadsOf_append]
    exact List.sublist_append_left _ _

/-- If the event loop meets `Fatal` it returns an error. -/
theorem eventLoop_noFatal {commitError : Option SinkError} {responses : List Response}
    {actions : List Action} {flow : Flow}
    (hlast : ∀ before after, responses = before ++ .drainAndShutdown :: after → after = [])
    (hloop : forResponses (eventLoopResponse commitError) responses = (actions, flow))
    (hflow : ∀ error, flow ≠ .returnErr error) : NoFatal responses := by
  intro error hmem
  rcases forResponses_cases (eventLoopResponse commitError) responses with
    ⟨-, hnext⟩ | ⟨before, response, after, rfl, hbefore, hstop, heq⟩
  · cases hnext _ hmem
  · rw [hloop] at heq
    cases heq
    rcases eventLoopResponse_stops hstop with rfl | ⟨error', herror⟩
    · have hnil := hlast before after rfl
      subst hnil
      rcases List.mem_append.1 hmem with hmem | hmem
      · cases hbefore _ hmem
      · simp at hmem
    · exact absurd herror (hflow error')

/-! ## The other loops -/

/-- Pending revocations are carried out to the end. -/
theorem revoke_filesRemoved : ∀ responses : List Response,
    filesRemoved (forResponses revokeResponse responses).1 = deletesOf responses ∧
      uploadsStarted (forResponses revokeResponse responses).1 = []
  | [] => ⟨rfl, rfl⟩
  | response :: responses => by
      obtain ⟨hremoved, hstarted⟩ := revoke_filesRemoved responses
      cases response with
      | deleteFile path =>
          simp only [forResponses, revokeResponse, filesRemoved_append, uploadsStarted_append,
            hremoved, hstarted]
          exact ⟨rfl, rfl⟩
      | _ => exact ⟨hremoved, hstarted⟩

/-- The drain starts no upload and removes no file. -/
theorem drain_carriesOut : ∀ responses : List Response,
    (forResponses drainResponse responses).1 = []
  | [] => rfl
  | response :: responses => by
      have ih := drain_carriesOut responses
      cases response with
      | fatal error => rfl
      | _ => simpa [forResponses, drainResponse] using ih

theorem drain_actions {responses : List Response} {actions : List Action} {flow : Flow}
    (hloop : forResponses drainResponse responses = (actions, flow)) : actions = [] := by
  rw [← drain_carriesOut responses, hloop]

/-- If the drain meets `Fatal` it returns an error. -/
theorem drain_noFatal {responses : List Response} {actions : List Action} {flow : Flow}
    (hloop : forResponses drainResponse responses = (actions, flow))
    (hflow : ∀ error, flow ≠ .returnErr error) : NoFatal responses := by
  intro error hmem
  rcases forResponses_cases drainResponse responses with
    ⟨-, hnext⟩ | ⟨before, response, after, -, -, hstop, heq⟩
  · cases hnext _ hmem
  · rw [hloop] at heq
    cases heq
    cases response with
    | fatal error => exact hflow error rfl
    | _ => exact hstop rfl

/-- The loop after `FinalCommit` starts no upload and removes no file. -/
theorem final_carriesOut (commitError : Option SinkError) (responses : List Response) :
    uploadsStarted (forResponses (finalResponse commitError) responses).1 = [] ∧
      filesRemoved (forResponses (finalResponse commitError) responses).1 = [] := by
  have hresponse : ∀ response, uploadsStarted (finalResponse commitError response).1 = [] ∧
      filesRemoved (finalResponse commitError response).1 = [] := by
    intro response
    cases response with
    | commitSync tpl =>
        exact ⟨handleCommit_uploadsStarted _ _ _, handleCommit_filesRemoved _ _ _⟩
    | _ => exact ⟨rfl, rfl⟩
  have hall : ∀ responses, uploadsStarted (allActions (finalResponse commitError) responses) = [] ∧
      filesRemoved (allActions (finalResponse commitError) responses) = [] := by
    intro responses
    induction responses with
    | nil => exact ⟨rfl, rfl⟩
    | cons response responses ih =>
        rw [allActions, List.flatMap_cons, ← allActions, uploadsStarted_append,
          filesRemoved_append, (hresponse response).1, (hresponse response).2, ih.1, ih.2]
        exact ⟨rfl, rfl⟩
  rcases forResponses_cases (finalResponse commitError) responses with
    ⟨heq, -⟩ | ⟨before, response, after, -, -, -, heq⟩
  · rw [heq]
    exact hall responses
  · rw [heq, uploadsStarted_append, filesRemoved_append]
    simp [hall before, hresponse response]

end S3Sink
