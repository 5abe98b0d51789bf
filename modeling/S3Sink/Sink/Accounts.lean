import S3Sink.StateMachine.Uploads
import S3Sink.Sink.Slots
import Mathlib.Tactic.Abel

/-!
# Accounts — where sealed files and deletions go

The event loop hands every upload it is answered to the uploader and removes every file it is told
to delete.  The drain reads only `Fatal` from the answers to a completed upload: a retry answered
there is dropped, a deletion answered there is ignored.

* `SinkStep.idle`, `SinkStep.carried` — what one event does to the uploads under way;
* `Accounts` — every sealed file is under way, reported or dropped; every file revoked or reported
  is removed or ignored.
-/

namespace S3Sink
namespace Sink

open TransitionSystem StateMachine

variable {F K : Type}

/-! ## Reading a history -/

/-- The upload of the file has been reported as successful. -/
def Reported (h : List (SinkEvent F K)) (path : PathBuf) : Prop :=
  path ∈ History.reportedPaths (requests (steps h))

theorem reported_iff {h : List (SinkEvent F K)} {path : PathBuf} :
    Reported h path ↔ path ∈ (reportedParts (steps h)).map Prod.fst := by
  rw [map_fst_reportedParts]
  rfl

/-- The files handed to `fs::remove_file`. -/
def removedFiles (h : List (SinkEvent F K)) : List PathBuf :=
  h.flatMap fun event =>
    match event with
    | .handled _ _ actions => filesRemoved actions
    | _ => []

/-- The deletions answered in the drain, which ignores them. -/
def ignoredDeletes (h : List (SinkEvent F K)) : List PathBuf :=
  h.flatMap fun event =>
    match event with
    | .handled .drain e _ => deletesOf e.responses
    | _ => []

/-- The uploads answered in the drain, which drops them. -/
def droppedUploads (h : List (SinkEvent F K)) : List ToUpload :=
  h.flatMap fun event =>
    match event with
    | .handled .drain e _ => uploadsOf e.responses
    | _ => []

/-! ## One event -/

/-- A request completes the uploads taken from the pool. -/
inductive Completes : Request → Multiset ToUpload → Prop
  | upload (u : ToUpload) (failure : Option SinkError) :
      Completes (.uploadCompletion (uploadResult u failure)) {u}
  | nothing {request : Request} (hrequest : ∀ result, request ≠ .uploadCompletion result) :
      Completes request 0

theorem Completes.parts {request : Request} {taken : Multiset ToUpload}
    (h : Completes request taken) :
    taken.map ToUpload.intoParts = ↑request.completed := by
  cases h with
  | upload u failure => cases failure <;> rfl
  | nothing hrequest =>
      cases request with
      | uploadCompletion result => exact absurd rfl (hrequest result)
      | _ => rfl

theorem completes_request (branch : Polled) : Completes branch.request branch.taken := by
  cases branch with
  | uploadCompletion toUpload failure => exact Completes.upload toUpload failure
  | _ => exact Completes.nothing (by simp [Polled.request])

variable [FileRegistry F] [KeyGenerator K]

/-- What handling a request does to the uploads under way and to the files: the drain drops what it
is answered, the other loops carry it out. -/
structure Carried (s : SinkState F K) (loop : Loop) (e : Step F K) (actions : List Action)
    (s' : SinkState F K) : Prop where
  steps : Steps s.stateMachine e s'.stateMachine
  uploads : ∃ taken rest, Completes e.request taken ∧ inFlight s = taken + rest ∧
    inFlight s' = ↑(if loop = .drain then [] else uploadsOf e.responses) + rest
  started : uploadsStarted actions = if loop = .drain then [] else uploadsOf e.responses
  removed : filesRemoved actions = if loop = .drain then [] else deletesOf e.responses
  completion : loop = .drain → ∃ u failure, e.request = .uploadCompletion (uploadResult u failure)

/-- Events that handle no request leave the state machine and the uploads under way alone. -/
theorem sinkStep_idle {s s' : SinkState F K} {event : SinkEvent F K} (h : SinkStep s event s')
    (hidle : step? event = none) :
    s'.stateMachine = s.stateMachine ∧ inFlight s' = inFlight s := by
  cases h with
  | skip => exact ⟨rfl, rfl⟩
  | poll branch => exact ⟨rfl, rfl⟩
  | abort error => exact ⟨rfl, rfl⟩
  | abortDrain error => exact ⟨rfl, rfl⟩
  | _ => cases hidle

theorem sinkStep_carried {s s' : SinkState F K} {loop : Loop} {e : Step F K}
    {actions : List Action} (h : SinkStep s (.handled loop e actions) s')
    (hfree : NoFatal e.responses) :
    Carried s loop e actions s' := by
  cases h with
  | @revoke sm sm' pool branch partitions _ hstep hrequest =>
      obtain ⟨paths, hpaths⟩ := (hstep.cases_of hrequest).revoke_responses
      exact
        { steps := hstep
          uploads := ⟨0, branch.taken + pool, Completes.nothing (by simp [hrequest]), by
            simp [inFlight], by simp [inFlight, hpaths]⟩
          started := by
            rw [(revoke_filesRemoved e.responses).2, hpaths, uploadsOf_deletes]
            rfl
          removed := (revoke_filesRemoved e.responses).1
          completion := fun hloop => by cases hloop }
  | @event sm sm' pool branch _ _ flow commitError hstep hrequest hloop =>
      obtain ⟨hstarted, hremoved⟩ := eventLoop_carriesOut_of_noFatal hstep.cases hfree hloop
      refine
        { steps := hstep
          uploads := ⟨branch.taken, pool, hrequest ▸ completes_request branch, rfl, ?_⟩
          started := hstarted
          removed := hremoved
          completion := fun hloop => by cases hloop }
      rw [← hstarted]
      cases flow <;> rfl
  | @drain sm sm' pool toUpload failure _ _ flow hstep hrequest hloop =>
      obtain rfl := drain_actions hloop
      refine
        { steps := hstep
          uploads := ⟨{toUpload}, pool, hrequest ▸ Completes.upload toUpload failure, ?_, ?_⟩
          started := rfl
          removed := rfl
          completion := fun _ => ⟨toUpload, failure, hrequest⟩ }
      · exact (Multiset.singleton_add _ _).symm
      · cases flow <;> rfl
  | @final sm sm' currentAssignment _ _ flow commitError hstep hrequest hloop =>
      have hcarries := final_carriesOut commitError e.responses
      rw [hloop] at hcarries
      have hcases := hstep.cases_of hrequest
      -- a commit request answers a list or an error
      have hanswers : uploadsOf e.responses = [] ∧ deletesOf e.responses = [] := by
        rcases hcases.final_responses with ⟨tpl, heq⟩ | ⟨error, heq⟩
        · rw [heq]
          exact ⟨rfl, rfl⟩
        · rw [heq]
          exact ⟨rfl, rfl⟩
      refine
        { steps := hstep
          uploads := ⟨0, 0, Completes.nothing (by simp [hrequest]), rfl, ?_⟩
          started := by rw [hanswers.1]; exact hcarries.1
          removed := by rw [hanswers.2]; exact hcarries.2
          completion := fun hloop => by cases hloop }
      rw [hanswers.1]
      dsimp only at hcarries
      cases flow <;> simp [inFlight, Flow.afterFinal, hcarries.1]

namespace Carried

variable {s s' : SinkState F K} {loop : Loop} {e : Step F K} {actions : List Action}

/-- An upload under way stays under way, is tried again, or is reported. -/
theorem completed (h : Carried s loop e actions s') (hfree : NoFatal e.responses) {u : ToUpload}
    (hu : u ∈ inFlight s) :
    u ∈ inFlight s' ∨ (∃ v ∈ uploadsOf e.responses, v.file = u.file) ∨
      e.request = .uploadCompletion (.success u.path u.file.offsetsConsumed) := by
  obtain ⟨taken, rest, hcompletes, hbefore, hafter⟩ := h.uploads
  rw [hbefore] at hu
  rcases Multiset.mem_add.1 hu with htaken | hrest
  · generalize hrequest : e.request = request at hcompletes
    cases hcompletes with
    | nothing => exact absurd htaken (Multiset.notMem_zero u)
    | upload v failure =>
        obtain rfl := Multiset.mem_singleton.1 htaken
        cases failure with
        | none => exact Or.inr (Or.inr rfl)
        | some error =>
            rw [(h.steps.cases_of hrequest).failure_responses hfree]
            exact Or.inr (Or.inl ⟨u.decrement, List.mem_cons_self, rfl⟩)
  · rw [hafter]
    exact Or.inl (Multiset.mem_add.2 (Or.inr hrest))

/-- An upload answered is of a file sealed by the request, or of one that was under way. -/
theorem answered (h : Carried s loop e actions s') (hfree : NoFatal e.responses) {u : ToUpload}
    (hu : u ∈ uploadsOf e.responses) :
    u.file ∈ sealedBy e.request e.responses ∨ ∃ v ∈ inFlight s, v.file = u.file := by
  obtain ⟨taken, rest, hcompletes, hbefore, -⟩ := h.uploads
  generalize hrequest : e.request = request at hcompletes
  cases hcompletes with
  | upload v failure =>
      have hv : v ∈ inFlight s :=
        hbefore ▸ Multiset.mem_add.2 (Or.inl (Multiset.mem_singleton_self v))
      cases failure with
      | none =>
          rw [(h.steps.cases_of hrequest).success_responses] at hu
          exact absurd hu List.not_mem_nil
      | some error =>
          -- a retry is of the same file
          rw [(h.steps.cases_of hrequest).failure_responses hfree] at hu
          obtain rfl := List.mem_singleton.1 hu
          exact Or.inr ⟨v, hv, rfl⟩
  | nothing hnot =>
      have hmem : u.file ∈ (uploadsOf e.responses).map ToUpload.file := List.mem_map_of_mem hu
      cases request with
      | uploadCompletion result => exact absurd rfl (hnot result)
      | _ => exact Or.inl hmem

/-- The drain is answered an upload exactly when a failed one is delivered to it. -/
theorem drain_uploads (h : Carried s .drain e actions s') (hfree : NoFatal e.responses) :
    uploadsOf e.responses = [] ↔
      ∀ toUpload error, e.request ≠ .uploadCompletion (.failure toUpload error) := by
  obtain ⟨u, failure, hrequest⟩ := h.completion rfl
  cases failure with
  | none =>
      rw [(h.steps.cases_of hrequest).success_responses, hrequest]
      constructor
      · intro _ toUpload error heq
        cases heq
      · exact fun _ => rfl
  | some error =>
      rw [(h.steps.cases_of hrequest).failure_responses hfree]
      constructor
      · intro hnil
        cases hnil
      · exact fun hnot => absurd hrequest (hnot u error)

end Carried

/-! ## The accounts -/

/-- Every sealed file is under way, reported or dropped, and every file revoked or reported was
removed, unless the drain ignored it. -/
structure Accounts (h : List (SinkEvent F K)) (s : SinkState F K) : Prop where
  files : (↑((sealedFiles (steps h)).map SealedFile.parts) : Multiset FileParts) =
    (inFlight s).map ToUpload.intoParts + ↑(reportedParts (steps h)) +
      ↑((droppedUploads h).map ToUpload.intoParts)
  removed : (removedFiles h : Multiset PathBuf) + ↑(ignoredDeletes h) =
    ↑(revokedFiles (steps h)) + ↑((reportedParts (steps h)).map Prod.fst)

theorem Accounts.carried {h : List (SinkEvent F K)} {s s' : SinkState F K} {loop : Loop}
    {e : Step F K} {actions : List Action} (haccounts : Accounts h s)
    (hcarried : Carried s loop e actions s') (hfree : NoFatal e.responses) :
    Accounts (.handled loop e actions :: h) s' := by
  obtain ⟨taken, rest, hcompletes, hbefore, hafter⟩ := hcarried.uploads
  have hparts : (↑e.request.completed : Multiset FileParts) +
      ↑((sealedBy e.request e.responses).map SealedFile.parts) =
      ↑((uploadsOf e.responses).map ToUpload.intoParts) + ↑e.request.reported := by
    rw [Multiset.coe_add, Multiset.coe_add, hcarried.steps.cases.parts hfree]
  have hdeletes : (↑(deletesOf e.responses) : Multiset PathBuf) =
      ↑(revokedBy e.request e.responses) + ↑(e.request.reported.map Prod.fst) := by
    rw [Multiset.coe_add, hcarried.steps.cases.deletes]
  have hfiles := haccounts.files
  have hremoved := haccounts.removed
  rw [hbefore, Multiset.map_add, hcompletes.parts] at hfiles
  have hactions : removedFiles (.handled loop e actions :: h) =
      filesRemoved actions ++ removedFiles h := rfl
  constructor
  · have hdropped : droppedUploads (.handled loop e actions :: h) =
        (if loop = .drain then uploadsOf e.responses else []) ++ droppedUploads h := by
      cases loop <;> rfl
    -- an upload answered is started, or dropped in the drain
    have hsplit : (↑((if loop = .drain then [] else uploadsOf e.responses).map
          ToUpload.intoParts) : Multiset FileParts) +
        ↑((if loop = .drain then uploadsOf e.responses else []).map ToUpload.intoParts) =
        ↑((uploadsOf e.responses).map ToUpload.intoParts) := by
      cases loop <;> simp
    rw [steps_handled, sealedFiles_cons, reportedParts_cons, hdropped, hafter]
    simp only [List.map_append, ← Multiset.coe_add, Multiset.map_add, Multiset.map_coe, hfiles]
    rw [← hsplit] at hparts
    calc
      _ = (↑e.request.completed + ↑((sealedBy e.request e.responses).map SealedFile.parts)) +
            (rest.map ToUpload.intoParts + ↑(reportedParts (steps h)) +
              ↑((droppedUploads h).map ToUpload.intoParts)) := by abel
      _ = _ := by
            rw [hparts]
            abel
  · have hignored : ignoredDeletes (.handled loop e actions :: h) =
        (if loop = .drain then deletesOf e.responses else []) ++ ignoredDeletes h := by
      cases loop <;> rfl
    -- a deletion answered is carried out, or ignored in the drain
    have hsplit : (↑(if loop = .drain then [] else deletesOf e.responses) : Multiset PathBuf) +
        ↑(if loop = .drain then deletesOf e.responses else []) = ↑(deletesOf e.responses) := by
      cases loop <;> simp
    rw [steps_handled, revokedFiles_cons, reportedParts_cons, hactions, hignored,
      hcarried.removed]
    simp only [List.map_append, ← Multiset.coe_add]
    rw [← hsplit] at hdeletes
    calc
      _ = (↑(if loop = .drain then [] else deletesOf e.responses) +
            ↑(if loop = .drain then deletesOf e.responses else [])) +
            ((removedFiles h : Multiset PathBuf) + ↑(ignoredDeletes h)) := by abel
      _ = _ := by
            rw [hdeletes, hremoved]
            abel

omit [FileRegistry F] [KeyGenerator K] in
theorem Accounts.paths {h : List (SinkEvent F K)} {s : SinkState F K} (haccounts : Accounts h s) :
    (↑((sealedFiles (steps h)).map SealedFile.path) : Multiset PathBuf) =
      (inFlight s).map ToUpload.path + ↑((reportedParts (steps h)).map Prod.fst) +
        ↑((droppedUploads h).map ToUpload.path) := by
  have hfiles := congrArg (Multiset.map Prod.fst) haccounts.files
  simp only [Multiset.map_add, Multiset.map_coe, Multiset.map_map, List.map_map] at hfiles
  exact hfiles

variable {start : StateMachine F K}

theorem running_of_step {s s' : SinkState F K} {event : SinkEvent F K} (h : SinkStep s event s')
    (result : Except SinkError Unit) : s.phase ≠ .returned result := by
  cases h <;> exact fun hreturned => by cases hreturned

/-- The sink stops at the first `Fatal`: as long as it has not returned there was none. -/
theorem fatalFree_of_run {h : List (SinkEvent F K)} {s : SinkState F K}
    (hrun : Run (system start) h s) (hphase : ∀ result, s.phase ≠ .returned result) :
    FatalFree (steps h) := by
  induction hrun with
  | start hinit => exact fun e he => absurd he List.not_mem_nil
  | @step h s s' event hprev hstep ih =>
      have hphase₀ : ∀ result, s.phase ≠ .returned result := by
        cases hstep <;> exact fun _ hreturned => by cases hreturned
      have hcons : ∀ {e : Step F K}, NoFatal e.responses → FatalFree (e :: steps h) := by
        intro e hnofatal e' he'
        rcases List.mem_cons.1 he' with rfl | he'
        · exact hnofatal
        · exact ih hphase₀ e' he'
      cases hstep with
      | skip => exact ih hphase₀
      | poll branch => exact ih hphase₀
      | abort error => exact ih hphase₀
      | abortDrain error => exact ih hphase₀
      | revoke hstep hrequest =>
          apply hcons
          intro error hmem
          obtain ⟨paths, hpaths⟩ := (hstep.cases_of hrequest).revoke_responses
          rw [hpaths] at hmem
          simp at hmem
      | event commitError hstep hrequest hloop =>
          refine hcons (eventLoop_noFatal (fun before after => hstep.cases.drainAndShutdown_last)
            hloop ?_)
          rintro error rfl
          exact hphase _ rfl
      | drain hstep hrequest hloop =>
          refine hcons (drain_noFatal hloop ?_)
          rintro error rfl
          exact hphase _ rfl
      | @final _ _ _ _ _ flow =>
          cases flow <;> exact absurd rfl (hphase _)

/-- The run rule of the sink: what holds at the start and is kept by every event, handled or not,
holds in every run without `Fatal`. -/
theorem invariant_of_run {P : List (SinkEvent F K) → SinkState F K → Prop}
    (hstart : P [] ⟨start, 0, .eventLoop⟩)
    (hidle : ∀ h s s' event, P h s → step? event = none →
      s'.stateMachine = s.stateMachine → inFlight s' = inFlight s → P (event :: h) s')
    (hhandled : ∀ h s s' loop e actions, Run (system start) h s → P h s →
      Carried s loop e actions s' → FatalFree (e :: steps h) → P (.handled loop e actions :: h) s')
    {h : List (SinkEvent F K)} {s : SinkState F K} (hrun : Run (system start) h s)
    (hfree : FatalFree (steps h)) : P h s := by
  induction hrun with
  | start hinit =>
      rw [hinit]
      exact hstart
  | @step h s s' event hprev hstep ih =>
      cases hevent : step? event with
      | none =>
          obtain ⟨hsm, hpool⟩ := sinkStep_idle hstep hevent
          exact hidle h s s' event (ih (steps_idle hevent h ▸ hfree)) hevent hsm hpool
      | some e =>
          cases event with
          | handled loop e actions =>
              exact hhandled h s s' loop e actions hprev (ih hfree.tail)
                (sinkStep_carried hstep hfree.head) hfree
          | _ => cases hevent

theorem accounts_of_run {h : List (SinkEvent F K)} {s : SinkState F K}
    (hrun : Run (system start) h s) (hfree : FatalFree (steps h)) :
    Accounts h s := by
  refine invariant_of_run ⟨rfl, rfl⟩ ?_ ?_ hrun hfree
  · intro h s s' event haccounts hidle hsm hpool
    constructor
    · rw [steps_idle hidle, hpool, haccounts.files]
      cases event with
      | handled => cases hidle
      | _ => rfl
    · rw [steps_idle hidle, ← haccounts.removed]
      cases event with
      | handled => cases hidle
      | _ => rfl
  · intro h s s' loop e actions _ haccounts hcarried hfree
    exact haccounts.carried hcarried hfree.head

/-- Every upload under way, and every one answered, is of a file that was sealed. -/
theorem files_of_run {h : List (SinkEvent F K)} {s : SinkState F K}
    (hrun : Run (system start) h s) (hfree : FatalFree (steps h)) :
    (∀ u ∈ inFlight s, u.file ∈ sealedFiles (steps h)) ∧
      ∀ e ∈ steps h, ∀ u ∈ uploadsOf e.responses, u.file ∈ sealedFiles (steps h) := by
  refine invariant_of_run (P := fun h s => (∀ u ∈ inFlight s, u.file ∈ sealedFiles (steps h)) ∧
      ∀ e ∈ steps h, ∀ u ∈ uploadsOf e.responses, u.file ∈ sealedFiles (steps h))
    ⟨fun u hu => absurd hu (Multiset.notMem_zero u), fun e he => absurd he List.not_mem_nil⟩
    ?_ ?_ hrun hfree
  · intro h s s' event hsealed hidle _ hpool
    rw [steps_idle hidle, hpool]
    exact hsealed
  · rintro h s s' loop e actions - ⟨hflying, hearlier⟩ hcarried hfree
    rw [steps_handled, sealedFiles_cons]
    have hanswered : ∀ u ∈ uploadsOf e.responses,
        u.file ∈ sealedBy e.request e.responses ++ sealedFiles (steps h) := by
      intro u hu
      rcases hcarried.answered hfree.head hu with hnew | ⟨v, hv, hfile⟩
      · exact List.mem_append_left _ hnew
      · exact List.mem_append_right _ (hfile ▸ hflying v hv)
    constructor
    · intro u hu
      obtain ⟨taken, rest, -, hbefore, hafter⟩ := hcarried.uploads
      rw [hafter] at hu
      rcases Multiset.mem_add.1 hu with hu | hrest
      · split at hu
        · exact absurd hu (Multiset.notMem_zero u)
        · exact hanswered u hu
      · exact List.mem_append_right _
          (hflying u (hbefore ▸ Multiset.mem_add.2 (Or.inr hrest)))
    · intro e' he' u hu
      rcases List.mem_cons.1 he' with rfl | he'
      · exact hanswered u hu
      · exact List.mem_append_right _ (hearlier e' he' u hu)

end Sink
end S3Sink
