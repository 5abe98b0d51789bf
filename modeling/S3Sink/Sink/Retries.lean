import S3Sink.Uploader
import S3Sink.StateMachine.Lifecycle
import S3Sink.Sink.Accounts

/-!
# Retries — the retry budget of a file

A sealed file starts with the configured number of retries and loses one with every failed upload
the sink handles; the uploader reads the number of the attempt off what is left.

* `failures`, `handedOver` — how often the upload of a file has failed, and has been started;
* `HandOver` — what holds of an upload when it is handed to the uploader;
* `Budget` — the invariant: retries left and failures handled make up the budget;
* `retry_budget` — hand-overs, attempts, backoffs and the `Fatal` that ends the last attempt.
-/

namespace S3Sink

open TransitionSystem StateMachine

/-! ## Reading a history -/

/-- The file whose upload a request reports as failed. -/
def Request.failed : Request → List PathBuf
  | .uploadCompletion (.failure toUpload _) => [toUpload.path]
  | _ => []

theorem Request.failed_eq_nil {request : Request}
    (hrequest : ∀ result, request ≠ .uploadCompletion result) : request.failed = [] := by
  cases request with
  | uploadCompletion result => exact absurd rfl (hrequest result)
  | _ => rfl

/-- The failed uploads of a file among the requests handled. -/
def failures (path : PathBuf) (requests : List Request) : Nat :=
  (requests.flatMap Request.failed).count path

theorem failures_cons {F K : Type} (path : PathBuf) (e : Step F K) (h : List (Step F K)) :
    failures path (requests (e :: h)) =
      e.request.failed.count path + failures path (requests h) := by
  rw [failures, requests, List.map_cons, List.flatMap_cons, List.count_append]
  rfl

namespace StateMachine

variable {F K : Type} [FileRegistry F] [KeyGenerator K]

/-- A file that is sealed gets the whole budget. -/
theorem Handled.sealed_retries {ambient : Ambient} {sm sm' : StateMachine F K} {request : Request}
    {responses : List Response} (h : Handled ambient sm request responses sm')
    (hrequest : ∀ result, request ≠ .uploadCompletion result) {u : ToUpload}
    (hu : u ∈ uploadsOf responses) : u.retries = sm.config.maxUploadsRetry := by
  have hsealed : ∀ {streams : List (StreamId × StreamState)} {responses : List Response},
      List.Forall₂ (fun e response => SealAnswer sm.config e.2 response) streams responses →
      u ∈ uploadsOf responses → u.retries = sm.config.maxUploadsRetry := by
    intro streams responses hanswers hmem
    obtain ⟨e, -, hanswer⟩ := sealAnswer_of_mem hanswers (mem_uploadsOf.1 hmem)
    cases hanswer with
    | ready _ _ _ _ _ hretries => exact hretries
  cases h with
  | sealed _ _ _ _ _ _ hclose =>
      obtain ⟨fileRegistry, keyGenerator, response, rfl, hanswer⟩ := sealed_spec hclose
      cases hanswer with
      | failed error => simp [uploadsOf] at hu
      | ready v _ _ _ _ hretries =>
          obtain rfl : u = v := by simpa [uploadsOf] using hu
          exact hretries
  | uploadTick _ hclose =>
      obtain ⟨fileRegistry, keyGenerator, responses, rfl, hanswers⟩ := sealedAll_spec hclose
      exact hsealed hanswers hu
  | shutdown hclose =>
      obtain ⟨fileRegistry, keyGenerator, responses, rfl, hanswers⟩ := sealedAll_spec hclose
      rw [uploadsOf_append, uploadsOf_drainAndShutdown, List.append_nil] at hu
      exact hsealed hanswers hu
  | revoked _ hrevoke =>
      obtain ⟨fileRegistry, paths, rfl⟩ := revokedAll_spec hrevoke
      simp at hu
  | retried => exact absurd rfl (hrequest _)
  | _ => exact absurd hu List.not_mem_nil

/-- A failed upload is tried again as long as its budget lasts. -/
theorem Handled.failure_cases {ambient : Ambient} {sm sm' : StateMachine F K} {u : ToUpload}
    {error : SinkError} {responses : List Response}
    (h : Handled ambient sm (.uploadCompletion (.failure u error)) responses sm') :
    (0 < u.retries ∧ responses = [.readyForUpload u.decrement]) ∨
      (u.retries = 0 ∧
        responses = [.fatal (.s3Upload "maximum number of retries reached for S3 upload")]) := by
  cases h with
  | retried hretries => exact Or.inl ⟨hretries, rfl⟩
  | exhausted hretries => exact Or.inr ⟨hretries, rfl⟩
  | commitFailed hrequest => rcases hrequest with h | h <;> cases h

end StateMachine

namespace Sink

section History

variable {F K : Type}

/-- The uploads handed to the uploader, newest first. -/
def handOvers (h : List (SinkEvent F K)) : List ToUpload :=
  h.flatMap fun event =>
    match event with
    | .handled _ _ actions => (uploadsStarted actions).reverse
    | _ => []

/-- How often a file has been handed to the uploader. -/
def handedOver (path : PathBuf) (h : List (SinkEvent F K)) : Nat :=
  ((handOvers h).map ToUpload.path).count path

theorem mem_handOvers_cons {u : ToUpload} {loop : Loop} {e : Step F K} {actions : List Action}
    {h : List (SinkEvent F K)} :
    u ∈ handOvers (.handled loop e actions :: h) ↔
      u ∈ uploadsStarted actions ∨ u ∈ handOvers h := by
  rw [handOvers, List.flatMap_cons, List.mem_append, List.mem_reverse]
  rfl

theorem handedOver_cons (path : PathBuf) (loop : Loop) (e : Step F K) (actions : List Action)
    (h : List (SinkEvent F K)) :
    handedOver path (.handled loop e actions :: h) =
      ((uploadsStarted actions).map ToUpload.path).count path + handedOver path h := by
  rw [handedOver, handOvers, List.flatMap_cons, List.map_append, List.count_append,
    List.map_reverse, List.count_reverse]
  rfl

theorem handOvers_idle {event : SinkEvent F K} (hidle : step? event = none)
    (h : List (SinkEvent F K)) : handOvers (event :: h) = handOvers h := by
  cases event with
  | handled => cases hidle
  | _ => rfl

theorem path_ne_of_handedOver {path : PathBuf} {h : List (SinkEvent F K)}
    (hzero : handedOver path h = 0) {u : ToUpload} (hu : u ∈ handOvers h) : u.path ≠ path := by
  rintro rfl
  exact List.count_eq_zero.1 hzero (List.mem_map_of_mem hu)

/-- The upload `u`, answered on `e` after the history `h`, as it is handed over: the file has failed
as often as it was handed over before, the upload carries what is left of the budget, and nothing
else has changed since the earlier hand-overs. -/
structure HandOver (m : Nat) (h : List (SinkEvent F K)) (e : Step F K) (u : ToUpload) : Prop where
  failed : failures u.path (requests (e :: steps h)) = handedOver u.path h
  retries : u.retries + handedOver u.path h = m
  same : ∀ v ∈ handOvers h, v.path = u.path → v.objectKey = u.objectKey ∧ v.file = u.file

/-- An upload under way: its last hand-over has not failed yet. -/
structure Flying (m : Nat) (h : List (SinkEvent F K)) (u : ToUpload) : Prop where
  retries : u.retries + failures u.path (requests (steps h)) = m
  handed : handedOver u.path h = failures u.path (requests (steps h)) + 1
  same : ∀ v ∈ handOvers h, v.path = u.path → v.objectKey = u.objectKey ∧ v.file = u.file

/-- The invariant of the retries: the budget of every upload under way, and nothing spent on files
that have not been sealed. -/
structure Budget (m : Nat) (h : List (SinkEvent F K)) (s : SinkState F K) : Prop where
  flying : ∀ u ∈ inFlight s, Flying m h u
  unsealed : ∀ path ∉ (sealedFiles (steps h)).map SealedFile.path,
    failures path (requests (steps h)) = 0 ∧ handedOver path h = 0

end History

/-! ## One event -/

section Event

variable {F K : Type} [FileRegistry F] [KeyGenerator K]

/-- What every handled event does, also the one that ends the sink. -/
structure Taken (s : SinkState F K) (e : Step F K) (actions : List Action)
    (s' : SinkState F K) : Prop where
  steps : Steps s.stateMachine e s'.stateMachine
  completes : ∃ taken ≤ inFlight s, Completes e.request taken
  started : (uploadsStarted actions).Sublist (uploadsOf e.responses)
  running : ∀ result, s.phase ≠ .returned result

theorem sinkStep_taken {s s' : SinkState F K} {loop : Loop} {e : Step F K} {actions : List Action}
    (h : SinkStep s (.handled loop e actions) s') : Taken s e actions s' := by
  cases h with
  | revoke hstep hrequest =>
      refine ⟨hstep, ⟨0, Multiset.zero_le _, Completes.nothing (by simp [hrequest])⟩, ?_, by simp⟩
      rw [(revoke_filesRemoved e.responses).2]
      exact List.nil_sublist _
  | @event sm sm' pool branch _ _ flow commitError hstep hrequest hloop =>
      exact ⟨hstep, ⟨branch.taken, Multiset.le_add_right _ _, hrequest ▸ completes_request branch⟩,
        eventLoop_started_sublist hloop, by simp⟩
  | @drain sm sm' pool toUpload failure _ _ flow hstep hrequest hloop =>
      refine ⟨hstep, ⟨{toUpload}, ?_, hrequest ▸ Completes.upload toUpload failure⟩, ?_, by simp⟩
      · exact Multiset.singleton_le.2 (Multiset.mem_cons_self toUpload pool)
      · rw [drain_actions hloop]
        exact List.nil_sublist _
  | final commitError hstep hrequest hloop =>
      refine ⟨hstep, ⟨0, Multiset.zero_le _, Completes.nothing (by simp [hrequest])⟩, ?_, by simp⟩
      have hcarries := (final_carriesOut commitError e.responses).1
      rw [hloop] at hcarries
      rw [hcarries]
      exact List.nil_sublist _

variable {m : Nat} {h : List (SinkEvent F K)} {s s' : SinkState F K} {loop : Loop} {e : Step F K}
variable {actions : List Action}

/-- What the paths of the uploads under way and of those answered have to do with each other: those
under way are sealed and distinct, those answered are distinct, and new unless one is a retry. -/
structure Distinct (h : List (SinkEvent F K)) (s : SinkState F K) (e : Step F K) : Prop where
  flying : ((inFlight s).map ToUpload.path).Nodup
  sealed : ∀ u ∈ inFlight s, u.path ∈ (sealedFiles (steps h)).map SealedFile.path
  answered : ((uploadsOf e.responses).map ToUpload.path).Nodup
  unsealed : (∀ result, e.request ≠ .uploadCompletion result) → ∀ u ∈ uploadsOf e.responses,
    u.path ∉ (sealedFiles (steps h)).map SealedFile.path

/-- An upload answered is a retry, or of a file that has not been sealed before. -/
theorem Budget.handOver (hbudget : Budget m h s) {sm' : StateMachine F K}
    (hstep : Steps s.stateMachine e sm') (hconfig : e.pre.config.maxUploadsRetry = m)
    (hdistinct : Distinct h s e) {taken : Multiset ToUpload} (hle : taken ≤ inFlight s)
    (hcompletes : Completes e.request taken) {u : ToUpload} (hu : u ∈ uploadsOf e.responses) :
    HandOver m h e u := by
  generalize hrequest : e.request = request at hcompletes
  cases hcompletes with
  | nothing hnot =>
      have hrequest' : ∀ result, e.request ≠ .uploadCompletion result := hrequest ▸ hnot
      obtain ⟨hfailures, hhanded⟩ := hbudget.unsealed u.path (hdistinct.unsealed hrequest' u hu)
      refine ⟨?_, ?_, fun v hv hpath => absurd hpath (path_ne_of_handedOver hhanded hv)⟩
      · rw [failures_cons, Request.failed_eq_nil hrequest', hfailures, hhanded]
        rfl
      · rw [hhanded, hstep.cases.sealed_retries hrequest' hu, hconfig]
        rfl
  | upload v failure =>
      have hflying := hbudget.flying v (Multiset.mem_of_le hle (Multiset.mem_singleton_self v))
      cases failure with
      | none =>
          rw [(hstep.cases_of hrequest).success_responses] at hu
          exact absurd hu List.not_mem_nil
      | some error =>
          rcases (hstep.cases_of hrequest).failure_cases with
            ⟨hpos, hanswer⟩ | ⟨-, hanswer⟩
          · rw [hanswer] at hu
            obtain rfl := List.mem_singleton.1 hu
            have hretries : v.decrement.retries = v.retries - 1 := u64Pred_of_pos hpos
            have hone : e.request.failed.count v.path = 1 := by
              rw [hrequest]
              exact List.count_singleton_self
            have hbefore := hflying.retries
            have hhanded := hflying.handed
            refine ⟨?_, ?_, hflying.same⟩
            · change failures v.path _ = handedOver v.path h
              rw [failures_cons, hone, hhanded, Nat.add_comm]
            · change _ + handedOver v.path h = m
              omega
          · rw [hanswer] at hu
            exact absurd hu List.not_mem_nil

/-- A failed upload is answered `Fatal` exactly when it was the last of its budget. -/
theorem Budget.fatal (hbudget : Budget m h s) (htaken : Taken s e actions s')
    {result : UploadResult} (hrequest : e.request = .uploadCompletion result) :
    ((∃ u error, result = .failure u error ∧
          failures u.path (requests (e :: steps h)) = m + 1) ∧
        e.responses = [.fatal (.s3Upload "maximum number of retries reached for S3 upload")]) ∨
      ((∀ u error, result = .failure u error →
          failures u.path (requests (e :: steps h)) ≤ m) ∧
        NoFatal e.responses) := by
  obtain ⟨taken, hle, hcompletes⟩ := htaken.completes
  rw [hrequest] at hcompletes
  cases hcompletes with
  | nothing hnot => exact absurd rfl (hnot result)
  | upload v failure =>
      have hretries :=
        (hbudget.flying v (Multiset.mem_of_le hle (Multiset.mem_singleton_self v))).retries
      cases failure with
      | none =>
          refine Or.inr ⟨?_, ?_⟩
          · intro u error heq
            cases heq
          · rw [(htaken.steps.cases_of hrequest).success_responses]
            simp [NoFatal]
      | some error =>
          have hfailures : failures v.path (requests (e :: steps h)) =
              1 + failures v.path (requests (steps h)) := by
            rw [failures_cons, hrequest]
            congr 1
            exact List.count_singleton_self
          rcases (htaken.steps.cases_of hrequest).failure_cases with
            ⟨hpos, hanswer⟩ | ⟨hzero, hanswer⟩
          · refine Or.inr ⟨?_, by rw [hanswer]; simp [NoFatal]⟩
            intro u error' heq
            cases heq
            omega
          · exact Or.inl ⟨⟨v, error, rfl, by omega⟩, hanswer⟩

omit [FileRegistry F] [KeyGenerator K] in
/-- An event that neither fails nor starts the upload of a file leaves its budget alone. -/
theorem Flying.untouched {u : ToUpload} (hflying : Flying m h u)
    (hfailed : u.path ∉ e.request.failed)
    (hstarted : u.path ∉ (uploadsStarted actions).map ToUpload.path) :
    Flying m (.handled loop e actions :: h) u := by
  have hfailures : failures u.path (requests (steps (.handled loop e actions :: h))) =
      failures u.path (requests (steps h)) := by
    rw [steps_handled, failures_cons, List.count_eq_zero.2 hfailed, Nat.zero_add]
  refine ⟨hfailures ▸ hflying.retries, ?_, ?_⟩
  · rw [hfailures, handedOver_cons, List.count_eq_zero.2 hstarted, Nat.zero_add]
    exact hflying.handed
  · intro v hv hpath
    rcases mem_handOvers_cons.1 hv with hv | hv
    · exact absurd (hpath ▸ List.mem_map_of_mem hv) hstarted
    · exact hflying.same v hv hpath

omit [FileRegistry F] [KeyGenerator K] in
/-- An upload that is handed over is under way again. -/
theorem HandOver.flying {u : ToUpload} (hhandOver : HandOver m h e u)
    (hnodup : ((uploadsStarted actions).map ToUpload.path).Nodup)
    (hu : u ∈ uploadsStarted actions) :
    Flying m (.handled loop e actions :: h) u := by
  have hfailures : failures u.path (requests (steps (.handled loop e actions :: h))) =
      handedOver u.path h := hhandOver.failed
  refine ⟨hfailures ▸ hhandOver.retries, ?_, ?_⟩
  · rw [hfailures, handedOver_cons,
      List.count_eq_one_of_mem hnodup (List.mem_map_of_mem hu), Nat.add_comm]
  · intro v hv hpath
    rcases mem_handOvers_cons.1 hv with hv | hv
    · rw [List.inj_on_of_nodup_map hnodup hv hu hpath]
      exact ⟨rfl, rfl⟩
    · exact hhandOver.same v hv hpath

omit [FileRegistry F] [KeyGenerator K] in
/-- What fails was under way, so it has been sealed. -/
theorem Distinct.failed_sealed (hdistinct : Distinct h s e) {taken : Multiset ToUpload}
    (hle : taken ≤ inFlight s) (hcompletes : Completes e.request taken) {path : PathBuf}
    (hfailed : path ∈ e.request.failed) : path ∈ (sealedFiles (steps h)).map SealedFile.path := by
  generalize e.request = request at hcompletes hfailed
  cases hcompletes with
  | nothing hnot =>
      rw [Request.failed_eq_nil hnot] at hfailed
      exact absurd hfailed List.not_mem_nil
  | upload v failure =>
      cases failure with
      | none => exact absurd hfailed List.not_mem_nil
      | some error =>
          obtain rfl := List.mem_singleton.1 hfailed
          exact hdistinct.sealed v (Multiset.mem_of_le hle (Multiset.mem_singleton_self v))

/-- The uploads that stay under way are of other files than the one completed and those answered. -/
theorem Carried.untouched (hcarried : Carried s loop e actions s') (hfree : NoFatal e.responses)
    (hdistinct : Distinct h s e) {taken rest : Multiset ToUpload}
    (hcompletes : Completes e.request taken) (hbefore : inFlight s = taken + rest) {u : ToUpload}
    (hu : u ∈ rest) :
    u.path ∉ e.request.failed ∧ u.path ∉ (uploadsOf e.responses).map ToUpload.path := by
  generalize hrequest : e.request = request at hcompletes
  cases hcompletes with
  | nothing hnot =>
      refine ⟨by rw [Request.failed_eq_nil hnot]; exact List.not_mem_nil, ?_⟩
      intro hmem
      obtain ⟨v, hv, hpath⟩ := List.mem_map.1 hmem
      refine hdistinct.unsealed (hrequest ▸ hnot) v hv (hpath ▸ hdistinct.sealed u ?_)
      rw [hbefore]
      exact Multiset.mem_add.2 (Or.inr hu)
  | upload v failure =>
      have hne : u.path ≠ v.path := by
        intro hpath
        have hnodup := hdistinct.flying
        rw [hbefore, Multiset.singleton_add, Multiset.map_cons, Multiset.nodup_cons] at hnodup
        exact hnodup.1 (hpath ▸ Multiset.mem_map_of_mem ToUpload.path hu)
      cases failure with
      | none =>
          rw [(hcarried.steps.cases_of hrequest).success_responses]
          exact ⟨List.not_mem_nil, List.not_mem_nil⟩
      | some error =>
          rw [(hcarried.steps.cases_of hrequest).failure_responses hfree]
          exact ⟨fun hmem => hne (List.mem_singleton.1 hmem),
            fun hmem => hne (List.mem_singleton.1 hmem)⟩

theorem Budget.step (hbudget : Budget m h s) (hcarried : Carried s loop e actions s')
    (hfree : NoFatal e.responses) (hdistinct : Distinct h s e)
    (hhandOver : ∀ u ∈ uploadsOf e.responses, HandOver m h e u) :
    Budget m (.handled loop e actions :: h) s' := by
  obtain ⟨taken, rest, hcompletes, hbefore, hafter⟩ := hcarried.uploads
  have hstarted := hcarried.started
  have hsublist : (uploadsStarted actions).Sublist (uploadsOf e.responses) := by
    rw [hstarted]
    split
    · exact List.nil_sublist _
    · exact List.Sublist.refl _
  constructor
  · intro u hu
    rw [hafter] at hu
    rcases Multiset.mem_add.1 hu with hu | hu
    · rw [← hstarted] at hu
      exact (hhandOver u (hsublist.subset hu)).flying
        (hdistinct.answered.sublist (hsublist.map ToUpload.path)) hu
    · obtain ⟨hfailed, hanswered⟩ := hcarried.untouched hfree hdistinct hcompletes hbefore hu
      refine (hbudget.flying u ?_).untouched hfailed
        fun hmem => hanswered ((hsublist.map ToUpload.path).subset hmem)
      rw [hbefore]
      exact Multiset.mem_add.2 (Or.inr hu)
  · intro path hpath
    rw [steps_handled, sealedFiles_cons, List.map_append, List.mem_append, not_or] at hpath
    obtain ⟨hfailures, hhanded⟩ := hbudget.unsealed path hpath.2
    constructor
    · rw [steps_handled, failures_cons, hfailures, Nat.add_zero, List.count_eq_zero]
      exact fun hmem => hpath.2
        (hdistinct.failed_sealed (hbefore ▸ Multiset.le_add_right _ _) hcompletes hmem)
    · rw [handedOver_cons, hhanded, Nat.add_zero, List.count_eq_zero]
      intro hmem
      obtain ⟨u, hu, rfl⟩ := List.mem_map.1 hmem
      rcases hcarried.answered hfree (hsublist.subset hu) with hnew | ⟨v, hv, hfile⟩
      · exact hpath.1 (List.mem_map_of_mem hnew)
      · refine hpath.2 ?_
        have hvpath : v.path = u.path := congrArg SealedFile.path hfile
        exact hvpath ▸ hdistinct.sealed v hv

end Event

/-! ## Runs -/

section Runs

variable {K : Type} [KeyGenerator K]
variable {inputTopics : List (TopicConfig × List TopicName)} {directory : PathBuf}
variable {os : OperatingSystem} {keyGenerator : K} {config : StateMachineConfiguration}
variable {h : List (SinkEvent DiskFileRegistry K)} {s : SinkState DiskFileRegistry K}

theorem distinct_of_run
    (hrun : Run (system (new inputTopics (DiskFileRegistry.new directory os) keyGenerator config))
      h s) (hfree : FatalFree (steps h)) {e : Step DiskFileRegistry K}
    {sm' : StateMachine DiskFileRegistry K} (hstep : Steps s.stateMachine e sm') :
    Distinct h s e := by
  have hlife := lifecycle_of_run (run_steps hrun) hfree
  have hnew := hlife.sealed_nodup hstep
  constructor
  · refine Multiset.nodup_of_le ?_ hlife.nodup
    calc
      (inFlight s).map ToUpload.path
          ≤ (inFlight s).map ToUpload.path + ↑((reportedParts (steps h)).map Prod.fst) +
              ↑((droppedUploads h).map ToUpload.path) :=
            (Multiset.le_add_right _ _).trans (Multiset.le_add_right _ _)
      _ = ↑((sealedFiles (steps h)).map SealedFile.path) :=
            (accounts_of_run hrun hfree).paths.symm
      _ ≤ s.stateMachine.fileRegistry.activePaths +
            ↑((sealedFiles (steps h)).map SealedFile.path) + ↑(revokedFiles (steps h)) :=
            (Multiset.le_add_left _ _).trans (Multiset.le_add_right _ _)
  · exact fun u hu => List.mem_map_of_mem ((files_of_run hrun hfree).1 u hu)
  · cases hrequest : e.request with
    | uploadCompletion result =>
        -- a completed upload is answered its retry at most
        cases result with
        | success path offsets =>
            rw [(hstep.cases_of hrequest).success_responses]
            exact List.nodup_nil
        | failure u error =>
            rcases (hstep.cases_of hrequest).failure_cases with ⟨-, hanswer⟩ | ⟨-, hanswer⟩
            · rw [hanswer]
              exact List.nodup_singleton _
            · rw [hanswer]
              exact List.nodup_nil
    | _ => exact (List.nodup_append.1 (hnew (by simp [hrequest]))).1
  · intro hrequest u hu hmem
    exact (List.nodup_append.1 (hnew hrequest)).2.2 _ (List.mem_map_of_mem hu) _ hmem rfl

theorem maxUploadsRetry_of_run
    (hrun : Run (system (new inputTopics (DiskFileRegistry.new directory os) keyGenerator config))
      h s) {e : Step DiskFileRegistry K} {sm' : StateMachine DiskFileRegistry K}
    (hstep : Steps s.stateMachine e sm') :
    e.pre.config.maxUploadsRetry = config.maxUploadsRetry := by
  have hconfig : s.stateMachine.config = config := config_of_run (run_steps hrun)
  rw [hstep.reordered.config, hconfig]

theorem budget_of_run
    (hrun : Run (system (new inputTopics (DiskFileRegistry.new directory os) keyGenerator config))
      h s) (hfree : FatalFree (steps h)) : Budget config.maxUploadsRetry h s := by
  refine invariant_of_run ⟨fun u hu => absurd hu (Multiset.notMem_zero u), fun path _ => ⟨rfl, rfl⟩⟩
    ?_ ?_ hrun hfree
  · intro h s s' event hbudget hidle _ hpool
    have hhanded : ∀ path, handedOver path (event :: h) = handedOver path h := by
      intro path
      rw [handedOver, handOvers_idle hidle]
      rfl
    constructor
    · intro u hu
      rw [hpool] at hu
      obtain ⟨hretries, hover, hsame⟩ := hbudget.flying u hu
      refine ⟨(steps_idle hidle h).symm ▸ hretries, ?_, by rw [handOvers_idle hidle]; exact hsame⟩
      rw [steps_idle hidle, hhanded]
      exact hover
    · intro path hpath
      rw [steps_idle hidle] at hpath ⊢
      rw [hhanded]
      exact hbudget.unsealed path hpath
  · intro h s s' loop e actions hrun hbudget hcarried hfree
    have hdistinct := distinct_of_run hrun hfree.tail hcarried.steps
    obtain ⟨taken, rest, hcompletes, hbefore, -⟩ := hcarried.uploads
    refine hbudget.step hcarried hfree.head hdistinct fun u hu => ?_
    exact hbudget.handOver hcarried.steps (maxUploadsRetry_of_run hrun hcarried.steps) hdistinct
      (hbefore ▸ Multiset.le_add_right _ _) hcompletes hu

/-- What a handled event of a run starts: uploads of distinct files, each handed over in turn. -/
theorem handOver_of_run
    (hrun : Run (system (new inputTopics (DiskFileRegistry.new directory os) keyGenerator config))
      h s) {s' : SinkState DiskFileRegistry K} {e : Step DiskFileRegistry K} {actions : List Action}
    (htaken : Taken s e actions s') :
    ((uploadsStarted actions).map ToUpload.path).Nodup ∧
      ∀ u ∈ uploadsStarted actions, HandOver config.maxUploadsRetry h e u := by
  have hfree := fatalFree_of_run hrun htaken.running
  have hdistinct := distinct_of_run hrun hfree htaken.steps
  obtain ⟨taken, hle, hcompletes⟩ := htaken.completes
  refine ⟨hdistinct.answered.sublist (htaken.started.map ToUpload.path), fun u hu => ?_⟩
  exact (budget_of_run hrun hfree).handOver htaken.steps
    (maxUploadsRetry_of_run hrun htaken.steps) hdistinct hle hcompletes (htaken.started.subset hu)

/-- An event of a run is taken from the end of the run before it. -/
theorem taken_of_suffix {F : Type} [FileRegistry F] {start : StateMachine F K}
    {h h₀ : List (SinkEvent F K)} {s : SinkState F K} (hrun : Run (system start) h s) {loop : Loop}
    {e : Step F K} {actions : List Action} (hsuffix : .handled loop e actions :: h₀ <:+ h) :
    ∃ s₀ s₁, Run (system start) h₀ s₀ ∧ Taken s₀ e actions s₁ := by
  obtain ⟨s₁, hrun₁⟩ := hrun.of_suffix hsuffix
  obtain ⟨s₀, hrun₀, hstep⟩ := Run.cons_iff.1 hrun₁
  exact ⟨s₀, s₁, hrun₀, sinkStep_taken hstep⟩

/-- No file is handed over more often than its budget allows. -/
theorem handedOver_le
    (hrun : Run (system (new inputTopics (DiskFileRegistry.new directory os) keyGenerator config))
      h s) (path : PathBuf) : handedOver path h ≤ config.maxUploadsRetry + 1 := by
  induction hrun with
  | start hinit => exact Nat.zero_le _
  | @step h s s' event hprev hstep ih =>
      cases event with
      | handled loop e actions =>
          obtain ⟨hnodup, hhandOver⟩ := handOver_of_run hprev (sinkStep_taken hstep)
          rw [handedOver_cons]
          by_cases hmem : path ∈ (uploadsStarted actions).map ToUpload.path
          · obtain ⟨u, hu, rfl⟩ := List.mem_map.1 hmem
            have hretries := (hhandOver u hu).retries
            rw [List.count_eq_one_of_mem hnodup hmem]
            omega
          · rw [List.count_eq_zero.2 hmem, Nat.zero_add]
            exact ih
      | _ => exact ih

/-- Every hand-over of a file carries the same key and the same contents. -/
theorem handOvers_same
    (hrun : Run (system (new inputTopics (DiskFileRegistry.new directory os) keyGenerator config))
      h s) : ∀ u ∈ handOvers h, ∀ v ∈ handOvers h, u.path = v.path →
      u.objectKey = v.objectKey ∧ u.file = v.file := by
  induction hrun with
  | start hinit => exact fun u hu => absurd hu List.not_mem_nil
  | @step h s s' event hprev hstep ih =>
      cases event with
      | handled loop e actions =>
          obtain ⟨hnodup, hhandOver⟩ := handOver_of_run hprev (sinkStep_taken hstep)
          intro u hu v hv hpath
          rcases mem_handOvers_cons.1 hu with hu | hu
          · rcases mem_handOvers_cons.1 hv with hv | hv
            · rw [List.inj_on_of_nodup_map hnodup hu hv hpath]
              exact ⟨rfl, rfl⟩
            · obtain ⟨hkey, hfile⟩ := (hhandOver u hu).same v hv hpath.symm
              exact ⟨hkey.symm, hfile.symm⟩
          · rcases mem_handOvers_cons.1 hv with hv | hv
            · exact (hhandOver v hv).same u hu hpath
            · exact ih u hu v hv hpath
      | _ => exact ih

/-- In every run, a sealed file is handed to the uploader at most once more than it may be retried,
always with the same key, path and offsets.  At its hand-over number `j` exactly `j` failures of it
have been handled and `j` of its retries are spent; without overflow the uploader computes `j` as the
attempt and the backoff of attempt `j`, which is bounded and grows with `j`.  A completed upload is
answered `Fatal` exactly when it is the failure that exceeds the retries of its file. -/
theorem retry_budget
    (hrun : Run (system (new inputTopics (DiskFileRegistry.new directory os) keyGenerator config))
      h s) :
    (∀ path, handedOver path h ≤ config.maxUploadsRetry + 1) ∧
      (∀ u ∈ handOvers h, ∀ v ∈ handOvers h, u.path = v.path →
        u.objectKey = v.objectKey ∧ u.file = v.file) ∧
      (∀ loop e actions h₀, .handled loop e actions :: h₀ <:+ h →
        ((uploadsStarted actions).map ToUpload.path).Nodup ∧
        ∀ u ∈ uploadsStarted actions, ∀ j, handedOver u.path h₀ = j →
          failures u.path (requests (e :: steps h₀)) = j ∧
          j ≤ config.maxUploadsRetry ∧ u.retries = config.maxUploadsRetry - j ∧
          (⟨config.maxUploadsRetry⟩ : S3Upload).attempt u = some j ∧
          (⟨config.maxUploadsRetry⟩ : S3Upload).backoffMs u = some (S3Upload.backoffAt j)) ∧
      (Monotone S3Upload.backoffAt ∧ ∀ j, S3Upload.backoffAt j ≤ 5000) ∧
      ∀ loop e actions h₀, .handled loop e actions :: h₀ <:+ h →
        ∀ result, e.request = .uploadCompletion result →
          ((∃ u error, result = .failure u error ∧
                failures u.path (requests (e :: steps h₀)) = config.maxUploadsRetry + 1) ∧
              e.responses =
                [.fatal (.s3Upload "maximum number of retries reached for S3 upload")]) ∨
            ((∀ u error, result = .failure u error →
                failures u.path (requests (e :: steps h₀)) ≤ config.maxUploadsRetry) ∧
              NoFatal e.responses) := by
  refine ⟨handedOver_le hrun, handOvers_same hrun, ?_,
    ⟨S3Upload.backoffAt_monotone, S3Upload.backoffAt_le⟩, ?_⟩
  · intro loop e actions h₀ hsuffix
    obtain ⟨s₀, s₁, hrun₀, htaken⟩ := taken_of_suffix hrun hsuffix
    obtain ⟨hnodup, hhandOver⟩ := handOver_of_run hrun₀ htaken
    refine ⟨hnodup, ?_⟩
    rintro u hu j rfl
    have hretries := (hhandOver u hu).retries
    have hattempt : (⟨config.maxUploadsRetry⟩ : S3Upload).attempt u = some _ :=
      S3Upload.attempt_eq hretries
    exact ⟨(hhandOver u hu).failed, by omega, by omega, hattempt, S3Upload.backoffMs_eq hattempt⟩
  · intro loop e actions h₀ hsuffix result hrequest
    obtain ⟨s₀, s₁, hrun₀, htaken⟩ := taken_of_suffix hrun hsuffix
    exact (budget_of_run hrun₀ (fatalFree_of_run hrun₀ htaken.running)).fatal htaken hrequest

end Runs

/-- The upload under way fails. -/
def failedChoices : List (Ambient × Choice) :=
  [calm (.handle none), calm (.complete 0 (some (.s3Upload "refused")))]

/-- The file of `sealedChoices` fails, is tried again, and its second failure is handled last. -/
theorem retry_budget_sample :
    (∀ path, handedOver path (play sampleStart (failedChoices ++ failedChoices ++ sealedChoices)).1
        ≤ 2) ∧
      ((steps (play sampleStart (failedChoices ++ failedChoices ++ sealedChoices)).1).head?.map
          Step.responses) =
        some [.fatal (.s3Upload "maximum number of retries reached for S3 upload")] := by
  obtain ⟨hle, -, -, -, hfatal⟩ :=
    retry_budget (run_play sampleStart (failedChoices ++ failedChoices ++ sealedChoices))
  refine ⟨hle, ?_⟩
  rcases hfatal .event _ _ _ (List.suffix_refl _) _ rfl with ⟨-, hanswer⟩ | ⟨hbelow, -⟩
  · exact congrArg some hanswer
  · -- two failures have been handled, one retry is allowed
    exact absurd (hbelow _ _ rfl) (by decide)

end Sink

end S3Sink
