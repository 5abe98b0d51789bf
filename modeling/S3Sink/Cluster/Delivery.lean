import S3Sink.Cluster.Tracking

/-!
# Delivery — at least once, whatever stops and whatever is revoked

What the group has committed for a partition covers only records that are in an object: whichever
members stop and start again, however partitions move between them, and in whatever order the broker
takes the commits it is sent, also those of a member that has lost the partition since.

* `reported_of_list` — a list names an offset only if everything before it, from the first one
  consumed on, was reported;
* `Sound` — what every event of the group keeps;
* `at_least_once` — whole runs.
-/

namespace S3Sink

open TransitionSystem StateMachine Placement Sink

variable {ι K : Type}

/-! ## What one sink commits and stores -/

/-- A list the sink hands to `consumer.commit` is one it was answered. -/
theorem mem_commitsOf {body : Response → List Action × Flow}
    (hbody : ∀ response tpl, tpl ∈ commitsOf (body response).1 →
      response = .commitAsync tpl ∨ response = .commitSync tpl)
    {responses : List Response} {tpl : TopicPartitionList}
    (hmem : tpl ∈ commitsOf (forResponses body responses).1) :
    .commitAsync tpl ∈ responses ∨ .commitSync tpl ∈ responses := by
  obtain ⟨action, haction, hcommit⟩ := List.mem_filterMap.1 hmem
  obtain ⟨response, hresponse, hcarried⟩ := mem_forResponses haction
  rcases hbody response tpl (List.mem_filterMap.2 ⟨action, hcarried, hcommit⟩) with rfl | rfl
  · exact Or.inl hresponse
  · exact Or.inr hresponse

theorem mem_commitsOf_handleCommit {commitError : Option SinkError} {tpl tpl' : TopicPartitionList}
    {mode : CommitMode} (hmem : tpl' ∈ commitsOf (handleCommit commitError tpl mode).1) :
    tpl = tpl' := by
  unfold handleCommit at hmem
  split at hmem
  · cases commitError <;> exact (List.mem_singleton.1 hmem).symm
  · exact absurd hmem List.not_mem_nil

theorem mem_committedBy [KeyGenerator K] {s s' : SinkState DiskFileRegistry K} {loop : Loop}
    {e : Step DiskFileRegistry K} {actions : List Action} {tpl : TopicPartitionList}
    (hstep : SinkStep s (.handled loop e actions) s') (hmem : tpl ∈ commitsOf actions) :
    .commitAsync tpl ∈ e.responses ∨ .commitSync tpl ∈ e.responses := by
  cases hstep with
  | revoke =>
      refine mem_commitsOf (fun response tpl h => ?_) hmem
      cases response <;> exact absurd h List.not_mem_nil
  | event commitError _ _ hloop =>
      have hactions : actions = (forResponses (eventLoopResponse commitError) e.responses).1 := by
        rw [hloop]
      rw [hactions] at hmem
      refine mem_commitsOf (fun response tpl h => ?_) hmem
      cases response with
      | commitAsync tpl' => exact Or.inl (by rw [mem_commitsOf_handleCommit h])
      | commitSync tpl' => exact Or.inr (by rw [mem_commitsOf_handleCommit h])
      | _ => exact absurd h List.not_mem_nil
  | drain _ _ hloop =>
      rw [drain_actions hloop] at hmem
      exact absurd hmem List.not_mem_nil
  | final commitError _ _ hloop =>
      have hactions : actions = (forResponses (finalResponse commitError) e.responses).1 := by
        rw [hloop]
      rw [hactions] at hmem
      refine mem_commitsOf (fun response tpl h => ?_) hmem
      cases response with
      | commitSync tpl' => exact Or.inr (by rw [mem_commitsOf_handleCommit h])
      | _ => exact absurd h List.not_mem_nil

variable [KeyGenerator K]
variable {inputTopics : List (TopicConfig × List TopicName)} {directory : PathBuf}
variable {os : OperatingSystem} {keyGenerator : K} {config : StateMachineConfiguration}

/-- A list names the offset that the book of the partition is moved to. -/
theorem book_of_list {h : List (SinkEvent DiskFileRegistry K)}
    {s : SinkState DiskFileRegistry K} {sm' : StateMachine DiskFileRegistry K}
    {e : Step DiskFileRegistry K} {tpl : TopicPartitionList} {p : TopicId} {c : Int}
    (hrun : Run (Sink.system (new inputTopics (DiskFileRegistry.new directory os) keyGenerator
      config)) h s)
    (hphase : ∀ result, s.phase ≠ .returned result) (hstep : Steps s.stateMachine e sm')
    (hanswer : .commitAsync tpl ∈ e.responses ∨ .commitSync tpl ∈ e.responses)
    (hoffset : tpl.offsetOf p = some c) :
    ∃ w, (Book.after p (requests (steps h))).watermark = some w ∧
      c = commitPoint w (Book.after p (requests (steps h))).uploaded ∧ w < c := by
  have hfree := fatalFree_of_run hrun hphase
  rcases hstep.cases.commit_responses with hnone | ⟨currentAssignment, tpl', -, hcommit⟩
  · exact absurd hanswer (not_or.2 (hnone tpl))
  obtain ⟨hrequest, hlist, hnofatal⟩ : History.assignment? e.request = some currentAssignment ∧
      committedList? e.responses = some tpl ∧ NoFatal e.responses := by
    rcases hcommit with ⟨hrequest, hresponses⟩ | ⟨hrequest, hresponses⟩
    all_goals
      rw [hresponses] at hanswer ⊢
      rw [hrequest]
      refine ⟨rfl, ?_, by simp [NoFatal]⟩
      simp only [List.mem_singleton, reduceCtorEq, or_false, false_or] at hanswer
      cases hanswer
      rfl
  -- the list reads the book
  have hemits := hstep.cases.offsetOf hnofatal hrequest p
  rw [hlist, Option.bind_some, hoffset, hstep.reordered.book,
    book_after_run (run_steps hrun) hfree] at hemits
  exact (Book.emits_eq_some.1 hemits.symm).2

/-- A list names an offset only if every offset before it, from the first one consumed since the
last revocation, was reported, the one right before it among them. -/
theorem reported_of_list {h : List (SinkEvent DiskFileRegistry K)}
    {s : SinkState DiskFileRegistry K} {sm' : StateMachine DiskFileRegistry K}
    {e : Step DiskFileRegistry K} {tpl : TopicPartitionList} {p : TopicId} {c : Int}
    (hrun : Run (Sink.system (new inputTopics (DiskFileRegistry.new directory os) keyGenerator
      config)) h s)
    (hphase : ∀ result, s.phase ≠ .returned result) (hstep : Steps s.stateMachine e sm')
    (hanswer : .commitAsync tpl ∈ e.responses ∨ .commitSync tpl ∈ e.responses)
    (hoffset : tpl.offsetOf p = some c) :
    (∃ first, (History.consumedSince p (requests (steps h))).head? = some first ∧
      ∀ n, first.val ≤ n → n < c → History.OffsetReported p (requests (steps h)) n) ∧
      History.OffsetReported p (requests (steps h)) (c - 1) := by
  obtain ⟨w, hw, rfl, hprogress⟩ := book_of_list hrun hphase hstep hanswer hoffset
  have hbacked := Backed.after p (requests (steps h))
  constructor
  -- what the book has passed was reported
  · obtain ⟨f, hfirst, hreported⟩ := hbacked.commitPoint hw
    rw [Reference.first_after] at hfirst
    obtain ⟨first, hhead, rfl⟩ := Option.map_eq_some_iff.1 hfirst
    exact ⟨first, hhead, hreported⟩
  -- the last step of the walk was over an offset in the book
  · obtain ⟨o, ho, hlast⟩ := exists_of_lt_commitPoint (Int.le_sub_one_of_lt hprogress)
      (Int.sub_lt_self _ Int.one_pos)
    exact hlast ▸ hbacked.uploaded o ho

/-! ## What every event of the group keeps -/

/-- The line of the record is in an object, unless the group began behind the record. -/
def InObject (inputTopics : List (TopicConfig × List TopicName)) (c : Cluster ι K)
    (record : Message) : Prop :=
  (∀ origin ∈ c.origins record.topicId, origin ≤ record.offset.val) →
    ∀ line, lineOf (Cache.newConfigs inputTopics) record = some line →
      ∃ object ∈ c.objects, line <:+: object

/-- What a sink has been told is uploaded is in an object. -/
def Stores (inputTopics : List (TopicConfig × List TopicName)) (requests : List Request)
    (objects : List Bytes) : Prop :=
  ∀ p n, History.OffsetReported p requests n →
    ∃ record ∈ consumedRecords requests, record.topicId = p ∧ record.offset.val = n ∧
      ∀ line, lineOf (Cache.newConfigs inputTopics) record = some line →
        ∃ object ∈ objects, line <:+: object

/-- A member, since it was last started. -/
structure Member.Sound (log : Log) (inputTopics : List (TopicConfig × List TopicName))
    (c : Cluster ι K) (member : Member K) (h : List (SinkEvent DiskFileRegistry K)) : Prop where
  run : ∃ directory os keyGenerator config,
    Run (Sink.system (new inputTopics (DiskFileRegistry.new directory os) keyGenerator config)) h
      member.sink
  tracks : (∀ result, member.sink.phase ≠ .returned result) →
    Tracks log (InObject inputTopics c) (requests (steps h)) member.sink.phase member.consumer
  stores : (∀ result, member.sink.phase ≠ .returned result) →
    Stores inputTopics (requests (steps h)) c.objects

/-- The group. -/
structure Cluster.Sound [DecidableEq ι] (log : Log)
    (inputTopics : List (TopicConfig × List TopicName)) (h : List (ClusterEvent ι K))
    (c : Cluster ι K) : Prop where
  members : ∀ i, (c.members i).Sound log inputTopics c (sinkEvents i h)
  committed : ∀ p n, c.committed p = some n →
    log.DeliveredBelow (InObject inputTopics c) p n
  commits : ∀ tpl ∈ c.commits, ∀ p n, tpl.offsetOf p = some n →
    log.DeliveredBelow (InObject inputTopics c) p n

theorem event_branch {s s' : SinkState DiskFileRegistry K} {e : Step DiskFileRegistry K}
    {actions : List Action} (h : SinkStep s (.handled .event e actions) s') :
    ∃ branch, s.phase = .polled branch ∧ e.request = branch.request := by
  cases h with
  | event _ _ hrequest _ => exact ⟨_, rfl, hrequest⟩

section Growth

variable {log : Log} {c c' : Cluster ι K}

omit [KeyGenerator K] in
/-- Objects stay, and origins are only added. -/
theorem InObject.mono (horigins : ∀ p, c.origins p ⊆ c'.origins p)
    (hobjects : c.objects ⊆ c'.objects) {record : Message} (h : InObject inputTopics c record) :
    InObject inputTopics c' record := by
  intro hbehind line hline
  obtain ⟨object, hobject, hinfix⟩ :=
    h (fun origin horigin => hbehind origin (horigins _ horigin)) line hline
  exact ⟨object, hobjects hobject, hinfix⟩

theorem Member.Sound.mono {member : Member K} {h : List (SinkEvent DiskFileRegistry K)}
    (hsound : member.Sound log inputTopics c h) (horigins : ∀ p, c.origins p ⊆ c'.origins p)
    (hobjects : c.objects ⊆ c'.objects) : member.Sound log inputTopics c' h where
  run := hsound.run
  tracks hphase := (hsound.tracks hphase).mono fun _ => InObject.mono horigins hobjects
  stores hphase p n hreported := by
    obtain ⟨record, hrecord, hp, hn, hline⟩ := hsound.stores hphase p n hreported
    refine ⟨record, hrecord, hp, hn, fun line h => ?_⟩
    obtain ⟨object, hobject, hinfix⟩ := hline line h
    exact ⟨object, hobjects hobject, hinfix⟩

theorem Member.Started.sound {member : Member K} (h : member.Started inputTopics) :
    member.Sound log inputTopics c [] := by
  obtain ⟨directory, os, keyGenerator, config, rfl⟩ := h
  refine ⟨⟨directory, os, keyGenerator, config, Run.start rfl⟩, fun _ => Tracks.start, fun _ => ?_⟩
  rintro p n ⟨path, offsets, hmem, -⟩
  exact absurd hmem List.not_mem_nil

/-- A rebalance, of which the sink knows nothing yet. -/
theorem Member.Sound.rebalanced {member : Member K} {h : List (SinkEvent DiskFileRegistry K)}
    (hsound : member.Sound log inputTopics c h) {consumer' : Consumer}
    (htracks : ∀ requests,
      Tracks log (InObject inputTopics c) requests member.sink.phase member.consumer →
      Tracks log (InObject inputTopics c) requests member.sink.phase consumer') :
    ({ member with consumer := consumer' } : Member K).Sound log inputTopics c h where
  run := hsound.run
  tracks hphase := htracks _ (hsound.tracks hphase)
  stores := hsound.stores

/-- The event of one sink. -/
theorem Member.Sound.sink {member : Member K} {h : List (SinkEvent DiskFileRegistry K)}
    (hsound : member.Sound log inputTopics c h) {event : SinkEvent DiskFileRegistry K}
    {sink' : SinkState DiskFileRegistry K} {consumer' : Consumer}
    (hstep : SinkStep member.sink event sink') (hfeeds : member.consumer.Feeds log event consumer')
    (horigins : c'.origins = c.origins)
    (hobjects : c'.objects =
      c.objects ++ Cluster.storedBy event sink'.stateMachine.fileRegistry) :
    (⟨sink', consumer'⟩ : Member K).Sound log inputTopics c' (event :: h) := by
  have hphase : ∀ result, member.sink.phase ≠ .returned result := running_of_step hstep
  have hgrown : member.Sound log inputTopics c' h :=
    hsound.mono (fun p => by rw [horigins]; exact List.Subset.refl _)
      (by rw [hobjects]; exact List.subset_append_left _ _)
  obtain ⟨directory, os, keyGenerator, config, hrun⟩ := hsound.run
  have hrun' := Run.step hrun hstep
  refine
    { run := ⟨directory, os, keyGenerator, config, hrun'⟩
      tracks := fun hphase' => (hgrown.tracks hphase).sink hstep hfeeds hphase'
      stores := fun hphase' p n hreported => ?_ }
  have hold : ∀ {requests' : List Request},
      (∀ record ∈ consumedRecords (requests (steps h)), record ∈ consumedRecords requests') →
      History.OffsetReported p (requests (steps h)) n →
      ∃ record ∈ consumedRecords requests', record.topicId = p ∧ record.offset.val = n ∧
        ∀ line, lineOf (Cache.newConfigs inputTopics) record = some line →
          ∃ object ∈ c'.objects, line <:+: object := by
    intro requests' hrecords hreported
    obtain ⟨record, hrecord, hstored⟩ := hgrown.stores hphase p n hreported
    exact ⟨record, hrecords record hrecord, hstored⟩
  cases event with
  | handled loop e actions =>
      obtain ⟨path, offsets, hmem, hn⟩ := hreported
      rcases List.mem_cons.1 hmem with hnew | hearlier
      -- the upload whose success is reported
      · obtain ⟨record, hrecord, hp, hoffset, hline⟩ :=
          line_of_reported hrun' (fatalFree_of_run hrun' hphase') hmem hn
        refine ⟨record, hrecord, hp, hoffset, fun line h => ⟨_, ?_, hline line h⟩⟩
        rw [hobjects]
        refine List.mem_append_right _ ?_
        change _ = e.request at hnew
        simp [Cluster.storedBy, ← hnew]
      · refine hold (fun record hrecord => ?_) ⟨path, offsets, hearlier, hn⟩
        exact mem_consumedRecords_cons.2 (Or.inr hrecord)
  | _ => exact hold (fun _ hrecord => hrecord) hreported

/-- What a sink commits is delivered. -/
theorem Member.Sound.commits {member : Member K} {h : List (SinkEvent DiskFileRegistry K)}
    (hsound : member.Sound log inputTopics c h) {loop : Loop} {e : Step DiskFileRegistry K}
    {actions : List Action} {sink' : SinkState DiskFileRegistry K}
    (hstep : SinkStep member.sink (.handled loop e actions) sink') {tpl : TopicPartitionList}
    (htpl : tpl ∈ commitsOf actions) {p : TopicId} {n : Int} (hn : tpl.offsetOf p = some n) :
    log.DeliveredBelow (InObject inputTopics c) p n := by
  have hphase : ∀ result, member.sink.phase ≠ .returned result := running_of_step hstep
  have htracks := hsound.tracks hphase
  obtain ⟨directory, os, keyGenerator, config, hrun⟩ := hsound.run
  obtain ⟨⟨first, hhead, hreported⟩, -⟩ := reported_of_list hrun hphase (sinkStep_steps hstep)
    (mem_committedBy hstep htpl) hn
  intro record hheld hp hlt
  rcases lt_or_ge record.offset.val first.val with hbefore | hfrom
  -- before the first record consumed, or reported since
  · exact htracks.begins p first hhead record hheld hp hbefore
  · obtain ⟨record', hrecord', hp', hoffset, hline⟩ :=
      hsound.stores hphase p _ (hreported record.offset.val hfrom hlt)
    obtain rfl : record' = record := log.unique (htracks.held record' hrecord') hheld
      (hp'.trans hp.symm) (Subtype.ext hoffset)
    exact fun _ => hline

variable [DecidableEq ι] {h : List (ClusterEvent ι K)}

/-- An event of one member, besides which commits and objects are only added. -/
theorem Cluster.Sound.withMember (hsound : c.Sound log inputTopics h) {i : ι} {member : Member K}
    {event : ClusterEvent ι K}
    (hmember : member.Sound log inputTopics c' (sinkEvents i (event :: h)))
    (hother : ∀ j, j ≠ i → sinkEvents j (event :: h) = sinkEvents j h)
    (hmembers : c'.members = Function.update c.members i member)
    (hcommitted : c'.committed = c.committed) (horigins : ∀ p, c.origins p ⊆ c'.origins p)
    (hobjects : c.objects ⊆ c'.objects)
    (hcommits : ∀ tpl ∈ c'.commits, tpl ∈ c.commits ∨ ∀ p n, tpl.offsetOf p = some n →
      log.DeliveredBelow (InObject inputTopics c') p n) :
    c'.Sound log inputTopics (event :: h) where
  members j := by
    rw [hmembers]
    by_cases hj : j = i
    · subst hj
      rw [Function.update_self]
      exact hmember
    · rw [Function.update_of_ne hj, hother j hj]
      exact (hsound.members j).mono horigins hobjects
  committed p n hn :=
    (hsound.committed p n (hcommitted ▸ hn)).mono fun _ => InObject.mono horigins hobjects
  commits tpl htpl p n hn := by
    rcases hcommits tpl htpl with hold | hnew
    · exact (hsound.commits tpl hold p n hn).mono fun _ => InObject.mono horigins hobjects
    · exact hnew p n hn

/-- A change of one member alone. -/
theorem Cluster.Sound.replace (hsound : c.Sound log inputTopics h) {i : ι} {member : Member K}
    {event : ClusterEvent ι K}
    (hmember : member.Sound log inputTopics c (sinkEvents i (event :: h)))
    (hother : ∀ j, j ≠ i → sinkEvents j (event :: h) = sinkEvents j h) :
    (c.withMember i member).Sound log inputTopics (event :: h) :=
  hsound.withMember (hmember.mono (fun _ => List.Subset.refl _) (List.Subset.refl _)) hother rfl rfl
    (fun _ => List.Subset.refl _) (List.Subset.refl _) fun _ htpl => Or.inl htpl

/-- One event of the group. -/
theorem Cluster.Sound.step (hsound : c.Sound log inputTopics h) {event : ClusterEvent ι K}
    (hstep : ClusterStep log inputTopics c event c') : c'.Sound log inputTopics (event :: h) := by
  cases hstep with
  | @resume i p offset hwaits hfree hcommitted =>
      have hmember := (hsound.members i).rebalanced fun _ htracks =>
        htracks.assign hwaits hfree (hsound.committed p offset hcommitted)
      exact hsound.replace hmember fun _ _ => rfl
  | @reset i p offset hwaits hfree hcommitted =>
      have hadded : ∀ p', c.origins p' ⊆ ((c.assign i p offset).beginAt p offset).origins p' := by
        intro p'
        by_cases hp : p' = p
        · subst hp
          rw [Cluster.origins_beginAt, Function.update_self]
          exact List.subset_cons_self _ _
        · rw [Cluster.origins_beginAt, Function.update_of_ne hp]
          exact List.Subset.refl _
      have hgrown : (c.members i).Sound log inputTopics
          ((c.assign i p offset).beginAt p offset) (sinkEvents i h) :=
        (hsound.members i).mono hadded (List.Subset.refl _)
      refine hsound.withMember (hgrown.rebalanced fun _ htracks => htracks.assign hwaits hfree ?_)
        (fun _ _ => rfl) rfl rfl hadded (List.Subset.refl _) fun _ htpl => Or.inl htpl
      -- the group begins behind these records
      intro record _ hp hlt hbehind
      have hmem : offset ∈
          ((c.assign i p offset).beginAt p offset).origins record.topicId := by
        rw [hp, Cluster.origins_beginAt, Function.update_self]
        exact List.mem_cons_self
      exact absurd (hbehind offset hmem) (not_le.2 hlt)
  | @rebalance i partitions hwaits =>
      have hmember := (hsound.members i).rebalanced fun _ htracks =>
        htracks.preRebalance hwaits partitions
      exact hsound.replace hmember fun _ _ => rfl
  | @sink i event sink' consumer' hsink hfeeds =>
      have hmember := hsound.members i
      have hmember' : (⟨sink', consumer'⟩ : Member K).Sound log inputTopics
          (c.afterSink i event sink' consumer') (event :: sinkEvents i h) :=
        hmember.sink hsink hfeeds rfl rfl
      rw [← sinkEvents_sink_self] at hmember'
      refine hsound.withMember hmember' (fun j hj => sinkEvents_sink_other hj event h) rfl rfl
        (fun _ => List.Subset.refl _) (List.subset_append_left _ _) fun tpl htpl => ?_
      rcases List.mem_append.1 htpl with hold | hnew
      · exact Or.inl hold
      · refine Or.inr fun p n hn => ?_
        cases event with
        | handled loop e actions =>
            have hobjects : c.objects ⊆
                (c.afterSink i (.handled loop e actions) sink' consumer').objects :=
              List.subset_append_left _ _
            have horigins : ∀ p, c.origins p ⊆
                (c.afterSink i (.handled loop e actions) sink' consumer').origins p :=
              fun _ => List.Subset.refl _
            exact (hmember.commits hsink hnew hn).mono fun _ => InObject.mono horigins hobjects
        | _ => exact absurd hnew List.not_mem_nil
  | @accept tpl hsent =>
      refine
        { members := fun i =>
            (hsound.members i).mono (fun _ => List.Subset.refl _) (List.Subset.refl _)
          committed := fun p n hn => ?_
          commits := hsound.commits }
      cases hoffset : tpl.offsetOf p with
      | none =>
          simp only [hoffset, Option.none_or] at hn
          exact hsound.committed p n hn
      | some n' =>
          simp only [hoffset, Option.some_or, Option.some.injEq] at hn
          exact hsound.commits tpl hsent p n (hn ▸ hoffset)
  | @restart i member hstarted =>
      refine hsound.replace ?_ fun j hj => if_neg hj.symm
      rw [show sinkEvents i (.restart i :: h) = [] from if_pos rfl]
      exact hstarted.sound

end Growth

namespace Cluster

variable [DecidableEq ι] {log : Log} {h : List (ClusterEvent ι K)} {c : Cluster ι K}

theorem sound_of_run (hrun : Run (system log inputTopics) h c) : c.Sound log inputTopics h := by
  induction hrun with
  | @start c hinit =>
      obtain ⟨hmembers, hcommits, -, horigins⟩ := hinit
      refine
        { members := fun i => (hmembers i).sound
          committed := fun p n hn record _ hp hlt hbehind => ?_
          commits := fun tpl htpl => ?_ }
      -- what was committed before is an origin
      · have hmem : n ∈ c.origins record.topicId := by simp [horigins, hp, hn]
        exact absurd (hbehind n hmem) (not_le.2 hlt)
      · rw [hcommits] at htpl
        exact absurd htpl List.not_mem_nil
  | step _ hstep ih => exact ih.step hstep

/-- In every run of the group, every record of a partition before the offset committed, and not
before an offset the group began at, has its line in an object. -/
theorem at_least_once (hrun : Run (system log inputTopics) h c) {p : TopicId} {n : Int}
    (hcommitted : c.committed p = some n) {record : Message} (hheld : log.Holds record)
    (hp : record.topicId = p) (hbegun : ∀ origin ∈ c.origins p, origin ≤ record.offset.val)
    (hlt : record.offset.val < n) {line : Bytes}
    (hline : lineOf (Cache.newConfigs inputTopics) record = some line) :
    ∃ object ∈ c.objects, line <:+: object := by
  subst hp
  exact (sound_of_run hrun).committed _ n hcommitted record hheld rfl hlt hbegun line hline

/-! ## A concrete run -/

/-- The rebalances of a member are handled in order, the rest waits in its channel. -/
theorem rebalances_of_run (hrun : Run (system log inputTopics) h c) (i : ι) :
    rebalances i h = History.revocations (requests (steps (sinkEvents i h))) ++
      (c.members i).consumer.rebalanceChannel := by
  induction hrun with
  | @start c hinit =>
      obtain ⟨directory, os, keyGenerator, config, hstarted⟩ := hinit.1 i
      rw [hstarted]
      rfl
  | @step h c c' event _ hstep ih =>
      -- a member other than the one of the event
      have hother : ∀ {j : ι} {member : Member K}, i ≠ j →
          (Function.update c.members j member) i = c.members i :=
        fun hne => Function.update_of_ne hne _ _
      cases hstep with
      | @resume j p offset => exact ih.trans (by rw [← channel_assign c j i p offset]; rfl)
      | @reset j p offset => exact ih.trans (by rw [← channel_assign c j i p offset]; rfl)
      | @rebalance j partitions =>
          by_cases hj : i = j
          · subst hj
            simp [rebalances, sinkEvents, withMember, Consumer.preRebalance, ih]
          · simpa [rebalances, sinkEvents, withMember, hother hj, Ne.symm hj] using ih
      | @sink j event sink' consumer' hsink hfeeds =>
          by_cases hj : i = j
          · subst hj
            have hsame : rebalances i (.sink i event :: h) = rebalances i h := rfl
            rw [sinkEvents_sink_self, hsame, ih, ← hfeeds.revocations hsink]
            simp [afterSink, withMember]
          · rw [sinkEvents_sink_other hj]
            simpa [rebalances, afterSink, withMember, hother hj] using ih
      | accept => exact ih
      | @restart j member hstarted =>
          by_cases hj : i = j
          · subst hj
            obtain ⟨directory, os, keyGenerator, config, rfl⟩ := hstarted
            simp [rebalances, sinkEvents, withMember, Consumer.new, steps, requests,
              History.revocations]
          · simpa [rebalances, sinkEvents, withMember, hother hj, Ne.symm hj] using ih

/-- What a sink may rely on, as long as it runs: every assignment it commits with contains the
partitions consumed from, offsets arrive in increasing order, and there is one record for each. -/
structure Environment (requests : List Request) : Prop where
  covered : History.AssignmentsCover requests
  ascending : ∀ p, (History.consumedSince p requests).Pairwise (· < ·)
  unique : OneRecordPerOffset (consumedRecords requests)

/-- In every run of the group, whenever a member handles a request of its event loop, all its
rebalances so far have been handled, in order, and what it relies on holds. -/
theorem environment_of_run {i : ι} {e : Step DiskFileRegistry K} {actions : List Action}
    (hrun : Run (system log inputTopics) (.sink i (.handled .event e actions) :: h) c) :
    Environment (e.request :: requests (steps (sinkEvents i h))) ∧
      History.revocations (requests (steps (sinkEvents i h))) = rebalances i h := by
  obtain ⟨c₀, hrun₀, hstep⟩ := Run.cons_iff.1 hrun
  cases hstep with
  | @sink _ _ sink' consumer' hsink hfeeds =>
      have htracks := ((sound_of_run hrun₀).members i).tracks (running_of_step hsink)
      obtain ⟨branch, hphase, hrequest⟩ := event_branch hsink
      cases hfeeds with
      | event hchannel =>
          constructor
          · rw [hphase] at htracks
            rw [hrequest]
            have hafter : Tracks log (InObject inputTopics c₀)
                (branch.request :: requests (steps (sinkEvents i h))) .eventLoop _ :=
              htracks.event hchannel rfl
            exact ⟨hafter.covered, hafter.ascending, fun r hr r' hr' =>
              log.unique (hafter.held r hr) (hafter.held r' hr')⟩
          · rw [rebalances_of_run hrun₀ i, hchannel, List.append_nil]

/-- A member that plays the given choices plays one more. -/
theorem run_play {event : SinkEvent DiskFileRegistry K} {i : ι} {consumer consumer' : Consumer}
    (start : StateMachine DiskFileRegistry K) (choices : List (Ambient × Choice))
    (choice : Ambient × Choice) (hrun : Run (system log inputTopics) h c)
    (hmember : c.members i = ⟨(play start choices).2.state, consumer⟩)
    (hevent : (play start (choice :: choices)).1 = event :: (play start choices).1)
    (hfeeds : consumer.Feeds log event consumer') :
    Run (system log inputTopics) (.sink i event :: h)
      (c.afterSink i event (play start (choice :: choices)).2.state consumer') := by
  have hsink : SinkStep (play start choices).2.state event
      (play start (choice :: choices)).2.state := by
    obtain ⟨ambient, choice⟩ := choice
    rw [play] at hevent ⊢
    cases hadvance : advance ambient choice (play start choices).2 with
    | none => simp [hadvance] at hevent
    | some out =>
        simp only [hadvance, List.cons.injEq, and_true] at hevent ⊢
        subst hevent
        exact sinkStep_advance hadvance
  exact Run.step hrun (ClusterStep.sink (by rw [hmember]; exact hsink)
    (by rw [hmember]; exact hfeeds))

end Cluster

/-- A partition next to `samplePartition`. -/
def otherPartition : TopicId := ⟨⟨"topic"⟩, 1⟩

/-- The first record of the other partition. -/
def otherRecord : Message := { sampleRecord (sampleOffset 0) with partition := 1 }

/-- A log with two records in one partition and one in another. -/
def sampleLog : Log where
  Holds record := record ∈
    [sampleRecord (sampleOffset 0), sampleRecord (sampleOffset 1), otherRecord]
  unique hheld hheld' := by
    have hunique : ∀ record ∈ [sampleRecord (sampleOffset 0), sampleRecord (sampleOffset 1),
        otherRecord], ∀ record' ∈ [sampleRecord (sampleOffset 0), sampleRecord (sampleOffset 1),
          otherRecord], record.topicId = record'.topicId → record.offset = record'.offset →
        record = record' := by decide
    exact hunique _ hheld _ hheld'

/-- The consumer stands at the offset of the record. -/
theorem isNext_of_position {consumer : Consumer} {record : Message} (hheld : sampleLog.Holds record)
    (hposition : consumer.position record.topicId = some record.offset.val) :
    consumer.IsNext sampleLog record :=
  ⟨hheld, record.offset.val, hposition, le_rfl, fun _ _ _ hlt => hlt⟩

theorem assigns_iff {tpl : TopicPartitionList} {p : TopicId} :
    tpl.Assigns p ↔ p ∈ tpl.elements.map TopicPartitionListElem.topicId := by
  obtain ⟨⟨topic⟩, partition⟩ := p
  unfold TopicPartitionList.Assigns TopicPartitionList.findPartition
  simp [TopicPartitionListElem.topicId]

/-- The topic of `sampleStart`. -/
def sampleTopics : List (TopicConfig × List TopicName) :=
  [(⟨.jsonStringDecoder, .topicVersion⟩, [⟨"topic"⟩])]

/-- A group of two sinks that have just been started. -/
def sampleGroup : Cluster Bool IdentityKeyGenerator where
  members _ := ⟨(play sampleStart []).2.state, Consumer.new⟩
  committed _ := none
  commits := []
  objects := []
  origins _ := []

/-- The record is taken. -/
def recordChoice (record : Message) : Ambient × Choice :=
  calm (.ready (.record record))

/-- The list that commits the first record. -/
def sampleList : TopicPartitionList := ⟨[⟨"topic", 0, some 1⟩]⟩

/-- The record is taken and sealed, its upload completes, and the completion is handled. -/
def uploadedChoices (record : Message) : List (Ambient × Choice) :=
  [calm (.handle none), calm (.complete 0 none), calm (.handle none), recordChoice record]

/-- The consumer that has received the record of the other partition. -/
def otherConsumer : Consumer := (Consumer.new.assign otherPartition 0).receive otherRecord

/-- Two sinks have stored a record each, and the first one commits. -/
structure SampleRun (h : List (ClusterEvent Bool IdentityKeyGenerator))
    (e : Step DiskFileRegistry IdentityKeyGenerator) (actions : List Action)
    (c : Cluster Bool IdentityKeyGenerator) : Prop where
  run : Run (Cluster.system sampleLog sampleTopics) (.sink false (.handled .event e actions) :: h) c
  rebalanced : rebalances false h = [[("other", 0)]]
  assigned : assigned h = [otherPartition, samplePartition]
  sent : sampleList ∈ c.commits
  origins : c.origins samplePartition = [0]
  stored : c.objects.length = 2
  waits : (c.members false).sink.phase.waits = true
  other : c.members true =
    ⟨(play sampleStart (uploadedChoices otherRecord)).2.state, otherConsumer⟩

/-- Each sink begins at offset 0 of a partition of its own.  The one loses another partition and
takes a record; the revocation and the record are handled and the file is uploaded.  So is that of a
record of the other sink, and the first sink commits. -/
theorem sampleGroup_run : ∃ h e actions c, SampleRun h e actions c := by
  have hstarted : ∀ i, (sampleGroup.members i).Started sampleTopics :=
    fun _ => ⟨"/scratch", OperatingSystem.faultless, {}, _, rfl⟩
  have hrun : Run (Cluster.system sampleLog sampleTopics) [] sampleGroup :=
    Run.start ⟨hstarted, rfl, rfl, fun _ => rfl⟩
  have hassigned := Run.step hrun
    (ClusterStep.reset (i := false) (p := samplePartition) 0 rfl rfl rfl)
  have hboth := Run.step hassigned
    (ClusterStep.reset (i := true) (p := otherPartition) 0 rfl rfl rfl)
  have hrebalanced := Run.step hboth (ClusterStep.rebalance (i := false) [("other", 0)] rfl)
  -- the first sink
  have hrecord := Cluster.run_play (i := false) sampleStart []
    (recordChoice (sampleRecord (sampleOffset 0))) hrebalanced rfl rfl
    (Consumer.Feeds.record (isNext_of_position (by simp [sampleLog]) rfl))
  have hrevoked := Cluster.run_play (i := false) sampleStart _ (calm (.revoke [("other", 0)]))
    hrecord rfl rfl (Consumer.Feeds.revoke rfl rfl)
  have hsealed := Cluster.run_play (i := false) sampleStart _ (calm (.handle none)) hrevoked rfl rfl
    (Consumer.Feeds.event rfl)
  have huploaded := Cluster.run_play (i := false) sampleStart _ (calm (.complete 0 none)) hsealed
    rfl rfl Consumer.Feeds.completion
  have hreported := Cluster.run_play (i := false) sampleStart _ (calm (.handle none)) huploaded rfl
    rfl (Consumer.Feeds.event rfl)
  -- the other sink
  have hrecord' := Cluster.run_play (i := true) sampleStart [] (recordChoice otherRecord) hreported
    rfl rfl (Consumer.Feeds.record (isNext_of_position (by simp [sampleLog]) rfl))
  have hsealed' := Cluster.run_play (i := true) sampleStart _ (calm (.handle none)) hrecord' rfl rfl
    (Consumer.Feeds.event rfl)
  have huploaded' := Cluster.run_play (i := true) sampleStart _ (calm (.complete 0 none)) hsealed'
    rfl rfl Consumer.Feeds.completion
  have hreported' := Cluster.run_play (i := true) sampleStart _ (calm (.handle none)) huploaded'
    rfl rfl (Consumer.Feeds.event rfl)
  -- the first sink commits
  have htick := Cluster.run_play (i := false) sampleStart _
    (calm (.ready (.commitTick sampleAssignment))) hreported' rfl rfl (by
      refine Consumer.Feeds.commitTick fun p => ?_
      rw [assigns_iff]
      by_cases hp : p = samplePartition
      · subst hp
        exact iff_of_true (by decide) (by decide)
      · refine iff_of_false (fun hmem => hp (List.mem_singleton.1 hmem)) (not_not.2 ?_)
        change Function.update (fun p' => if p' ∈ revokedTopicIds [("other", 0)] then none else
          Function.update (fun _ => none) samplePartition (some 0) p') samplePartition (some 1) p =
            none
        simp [Function.update_of_ne hp])
  have hlist := Cluster.run_play (i := false) sampleStart _ (calm (.handle none)) htick rfl rfl
    (Consumer.Feeds.event rfl)
  exact ⟨_, _, _, _,
    { run := hlist
      rebalanced := rfl
      assigned := rfl
      sent := List.mem_append_right _ (by decide)
      origins := rfl
      stored := rfl
      waits := rfl
      other := rfl }⟩

/-- The partitions of both sinks. -/
def bothAssignment : TopicPartitionList := ⟨[⟨"topic", 1, none⟩, ⟨"topic", 0, none⟩]⟩

/-- The list that commits the records of the other sink. -/
def movedList : TopicPartitionList := ⟨[⟨"topic", 0, some 2⟩, ⟨"topic", 1, some 1⟩]⟩

/-- The broker takes the commit.  The partition of the first sink is revoked and assigned to the
other one, which goes on behind the record committed, stores the next record and commits. -/
theorem movedGroup_run : ∃ (h : List (ClusterEvent Bool IdentityKeyGenerator))
    (c : Cluster Bool IdentityKeyGenerator), Run (Cluster.system sampleLog sampleTopics) h c ∧
      c.committed samplePartition = some 2 ∧ c.origins samplePartition = [0] ∧
      c.objects.length = 3 ∧ assigned h = [samplePartition, otherPartition, samplePartition] := by
  obtain ⟨h, e, actions, c, hsample⟩ := sampleGroup_run
  have hother := hsample.other
  have haccepted := Run.step hsample.run (ClusterStep.accept hsample.sent)
  have hrevoked := Run.step haccepted (ClusterStep.rebalance (i := false) [("topic", 0)]
    hsample.waits)
  have hmoved := Run.step hrevoked
    (ClusterStep.resume (i := true) (p := samplePartition) (by
      change (c.members true).sink.phase.waits = true
      rw [hother]
      rfl) (by
      change (c.members true).consumer.position samplePartition = none
      rw [hother]
      rfl) (show _ = some 1 from rfl))
  have hrecord := Cluster.run_play (i := true) sampleStart (uploadedChoices otherRecord)
    (recordChoice (sampleRecord (sampleOffset 1))) hmoved (by
      change (⟨(c.members true).sink, (c.members true).consumer.assign samplePartition 1⟩ :
        Member IdentityKeyGenerator) = _
      rw [hother]) rfl
    (Consumer.Feeds.record (isNext_of_position (by simp [sampleLog]) rfl))
  have hsealed := Cluster.run_play (i := true) sampleStart _ (calm (.handle none)) hrecord rfl rfl
    (Consumer.Feeds.event rfl)
  have huploaded := Cluster.run_play (i := true) sampleStart _ (calm (.complete 0 none)) hsealed
    rfl rfl Consumer.Feeds.completion
  have hreported := Cluster.run_play (i := true) sampleStart _ (calm (.handle none)) huploaded rfl
    rfl (Consumer.Feeds.event rfl)
  have htick := Cluster.run_play (i := true) sampleStart _
    (calm (.ready (.commitTick bothAssignment))) hreported rfl rfl (by
      refine Consumer.Feeds.commitTick fun p => ?_
      rw [assigns_iff]
      by_cases hp : p ∈ [otherPartition, samplePartition]
      · refine iff_of_true hp ?_
        rcases List.mem_pair.1 hp with rfl | rfl <;> decide
      · refine iff_of_false hp (not_not.2 ?_)
        obtain ⟨hother, hself⟩ := not_or.1 (mt List.mem_pair.2 hp)
        change Function.update (Function.update otherConsumer.position samplePartition (some 1))
          samplePartition (some 2) p = none
        simp [otherConsumer, Consumer.receive, Consumer.assign, Consumer.new, Function.update_of_ne,
          hself, show otherRecord.topicId = otherPartition from rfl, hother])
  have hlist := Cluster.run_play (i := true) sampleStart _ (calm (.handle none)) htick rfl rfl
    (Consumer.Feeds.event rfl)
  have hsent := Run.step hlist
    (ClusterStep.accept (show movedList ∈ _ from List.mem_append_right _ (by decide)))
  refine ⟨_, _, hsent, rfl, hsample.origins, ?_, congrArg (samplePartition :: ·) hsample.assigned⟩
  change (c.objects ++ [] ++ [] ++ [] ++ [_] ++ [] ++ []).length = 3
  simp [hsample.stored]

theorem environment_of_run_sample : ∃ (h : List (ClusterEvent Bool IdentityKeyGenerator))
    (e : Step DiskFileRegistry IdentityKeyGenerator) (actions : List Action) (c : Cluster Bool _),
    Run (Cluster.system sampleLog sampleTopics) (.sink false (.handled .event e actions) :: h) c ∧
      Cluster.Environment (e.request :: requests (steps (sinkEvents false h))) ∧
      History.revocations (requests (steps (sinkEvents false h))) = [[("other", 0)]] := by
  obtain ⟨h, e, actions, c, hsample⟩ := sampleGroup_run
  have henvironment := Cluster.environment_of_run hsample.run
  rw [hsample.rebalanced] at henvironment
  exact ⟨h, e, actions, c, hsample.run, henvironment⟩

/-- A partition moves from one sink to the other, and both stop and are started again. -/
theorem at_least_once_sample : ∃ (h : List (ClusterEvent Bool IdentityKeyGenerator))
    (c : Cluster Bool _), Run (Cluster.system sampleLog sampleTopics) h c ∧
      assigned h = [samplePartition, otherPartition, samplePartition] ∧ c.objects.length = 3 ∧
      ∀ record ∈ [sampleRecord (sampleOffset 0), sampleRecord (sampleOffset 1)], ∃ line,
        lineOf (Cache.newConfigs sampleTopics) record = some line ∧
          ∃ object ∈ c.objects, line <:+: object := by
  obtain ⟨h, c, hrun, hcommitted, horigins, hstored, hassigned⟩ := movedGroup_run
  have hstopped := Run.step hrun (ClusterStep.restart (i := false)
    ⟨"/scratch", OperatingSystem.faultless, {}, sampleStart.config, rfl⟩)
  have hrestarted := Run.step hstopped (ClusterStep.restart (i := true)
    ⟨"/scratch", OperatingSystem.faultless, {}, sampleStart.config, rfl⟩)
  refine ⟨_, _, hrestarted, hassigned, hstored, fun record hrecord => ?_⟩
  have hsample : ∀ record ∈ [sampleRecord (sampleOffset 0), sampleRecord (sampleOffset 1)],
      record.topicId = samplePartition ∧ 0 ≤ record.offset.val ∧ record.offset.val < 2 ∧
        (lineOf (Cache.newConfigs sampleTopics) record).isSome := by decide
  obtain ⟨hp, hfrom, hlt, hsome⟩ := hsample record hrecord
  obtain ⟨line, hline⟩ := Option.isSome_iff_exists.1 hsome
  refine ⟨line, hline, Cluster.at_least_once (p := samplePartition) (n := 2) hrestarted hcommitted
    ?_ hp ?_ hlt hline⟩
  · exact List.mem_append_left [otherRecord] hrecord
  · change ∀ origin ∈ c.origins samplePartition, _
    rw [horigins]
    intro origin horigin
    rw [List.mem_singleton.1 horigin]
    exact hfrom

end S3Sink
