import S3Sink.Commit.Refinement

/-!
# Broker — commits the broker rejects

The watermark moves when a list is built, before the broker has answered, and a rejection is only
logged.  A history with broker answers is a list of pairs: a step, and whether the broker accepts
the list that the step was answered with.

* `watermark_eq_named` — the watermark is the last offset named in a list since the last revocation;
* `final_commit_covers_iff` — when the list of `FinalCommit` makes up for the rejections.
-/

namespace S3Sink

/-- The offset a list gives a partition. -/
def TopicPartitionList.offsetOf (self : TopicPartitionList) (p : TopicId) : Option Int :=
  (self.findPartition p.topicName.name p.partition).bind TopicPartitionListElem.offset

theorem TopicPartitionList.offsetOf_eq_some {tpl : TopicPartitionList} {p : TopicId} {c : Int}
    (hnodup : (tpl.elements.map TopicPartitionListElem.topicId).Nodup) :
    tpl.offsetOf p = some c ↔ tpl.Contains p c := by
  unfold offsetOf findPartition
  constructor
  · intro hsome
    obtain ⟨e, hfind, hoffset⟩ := Option.bind_eq_some_iff.1 hsome
    have hkey := List.find?_some hfind
    simp only [Bool.and_eq_true, decide_eq_true_eq] at hkey
    obtain ⟨topic, partition, offset⟩ := e
    obtain ⟨rfl, rfl⟩ := hkey
    cases hoffset
    exact List.mem_of_find?_eq_some hfind
  · intro hmem
    cases hfind : tpl.elements.find? fun e =>
        e.topic = p.topicName.name && e.partition = p.partition with
    | none => simpa using List.find?_eq_none.1 hfind _ hmem
    | some e =>
        have hkey := List.find?_some hfind
        simp only [Bool.and_eq_true, decide_eq_true_eq] at hkey
        -- the list names the partition once
        have hsame : e = ⟨p.topicName.name, p.partition, some c⟩ :=
          List.inj_on_of_nodup_map hnodup (List.mem_of_find?_eq_some hfind) hmem
            (by simp [TopicPartitionListElem.topicId, hkey])
        simp [hsame]

namespace StateMachine

open TransitionSystem

variable {F K : Type}

/-- The offset last named for a partition in a list since the partition was last revoked. -/
def namedSince (p : TopicId) : List (Step F K) → Option Int
  | [] => none
  | e :: h =>
      match e.request with
      | .commitTick _ =>
          ((committedList? e.responses).bind fun tpl => tpl.offsetOf p).or (namedSince p h)
      | .finalCommit _ =>
          ((committedList? e.responses).bind fun tpl => tpl.offsetOf p).or (namedSince p h)
      | .revokePartitions partitions =>
          if p ∈ revokedTopicIds partitions then none else namedSince p h
      | _ => namedSince p h

/-- The first offset of a partition consumed since it was last revoked. -/
def firstSince (p : TopicId) (h : List (Step F K)) : Option Int :=
  (History.consumedSince p (requests h)).head?.map Subtype.val

/-- Some list that the broker accepted contains the partition with the offset. -/
def Accepted (h : List (Step F K × Bool)) (p : TopicId) (c : Int) : Prop :=
  ∃ answered ∈ h, answered.2 = true ∧
    ∃ tpl, Response.commitAsync tpl ∈ answered.1.responses ∧ tpl.Contains p c

variable [FileRegistry F] [KeyGenerator K]
variable {inputTopics : List (TopicConfig × List TopicName)} {fileRegistry : F} {keyGenerator : K}
variable {config : StateMachineConfiguration}

omit [FileRegistry F] [KeyGenerator K] in
theorem firstSince_eq (p : TopicId) (h : List (Step F K)) :
    firstSince p h = (Reference.after p (requests h)).first :=
  (Reference.first_after p (requests h)).symm

/-- What the list of a commit request gives a partition. -/
theorem Handled.offsetOf {ambient : Ambient} {sm sm' : StateMachine F K} {request : Request}
    {responses : List Response} (h : Handled ambient sm request responses sm')
    (hfree : NoFatal responses) {currentAssignment : TopicPartitionList}
    (hrequest : History.assignment? request = some currentAssignment) (p : TopicId) :
    ((committedList? responses).bind fun tpl => tpl.offsetOf p) =
      (sm.book p).emits p currentAssignment := by
  obtain ⟨tpl, hanswer, hnodup, -, hcontains⟩ := h.commit_list hfree hrequest
  rw [hanswer, Option.bind_some]
  apply Option.ext
  intro c
  rw [TopicPartitionList.offsetOf_eq_some hnodup]
  exact hcontains p c

theorem Handled.finalCommit_responses {ambient : Ambient} {sm sm' : StateMachine F K}
    {responses : List Response} {currentAssignment tpl : TopicPartitionList}
    (h : Handled ambient sm (.finalCommit currentAssignment) responses sm')
    (hanswer : committedList? responses = some tpl) : responses = [.commitSync tpl] := by
  cases h with
  | committedSync =>
      cases hanswer
      rfl
  | commitFailed => cases hanswer

/-! ## The watermark -/

/-- The watermark is the offset last named, or the first offset consumed; an offset named lies above
the first one. -/
structure NamedOrFirst (watermark named first : Option Int) : Prop where
  eq : watermark = named.or first
  above : ∀ c, named = some c → ∃ w₀, first = some w₀ ∧ w₀ < c

namespace NamedOrFirst

variable {watermark named first : Option Int}

theorem consume (h : NamedOrFirst watermark named first) (o : Int) :
    NamedOrFirst (some (watermark.getD o)) named (some (first.getD o)) := by
  rw [h.eq]
  cases hnamed : named with
  | none => exact ⟨by simp, fun _ hc => by cases hc⟩
  | some c =>
      obtain ⟨w₀, hfirst, hlt⟩ := h.above c hnamed
      refine ⟨by simp, fun c' hc => ⟨w₀, by simp [hfirst], ?_⟩⟩
      cases hc
      exact hlt

/-- A list names an offset above the watermark and raises the watermark to it. -/
theorem commit (h : NamedOrFirst watermark named first) {emits : Option Int}
    (hemits : ∀ c, emits = some c → ∃ w, watermark = some w ∧ w < c) :
    NamedOrFirst (emits.or watermark) (emits.or named) first := by
  refine ⟨by rw [h.eq, Option.or_assoc], fun c hc => ?_⟩
  rcases Option.or_eq_some_iff.1 hc with hemit | ⟨-, hnamed⟩
  · obtain ⟨w, hw, hlt⟩ := hemits c hemit
    rcases Option.or_eq_some_iff.1 (h.eq.symm.trans hw) with hnamed | ⟨-, hfirst⟩
    · obtain ⟨w₀, hfirst, hbelow⟩ := h.above w hnamed
      exact ⟨w₀, hfirst, hbelow.trans hlt⟩
    · exact ⟨w, hfirst, hlt⟩
  · exact h.above c hnamed

/-- One partition at `FinalCommit`: either the offset last named stays the watermark, and then the
list does not name it again, or it is uploaded itself, and then the list names a later one. -/
theorem covers_iff (h : NamedOrFirst watermark named first) (uploaded : BTreeSet Offset)
    (accepted : Int → Prop) :
    (∀ w, watermark.map (fun w' => commitPoint w' uploaded) = some w → first ≠ some w →
        accepted w ∨ ∃ w', watermark = some w' ∧ w = commitPoint w' uploaded ∧ w' < w) ↔
      ∀ c, named = some c → accepted c ∨ ∃ o ∈ uploaded, o.val = c := by
  constructor
  · intro hcovers c hnamed
    obtain ⟨w₀, hfirst, hbelow⟩ := h.above c hnamed
    have hw : watermark = some c := by simp [h.eq, hnamed]
    by_cases hstays : commitPoint c uploaded = c
    · have hmoved : first ≠ some c := by
        rw [hfirst, ne_eq, Option.some.injEq]
        exact hbelow.ne
      rcases hcovers c (by simp [hw, hstays]) hmoved with haccepted | ⟨w', hw', -, hlt⟩
      · exact Or.inl haccepted
      · cases hw.symm.trans hw'
        exact absurd hlt (lt_irrefl c)
    · have hpasses : c < commitPoint c uploaded :=
        lt_of_le_of_ne (le_commitPoint _ _) (Ne.symm hstays)
      exact Or.inr (exists_of_lt_commitPoint le_rfl hpasses)
  · intro hcondition w hfinal hmoved
    obtain ⟨w', hw', hpoint⟩ := Option.map_eq_some_iff.1 hfinal
    by_cases hlt : w' < w
    · exact Or.inr ⟨w', hw', hpoint.symm, hlt⟩
    · -- the list leaves the watermark where an earlier one put it
      obtain rfl : w' = w := le_antisymm (hpoint ▸ le_commitPoint w' uploaded) (not_lt.1 hlt)
      rcases Option.or_eq_some_iff.1 (h.eq.symm.trans hw') with hnamed | ⟨-, hfirst⟩
      · refine Or.inl ((hcondition w' hnamed).resolve_right ?_)
        rintro ⟨o, ho, heq⟩
        exact (commitPoint_isLeast w' uploaded).1.2 o ho (heq.trans hpoint.symm)
      · exact absurd hfirst hmoved

end NamedOrFirst

/-- In every run without `Fatal` the watermark is the offset last named in a list, or the first
offset consumed. -/
theorem watermark_eq_named {h : List (Step F K)} {sm : StateMachine F K}
    (hrun : Run (system (new inputTopics fileRegistry keyGenerator config)) h sm)
    (hfree : FatalFree h) (p : TopicId) :
    NamedOrFirst (sm.watermarkAt p) (namedSince p h) (firstSince p h) := by
  induction hrun with
  | start hinit =>
      rw [hinit]
      exact ⟨rfl, fun _ hc => by cases hc⟩
  | @step h sm sm' e hprev hstep ih =>
      have hbefore := ih hfree.tail
      have hbook : sm'.watermarkAt p = ((sm.book p).step p e.request).watermark := by
        rw [← hstep.book hfree.head]
        rfl
      rw [hbook, firstSince_eq p (e :: h)]
      rw [firstSince_eq] at hbefore
      change NamedOrFirst _ _ ((Reference.after p (requests h)).step p e.request).first
      -- a commit request names what it raises the watermark to
      have hcommit : ∀ currentAssignment,
          History.assignment? e.request = some currentAssignment →
          NamedOrFirst ((sm.book p).commit p currentAssignment).watermark
            (((committedList? e.responses).bind fun tpl => tpl.offsetOf p).or (namedSince p h))
            ((Reference.after p (requests h)).commit p currentAssignment).first := by
        intro currentAssignment hrequest
        rw [hstep.cases.offsetOf hfree.head hrequest, hstep.reordered.book, Book.commit_watermark,
          Reference.commit_first]
        apply hbefore.commit
        intro c hc
        obtain ⟨-, w, hw, -, hlt⟩ := Book.emits_eq_some.1 hc
        exact ⟨w, hw, hlt⟩
      cases hkind : e.request with
      | commitTick currentAssignment =>
          simp only [namedSince, hkind]
          exact hcommit currentAssignment (by rw [hkind]; rfl)
      | finalCommit currentAssignment =>
          simp only [namedSince, hkind]
          exact hcommit currentAssignment (by rw [hkind]; rfl)
      | processRecord record =>
          simp only [namedSince, hkind, Book.step, Reference.step]
          by_cases hp : record.topicId = p
          · simp only [hp, if_true]
            exact hbefore.consume record.offset.val
          · simp only [hp, if_false]
            exact hbefore
      | revokePartitions partitions =>
          simp only [namedSince, hkind, Book.step, Reference.step]
          by_cases hp : p ∈ revokedTopicIds partitions
          · simp only [hp, if_true]
            exact ⟨rfl, fun _ hc => by cases hc⟩
          · simp only [hp, if_false]
            exact hbefore
      | uploadCompletion uploadResult =>
          simp only [namedSince, hkind]
          cases uploadResult <;> exact hbefore
      | uploadTick =>
          simp only [namedSince, hkind]
          exact hbefore
      | shutdownSignal =>
          simp only [namedSince, hkind]
          exact hbefore

/-- `FinalCommit` leaves no assigned partition with a moved watermark that the broker was never
told about, exactly when the offset last named for each partition was accepted in some list or is
itself among the uploaded offsets, so that the walk passes it once more. -/
theorem final_commit_covers_iff {e : Step F K} {h : List (Step F K × Bool)}
    {sm : StateMachine F K} {currentAssignment : TopicPartitionList}
    (hrun : Run (system (new inputTopics fileRegistry keyGenerator config))
      (e :: h.map Prod.fst) sm)
    (hfree : FatalFree (e :: h.map Prod.fst))
    (hrequest : e.request = .finalCommit currentAssignment) :
    (∀ p, currentAssignment.Assigns p → ∀ w, sm.watermarkAt p = some w →
        firstSince p (h.map Prod.fst) ≠ some w →
        Accepted h p w ∨ ∃ tpl, e.responses = [.commitSync tpl] ∧ tpl.Contains p w) ↔
      ∀ p, currentAssignment.Assigns p → ∀ c, namedSince p (h.map Prod.fst) = some c →
        Accepted h p c ∨ ∃ o ∈ e.pre.uploadedAt p, o.val = c := by
  obtain ⟨sm₀, hrun₀, hstep⟩ := Run.cons_iff.1 hrun
  obtain ⟨tpl, hanswer, -, -, hcontains⟩ :=
    hstep.cases.commit_list hfree.head
      (show History.assignment? e.request = some currentAssignment by rw [hrequest]; rfl)
  have hresponses : e.responses = [.commitSync tpl] := by
    have hcases := hstep.cases
    rw [hrequest] at hcases
    exact hcases.finalCommit_responses hanswer
  have hpost : ∀ p, currentAssignment.Assigns p → sm.watermarkAt p =
      (e.pre.watermarkAt p).map fun w => commitPoint w (e.pre.uploadedAt p) := by
    intro p hassigned
    have hbook : sm.book p = (e.pre.book p).commit p currentAssignment := by
      rw [hstep.book hfree.head, hstep.reordered.book, hrequest]
      rfl
    change (sm.book p).watermark = _
    rw [hbook]
    simp only [Book.commit, hassigned, if_true]
    rfl
  have hlist : ∀ p, currentAssignment.Assigns p → ∀ c,
      (∃ tpl, e.responses = [.commitSync tpl] ∧ tpl.Contains p c) ↔
        ∃ w, e.pre.watermarkAt p = some w ∧ c = commitPoint w (e.pre.uploadedAt p) ∧ w < c := by
    intro p hassigned c
    refine Iff.trans ?_ (((hcontains p c).trans Book.emits_eq_some).trans (and_iff_right hassigned))
    constructor
    · rintro ⟨tpl', hresponses', hmem⟩
      cases hresponses.symm.trans hresponses'
      exact hmem
    · exact fun hmem => ⟨tpl, hresponses, hmem⟩
  -- what is left is a fact about one partition
  refine forall₂_congr fun p hassigned => ?_
  have hnamed := watermark_eq_named hrun₀ hfree.tail p
  rw [← hstep.reordered.watermarkAt] at hnamed
  rw [hpost p hassigned]
  simp only [hlist p hassigned]
  exact hnamed.covers_iff (e.pre.uploadedAt p) (Accepted h p)

/-- One record is uploaded, and its offset is named in the list of a commit tick. -/
def namedInputs : List (Ambient × Request) :=
  [quiet (.commitTick sampleAssignment),
    quiet (sampleSuccess "/scratch/.jsonl.zst" (sampleOffset 0)),
    quiet (.processRecord (sampleRecord (sampleOffset 0)))]

/-- The history of `namedInputs`, the broker answering every list alike. -/
def namedHistory (accepts : Bool) : List (Step DiskFileRegistry IdentityKeyGenerator × Bool) :=
  (trace sampleStart namedInputs).1.map fun e => (e, accepts)

theorem final_commit_covers_iff_sample :
    (∀ p, sampleAssignment.Assigns p → ∀ w,
        (trace sampleStart (quiet (.finalCommit sampleAssignment) :: namedInputs)).2.watermarkAt p =
          some w →
        firstSince p ((namedHistory true).map Prod.fst) ≠ some w →
        Accepted (namedHistory true) p w ∨
          ∃ tpl, (stepOn (trace sampleStart namedInputs).2
            (quiet (.finalCommit sampleAssignment))).responses = [.commitSync tpl] ∧
              tpl.Contains p w) ↔
      ∀ p, sampleAssignment.Assigns p → ∀ c,
        namedSince p ((namedHistory true).map Prod.fst) = some c →
        Accepted (namedHistory true) p c ∨
          ∃ o ∈ (trace sampleStart namedInputs).2.uploadedAt p, o.val = c :=
  final_commit_covers_iff
    (run_trace sampleStart (quiet (.finalCommit sampleAssignment) :: namedInputs))
    (by decide) rfl

/-- The broker rejects the only list that named the partition and nothing is revoked; the list of
`FinalCommit` is then empty, although the watermark has moved from 0 to 1. -/
theorem rejected_commit_lost :
    ∃ (e : Step DiskFileRegistry IdentityKeyGenerator)
      (h : List (Step DiskFileRegistry IdentityKeyGenerator × Bool))
      (sm : StateMachine DiskFileRegistry IdentityKeyGenerator),
      Run (system sampleStart) (e :: h.map Prod.fst) sm ∧
      FatalFree (e :: h.map Prod.fst) ∧
      (∀ partitions, Request.revokePartitions partitions ∉ requests (h.map Prod.fst)) ∧
      e.request = .finalCommit sampleAssignment ∧
      sampleAssignment.Assigns samplePartition ∧
      firstSince samplePartition (h.map Prod.fst) = some 0 ∧
      sm.watermarkAt samplePartition = some 1 ∧
      e.responses = [.commitSync TopicPartitionList.new] ∧
      (∀ c, ¬ TopicPartitionList.new.Contains samplePartition c) ∧
      ∀ c, ¬ Accepted h samplePartition c := by
  refine ⟨_, namedHistory false, _,
    run_trace sampleStart (quiet (.finalCommit sampleAssignment) :: namedInputs),
    by decide, ?_, rfl, by decide, by decide, by decide, rfl, ?_, ?_⟩
  · intro partitions hmem
    simp [namedHistory, namedInputs, trace, stepOn, requests, quiet, sampleSuccess] at hmem
  · simp [TopicPartitionList.Contains, TopicPartitionList.new]
  · rintro c ⟨answered, hmem, haccepts, -⟩
    obtain ⟨e, -, rfl⟩ := List.mem_map.1 hmem
    cases haccepts

end StateMachine
end S3Sink
