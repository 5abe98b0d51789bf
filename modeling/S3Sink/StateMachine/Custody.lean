import S3Sink.StateMachine.Run

/-!
# Custody — where a consumed offset is carried

A consumed offset is carried by an open stream until the stream is sealed, and from then on by the
upload of its file.  `Handled.carries` says that no request lets go of an offset, except a
revocation of its partition; `Handled.carries_consumed` says that a record's offset is taken up.
-/

namespace S3Sink

/-- A map of offsets lists the offset under the partition. -/
def Lists (offsets : HashMap TopicId (List Offset)) (p : TopicId) (o : Offset) : Prop :=
  o ∈ (offsets.get? p).getD []

theorem lists_consume (state : StreamState) (p : TopicId) (o : Offset) :
    Lists (state.consume p o).offsetsConsumed p o := by
  simp [Lists, StreamState.consume]

theorem Lists.consume {state : StreamState} {p : TopicId} {o : Offset}
    (h : Lists state.offsetsConsumed p o) (p' : TopicId) (o' : Offset) :
    Lists (state.consume p' o').offsetsConsumed p o := by
  unfold Lists StreamState.consume
  dsimp only
  rw [HashMap.get?_insert]
  by_cases hp : p = p'
  · subst hp
    rw [if_pos rfl, Option.getD_some]
    exact List.mem_append_left _ h
  · rw [if_neg hp]
    exact h

/-- The upload carries the offset. -/
def ToUpload.Carries (u : ToUpload) (p : TopicId) (o : Offset) : Prop :=
  Lists u.file.offsetsConsumed p o

namespace StateMachine

variable {F K : Type}

/-- Some open stream carries the offset. -/
def Carries (sm : StateMachine F K) (p : TopicId) (o : Offset) : Prop :=
  ∃ streamId state, sm.streams.get? streamId = some state ∧ Lists state.offsetsConsumed p o

theorem Reordered.carries {sm sm' : StateMachine F K} (h : Reordered sm sm') {p : TopicId}
    {o : Offset} (hcarries : sm.Carries p o) : sm'.Carries p o := by
  obtain ⟨streamId, state, hget, hlists⟩ := hcarries
  exact ⟨streamId, state, (h.get?_streams streamId).trans hget, hlists⟩

variable [FileRegistry F] [KeyGenerator K]

omit [FileRegistry F] [KeyGenerator K] in
/-- The offset of a record is taken up by its stream, and those the stream carried stay there. -/
theorem lists_countedState {sm : StateMachine F K} {record : Message} {metadata : RecordMetadata}
    {now : Instant} :
    Lists (sm.countedState record metadata now).offsetsConsumed record.topicId record.offset ∧
      ∀ {state p o}, sm.streams.get? metadata.streamId = some state →
        Lists state.offsetsConsumed p o →
        Lists (sm.countedState record metadata now).offsetsConsumed p o := by
  refine ⟨lists_consume _ _ _, fun hget hlists => ?_⟩
  simp only [countedState, hget, Option.getD_some]
  exact hlists.consume _ _

omit [FileRegistry F] [KeyGenerator K] in
/-- Storing the grown state of one stream lets go of no offset. -/
theorem carries_insert {sm : StateMachine F K} {streamId : StreamId} {grown : StreamState}
    {p : TopicId} {o : Offset}
    (hgrown : ∀ state, sm.streams.get? streamId = some state → Lists state.offsetsConsumed p o →
      Lists grown.offsetsConsumed p o)
    (hcarries : sm.Carries p o) :
    ∃ streamId' state, HashMap.get? (sm.streams.insert streamId grown) streamId' = some state ∧
      Lists state.offsetsConsumed p o := by
  obtain ⟨streamId', state, hget, hlists⟩ := hcarries
  by_cases heq : streamId' = streamId
  · subst heq
    exact ⟨streamId', grown, HashMap.get?_insert_self _ _ _, hgrown state hget hlists⟩
  · exact ⟨streamId', state, by rw [HashMap.get?_insert, if_neg heq]; exact hget, hlists⟩

omit [FileRegistry F] [KeyGenerator K] in
/-- A carried offset is in a stream taken out or in one left. -/
theorem carries_split {sm : StateMachine F K} {taken : List (StreamId × StreamState)}
    {left : HashMap StreamId StreamState} (hsplits : HashMap.Splits sm.streams taken left)
    {p : TopicId} {o : Offset} (hcarries : sm.Carries p o) :
    (∃ e ∈ taken, Lists e.2.offsetsConsumed p o) ∨
      ∃ streamId state, left.get? streamId = some state ∧ Lists state.offsetsConsumed p o := by
  obtain ⟨streamId, state, hget, hlists⟩ := hcarries
  rcases hsplits.taken_or_rest hget with htaken | hleft
  · exact Or.inl ⟨_, htaken, hlists⟩
  · exact Or.inr ⟨streamId, state, hleft, hlists⟩

omit [FileRegistry F] [KeyGenerator K] in
/-- An offset in a stream that is sealed is carried by the upload of its file. -/
theorem SealAnswer.carries {config : StateMachineConfiguration} {state : StreamState}
    {response : Response} (h : SealAnswer config state response)
    (hfree : ∀ error, response ≠ .fatal error) {p : TopicId} {o : Offset}
    (hlists : Lists state.offsetsConsumed p o) :
    ∃ u, response = .readyForUpload u ∧ u.Carries p o := by
  cases h with
  | failed error => exact absurd rfl (hfree error)
  | ready u _ _ hoffsets =>
      refine ⟨u, rfl, ?_⟩
      rw [ToUpload.Carries, hoffsets]
      exact hlists

omit [FileRegistry F] [KeyGenerator K] in
theorem sealed_carries {config : StateMachineConfiguration}
    {streams : List (StreamId × StreamState)} {responses : List Response}
    (hanswers : List.Forall₂ (fun e response => SealAnswer config e.2 response) streams responses)
    (hfree : NoFatal responses) {p : TopicId} {o : Offset}
    (hlists : ∃ e ∈ streams, Lists e.2.offsetsConsumed p o) :
    ∃ u ∈ uploadsOf responses, u.Carries p o := by
  induction hanswers with
  | nil =>
      obtain ⟨e, he, -⟩ := hlists
      exact absurd he List.not_mem_nil
  | @cons e response streams responses hanswer _ ih =>
      obtain ⟨e', he, hlists⟩ := hlists
      rcases List.mem_cons.1 he with rfl | he
      · obtain ⟨u, rfl, hcarries⟩ :=
          hanswer.carries (fun error heq => hfree error (heq ▸ List.mem_cons_self)) hlists
        exact ⟨u, mem_uploadsOf.2 List.mem_cons_self, hcarries⟩
      · obtain ⟨u, hu, hcarries⟩ :=
          ih (fun error hmem => hfree error (List.mem_cons_of_mem _ hmem)) ⟨e', he, hlists⟩
        exact ⟨u, mem_uploadsOf.2 (List.mem_cons_of_mem _ (mem_uploadsOf.1 hu)), hcarries⟩

/-- No request lets go of an offset an open stream carries, except a revocation of its partition. -/
theorem Handled.carries {ambient : Ambient} {sm sm' : StateMachine F K} {request : Request}
    {responses : List Response} (h : Handled ambient sm request responses sm')
    (hfree : NoFatal responses) {p : TopicId} {o : Offset} (hcarries : sm.Carries p o) :
    sm'.Carries p o ∨ (∃ u ∈ uploadsOf responses, u.Carries p o) ∨
      ∃ partitions, request = .revokePartitions partitions ∧ p ∈ revokedTopicIds partitions := by
  cases h with
  | unconfigured => exact absurd List.mem_cons_self (hfree _)
  | undecodable => exact absurd List.mem_cons_self (hfree _)
  | writeFailed => exact absurd List.mem_cons_self (hfree _)
  | exhausted => exact absurd List.mem_cons_self (hfree _)
  | commitFailed => exact absurd List.mem_cons_self (hfree _)
  | skipped =>
      exact Or.inl (carries_insert (fun _ hget hlists => lists_countedState.2 hget hlists) hcarries)
  | written =>
      exact Or.inl (carries_insert (fun _ hget hlists => lists_countedState.2 hget hlists) hcarries)
  | @sealed record metadata _ _ line _ _ _ _ _ _ _ _ hclose =>
      obtain ⟨fileRegistry, keyGenerator, response, rfl, hanswer⟩ := sealed_spec hclose
      obtain ⟨streamId, state, hget, hlists⟩ := hcarries
      by_cases heq : streamId = metadata.streamId
      · subst heq
        obtain ⟨u, rfl, hcarried⟩ :=
          hanswer.carries (fun error heq => hfree error (by simp [heq]))
            (lists_countedState.2 hget hlists)
        exact Or.inr (Or.inl ⟨u, by simp [uploadsOf], hcarried⟩)
      · exact Or.inl ⟨streamId, state, by rw [HashMap.get?_erase, if_neg heq]; exact hget, hlists⟩
  | @uploadTick expired streams _ hextract hclose =>
      obtain ⟨fileRegistry, keyGenerator, responses, rfl, hanswers⟩ := sealedAll_spec hclose
      rcases carries_split (HashMap.splits_extractIfTake hextract) hcarries with hsealed | hopen
      · exact Or.inr (Or.inl (sealed_carries hanswers hfree hsealed))
      · exact Or.inl hopen
  | retried => exact Or.inl hcarries
  | uploaded => exact Or.inl hcarries
  | committedAsync hcommitted => rw [hcommitted.frame]; exact Or.inl hcarries
  | committedSync hcommitted => rw [hcommitted.frame]; exact Or.inl hcarries
  | @revoked partitions dropped streams _ hextract hrevoke =>
      obtain ⟨fileRegistry, paths, rfl⟩ := revokedAll_spec hrevoke
      rcases carries_split (HashMap.splits_extractIfTake hextract) hcarries with
        ⟨e, he, hlists⟩ | hopen
      · -- the stream is dropped, so the partition is one of those revoked
        have hkey : p ∈ e.2.offsetsConsumed.keys := by
          cases hoffsets : e.2.offsetsConsumed.get? p with
          | none => simp [Lists, hoffsets] at hlists
          | some offsets => exact AList.mem_keys.1 (HashMap.mem_iff.2 ⟨offsets, hoffsets⟩)
        have hp := List.all_eq_true.1 (HashMap.satisfies_of_taken hextract he) p hkey
        exact Or.inr (Or.inr ⟨partitions, rfl, by simpa using hp⟩)
      · exact Or.inl hopen
  | shutdown hclose =>
      obtain ⟨fileRegistry, keyGenerator, responses, rfl, hanswers⟩ := sealedAll_spec hclose
      have hfree' : NoFatal responses := fun error hmem => hfree error (by simp [hmem])
      rcases carries_split (HashMap.splits_drain sm.streams) hcarries with
        hsealed | ⟨streamId, state, hget, -⟩
      · obtain ⟨u, hu, hcarried⟩ := sealed_carries hanswers hfree' hsealed
        exact Or.inr (Or.inl ⟨u, by rw [uploadsOf_append]; simp [hu], hcarried⟩)
      · rw [HashMap.get?_empty] at hget
        cases hget

/-- The offset of a processed record is carried by its stream, or by the upload of its file if the
file is sealed at once. -/
theorem Handled.carries_consumed {ambient : Ambient} {sm sm' : StateMachine F K} {record : Message}
    {responses : List Response} (h : Handled ambient sm (.processRecord record) responses sm')
    (hfree : NoFatal responses) :
    sm'.Carries record.topicId record.offset ∨
      ∃ u ∈ uploadsOf responses, u.Carries record.topicId record.offset := by
  cases h with
  | unconfigured => exact absurd List.mem_cons_self (hfree _)
  | undecodable => exact absurd List.mem_cons_self (hfree _)
  | writeFailed => exact absurd List.mem_cons_self (hfree _)
  | commitFailed => exact absurd List.mem_cons_self (hfree _)
  | skipped => exact Or.inl ⟨_, _, HashMap.get?_insert_self _ _ _, lists_countedState.1⟩
  | written => exact Or.inl ⟨_, _, HashMap.get?_insert_self _ _ _, lists_countedState.1⟩
  | sealed _ _ _ _ _ _ hclose =>
      obtain ⟨fileRegistry, keyGenerator, response, rfl, hanswer⟩ := sealed_spec hclose
      obtain ⟨u, rfl, hcarries⟩ :=
        hanswer.carries (fun error heq => hfree error (by simp [heq])) lists_countedState.1
      exact Or.inr ⟨u, by simp [uploadsOf], hcarries⟩

/-- `ShutdownSignal` leaves no stream open. -/
theorem Handled.streams_shutdown {ambient : Ambient} {sm sm' : StateMachine F K}
    {responses : List Response} (h : Handled ambient sm .shutdownSignal responses sm') :
    sm'.streams = ∅ := by
  cases h with
  | shutdown hclose =>
      obtain ⟨fileRegistry, keyGenerator, responses, rfl, -⟩ := sealedAll_spec hclose
      rfl
  | commitFailed hrequest => rcases hrequest with h | h <;> cases h

/-- A completed upload changes no stream. -/
theorem Handled.streams_completion {ambient : Ambient} {sm sm' : StateMachine F K}
    {result : UploadResult} {responses : List Response}
    (h : Handled ambient sm (.uploadCompletion result) responses sm') :
    sm'.streams = sm.streams := by
  cases h with
  | commitFailed hrequest => rcases hrequest with h | h <;> cases h
  | _ => rfl

end StateMachine

end S3Sink
