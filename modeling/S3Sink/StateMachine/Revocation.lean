import S3Sink.StateMachine.Lifecycle

/-!
# Revocation — revocations one after the other

A revocation drops the streams whose partitions are all in its own message; what earlier messages
revoked is not remembered.  Two revocations in a row are compared with one revocation of the union.

* `Covers partitions state` — every partition of the stream is revoked;
* `Revoked` — what one revocation does to streams, files and offsets;
* `revocations_compose_iff` — two revocations do what their union does exactly if no open stream has
  its partitions spread over both of them.
-/

namespace S3Sink

namespace StateMachine

open DiskFileRegistry TransitionSystem

variable {K : Type} [KeyGenerator K]

/-- All partitions of the stream are among those revoked. -/
def Covers (partitions : List (String × Int)) (state : StreamState) : Prop :=
  ∀ p ∈ state.offsetsConsumed.keys, p ∈ revokedTopicIds partitions

/-! ## One revocation -/

/-- What a revocation does. -/
structure Revoked (sm : StateMachine DiskFileRegistry K) (partitions : List (String × Int))
    (responses : List Response) (sm' : StateMachine DiskFileRegistry K) : Prop where
  streams : ∀ id state, sm'.streams.get? id = some state ↔
    sm.streams.get? id = some state ∧ ¬ Covers partitions state
  files : ∀ id file, sm'.fileRegistry.files.get? id = some file ↔
    sm.fileRegistry.files.get? id = some file ∧
      ∀ state, sm.streams.get? id = some state → ¬ Covers partitions state
  deletes : ∀ path, .deleteFile path ∈ responses ↔ ∃ id state, sm.streams.get? id = some state ∧
    Covers partitions state ∧ sm.fileRegistry.files.get? id = some ⟨path⟩
  offsetsUploaded : ∀ p, sm'.offsetsUploaded.get? p =
    if p ∈ revokedTopicIds partitions then none else sm.offsetsUploaded.get? p
  offsetsWatermark : ∀ p, sm'.offsetsWatermark.get? p =
    if p ∈ revokedTopicIds partitions then none else sm.offsetsWatermark.get? p

omit [KeyGenerator K] in
theorem revokeStream_deletes {id : StreamId} {path : PathBuf}
    {sm : StateMachine DiskFileRegistry K} :
    .deleteFile path ∈ (revokeStream id sm).responses ↔
      .deleteFile path ∈ sm.responses ∨ sm.fileRegistry.files.get? id = some ⟨path⟩ := by
  rw [revokeStream, fileRegistry_revoke]
  rcases revoke_cases sm.fileRegistry id with ⟨hnone, heq⟩ | ⟨⟨path'⟩, hget, heq⟩
  · rw [heq]
    simp [hnone]
  · rw [heq]
    simp [push, hget, eq_comm]

omit [KeyGenerator K] in
/-- Revoking streams deletes the active files they have. -/
theorem revokeAll_deletes {streams : List (StreamId × StreamState)} {path : PathBuf} :
    ∀ {sm : StateMachine DiskFileRegistry K},
    .deleteFile path ∈ (revokeAll streams sm).responses ↔ .deleteFile path ∈ sm.responses ∨
      ∃ id ∈ streams.map Prod.fst, sm.fileRegistry.files.get? id = some ⟨path⟩ := by
  induction streams with
  | nil =>
      intro sm
      simp [revokeAll]
  | cons e streams ih =>
      intro sm
      obtain ⟨paths, -, hreleased⟩ := revokeStream_released e.1 sm
      have hcons : revokeAll (e :: streams) sm = revokeAll streams (revokeStream e.1 sm) := rfl
      rw [hcons, ih, revokeStream_deletes, or_assoc, List.map_cons]
      refine or_congr_right ⟨?_, ?_⟩
      · rintro (hfile | ⟨id, hid, hfile⟩)
        · exact ⟨e.1, List.mem_cons_self, hfile⟩
        · exact ⟨id, List.mem_cons_of_mem _ hid, ((hreleased.files id _).1 hfile).2⟩
      · rintro ⟨id, hid, hfile⟩
        -- the file of this stream is answered here, the others are left to the rest
        by_cases hsame : id = e.1
        · exact Or.inl (hsame ▸ hfile)
        · refine Or.inr ⟨id, (List.mem_cons.1 hid).resolve_left hsame, ?_⟩
          exact (hreleased.files id _).2 ⟨by simpa using hsame, hfile⟩

theorem covers_iff {partitions : List (String × Int)} {state : StreamState} :
    (state.offsetsConsumed.keys.all fun topicId => topicId ∈ revokedTopicIds partitions) = true ↔
      Covers partitions state := by
  simp [Covers, List.all_eq_true]

theorem Handled.revoked_spec {ambient : Ambient} {sm sm' : StateMachine DiskFileRegistry K}
    {partitions : List (String × Int)} {responses : List Response}
    (h : Handled ambient sm (.revokePartitions partitions) responses sm') :
    Revoked sm partitions responses sm' := by
  cases h with
  | commitFailed hrequest => rcases hrequest with h | h <;> cases h
  | @revoked _ dropped streams sm₁ hextract hrevoke =>
      have hleft : ∀ id state, streams.get? id = some state ↔
          sm.streams.get? id = some state ∧ ¬ Covers partitions state := by
        intro id state
        have hstreams : (sm.streams.extractIf _).2 = streams := congrArg Prod.snd hextract
        rw [← covers_iff, Bool.not_eq_true, ← hstreams]
        exact HashMap.get?_extractIf
      -- the streams taken out are those that are covered
      have hdropped : ∀ id, id ∈ dropped.map Prod.fst ↔
          ∃ state, sm.streams.get? id = some state ∧ Covers partitions state := by
        intro id
        have htaken : (sm.streams.extractIf _).1 = dropped := congrArg Prod.fst hextract
        simp only [← covers_iff, ← htaken]
        exact HashMap.mem_keys_extractIf
      obtain ⟨paths, -, hreleased⟩ := revokeAll_released hrevoke
      obtain ⟨reg', paths', heq⟩ := revokedAll_spec hrevoke
      exact
        { streams := by
            rw [heq]
            exact hleft
          files := by
            intro id file
            rw [hreleased.files, hdropped, and_comm]
            exact and_congr_right fun _ => by simp [not_exists]
          deletes := by
            intro path
            rw [← hrevoke, revokeAll_deletes]
            simp only [List.not_mem_nil, false_or, hdropped]
            constructor
            · rintro ⟨id, ⟨state, hget, hcovers⟩, hfile⟩
              exact ⟨id, state, hget, hcovers, hfile⟩
            · rintro ⟨id, state, hget, hcovers, hfile⟩
              exact ⟨id, ⟨state, hget, hcovers⟩, hfile⟩
          offsetsUploaded := by
            intro p
            rw [HashMap.get?_foldl_erase, heq]
          offsetsWatermark := by
            intro p
            rw [HashMap.get?_foldl_erase, heq] }

theorem Steps.revoked {sm sm' : StateMachine DiskFileRegistry K} {e : Step DiskFileRegistry K}
    (hstep : Steps sm e sm') {partitions : List (String × Int)}
    (hrequest : e.request = .revokePartitions partitions) :
    Revoked sm partitions e.responses sm' := by
  have hsame := hstep.reordered
  have hwatermark : e.pre.offsetsWatermark = sm.offsetsWatermark := by rw [hsame.frame]
  have h := (hstep.cases_of hrequest).revoked_spec
  rw [← hstep.post] at h
  exact
    { streams := fun id state => by rw [h.streams, hsame.get?_streams]
      files := fun id file => by
        rw [h.files, hsame.fileRegistry]
        simp only [hsame.get?_streams]
      deletes := fun path => by
        rw [h.deletes, hsame.fileRegistry]
        simp only [hsame.get?_streams]
      offsetsUploaded := fun p => by
        rw [h.offsetsUploaded, HashMap.get?_perm hsame.offsetsUploaded p]
      offsetsWatermark := fun p => by rw [h.offsetsWatermark, hwatermark] }

/-! ## Two revocations -/

/-- Every stream whose partitions are all revoked is gone, and the same streams, files and answers
are left in both states. -/
structure Composes (partitions : List (String × Int)) (sm : StateMachine DiskFileRegistry K)
    (responses : List Response) (sm' : StateMachine DiskFileRegistry K)
    (responses' : List Response) : Prop where
  streams : ∀ id, sm.streams.get? id = sm'.streams.get? id
  files : ∀ id, sm.fileRegistry.files.get? id = sm'.fileRegistry.files.get? id
  deletes : ∀ path, .deleteFile path ∈ responses ↔ .deleteFile path ∈ responses'
  survivors : ∀ id state, sm.streams.get? id = some state → ¬ Covers partitions state

section Compose

variable {sm sm₁ sm₂ sm' : StateMachine DiskFileRegistry K} {first second union : List (String × Int)}
variable {responses₁ responses₂ responses : List Response}

omit [KeyGenerator K]

theorem mem_revokedTopicIds {partitions : List (String × Int)} {p : TopicId} :
    p ∈ revokedTopicIds partitions ↔ (p.topicName.name, p.partition) ∈ partitions := by
  unfold revokedTopicIds
  rw [List.mem_map]
  constructor
  · rintro ⟨⟨name, partition⟩, hmem, rfl⟩
    exact hmem
  · exact fun hmem => ⟨_, hmem, TopicId.ext_name rfl rfl⟩

/-- No stream is spread over both revocations. -/
def NoneSpread (sm : StateMachine DiskFileRegistry K) (first second union : List (String × Int)) :
    Prop :=
  ∀ id state, sm.streams.get? id = some state → Covers union state →
    Covers first state ∨ Covers second state

theorem Revoked.streams_twice (h₁ : Revoked sm first responses₁ sm₁)
    (h₂ : Revoked sm₁ second responses₂ sm₂) (id : StreamId) (state : StreamState) :
    sm₂.streams.get? id = some state ↔ sm.streams.get? id = some state ∧
      ¬ (Covers first state ∨ Covers second state) := by
  rw [h₂.streams, h₁.streams, not_or, and_assoc]

theorem Revoked.files_twice (h₁ : Revoked sm first responses₁ sm₁)
    (h₂ : Revoked sm₁ second responses₂ sm₂) (id : StreamId) (file : ActiveFile) :
    sm₂.fileRegistry.files.get? id = some file ↔ sm.fileRegistry.files.get? id = some file ∧
      ∀ state, sm.streams.get? id = some state →
        ¬ (Covers first state ∨ Covers second state) := by
  rw [h₂.files, h₁.files, and_assoc]
  refine and_congr_right fun _ => ⟨?_, ?_⟩
  · rintro ⟨hfirst, hsecond⟩ state hget
    rw [not_or]
    exact ⟨hfirst state hget, hsecond state ((h₁.streams id state).2 ⟨hget, hfirst state hget⟩)⟩
  · intro hneither
    refine ⟨fun state hget => (not_or.1 (hneither state hget)).1, fun state hget₁ => ?_⟩
    exact (not_or.1 (hneither state ((h₁.streams id state).1 hget₁).1)).2

theorem Revoked.deletes_twice (h₁ : Revoked sm first responses₁ sm₁)
    (h₂ : Revoked sm₁ second responses₂ sm₂) (path : PathBuf) :
    .deleteFile path ∈ responses₁ ++ responses₂ ↔ ∃ id state, sm.streams.get? id = some state ∧
      (Covers first state ∨ Covers second state) ∧
      sm.fileRegistry.files.get? id = some ⟨path⟩ := by
  rw [List.mem_append, h₁.deletes, h₂.deletes]
  constructor
  · rintro (⟨id, state, hget, hcovers, hfile⟩ | ⟨id, state, hget, hcovers, hfile⟩)
    · exact ⟨id, state, hget, Or.inl hcovers, hfile⟩
    · exact ⟨id, state, ((h₁.streams id state).1 hget).1, Or.inr hcovers,
        ((h₁.files id _).1 hfile).1⟩
  · rintro ⟨id, state, hget, hcovers, hfile⟩
    by_cases hfirst : Covers first state
    · exact Or.inl ⟨id, state, hget, hfirst, hfile⟩
    -- the first revocation has left the stream and its file
    · refine Or.inr ⟨id, state, (h₁.streams id state).2 ⟨hget, hfirst⟩,
        hcovers.resolve_left hfirst, (h₁.files id _).2 ⟨hfile, fun state' hget' => ?_⟩⟩
      obtain rfl := Option.some.inj (hget.symm.trans hget')
      exact hfirst

theorem mem_revoked_union (hunion : ∀ p, p ∈ union ↔ p ∈ first ∨ p ∈ second) (p : TopicId) :
    p ∈ revokedTopicIds union ↔ p ∈ revokedTopicIds first ∨ p ∈ revokedTopicIds second := by
  simp only [mem_revokedTopicIds, hunion]

/-- Streams covered by one of the revocations are covered by the union. -/
theorem covers_union (hunion : ∀ p, p ∈ union ↔ p ∈ first ∨ p ∈ second) {state : StreamState}
    (h : Covers first state ∨ Covers second state) : Covers union state := by
  intro p hp
  rw [mem_revoked_union hunion]
  exact h.imp (fun h => h p hp) (fun h => h p hp)

/-- Two revocations do what their union does exactly if no stream is spread over both. -/
theorem Revoked.composes_iff (h₁ : Revoked sm first responses₁ sm₁)
    (h₂ : Revoked sm₁ second responses₂ sm₂) (h : Revoked sm union responses sm')
    (hunion : ∀ p, p ∈ union ↔ p ∈ first ∨ p ∈ second) :
    Composes union sm₂ (responses₁ ++ responses₂) sm' responses ↔
      NoneSpread sm first second union := by
  constructor
  · intro hcomposes id state hget hcovers
    by_contra hneither
    -- the stream would survive both revocations
    exact hcomposes.survivors id state ((h₁.streams_twice h₂ id state).2 ⟨hget, hneither⟩) hcovers
  · intro hnone
    have hcovers : ∀ {id state}, sm.streams.get? id = some state →
        ((Covers first state ∨ Covers second state) ↔ Covers union state) := fun hget =>
      ⟨covers_union hunion, hnone _ _ hget⟩
    exact
      { streams := fun id => Option.ext fun state => by
          rw [h₁.streams_twice h₂, h.streams]
          exact and_congr_right fun hget => not_congr (hcovers hget)
        files := fun id => Option.ext fun file => by
          rw [h₁.files_twice h₂, h.files]
          exact and_congr_right fun _ => forall₂_congr fun state hget => not_congr (hcovers hget)
        deletes := fun path => by
          rw [h₁.deletes_twice h₂, h.deletes]
          refine exists₂_congr fun id state => and_congr_right fun hget => ?_
          rw [hcovers hget]
        survivors := fun id state hget₂ hunion' => by
          obtain ⟨hget, hneither⟩ := (h₁.streams_twice h₂ id state).1 hget₂
          exact hneither ((hcovers hget).2 hunion') }

/-- The offsets are forgotten alike, however the partitions are divided. -/
theorem Revoked.offsets_compose (h₁ : Revoked sm first responses₁ sm₁)
    (h₂ : Revoked sm₁ second responses₂ sm₂) (h : Revoked sm union responses sm')
    (hunion : ∀ p, p ∈ union ↔ p ∈ first ∨ p ∈ second) (p : TopicId) :
    sm₂.offsetsUploaded.get? p = sm'.offsetsUploaded.get? p ∧
      sm₂.offsetsWatermark.get? p = sm'.offsetsWatermark.get? p := by
  rw [h₂.offsetsUploaded, h₁.offsetsUploaded, h.offsetsUploaded, h₂.offsetsWatermark,
    h₁.offsetsWatermark, h.offsetsWatermark]
  simp only [mem_revoked_union hunion]
  by_cases hfirst : p ∈ revokedTopicIds first
  · simp [hfirst]
  · simp [hfirst]

end Compose

/-- Two revocations forget the offsets that one revocation of the union forgets; they leave the same
streams and files, answer the same deletions and keep no stream whose partitions are all revoked,
exactly if no open stream has its partitions spread over both. -/
theorem revocations_compose_iff {sm sm₁ sm₂ sm' : StateMachine DiskFileRegistry K}
    {e₁ e₂ e : Step DiskFileRegistry K} {first second union : List (String × Int)}
    (hunion : ∀ p, p ∈ union ↔ p ∈ first ∨ p ∈ second)
    (hstep₁ : Steps sm e₁ sm₁) (hfirst : e₁.request = .revokePartitions first)
    (hstep₂ : Steps sm₁ e₂ sm₂) (hsecond : e₂.request = .revokePartitions second)
    (hstep : Steps sm e sm') (hrequest : e.request = .revokePartitions union) :
    (∀ p, sm₂.offsetsUploaded.get? p = sm'.offsetsUploaded.get? p ∧
      sm₂.offsetsWatermark.get? p = sm'.offsetsWatermark.get? p) ∧
    (Composes union sm₂ (e₁.responses ++ e₂.responses) sm' e.responses ↔
      NoneSpread sm first second union) := by
  have h₁ := hstep₁.revoked hfirst
  have h₂ := hstep₂.revoked hsecond
  have h := hstep.revoked hrequest
  exact ⟨h₁.offsets_compose h₂ h hunion, h₁.composes_iff h₂ h hunion⟩

/-! ## Samples -/

/-- One record of partition 0 and one of partition 1, both in the same stream. -/
def twoPartitions : List (Ambient × Request) :=
  [quiet (.processRecord { sampleRecord (sampleOffset 0) with partition := 1 }),
    quiet (.processRecord (sampleRecord (sampleOffset 0)))]

/-- The state after the records and some revocations, the newest listed first. -/
def afterRevocations (revocations : List (List (String × Int))) :
    StateMachine DiskFileRegistry IdentityKeyGenerator :=
  (trace openStart
    (revocations.map (fun partitions => quiet (.revokePartitions partitions)) ++ twoPartitions)).2

/-- A record of partition 0, and one of partition 1 with another schema version, in a stream of its
own. -/
def twoStreams : List (Ambient × Request) :=
  [quiet (.processRecord { sampleRecord (sampleOffset 0) with
      partition := 1
      headers := some [⟨RouterStrategy.schemaVersionHeader, some [0x32]⟩] }),
    quiet (.processRecord (sampleRecord (sampleOffset 0)))]

/-- Each of two revocations drops one of the two streams, as one revocation of both drops them. -/
theorem revocations_compose_iff_sample :
    let revoke := fun (sm : StateMachine DiskFileRegistry IdentityKeyGenerator) partitions =>
      stepOn sm (quiet (.revokePartitions partitions))
    let sm := (trace openStart twoStreams).2
    let first := revoke sm [("topic", 0)]
    let second := revoke first.post [("topic", 1)]
    let both := revoke sm [("topic", 0), ("topic", 1)]
    (sm.streams.keys.length = 2 ∧ first.post.streams.keys.length = 1 ∧
      both.post.streams.keys.length = 0) ∧
    Composes [("topic", 0), ("topic", 1)] second.post (first.responses ++ second.responses)
      both.post both.responses := by
  intro revoke sm first second both
  have hstep : ∀ sm partitions, Steps sm (revoke sm partitions) (revoke sm partitions).post :=
    fun _ _ => ⟨Reordered.refl _, rfl, rfl⟩
  have hunion : ∀ p, p ∈ [("topic", (0 : Int)), ("topic", 1)] ↔
      p ∈ [("topic", (0 : Int))] ∨ p ∈ [("topic", (1 : Int))] := by simp
  have hcompose := revocations_compose_iff hunion (hstep sm _) rfl (hstep first.post _) rfl
    (hstep sm _) rfl
  refine ⟨by decide, hcompose.2.2 fun id state hget _ => ?_⟩
  -- each stream has records of one partition
  have hone : ∀ s ∈ sm.streams.toList, s.2.offsetsConsumed.keys = [⟨⟨"topic"⟩, 0⟩] ∨
      s.2.offsetsConsumed.keys = [⟨⟨"topic"⟩, 1⟩] := by decide
  unfold Covers
  rcases hone (id, state) (HashMap.mem_toList.2 hget) with hkeys | hkeys
  · exact Or.inl (by rw [hkeys]; decide)
  · exact Or.inr (by rw [hkeys]; decide)

/-- A stream of both partitions is dropped if they are revoked together, and stays open if they are
revoked one after the other. -/
theorem divided_revocation_keeps_stream :
    let id : StreamId := ⟨"unknown_schema_name\x1Funknown_schema_version"⟩
    let divided := afterRevocations [[("topic", 1)], [("topic", 0)]]
    let both := afterRevocations [[("topic", 0), ("topic", 1)]]
    (∃ h, Run (system openStart) h (afterRevocations [])) ∧
      both.streams.get? id = none ∧
      (divided.streams.get? id).map (fun state => state.offsetsConsumed.keys) =
        some [⟨⟨"topic"⟩, 1⟩, ⟨⟨"topic"⟩, 0⟩] := by
  refine ⟨⟨_, run_trace openStart twoPartitions⟩, by decide, by decide⟩

end StateMachine

end S3Sink
