import S3Sink.StateMachine.Order
import S3Sink.StateMachine.Timeout
import Mathlib.Tactic.Linarith

/-!
# Rotation — how old and how large a file grows

A file is sealed when it has been open for too long or has grown large enough, and an upload slot is
free.  The timers of `timer_interrupts.rs` say how often the age is looked at.

* `Handled.streams_cases`, `Handled.sealed_cases` — where the streams left open, and those sealed,
  come from;
* `Punctual` — upload ticks come in time and find slots enough;
* `age_bounded` — no file is open for longer than the timeout and a tenth of it;
* `size_bounded` — no file is larger than the target and one line.
-/

namespace S3Sink

open TransitionSystem

/-! ## Timers -/

/-- `tokio::time::interval`, which panics on a period of zero. -/
def interval (periodMs : Nat) : Option Nat :=
  if 0 < periodMs then some periodMs else none

/-- The periods of the timers, in milliseconds. -/
structure TimerInterrupts where
  commitTick : Nat
  uploadTick : Nat
  deriving DecidableEq, Repr

def TimerInterrupts.new (commitTickMs maxActiveFileTimeoutMs : Nat) : Option TimerInterrupts := do
  -- commit accumulated offsets
  let commitTick ← interval commitTickMs
  -- upload dormant files, wait at most 10% more time than the timeout
  let uploadTick ← interval (maxActiveFileTimeoutMs / 10)
  return { commitTick, uploadTick }

theorem fromMillis_nonneg (ms : Nat) : 0 ≤ fromMillis ms :=
  Int.mul_nonneg (by decide) (Int.natCast_nonneg ms)

theorem fromMillis_add (ms ms' : Nat) : fromMillis (ms + ms') = fromMillis ms + fromMillis ms' := by
  simp [fromMillis, mul_add]

theorem TimerInterrupts.uploadTick_of_new {commitTickMs maxActiveFileTimeoutMs : Nat}
    {timers : TimerInterrupts}
    (hnew : TimerInterrupts.new commitTickMs maxActiveFileTimeoutMs = some timers) :
    timers.uploadTick = maxActiveFileTimeoutMs / 10 := by
  unfold TimerInterrupts.new interval at hnew
  split at hnew
  · split at hnew
    · cases hnew
      rfl
    · cases hnew
  · cases hnew

namespace StateMachine

/-! ## One request -/

section Request

variable {F K : Type} [FileRegistry F] [KeyGenerator K] {ambient : Ambient}
variable {sm sm' : StateMachine F K} {request : Request} {responses : List Response}

/-- The state of a stream, or that of a stream opened now. -/
def streamAt (sm : StateMachine F K) (id : StreamId) (now : Instant) : StreamState :=
  (sm.streams.get? id).getD (StreamState.new now)

/-- A stream open after a request is as it was before, or one record longer; it grows beyond the
target only when no slot is free. -/
theorem Handled.streams_cases (h : Handled ambient sm request responses sm')
    (hfree : NoFatal responses) {id : StreamId} {state : StreamState}
    (hget : sm'.streams.get? id = some state) :
    sm.streams.get? id = some state ∨
      ∃ record, request = .processRecord record ∧
        state.createdAt = (sm.streamAt id ambient.now).createdAt ∧
        (state.bytesConsumed = (sm.streamAt id ambient.now).bytesConsumed ∨
          ¬ (sm.config.targetFileSizeB ≤ state.bytesConsumed ∧
            sm.inFlightUploads < sm.config.maxConcurrentUploads)) := by
  have hinsert : ∀ {metadata : RecordMetadata} {inserted : StreamState},
      HashMap.get? (sm.streams.insert metadata.streamId inserted) id = some state →
      (id = metadata.streamId ∧ state = inserted) ∨ sm.streams.get? id = some state := by
    intro metadata inserted hget
    rw [HashMap.get?_insert] at hget
    split at hget
    · next hid => exact Or.inl ⟨hid, (Option.some.inj hget).symm⟩
    · exact Or.inr hget
  cases h with
  | undecodable => exact absurd List.mem_cons_self (hfree _)
  | writeFailed => exact absurd List.mem_cons_self (hfree _)
  | skipped =>
      rcases hinsert hget with ⟨rfl, rfl⟩ | hold
      · exact Or.inr ⟨_, rfl, rfl, Or.inl rfl⟩
      · exact Or.inl hold
  | written _ _ _ _ hopen =>
      rcases hinsert hget with ⟨rfl, rfl⟩ | hold
      · exact Or.inr ⟨_, rfl, rfl, Or.inr hopen⟩
      · exact Or.inl hold
  | sealed _ _ _ _ _ _ hclose =>
      subst hclose
      dsimp only at hget
      rw [closeAndUpload_streams, HashMap.get?_erase] at hget
      split at hget
      · cases hget
      · exact Or.inl hget
  | uploadTick hextract hclose =>
      subst hclose
      dsimp only at hget
      rw [closeAndUploadAll_streams] at hget
      exact Or.inl (((HashMap.splits_extractIfTake hextract).get?_rest id state).1 hget).2
  | shutdown hclose =>
      subst hclose
      dsimp only at hget
      rw [closeAndUploadAll_streams] at hget
      cases hget
  | revoked hextract hrevoke =>
      subst hrevoke
      dsimp only at hget
      rw [revokeAll_streams] at hget
      exact Or.inl (((HashMap.splits_extractIfTake hextract).get?_rest id state).1 hget).2
  | committedAsync hcommitted =>
      rw [hcommitted.frame] at hget
      exact Or.inl hget
  | committedSync hcommitted =>
      rw [hcommitted.frame] at hget
      exact Or.inl hget
  | _ => exact Or.inl hget

/-- A file is sealed from a stream that was open before, or has just grown by a line. -/
theorem Handled.sealed_cases (h : Handled ambient sm request responses sm')
    {file : SealedFile} (hfile : file ∈ sealedBy request responses) :
    ∃ id, file.createdAt = (sm.streamAt id ambient.now).createdAt ∧
      (file.rawSizeB = (sm.streamAt id ambient.now).bytesConsumed ∨
        ∃ record line, request = .processRecord record ∧
          lineOf sm.cache.configs record = some line ∧
          file.rawSizeB = (sm.streamAt id ambient.now).bytesConsumed + line.length) := by
  have hopen : ∀ {streams : List (StreamId × StreamState)} {responses : List Response},
      (∀ s ∈ streams, sm.streams.get? s.1 = some s.2) →
      List.Forall₂ (fun s response => SealAnswer sm.config s.2 response) streams responses →
      file ∈ (uploadsOf responses).map ToUpload.file →
      ∃ id, file.createdAt = (sm.streamAt id ambient.now).createdAt ∧
        (file.rawSizeB = (sm.streamAt id ambient.now).bytesConsumed ∨
          ∃ record line, request = .processRecord record ∧
            lineOf sm.cache.configs record = some line ∧
            file.rawSizeB = (sm.streamAt id ambient.now).bytesConsumed + line.length) := by
    intro streams responses htaken hanswers hmem
    obtain ⟨u, hu, rfl⟩ := List.mem_map.1 hmem
    obtain ⟨⟨id, state⟩, hstream, hanswer⟩ := sealAnswer_of_mem hanswers (mem_uploadsOf.1 hu)
    have hget : sm.streams.get? id = some state := htaken _ hstream
    have hat : sm.streamAt id ambient.now = state := by
      rw [streamAt, hget]
      rfl
    cases hanswer with
    | ready _ hsize _ _ hcreated _ =>
        exact ⟨id, by rw [hcreated, hat], Or.inl (by rw [hsize, hat])⟩
  cases h with
  | @sealed record metadata cache serializer line _ _ hmetadata _ hline _ _ _ hclose =>
      obtain ⟨fileRegistry, keyGenerator, response, rfl, hanswer⟩ := sealed_spec hclose
      cases hanswer with
      | failed error => exact absurd hfile List.not_mem_nil
      | ready u hsize _ _ hcreated _ =>
          obtain rfl : file = u.file := by simpa [sealedBy, uploadsOf] using hfile
          exact ⟨metadata.streamId, hcreated,
            Or.inr ⟨record, line, rfl, lineOf_eq hmetadata hline, hsize⟩⟩
  | uploadTick hextract hclose =>
      obtain ⟨fileRegistry, keyGenerator, responses, rfl, hanswers⟩ := sealedAll_spec hclose
      exact hopen (HashMap.splits_extractIfTake hextract).get?_taken hanswers hfile
  | shutdown hclose =>
      obtain ⟨fileRegistry, keyGenerator, responses, rfl, hanswers⟩ := sealedAll_spec hclose
      rw [sealedBy, uploadsOf_append, uploadsOf_drainAndShutdown, List.append_nil] at hfile
      · exact hopen (HashMap.splits_drain sm.streams).get?_taken hanswers hfile
      · simp
  | revoked _ hrevoke =>
      obtain ⟨fileRegistry, paths, rfl⟩ := revokedAll_spec hrevoke
      simp [sealedBy] at hfile
  | commitFailed hrequest =>
      rcases hrequest with rfl | rfl <;> exact absurd hfile List.not_mem_nil
  | _ => exact absurd hfile List.not_mem_nil

end Request

/-! ## The age of files -/

section Age

variable {F K : Type}

/-- The newest upload tick of a history. -/
def lastTick (h : List (Step F K)) : Option (Step F K) :=
  h.find? fun e => e.request = .uploadTick

/-- The clock never runs backwards, and every request but the first comes at most a period and a
delay after an upload tick that left a slot free. -/
inductive Punctual (timers : TimerInterrupts) (delayMs : Nat) : List (Step F K) → Prop
  -- the first tick of an interval is due at once
  | first {e : Step F K} (htick : e.request = .uploadTick) : Punctual timers delayMs [e]
  | next {e tick : Step F K} {h : List (Step F K)} (hprev : Punctual timers delayMs h)
      (hclock : ∀ e' ∈ h, e'.ambient.now ≤ e.ambient.now) (htick : lastTick h = some tick)
      (hdue : e.ambient.now ≤ tick.ambient.now + fromMillis (timers.uploadTick + delayMs))
      (hroom : tick.post.inFlightUploads < tick.post.config.maxConcurrentUploads) :
      Punctual timers delayMs (e :: h)

theorem mem_of_lastTick {h : List (Step F K)} {tick : Step F K}
    (htick : lastTick h = some tick) : tick ∈ h ∧ tick.request = .uploadTick :=
  ⟨List.mem_of_find?_eq_some htick, by simpa using List.find?_some htick⟩

theorem Punctual.of_suffix {timers : TimerInterrupts} {delayMs : Nat} {h h₀ : List (Step F K)}
    {e : Step F K} (hpunctual : Punctual timers delayMs h) (hsuffix : e :: h₀ <:+ h) :
    Punctual timers delayMs (e :: h₀) := by
  induction hpunctual with
  | first htick =>
      rcases List.suffix_cons_iff.1 hsuffix with heq | hnil
      · exact heq ▸ Punctual.first htick
      · cases List.suffix_nil.1 hnil
  | next hprev hclock htick hdue hroom ih =>
      rcases List.suffix_cons_iff.1 hsuffix with heq | hearlier
      · exact heq ▸ Punctual.next hprev hclock htick hdue hroom
      · exact ih hearlier

end Age

section Runs

variable {K : Type} [KeyGenerator K]
variable {inputTopics : List (TopicConfig × List TopicName)} {directory : PathBuf}
variable {os : OperatingSystem} {keyGenerator : K} {config : StateMachineConfiguration}
variable {h : List (Step DiskFileRegistry K)} {sm sm' : StateMachine DiskFileRegistry K}
variable {e : Step DiskFileRegistry K}

omit [KeyGenerator K] in
/-- Streams sealed without `Fatal` are answered one upload each. -/
theorem length_uploadsOf {streams : List (StreamId × StreamState)} {responses : List Response}
    (hanswers : List.Forall₂ (fun s response => SealAnswer config s.2 response) streams responses)
    (hfree : NoFatal responses) : (uploadsOf responses).length = streams.length := by
  induction hanswers with
  | nil => rfl
  | @cons s response streams responses hanswer _ ih =>
      have htail := ih fun error hmem => hfree error (List.mem_cons_of_mem _ hmem)
      cases hanswer with
      | failed error => exact absurd List.mem_cons_self (hfree error)
      | ready u => simpa [uploadsOf] using htail

/-- An upload tick that leaves a slot free leaves no expired stream open. -/
theorem Handled.unexpired {ambient : Ambient} {responses : List Response}
    (h : Handled ambient sm .uploadTick responses sm') (hfree : NoFatal responses)
    (hroom : sm'.inFlightUploads < sm'.config.maxConcurrentUploads) {id : StreamId}
    {state : StreamState} (hget : sm'.streams.get? id = some state) :
    ambient.now - fromMillis sm.config.maxActiveFileTimeoutMs ≤ state.createdAt := by
  cases h with
  | commitFailed hrequest => rcases hrequest with hrequest | hrequest <;> cases hrequest
  | uploadTick hextract hclose =>
      obtain ⟨fileRegistry, keyGenerator, responses, rfl, hanswers⟩ := sealedAll_spec hclose
      have hlength := length_uploadsOf hanswers (by simpa using hfree)
      by_contra hexpired
      -- an expired stream is left open only if the slots have run out
      have hslots := HashMap.length_of_left hextract hget
        (decide_eq_true (not_le.1 hexpired).le)
      dsimp only at hroom
      omega

/-- The streams open are no older than the timeout was at the last upload tick, if it left a slot
free. -/
theorem young_of_run {timers : TimerInterrupts} {delayMs : Nat}
    (hrun : Run (system (new inputTopics (DiskFileRegistry.new directory os) keyGenerator config))
      h sm) (hfree : FatalFree h) (hpunctual : Punctual timers delayMs h)
    {tick : Step DiskFileRegistry K} (htick : lastTick h = some tick)
    (hroom : tick.post.inFlightUploads < tick.post.config.maxConcurrentUploads) {id : StreamId}
    {state : StreamState} (hget : sm.streams.get? id = some state) :
    tick.ambient.now - fromMillis config.maxActiveFileTimeoutMs ≤ state.createdAt := by
  induction hrun generalizing id state with
  | start => cases htick
  | @step h sm sm' e hprev hstep ih =>
      have hconfig : e.pre.config = config := by
        rw [hstep.reordered.config]
        exact config_of_run hprev
      rw [hstep.post] at hget
      by_cases hrequest : e.request = .uploadTick
      · obtain rfl : e = tick := by simpa [lastTick, hrequest] using htick
        rw [← hconfig]
        exact (hstep.cases_of hrequest).unexpired hfree.head hroom hget
      · rw [lastTick, List.find?_cons_of_neg (by simpa using hrequest)] at htick
        cases hpunctual with
        | first hfirst => exact absurd hfirst hrequest
        | next hprevious hclock =>
            have hearlier : ∀ {state : StreamState}, sm.streams.get? id = some state →
                tick.ambient.now - fromMillis config.maxActiveFileTimeoutMs ≤ state.createdAt :=
              ih hfree.tail hprevious htick
            rcases hstep.cases.streams_cases hfree.head hget with hold | ⟨record, -, hcreated, -⟩
            · rw [hstep.reordered.get?_streams] at hold
              exact hearlier hold
            · rw [hcreated, streamAt, hstep.reordered.get?_streams]
              cases hold : sm.streams.get? id with
              | some old => exact hearlier hold
              | none =>
                  have hnow := hclock tick (mem_of_lastTick htick).1
                  exact (Int.sub_le_self _ (fromMillis_nonneg _)).trans hnow

/-- What one more request leaves open or seals has been open for the timeout, a period and the delay
at most. -/
theorem age_of_step {timers : TimerInterrupts} {delayMs : Nat}
    (hrun : Run (system (new inputTopics (DiskFileRegistry.new directory os) keyGenerator config))
      (e :: h) sm) (hfree : FatalFree (e :: h)) (hpunctual : Punctual timers delayMs (e :: h)) :
    (∀ id state, e.post.streams.get? id = some state → e.ambient.now - state.createdAt ≤
      fromMillis (config.maxActiveFileTimeoutMs + timers.uploadTick + delayMs)) ∧
    ∀ file ∈ sealedBy e.request e.responses, e.ambient.now - file.createdAt ≤
      fromMillis (config.maxActiveFileTimeoutMs + timers.uploadTick + delayMs) := by
  obtain ⟨sm₀, hrun₀, hstep⟩ := Run.cons_iff.1 hrun
  have hopen : ∀ id state, e.pre.streams.get? id = some state → e.ambient.now - state.createdAt ≤
      fromMillis (config.maxActiveFileTimeoutMs + timers.uploadTick + delayMs) := by
    intro id state hget
    rw [hstep.reordered.get?_streams] at hget
    cases hpunctual with
    | first =>
        cases hrun₀ with
        | start hinit =>
            rw [hinit] at hget
            cases hget
    | next hprevious _ htick hdue hroom =>
        have hyoung := young_of_run hrun₀ hfree.tail hprevious htick hroom hget
        rw [Nat.add_assoc, fromMillis_add]
        linarith only [hyoung, hdue]
  have hat : ∀ id, e.ambient.now - (e.pre.streamAt id e.ambient.now).createdAt ≤
      fromMillis (config.maxActiveFileTimeoutMs + timers.uploadTick + delayMs) := by
    intro id
    unfold streamAt
    cases hget : e.pre.streams.get? id with
    | some state => exact hopen id state hget
    | none =>
        change e.ambient.now - e.ambient.now ≤ _
        rw [Int.sub_self]
        exact fromMillis_nonneg _
  constructor
  · intro id state hget
    rcases hstep.cases.streams_cases hfree.head hget with hold | ⟨record, -, hcreated, -⟩
    · exact hopen id state hold
    · rw [hcreated]
      exact hat id
  · intro file hfile
    obtain ⟨id, hcreated, -⟩ := hstep.cases.sealed_cases hfile
    rw [hcreated]
    exact hat id

/-- In every run without `Fatal` in which the clock never runs backwards and upload ticks come at
most a delay too late and leave a slot free: the streams open after a request, and the files it has
sealed, have been open for at most the timeout, a tenth of it, and the delay. -/
theorem age_bounded {commitTickMs delayMs : Nat} {timers : TimerInterrupts}
    (htimers : TimerInterrupts.new commitTickMs config.maxActiveFileTimeoutMs = some timers)
    (hrun : Run (system (new inputTopics (DiskFileRegistry.new directory os) keyGenerator config))
      h sm) (hfree : FatalFree h) (hpunctual : Punctual timers delayMs h) :
    ∀ e h₀, e :: h₀ <:+ h →
      (∀ id state, e.post.streams.get? id = some state → e.ambient.now - state.createdAt ≤
        fromMillis (config.maxActiveFileTimeoutMs + config.maxActiveFileTimeoutMs / 10 +
          delayMs)) ∧
      ∀ file ∈ sealedBy e.request e.responses, e.ambient.now - file.createdAt ≤
        fromMillis (config.maxActiveFileTimeoutMs + config.maxActiveFileTimeoutMs / 10 +
          delayMs) := by
  intro e h₀ hsuffix
  obtain ⟨sm₁, hrun₁⟩ := hrun.of_suffix hsuffix
  rw [← TimerInterrupts.uploadTick_of_new htimers]
  exact age_of_step hrun₁ (fun e' he' => hfree e' (hsuffix.subset he'))
    (hpunctual.of_suffix hsuffix)

end Runs

/-- Files as large as a thousand bytes. -/
def rotationStart : StateMachine DiskFileRegistry IdentityKeyGenerator :=
  new [(⟨.jsonStringDecoder, .topicVersion⟩, [⟨"topic"⟩])]
    (DiskFileRegistry.new "/scratch" OperatingSystem.faultless) {}
    { sampleStart.config with targetFileSizeB := 1000 }

/-- A record comes right after the first tick, and is sealed by the second, a minute late. -/
def rotationInputs : List (Ambient × Request) :=
  [(⟨fromMillis 66000, fun _ _ => none⟩, .uploadTick),
    quiet (.processRecord (sampleRecord (sampleOffset 0))), quiet .uploadTick]

theorem age_bounded_sample :
    let e := stepOn (trace rotationStart rotationInputs.tail).2
      (⟨fromMillis 66000, fun _ _ => none⟩, .uploadTick)
    (sealedBy e.request e.responses).length = 1 ∧
      ∀ file ∈ sealedBy e.request e.responses,
        e.ambient.now - file.createdAt ≤ fromMillis (60000 + 60000 / 10 + 60000) := by
  intro e
  have hpunctual : Punctual ⟨1000, 6000⟩ 60000 (trace rotationStart rotationInputs).1 :=
    Punctual.next (Punctual.next (Punctual.first rfl) (by decide) rfl (by decide) (by decide))
      (by decide) rfl (by decide) (by decide)
  have htimers : TimerInterrupts.new 1000 rotationStart.config.maxActiveFileTimeoutMs =
      some ⟨1000, 6000⟩ := rfl
  have hbounded := age_bounded htimers (run_trace rotationStart rotationInputs) (by decide)
    hpunctual
  exact ⟨by decide, (hbounded e _ (List.suffix_refl _)).2⟩

section Runs

variable {K : Type} [KeyGenerator K]
variable {inputTopics : List (TopicConfig × List TopicName)} {directory : PathBuf}
variable {os : OperatingSystem} {keyGenerator : K} {config : StateMachineConfiguration}
variable {h : List (Step DiskFileRegistry K)} {sm : StateMachine DiskFileRegistry K}

/-! ## The size of files -/

/-- A record was processed while no upload slot was free. -/
def Throttled {F : Type} (h : List (Step F K)) : Prop :=
  ∃ e ∈ h, (∃ record, e.request = .processRecord record) ∧
    e.pre.config.maxConcurrentUploads ≤ e.pre.inFlightUploads

/-- In every run without `Fatal` in which a slot is free whenever a record is processed, for a
target above zero: an open stream has not reached the target size, and a sealed file exceeds it by
less than the longest line. -/
theorem size_bounded
    (hrun : Run (system (new inputTopics (DiskFileRegistry.new directory os) keyGenerator config))
      h sm) (hfree : FatalFree h) (hroom : ¬ Throttled h) (htarget : 0 < config.targetFileSizeB)
    {longest : Nat}
    (hlines : ∀ record ∈ consumedRecords (requests h), ∀ line,
      lineOf (Cache.newConfigs inputTopics) record = some line → line.length ≤ longest) :
    (∀ id state, sm.streams.get? id = some state → state.bytesConsumed < config.targetFileSizeB) ∧
    ∀ file ∈ sealedFiles h, file.rawSizeB < config.targetFileSizeB + longest := by
  induction hrun with
  | start hinit =>
      rw [hinit]
      exact ⟨nofun, fun _ hfile => absurd hfile List.not_mem_nil⟩
  | @step h sm sm' e hprev hstep ih =>
      have hconfig : e.pre.config = config := by
        rw [hstep.reordered.config]
        exact config_of_run hprev
      have hconfigs : e.pre.cache.configs = Cache.newConfigs inputTopics := by
        rw [hstep.reordered.cache]
        exact configs_of_run hprev
      obtain ⟨hopen, hsealed⟩ := ih hfree.tail
        (fun ⟨e', he', hthrottled⟩ => hroom ⟨e', List.mem_cons_of_mem _ he', hthrottled⟩)
        fun record hrecord => hlines record (mem_consumedRecords_cons.2 (Or.inr hrecord))
      have hat : ∀ id, (e.pre.streamAt id e.ambient.now).bytesConsumed <
          config.targetFileSizeB := by
        intro id
        rw [streamAt, hstep.reordered.get?_streams]
        cases hget : sm.streams.get? id with
        | some state => exact hopen id state hget
        | none => exact htarget
      constructor
      · intro id state hget
        rw [hstep.post] at hget
        rcases hstep.cases.streams_cases hfree.head hget with
          hold | ⟨record, hrequest, -, hsize | hlimit⟩
        · rw [hstep.reordered.get?_streams] at hold
          exact hopen id state hold
        · rw [hsize]
          exact hat id
        -- a slot was free, so the stream stayed below the target
        · have hfull : ¬ e.pre.config.maxConcurrentUploads ≤ e.pre.inFlightUploads :=
            fun hfull => hroom ⟨e, List.mem_cons_self, ⟨record, hrequest⟩, hfull⟩
          rw [hconfig] at hfull hlimit
          omega
      · intro file hfile
        rcases List.mem_append.1 hfile with hnew | hold
        · rcases hstep.cases.sealed_cases hnew with
            ⟨id, -, hsize | ⟨record, line, hrequest, hline, hsize⟩⟩
          · rw [hsize]
            exact (hat id).trans_le (Nat.le_add_right _ _)
          · have hlength := hlines record (mem_consumedRecords_cons.2 (Or.inl hrequest)) line
              (hconfigs ▸ hline)
            rw [hsize]
            exact Nat.add_lt_add_of_lt_of_le (hat id) hlength
        · exact hsealed file hold

end Runs

theorem size_bounded_sample :
    (sealedFiles (trace sampleStart orderedInputs).1).length = 2 ∧
      ∀ file ∈ sealedFiles (trace sampleStart orderedInputs).1, file.rawSizeB < 1 + 12 := by
  have hconsumed : consumedRecords (requests (trace sampleStart orderedInputs).1) =
      [sampleRecord (sampleOffset 0), sampleRecord (sampleOffset 1)] := by decide
  have hlines : ∀ record ∈ consumedRecords (requests (trace sampleStart orderedInputs).1),
      ∀ line, lineOf sampleStart.cache.configs record = some line → line.length ≤ 12 := by
    intro record hrecord line hline
    rw [hconsumed, List.mem_cons, List.mem_singleton] at hrecord
    rcases hrecord with rfl | rfl
    all_goals
      obtain rfl := Option.some.inj hline
      decide
  refine ⟨by decide,
    (size_bounded (run_trace sampleStart orderedInputs) (by decide) ?_ (by decide) hlines).2⟩
  rintro ⟨e, he, -, hfull⟩
  have hroom : ∀ e ∈ (trace sampleStart orderedInputs).1,
      e.pre.inFlightUploads < e.pre.config.maxConcurrentUploads := by decide
  exact absurd (hroom e he) (Nat.not_lt.2 hfull)

end StateMachine

end S3Sink
