import S3Sink.KeyGenerator.Folders
import S3Sink.Sink.Retries
import S3Sink.StateMachine.Timeout

/-!
# ObjectKeys — no object is overwritten

The last part of an object key is a second and eight characters of a fresh identifier.  Each file
that is sealed is given the next of these names, and keeps it through its retries.

* `objectName` — the last part of a key; `keyAt_name` — where it stands;
* `Named` — the files sealed have the names drawn, one after the other;
* `objects_distinct` — uploads under one key are of one file.
-/

namespace S3Sink

open TransitionSystem

namespace S3Partitioner

/-- The last part of the `n`-th key. -/
def objectName (self : S3Partitioner) (n : Nat) : String :=
  (self.now n).format "%Y-%m-%dT%H:%M:%SZ" ++ "-" ++ String.ofList ((self.uuid n).toList.take 8) ++
    ".jsonl.zst"

/-- The `n`-th key, of a file of the given stream. -/
def keyAt (self : S3Partitioner) (n : Nat) (id : StreamId) : String :=
  keyInner id (self.now n) (String.ofList ((self.uuid n).toList.take 8))

/-- The name stands behind the last slash. -/
theorem keyAt_name (self : S3Partitioner) (n : Nat) (id : StreamId) :
    ∃ folders, (self.keyAt n id).toList = folders ++ '/' :: (self.objectName n).toList := by
  have hparts : (id.id.toList.splitOn RouterStrategy.delimiter).map String.ofList ≠ [] := by simp
  refine ⟨("/".intercalate ((id.id.toList.splitOn RouterStrategy.delimiter).map
    String.ofList)).toList ++ '/' :: ("ingest_year_month_day=" ++
      (self.now n).format "%Y-%m-%d").toList, ?_⟩
  rw [keyAt, keyInner, String.intercalate_append_of_ne_nil hparts (List.cons_ne_nil _ _),
    String.intercalate_singleton, objectName]
  simp

/-- The names from the `n`-th up to the `n'`-th are distinct and hold no slash. -/
structure DistinctNames (gen : S3Partitioner) (n n' : Nat) : Prop where
  injOn : Set.InjOn gen.objectName (Set.Ico n n')
  slash : ∀ m ∈ Set.Ico n n', '/' ∉ (gen.objectName m).toList

/-- Equal keys have equal names. -/
theorem objectName_eq_of_keyAt {self : S3Partitioner} {n n' : Nat} {id id' : StreamId}
    (hslash : '/' ∉ (self.objectName n).toList) (hslash' : '/' ∉ (self.objectName n').toList)
    (heq : self.keyAt n id = self.keyAt n' id') : self.objectName n = self.objectName n' := by
  obtain ⟨folders, hkey⟩ := self.keyAt_name n id
  obtain ⟨folders', hkey'⟩ := self.keyAt_name n' id'
  rw [heq, hkey'] at hkey
  -- read from the end, a name reaches up to the first slash
  have hpieces := congrArg (fun key => (List.reverse key).splitOn '/') hkey
  simp only [List.reverse_append, List.reverse_cons, List.append_assoc, List.singleton_append]
    at hpieces
  rw [List.splitOn_append_cons_self_of_not_mem (by simpa using hslash'),
    List.splitOn_append_cons_self_of_not_mem (by simpa using hslash)] at hpieces
  exact (String.toList_inj.1 (List.reverse_injective (List.cons.inj hpieces).1)).symm

/-- The uploads have the names from the `n`-th on, one after the other. -/
def Named (self : S3Partitioner) (n : Nat) (uploads : List ToUpload) : Prop :=
  List.Forall₂ (fun n u => ∃ id, u.objectKey = self.keyAt n id) (List.range' n uploads.length)
    uploads

theorem Named.append {self : S3Partitioner} {n : Nat} {uploads uploads' : List ToUpload}
    (h : self.Named n uploads) (h' : self.Named (n + uploads.length) uploads') :
    self.Named n (uploads ++ uploads') := by
  rw [Named, List.length_append, ← List.range'_append_1]
  exact List.rel_append h h'

theorem Named.of_mem {self : S3Partitioner} : ∀ {uploads : List ToUpload} {n : Nat},
    self.Named n uploads → ∀ u ∈ uploads,
      ∃ m ∈ Set.Ico n (n + uploads.length), ∃ id, u.objectKey = self.keyAt m id
  | [], _, _, u, hu => absurd hu List.not_mem_nil
  | v :: uploads, n, h, u, hu => by
      rw [Named, List.length_cons, List.range'_succ] at h
      cases h with
      | cons hhead htail =>
          rcases List.mem_cons.1 hu with rfl | hu
          · obtain ⟨id, hkey⟩ := hhead
            exact ⟨n, ⟨le_rfl, by simp⟩, id, hkey⟩
          · obtain ⟨m, ⟨hle, hlt⟩, id, hkey⟩ := Named.of_mem htail u hu
            refine ⟨m, ⟨(Nat.le_succ n).trans hle, ?_⟩, id, hkey⟩
            rw [List.length_cons]
            omega

theorem Named.nodup {self : S3Partitioner} : ∀ {uploads : List ToUpload} {n : Nat},
    self.Named n uploads → self.DistinctNames n (n + uploads.length) →
      (uploads.map ToUpload.objectKey).Nodup
  | [], _, _, _ => List.nodup_nil
  | v :: uploads, n, h, hnames => by
      rw [List.length_cons] at hnames
      rw [Named, List.length_cons, List.range'_succ] at h
      cases h with
      | cons hhead htail =>
          obtain ⟨id, hkey⟩ := hhead
          have hrest : ∀ m, m ∈ Set.Ico (n + 1) (n + 1 + uploads.length) →
              m ∈ Set.Ico n (n + (uploads.length + 1)) := by
            rintro m ⟨hle, hlt⟩
            exact ⟨by omega, by omega⟩
          have hself : n ∈ Set.Ico n (n + (uploads.length + 1)) := ⟨le_rfl, by omega⟩
          refine List.nodup_cons.2 ⟨fun hmem => ?_,
            Named.nodup htail ⟨hnames.injOn.mono hrest, fun m hm => hnames.slash m (hrest m hm)⟩⟩
          obtain ⟨u, hu, hsame⟩ := List.mem_map.1 hmem
          obtain ⟨m, hm, id', hkey'⟩ := Named.of_mem htail u hu
          have hname := objectName_eq_of_keyAt (hnames.slash m (hrest m hm)) (hnames.slash n hself)
            (hkey'.symm.trans (hsame.trans hkey))
          have heq := hnames.injOn (hrest m hm) hself hname
          exact absurd (heq ▸ hm.1) (Nat.not_succ_le_self n)

end S3Partitioner

namespace StateMachine

open S3Partitioner

/-! ## Sealing -/

/-- The uploads of the files a request has sealed. -/
def sealedUploads (request : Request) (responses : List Response) : List ToUpload :=
  match request with
  | .uploadCompletion _ => []
  | _ => uploadsOf responses

/-- The uploads of the files sealed in a history, oldest first. -/
def uploadsSealed {F K : Type} : List (Step F K) → List ToUpload
  | [] => []
  | e :: h => uploadsSealed h ++ sealedUploads e.request e.responses

section Request

variable {F : Type} [FileRegistry F] {config : StateMachineConfiguration} {reg reg' : F}
variable {gen gen' : S3Partitioner} {ambient : Ambient} {sm sm' : StateMachine F S3Partitioner}
variable {request : Request} {responses : List Response}

/-- Files sealed one after the other get the next names. -/
theorem Sealings.named {streams : List (StreamId × StreamState)}
    (h : Sealings config reg gen streams responses reg' gen') :
    gen' = { gen with keys := gen.keys + (uploadsOf responses).length } ∧
      gen.Named gen.keys (uploadsOf responses) := by
  induction h with
  | nil => exact ⟨rfl, List.Forall₂.nil⟩
  | failed _ _ ih => exact ih
  | @ready _ _ _ gen _ _ id _ _ _ _ _ responses _ hkey _ ih =>
      obtain ⟨rfl, rfl⟩ := Prod.mk.inj hkey
      obtain ⟨rfl, hnamed⟩ := ih
      refine ⟨?_, List.Forall₂.cons ⟨id, rfl⟩ hnamed⟩
      -- the name drawn for this file, and those for the rest
      have hkeys : gen.keys + 1 + (uploadsOf responses).length =
          gen.keys + ((uploadsOf responses).length + 1) := by omega
      simp only [hkeys]
      rfl

theorem closeAndUploadAll_named {streams : List (StreamId × StreamState)}
    {answers : List Response} (hanswers : sm.responses = answers)
    (h : closeAndUploadAll streams sm = sm') :
    ∃ responses, sm'.responses = answers ++ responses ∧
      sm'.keyGenerator = { sm.keyGenerator with
        keys := sm.keyGenerator.keys + (uploadsOf responses).length } ∧
      sm.keyGenerator.Named sm.keyGenerator.keys (uploadsOf responses) := by
  obtain ⟨reg', gen', responses, heq, hsealings⟩ := closeAndUploadAll_sealings streams sm
  rw [← h, heq, ← hanswers]
  exact ⟨responses, rfl, hsealings.named⟩

/-- The files a request seals get the next names, and nothing else draws one. -/
theorem Handled.named (h : Handled ambient sm request responses sm') :
    sm'.keyGenerator = { sm.keyGenerator with
        keys := sm.keyGenerator.keys + (sealedUploads request responses).length } ∧
      sm.keyGenerator.Named sm.keyGenerator.keys (sealedUploads request responses) := by
  cases h with
  | @sealed record metadata _ _ line _ _ _ _ _ _ _ _ hclose =>
      have hall : closeAndUploadAll
          [(metadata.streamId, sm.writtenState record metadata ambient.now line)] _ = _ := hclose
      obtain ⟨responses, hresponses, hkeys, hnamed⟩ := closeAndUploadAll_named rfl hall
      rw [hresponses]
      exact ⟨hkeys, hnamed⟩
  | uploadTick _ hclose =>
      obtain ⟨responses, hresponses, hkeys, hnamed⟩ := closeAndUploadAll_named rfl hclose
      rw [hresponses]
      exact ⟨hkeys, hnamed⟩
  | shutdown hclose =>
      obtain ⟨responses, hresponses, hkeys, hnamed⟩ := closeAndUploadAll_named rfl hclose
      rw [hresponses, sealedUploads, List.nil_append, uploadsOf_append, uploadsOf_drainAndShutdown,
        List.append_nil]
      · exact ⟨hkeys, hnamed⟩
      · simp
  | revoked _ hrevoke =>
      obtain ⟨fileRegistry, paths, rfl⟩ := revokedAll_spec hrevoke
      simp only [sealedUploads, List.nil_append, uploadsOf_deletes]
      exact ⟨rfl, List.Forall₂.nil⟩
  | committedAsync hcommitted =>
      rw [hcommitted.frame]
      exact ⟨rfl, List.Forall₂.nil⟩
  | committedSync hcommitted =>
      rw [hcommitted.frame]
      exact ⟨rfl, List.Forall₂.nil⟩
  | commitFailed hrequest => rcases hrequest with rfl | rfl <;> exact ⟨rfl, List.Forall₂.nil⟩
  | _ => exact ⟨rfl, List.Forall₂.nil⟩

/-- The files sealed in a run have the names drawn, one after the other. -/
theorem named_of_run {start : StateMachine F S3Partitioner} {h : List (Step F S3Partitioner)}
    (hrun : Run (system start) h sm) :
    sm.keyGenerator = { start.keyGenerator with
        keys := start.keyGenerator.keys + (uploadsSealed h).length } ∧
      start.keyGenerator.Named start.keyGenerator.keys (uploadsSealed h) := by
  induction hrun with
  | start hinit =>
      rw [hinit]
      exact ⟨rfl, List.Forall₂.nil⟩
  | @step h sm sm' e _ hstep ih =>
      obtain ⟨hkeys, hnamed⟩ := ih
      obtain ⟨hkeys', hnamed'⟩ := hstep.cases.named
      have hsame : e.pre.keyGenerator = sm.keyGenerator := by rw [hstep.reordered.frame]
      rw [hsame, hkeys] at hkeys' hnamed'
      rw [hstep.post, hkeys', uploadsSealed, List.length_append, ← Nat.add_assoc]
      exact ⟨rfl, hnamed.append hnamed'⟩

end Request

end StateMachine

namespace Sink

open StateMachine

/-! ## Runs of the sink -/

/-- The upload carries the key and the file of one that was sealed. -/
def OfSealed {F K : Type} (h : List (Step F K)) (u : ToUpload) : Prop :=
  ∃ v ∈ uploadsSealed h, v.objectKey = u.objectKey ∧ v.file = u.file

theorem OfSealed.cons {F K : Type} {h : List (Step F K)} {u : ToUpload} (hsealed : OfSealed h u)
    (e : Step F K) : OfSealed (e :: h) u := by
  obtain ⟨v, hv, hsame⟩ := hsealed
  exact ⟨v, List.mem_append_left _ hv, hsame⟩

variable {F K : Type} [FileRegistry F] [KeyGenerator K] {start : StateMachine F K}
variable {h : List (SinkEvent F K)} {s s' : SinkState F K} {e : Step F K} {actions : List Action}

/-- An upload answered is of a file sealed now, or is a retry under the old key. -/
theorem ofSealed_of_step (hstep : Steps s.stateMachine e s'.stateMachine)
    {taken : Multiset ToUpload} (hle : taken ≤ inFlight s) (hcompletes : Completes e.request taken)
    (hflying : ∀ u ∈ inFlight s, OfSealed (steps h) u) {u : ToUpload}
    (hu : u ∈ uploadsOf e.responses) : OfSealed (e :: steps h) u := by
  cases hrequest : e.request with
  | uploadCompletion result =>
      rw [hrequest] at hcompletes
      cases hcompletes with
      | nothing hnot => exact absurd rfl (hnot result)
      | upload v failure =>
          have hv := hflying v (Multiset.mem_of_le hle (Multiset.mem_singleton_self v))
          cases failure with
          | none =>
              rw [(hstep.cases_of hrequest).success_responses] at hu
              exact absurd hu List.not_mem_nil
          | some error =>
              rcases (hstep.cases_of hrequest).failure_cases with
                ⟨-, hanswer⟩ | ⟨-, hanswer⟩
              · rw [hanswer] at hu
                obtain rfl := List.mem_singleton.1 hu
                exact hv.cons e
              · rw [hanswer] at hu
                exact absurd hu List.not_mem_nil
  | _ =>
      refine ⟨u, List.mem_append_right _ ?_, rfl, rfl⟩
      rw [hrequest]
      exact hu

theorem ofSealed_of_run (hrun : Run (system start) h s) (hfree : FatalFree (steps h)) :
    ∀ u ∈ inFlight s, OfSealed (steps h) u := by
  refine invariant_of_run (P := fun h s => ∀ u ∈ inFlight s, OfSealed (steps h) u)
    (fun u hu => absurd hu (Multiset.notMem_zero u)) ?_ ?_ hrun hfree
  · intro h s s' event hflying hidle _ hpool
    rw [steps_idle hidle, hpool]
    exact hflying
  · rintro h s s' loop e actions - hflying hcarried -
    obtain ⟨taken, rest, hcompletes, hbefore, hafter⟩ := hcarried.uploads
    intro u hu
    rw [hafter] at hu
    rcases Multiset.mem_add.1 hu with hu | hrest
    · split at hu
      · exact absurd hu (Multiset.notMem_zero u)
      · exact ofSealed_of_step hcarried.steps (hbefore ▸ Multiset.le_add_right _ _) hcompletes
          hflying hu
    · exact (hflying u (hbefore ▸ Multiset.mem_add.2 (Or.inr hrest))).cons e

/-- Every upload handed over carries the key and the file of one that was sealed. -/
theorem handOvers_ofSealed (hrun : Run (system start) h s) :
    ∀ u ∈ handOvers h, OfSealed (steps h) u := by
  induction hrun with
  | start => exact fun u hu => absurd hu List.not_mem_nil
  | @step h s s' event hprev hstep ih =>
      cases hevent : step? event with
      | none =>
          rw [steps_idle hevent, handOvers_idle hevent]
          exact ih
      | some e =>
          cases event with
          | handled loop e actions =>
              have htaken := sinkStep_taken hstep
              have hflying := ofSealed_of_run hprev (fatalFree_of_run hprev htaken.running)
              obtain ⟨taken, hle, hcompletes⟩ := htaken.completes
              intro u hu
              rcases mem_handOvers_cons.1 hu with hnew | hold
              · exact ofSealed_of_step htaken.steps hle hcompletes hflying
                  (htaken.started.subset hnew)
              · exact (ih u hold).cons e
          | _ => cases hevent

/-- In every run with the S3 partitioner, if the names drawn for the keys so far are distinct and
hold no slash, uploads are handed over under one key exactly if they are of one file. -/
theorem objects_distinct {inputTopics : List (TopicConfig × List TopicName)} {directory : PathBuf}
    {os : OperatingSystem} {keyGenerator : S3Partitioner} {config : StateMachineConfiguration}
    {h : List (SinkEvent DiskFileRegistry S3Partitioner)}
    {s : SinkState DiskFileRegistry S3Partitioner}
    (hrun : Run (system (new inputTopics (DiskFileRegistry.new directory os) keyGenerator config))
      h s)
    (hnames : keyGenerator.DistinctNames keyGenerator.keys s.stateMachine.keyGenerator.keys) :
    ∀ u ∈ handOvers h, ∀ v ∈ handOvers h, u.objectKey = v.objectKey ↔ u.path = v.path := by
  obtain ⟨hkeys, hnamed⟩ := named_of_run (run_steps hrun)
  rw [hkeys] at hnames
  have hnodup := hnamed.nodup hnames
  intro u hu v hv
  constructor
  · intro hkey
    obtain ⟨w, hw, hwkey, hwfile⟩ := handOvers_ofSealed hrun u hu
    obtain ⟨w', hw', hwkey', hwfile'⟩ := handOvers_ofSealed hrun v hv
    have hsame : w = w' := List.inj_on_of_nodup_map hnodup hw hw'
      (hwkey.trans (hkey.trans hwkey'.symm))
    rw [ToUpload.path, ToUpload.path, ← hwfile, ← hwfile', hsame]
  · exact fun hpath => (handOvers_same hrun u hu v hv hpath).1

/-- A clock that shows midnight and as many seconds as keys were made, and an identifier that counts
them. -/
def sampleClock : S3Partitioner where
  now n := ⟨fun format =>
    if format = "%Y-%m-%d" then
      "2026-01-01"
    else if format = "%Y-%m-%dT%H:%M:%SZ" then
      "2026-01-01T00:00:" ++
        String.ofList [Nat.digitChar (n / 10 % 6), Nat.digitChar (n % 10)] ++ "Z"
    else
      format⟩
  uuid n := String.ofList [Nat.digitChar (n % 16)] ++ "c9e6679-7425-40de-944b-e07fc1f90ae7"
  keys := 0

/-- The sink of the samples with the S3 partitioner. -/
def partitionedStart : StateMachine DiskFileRegistry S3Partitioner :=
  new [(⟨.jsonStringDecoder, .topicVersion⟩, [⟨"topic"⟩])]
    (DiskFileRegistry.new "/scratch" OperatingSystem.faultless) sampleClock sampleStart.config

/-- A record of another schema version, and so of another stream. -/
def otherVersion (offset : Offset) : Message :=
  { sampleRecord offset with
    headers := some [⟨RouterStrategy.schemaVersionHeader, some [0x32]⟩] }

/-- A record of each of two streams, each sealed at once; the first upload fails and is retried. -/
def twiceSealedChoices : List (Ambient × Choice) :=
  [calm (.handle none), calm (.complete 1 (some (.s3Upload "timeout"))), calm (.handle none),
    calm (.ready (.record (otherVersion (sampleOffset 1))))] ++ sealedChoices

theorem objects_distinct_sample :
    let day := "/ingest_year_month_day=2026-01-01/2026-01-01T00:00:"
    (handOvers (play partitionedStart twiceSealedChoices).1).map ToUpload.objectKey =
        ["unknown_schema_name/unknown_schema_version" ++ day ++ "00Z-0c9e6679.jsonl.zst",
          "unknown_schema_name/2" ++ day ++ "01Z-1c9e6679.jsonl.zst",
          "unknown_schema_name/unknown_schema_version" ++ day ++ "00Z-0c9e6679.jsonl.zst"] ∧
      ∀ u ∈ handOvers (play partitionedStart twiceSealedChoices).1,
        ∀ v ∈ handOvers (play partitionedStart twiceSealedChoices).1,
          u.objectKey = v.objectKey ↔ u.path = v.path := by
  have hinj : ∀ m < 2, ∀ m' < 2, sampleClock.objectName m = sampleClock.objectName m' →
      m = m' := by decide
  have hslash : ∀ m < 2, '/' ∉ (sampleClock.objectName m).toList := by decide
  refine ⟨by decide, objects_distinct (run_play partitionedStart twiceSealedChoices) ⟨?_, ?_⟩⟩
  · rintro m ⟨-, hm⟩ m' ⟨-, hm'⟩ hname
    exact hinj m hm m' hm' hname
  · rintro m ⟨-, hm⟩
    exact hslash m hm

end Sink

end S3Sink
