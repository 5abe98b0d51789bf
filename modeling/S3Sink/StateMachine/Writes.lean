import S3Sink.StateMachine.Ledger
import S3Sink.StateMachine.Revocation

/-!
# Writes — the lines of a file and its record count

`ProcessRecord` counts a record before it knows whether the record has a line.  The lines are
counted here by the calls of `write_all`, and compared with the record count that a sealed file
carries.

* `written`, `writes` — the file the line of each record was written to, and how many went to a file;
* `Keeps` — a record with a line is kept where its line was written;
* `written_of_run` — so it is in every run;
* `record_count_iff` — exactly when the count of a sealed file is the number of its lines.
-/

namespace S3Sink

open Placement TransitionSystem

namespace StateMachine

open DiskFileRegistry

variable {K : Type} [KeyGenerator K]

/-! ## Calls of `write_all` -/

/-- The call of `write_all` a request leads to: its record and the file the line goes to, if the
record has a line. -/
def writtenBy (e : Step DiskFileRegistry K) : List (Message × Option PathBuf) :=
  match e.request with
  | .processRecord record =>
      match Cache.metadata e.pre.cache.configs record with
      | some metadata =>
          [(record, (lineOf e.pre.cache.configs record).map fun _ =>
            e.pre.fileRegistry.pathFor metadata.streamId)]
      | none => []
  | _ => []

/-- Every processed record, oldest first, and the file its line was written to, if it has one. -/
def written : List (Step DiskFileRegistry K) → List (Message × Option PathBuf)
  | [] => []
  | e :: h => written h ++ writtenBy e

/-- How many lines were written to a file. -/
def writes (path : PathBuf) (h : List (Step DiskFileRegistry K)) : Nat :=
  (written h).countP fun e => e.2 = some path

/-! ## Places and files -/

/-- A record at this place has its line in this file. -/
def Keeps (reg : DiskFileRegistry) (revoked : List PathBuf) (path : PathBuf) : Place → Prop
  | .stream id => reg.files.get? id = some ⟨path⟩
  | .file path' => path' = path
  | .revoked _ _ _ => path ∈ revoked

/-- The same record, with a line exactly if one was written, and kept with its line. -/
structure Matches (configs : HashMap TopicName TopicConfig) (reg : DiskFileRegistry)
    (revoked : List PathBuf) (kept : Message × Place) (call : Message × Option PathBuf) : Prop where
  record : call.1 = kept.1
  line : call.2.isSome = (lineOf configs kept.1).isSome
  place : ∀ path, call.2 = some path → Keeps reg revoked path kept.2

theorem line_ne_nil {configs : HashMap TopicName TopicConfig} {record : Message} {line : Bytes}
    (hline : lineOf configs record = some line) : line ≠ [] := by
  unfold lineOf at hline
  split at hline
  · cases hline
  · split at hline
    · next metadata _ line? hserialize =>
        subst hline
        -- a line ends with a newline
        unfold JsonSerializer.serializeRecord at hserialize
        split at hserialize
        · cases hserialize
        · split at hserialize
          · cases hserialize
          · split at hserialize
            · cases hserialize
            · cases hserialize
              simp
    · cases hline

omit [KeyGenerator K] in
/-- A stream with a line has an active file. -/
theorem Shelved.file_of_line {placed : List (Message × Place)}
    {sm : StateMachine DiskFileRegistry K} {archived : List SealedFile}
    (h : Shelved placed sm archived) {record : Message} {id : StreamId} {line : Bytes}
    (hmem : (record, Place.stream id) ∈ placed)
    (hline : lineOf sm.cache.configs record = some line) :
    ∃ file, sm.fileRegistry.files.get? id = some file := by
  obtain ⟨state, hget⟩ := HashMap.mem_iff.1 (h.opened.stream_mem record id hmem)
  have hcontent := (h.opened.described id state hget).content
  cases hfile : sm.fileRegistry.files.get? id with
  | some file => exact ⟨file, rfl⟩
  | none =>
      -- the line is among the bytes of the stream, and it is not empty
      have hnil : sm.fileRegistry.fileBytes id = [] := by
        rw [fileBytes, hfile]
      rw [hnil] at hcontent
      have hempty := List.flatten_eq_nil_iff.1 hcontent.symm line
        (List.mem_filterMap.2 ⟨record, mem_itemsAt.2 hmem, hline⟩)
      exact absurd hempty (line_ne_nil hline)

/-- A stream that has a file before and after a request has the same file. -/
theorem Handled.file_kept {ambient : Ambient} {sm sm' : StateMachine DiskFileRegistry K}
    {request : Request} {responses : List Response}
    (h : Handled ambient sm request responses sm') (hfree : NoFatal responses) {id : StreamId}
    {file file' : ActiveFile} (hget : sm.fileRegistry.files.get? id = some file)
    (hget' : sm'.fileRegistry.files.get? id = some file') : file' = file := by
  obtain ⟨reg₁, ids, hwrote, hreleased⟩ := h.released hfree
  have hget₁ := ((hreleased.files id file').1 hget').2
  rcases hwrote with rfl | ⟨id', line, hwrote⟩
  · exact Option.some.inj (hget₁.symm.trans hget)
  · rw [hwrote.files, HashMap.get?_orInsert] at hget₁
    split at hget₁
    · next hid =>
        rw [← hid, hget] at hget₁
        exact (Option.some.inj hget₁).symm
    · exact Option.some.inj (hget₁.symm.trans hget)

/-! ## One request -/

section Step

variable {ambient : Ambient} {sm sm' : StateMachine DiskFileRegistry K} {request : Request}
variable {responses : List Response} {placed : List (Message × Place)}
variable {archived : List SealedFile} {revoked : List PathBuf} {position : Nat}

/-- A record with a line goes where its line is. -/
theorem Handled.keeps (h : Handled ambient sm request responses sm') (hfree : NoFatal responses)
    (hshelved : Shelved placed sm archived)
    (hshelved' : Shelved (move (settle sm.fileRegistry request sm'.streams position)
      (placed ++ entering sm.cache.configs request)) sm'
      (sealedBy request responses ++ archived)) {record : Message} {place : Place} {line : Bytes}
    (hmem : (record, place) ∈ placed) (hline : lineOf sm.cache.configs record = some line)
    {path : PathBuf} (hkeeps : Keeps sm.fileRegistry revoked path place) :
    Keeps sm'.fileRegistry (revokedBy request responses ++ revoked) path
      (settle sm.fileRegistry request sm'.streams position place) := by
  cases place with
  | file path' => exact hkeeps
  | revoked position' id partitions => exact List.mem_append_right _ hkeeps
  | stream id =>
      have hget : sm.fileRegistry.files.get? id = some ⟨path⟩ := hkeeps
      by_cases hleft : id ∈ sm'.streams
      -- the stream still has lines, so it still has its file
      · have hsettle : settle sm.fileRegistry request sm'.streams position (.stream id) =
            .stream id := if_pos hleft
        have hmem' := mem_move.2 ⟨_, List.mem_append_left (entering sm.cache.configs request) hmem,
          hsettle⟩
        obtain ⟨file, hget'⟩ := hshelved'.file_of_line hmem' (h.configs ▸ hline)
        rw [hsettle]
        exact hget'.trans (congrArg some (h.file_kept hfree hget hget'))
      · cases request with
        | revokePartitions partitions =>
            have hspec := h.revoked_spec
            obtain ⟨state, hstate⟩ := HashMap.mem_iff.1 (hshelved.opened.stream_mem record id hmem)
            have hcovers : Covers partitions state := by
              by_contra hnot
              exact hleft (HashMap.mem_iff.2 ⟨state, (hspec.streams id state).2 ⟨hstate, hnot⟩⟩)
            simp only [settle, if_neg hleft]
            exact List.mem_append_left _
              (mem_deletesOf.2 ((hspec.deletes path).2 ⟨id, state, hstate, hcovers, hget⟩))
        | _ =>
            simp only [settle, if_neg hleft]
            exact pathFor_of_active hget

/-- The record of a request is kept where its line was just written. -/
theorem Handled.keeps_entering {record : Message}
    (h : Handled ambient sm (.processRecord record) responses sm') (hfree : NoFatal responses)
    {metadata : RecordMetadata}
    (hmetadata : Cache.metadata sm.cache.configs record = some metadata)
    (hline : (lineOf sm.cache.configs record).isSome = true) :
    Keeps sm'.fileRegistry revoked (sm.fileRegistry.pathFor metadata.streamId)
      (settle sm.fileRegistry (.processRecord record) sm'.streams position
        (.stream metadata.streamId)) := by
  cases h with
  | unconfigured => exact absurd List.mem_cons_self (hfree _)
  | undecodable => exact absurd List.mem_cons_self (hfree _)
  | writeFailed => exact absurd List.mem_cons_self (hfree _)
  | commitFailed => exact absurd List.mem_cons_self (hfree _)
  | skipped hfound _ hnone =>
      rw [lineOf_eq hfound hnone] at hline
      cases hline
  | written hfound _ _ hwrite _ =>
      obtain rfl := Option.some.inj (hmetadata.symm.trans hfound)
      have hwrote := writeAll_ok hwrite
      have hopen : ∀ state, metadata.streamId ∈ sm.streams.insert metadata.streamId state :=
        fun _ => (AList.mem_insert _).2 (Or.inl rfl)
      simp only [settle, if_pos (hopen _)]
      exact (hwrote.get?_files _).trans (if_pos rfl)
  | @sealed _ _ _ _ _ _ sm₁ hfound _ _ hwrite _ _ hclose =>
      obtain rfl := Option.some.inj (hmetadata.symm.trans hfound)
      have hgone : metadata.streamId ∉ sm₁.streams := by
        rw [← hclose, closeAndUpload_streams]
        exact fun hmem => absurd rfl (AList.mem_erase.1 hmem).1
      simp only [settle, if_neg hgone]
      exact rfl

/-- The record of a request matches the call it leads to. -/
theorem Handled.matches_entering {e : Step DiskFileRegistry K}
    (h : Handled e.ambient e.pre e.request e.responses e.post) (hfree : NoFatal e.responses) :
    List.Forall₂ (Matches e.pre.cache.configs e.post.fileRegistry revoked)
      (move (settle e.pre.fileRegistry e.request e.post.streams position)
        (entering e.pre.cache.configs e.request)) (writtenBy e) := by
  unfold writtenBy
  cases hrequest : e.request with
  | processRecord record =>
      dsimp only
      cases hmetadata : Cache.metadata e.pre.cache.configs record with
      | none => simp [entering, hmetadata, move]
      | some metadata =>
          rw [entering_of_metadata hmetadata]
          refine List.Forall₂.cons ⟨rfl, by simp, fun path hpath => ?_⟩ List.Forall₂.nil
          obtain ⟨line, hline, rfl⟩ := Option.map_eq_some_iff.1 hpath
          rw [hrequest] at h
          dsimp only
          exact h.keeps_entering hfree hmetadata (by rw [hline]; rfl)
  | _ => exact List.Forall₂.nil

end Step

/-! ## Whole runs -/

section Runs

variable {inputTopics : List (TopicConfig × List TopicName)} {directory : PathBuf}
variable {os : OperatingSystem} {keyGenerator : K} {config : StateMachineConfiguration}
variable {h : List (Step DiskFileRegistry K)} {sm : StateMachine DiskFileRegistry K}

/-- In every run without `Fatal` a record with a line is kept where its line was written. -/
theorem written_of_run
    (hrun : Run (system (new inputTopics (DiskFileRegistry.new directory os) keyGenerator config))
      h sm) (hfree : FatalFree h) :
    List.Forall₂ (Matches sm.cache.configs sm.fileRegistry (revokedFiles h)) (ledger h)
      (written h) := by
  induction hrun with
  | start hinit => exact List.Forall₂.nil
  | @step h sm sm' e hprev hstep ih =>
      have hshelved := (shelved_of_run hprev hfree.tail).reordered hstep.reordered
      have hshelved' := shelved_of_run (Run.step hprev hstep) hfree
      have hold := ih hfree.tail
      rw [← hstep.reordered.cache, ← hstep.reordered.fileRegistry] at hold
      rw [hstep.post] at hshelved' ⊢
      rw [ledger, move, List.map_append, written, hstep.cases.configs]
      refine List.rel_append ?_ (hstep.cases.matches_entering hfree.head)
      -- the records before, each with its place
      refine List.forall₂_map_left_iff.2 (List.Forall₂.imp ?_
        ((List.forall₂_and_left _ _).2 ⟨fun _ hmem => hmem, hold⟩))
      rintro ⟨record, place⟩ ⟨record', dest⟩ ⟨hmem, hmatches⟩
      refine ⟨hmatches.record, hmatches.line, fun path hpath => ?_⟩
      obtain ⟨line, hline⟩ : ∃ line, lineOf e.pre.cache.configs record = some line := by
        rw [← Option.isSome_iff_exists, ← hmatches.line, hpath]
        rfl
      exact hstep.cases.keeps hfree.head hshelved hshelved' hmem hline (hmatches.place path hpath)

omit [KeyGenerator K] in
theorem countP_of_forall₂ {α β : Type} {r : α → β → Prop} {p : α → Bool} {q : β → Bool} {l : List α}
    {l' : List β} (h : List.Forall₂ r l l') (hsame : ∀ a b, r a b → p a = q b) :
    l.countP p = l'.countP q := by
  induction h with
  | nil => rfl
  | cons hhead _ ih => rw [List.countP_cons, List.countP_cons, ih, hsame _ _ hhead]

/-- The lines written to a sealed file are those of its records. -/
theorem writes_eq
    (hrun : Run (system (new inputTopics (DiskFileRegistry.new directory os) keyGenerator config))
      h sm) (hfree : FatalFree h) {file : SealedFile} (hfile : file ∈ sealedFiles h) :
    writes file.path h = (itemsAt (ledger h) (.file file.path)).countP fun record =>
      (lineOf sm.cache.configs record).isSome := by
  have hpath : file.path ∈ (↑((sealedFiles h).map SealedFile.path) : Multiset PathBuf) :=
    Multiset.mem_coe.2 (List.mem_map_of_mem hfile)
  -- a sealed file is neither active nor revoked
  obtain ⟨hsealed, -, hrevoked⟩ := Multiset.nodup_add.1 (lifecycle_of_run hrun hfree).nodup
  have hactive := (Multiset.nodup_add.1 hsealed).2.2
  rw [countP_itemsAt]
  refine (countP_of_forall₂ (written_of_run hrun hfree) fun kept call hmatches => ?_).symm
  obtain ⟨record, place⟩ := kept
  rw [Bool.eq_iff_iff, Bool.and_eq_true, decide_eq_true_eq, decide_eq_true_eq, ← hmatches.line]
  constructor
  · rintro ⟨hplace, hline⟩
    obtain ⟨path, hcall⟩ := Option.isSome_iff_exists.1 hline
    have hkeeps := hmatches.place path hcall
    rw [hplace] at hkeeps
    rw [hcall, ← show file.path = path from hkeeps]
  · intro hcall
    refine ⟨?_, by rw [hcall]; rfl⟩
    have hkeeps := hmatches.place _ hcall
    cases place with
    | file path => exact congrArg Place.file hkeeps
    | stream id =>
        exact absurd hpath (Multiset.disjoint_left.1 hactive (mem_activePaths.2 ⟨id, hkeeps⟩))
    | revoked position id partitions =>
        exact absurd (Multiset.mem_coe.2 hkeeps)
          (Multiset.disjoint_left.1 hrevoked (Multiset.mem_add.2 (Or.inr hpath)))

/-- The record count of a sealed file is the number of lines written to it exactly if every record
consumed into it has a line. -/
theorem record_count_iff {e : Step DiskFileRegistry K}
    (hrun : Run (system (new inputTopics (DiskFileRegistry.new directory os) keyGenerator config))
      (e :: h) sm) (hfree : FatalFree (e :: h))
    (hseals : ∀ result, e.request ≠ .uploadCompletion result) {u : ToUpload}
    (hu : u ∈ uploadsOf e.responses) :
    u.recordCount = writes u.path (e :: h) ↔
      ∀ record ∈ itemsAt (ledger (e :: h)) (.file u.path),
        (lineOf sm.cache.configs record).isSome = true := by
  have hfile : u.file ∈ sealedFiles (e :: h) := by
    rw [sealedFiles_cons, sealedBy_eq e.responses hseals]
    exact List.mem_append_left _ (List.mem_map_of_mem hu)
  have hcount := ((shelved_of_run hrun hfree).sealed.described u.file hfile).count
  have hwrites := writes_eq hrun hfree hfile
  change u.file.recordCount = writes u.file.path (e :: h) ↔ _
  rw [hcount, hwrites, eq_comm, List.countP_eq_length]
  rfl

end Runs

/-- Two records of one stream, the second with the given payload, and a shutdown. -/
def shutdownInputs (payload : Option Bytes) : List (Ambient × Request) :=
  [quiet .shutdownSignal,
    quiet (.processRecord { sampleRecord (sampleOffset 1) with payload := payload }),
    quiet (.processRecord (sampleRecord (sampleOffset 0)))]

theorem record_count_iff_sample :
    let h := (trace openStart (shutdownInputs (some [0x7B, 0x7D]))).1
    ∀ e ∈ h.head?, ∀ u ∈ uploadsOf e.responses, u.recordCount = writes u.path h := by
  intro h e he u hu
  have hrun := run_trace openStart (shutdownInputs (some [0x7B, 0x7D]))
  have hlines : ∀ e ∈ (trace openStart (shutdownInputs (some [0x7B, 0x7D]))).1.head?,
      ∀ u ∈ uploadsOf e.responses,
        ∀ record ∈ itemsAt (ledger (trace openStart (shutdownInputs (some [0x7B, 0x7D]))).1)
          (.file u.path), (lineOf openStart.cache.configs record).isSome = true := by
    decide
  have hfile := hlines e he u hu
  obtain rfl := Option.some.inj he
  exact (record_count_iff hrun (by decide) (by intro result hresult; cases hresult) hu).2 hfile

/-- A record without a payload is counted, and no line of it is written: the count is two, the file
has one line. -/
theorem null_payload_counted :
    let h := (trace openStart (shutdownInputs none)).1
    FatalFree h ∧ h.map (fun e => (uploadsOf e.responses).map fun u =>
      (u.recordCount, writes u.path h)) = [[(2, 1)], [], []] := by
  decide

end StateMachine

end S3Sink
