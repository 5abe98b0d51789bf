import S3Sink.Files.OnDisk
import S3Sink.Files.RawBlocks
import S3Sink.StateMachine.Backend
import S3Sink.StateMachine.ReadBack

/-!
# Compression — from the calls of `write` to the lines of a file

The other modules run the state machine over a registry with transparent compression.  Every run
over the registry of `FileIo` is one of theirs: what the disk and the encoder answered becomes what
the operating system answers there.

* `Refines` — the registry of `FileIo`, with compression left out;
* `registrySimulation_refines` — both answer alike;
* `stored_of_run` — whole runs: the files sealed decompress to the lines of their records.
-/

namespace S3Sink
namespace FileIo

open TransitionSystem StateMachine

/-! ## The two registries -/

/-- What the operation meets if compression is left out. -/
def Operation.outcome : Operation → DiskOutcome
  | create _ openError encoderError => ⟨openError, encoderError, none, .ok 0⟩
  | write _ taken error => ⟨none, none, error.map fun e => (e, taken.length), .ok 0⟩
  | close _ result => ⟨none, none, none, result⟩

/-- The operating system answers as the operations ended. -/
def Foretells (os : OperatingSystem) : List Operation → Prop
  | [] => True
  | operation :: operations =>
      os.outcome operations.length = operation.outcome ∧ Foretells os operations

theorem Foretells.suffix {os : OperatingSystem} {operations operations' : List Operation}
    (h : Foretells os operations') (hsuffix : operations <:+ operations') :
    Foretells os operations := by
  induction operations' with
  | nil => rwa [List.suffix_nil.1 hsuffix]
  | cons operation operations' ih =>
      rcases List.suffix_cons_iff.1 hsuffix with rfl | hold
      · exact h
      · exact ih h.2 hold

namespace DiskFileRegistry

variable {σ : Type} [Zstd σ] {reg reg' : DiskFileRegistry σ} {id : StreamId}

/-- Operations were added. -/
structure Extends (reg reg' : DiskFileRegistry σ) : Prop where
  directory : reg'.directory = reg.directory
  system : reg'.system = reg.system
  operations : reg.operations <:+ reg'.operations

omit [Zstd σ] in
theorem Extends.refl (reg : DiskFileRegistry σ) : Extends reg reg :=
  ⟨rfl, rfl, List.suffix_rfl⟩

omit [Zstd σ] in
theorem Extends.trans {reg'' : DiskFileRegistry σ} (h : Extends reg reg')
    (h' : Extends reg' reg'') : Extends reg reg'' :=
  ⟨h'.directory.trans h.directory, h'.system.trans h.system, h.operations.trans h'.operations⟩

theorem extends_newActiveFile (reg : DiskFileRegistry σ) : Extends reg reg.newActiveFile.2 := by
  have hcases := newActiveFile_cases reg
  generalize reg.newActiveFile = out at hcases
  obtain ⟨result, reg'⟩ := out
  cases hcases <;> exact ⟨rfl, rfl, List.suffix_cons _ _⟩

theorem extends_getMut (reg : DiskFileRegistry σ) (id : StreamId) :
    Extends reg (reg.getMutActiveFileOrCreate id).2 := by
  have hnew := extends_newActiveFile reg
  unfold getMutActiveFileOrCreate
  cases reg.files.get? id with
  | some file => exact Extends.refl reg
  | none =>
      generalize reg.newActiveFile = out at hnew
      obtain ⟨result, reg'⟩ := out
      cases result <;> exact ⟨hnew.directory, hnew.system, hnew.operations⟩

theorem extends_writeActiveFile (reg : DiskFileRegistry σ) (id : StreamId) (file : ActiveFile σ)
    (bytes : Bytes) : Extends reg (reg.writeActiveFile id file bytes).2 := by
  unfold writeActiveFile
  split <;> exact ⟨rfl, rfl, List.suffix_cons _ _⟩

theorem registryInvariant_extends (reg₀ : DiskFileRegistry σ) :
    RegistryInvariant fun reg : DiskFileRegistry σ => Extends reg₀ reg where
  close reg id h := by
    refine h.trans ?_
    change Extends reg (reg.close id).2
    unfold close
    split
    · exact Extends.refl reg
    · dsimp only
      split <;> exact ⟨rfl, rfl, List.suffix_cons _ _⟩
  writeAll reg id bytes h := by
    refine h.trans ?_
    change Extends reg (reg.writeAll id bytes).2
    have hget := extends_getMut reg id
    unfold writeAll
    generalize reg.getMutActiveFileOrCreate id = out at hget
    obtain ⟨result, reg'⟩ := out
    cases result with
    | error error => exact hget
    | ok file => exact hget.trans (extends_writeActiveFile reg' id file bytes)
  revoke reg id h := by
    refine h.trans ?_
    change Extends reg (reg.revoke id).2
    unfold revoke
    split <;> exact ⟨rfl, rfl, List.suffix_rfl⟩

/-- The operating system of the other registry answers as this one found. -/
def Foretold (os : OperatingSystem) (reg : DiskFileRegistry σ) : Prop :=
  os.uuid = reg.system.uuid ∧ Foretells os reg.operations

omit [Zstd σ] in
theorem Foretold.of_extends {os : OperatingSystem} (h : Foretold os reg')
    (hextends : Extends reg reg') : Foretold os reg :=
  ⟨h.1.trans (by rw [hextends.system]), h.2.suffix hextends.operations⟩

/-- The registry with compression left out. -/
structure Refines (os : OperatingSystem) (reg : DiskFileRegistry σ)
    (abs : S3Sink.DiskFileRegistry) : Prop where
  directory : abs.directory = reg.directory
  os : abs.os = os
  tick : abs.tick = reg.operations.length
  files : ∀ id, abs.files.get? id = (reg.files.get? id).map fun file => ⟨file.path⟩
  content : ∀ path, abs.content path = takenBy (reg.history path)

/-! ## Operations -/

/-- Only writes add to what the encoder took. -/
theorem takenBy_history_create (path path' : PathBuf) (openError encoderError : Option SinkError)
    (operations : List Operation) :
    takenBy ((.create path' openError encoderError :: operations).filter (·.path = path)) =
      takenBy (operations.filter (·.path = path)) := by
  rw [List.filter_cons]
  split <;> rfl

theorem takenBy_history_close (path path' : PathBuf) (result : Except SinkError Nat)
    (operations : List Operation) :
    takenBy ((.close path' result :: operations).filter (·.path = path)) =
      takenBy (operations.filter (·.path = path)) := by
  rw [List.filter_cons]
  split <;> rfl

theorem takenBy_history_write (path path' : PathBuf) (taken : Bytes) (error : Option SinkError)
    (operations : List Operation) :
    takenBy ((.write path' taken error :: operations).filter (·.path = path)) =
      if path = path' then takenBy (operations.filter (·.path = path)) ++ taken
      else takenBy (operations.filter (·.path = path)) := by
  rw [List.filter_cons]
  by_cases hpath : path = path'
  · rw [if_pos hpath, if_pos (by simp [Operation.path, hpath])]
    rfl
  · rw [if_neg hpath, if_neg fun heq => hpath (of_decide_eq_true heq).symm]

theorem newActiveFile_path {file : ActiveFile σ} {path : PathBuf} {answers : AppendFile}
    {compressionLevel : Int} (h : ActiveFile.new path answers compressionLevel = .ok file) :
    file.path = path := by
  unfold ActiveFile.new at h
  dsimp only at h
  split at h
  · cases h
  · cases h
    rfl

variable {os : OperatingSystem} {abs : S3Sink.DiskFileRegistry}

omit [Zstd σ] in
theorem Refines.nextPath (h : Refines os reg abs) (huuid : os.uuid = reg.system.uuid) :
    abs.nextPath = reg.nextPath := by
  unfold S3Sink.DiskFileRegistry.nextPath DiskFileRegistry.nextPath
  rw [h.directory, h.os, h.tick, huuid]

omit [Zstd σ] in
/-- The next answer of the operating system is how the next operation ended. -/
theorem Refines.outcome (h : Refines os reg abs) (hforetold : Foretold os reg')
    {operation : Operation} (hoperations : reg'.operations = operation :: reg.operations) :
    abs.os.outcome abs.tick = operation.outcome := by
  have hforetells := hforetold.2
  rw [hoperations] at hforetells
  rw [h.os, h.tick]
  exact hforetells.1

/-- Both create the file, or fail alike. -/
theorem Refines.newActiveFile (h : Refines os reg abs)
    (hforetold : Foretold os reg.newActiveFile.2) :
    abs.newActiveFile.1 = reg.newActiveFile.1.map (fun file => ⟨file.path⟩) ∧
      Refines os reg.newActiveFile.2 abs.newActiveFile.2 := by
  have hpath := h.nextPath ((hforetold.of_extends (extends_newActiveFile reg)).1)
  have hcases := newActiveFile_cases reg
  generalize reg.newActiveFile = out at hforetold hcases ⊢
  obtain ⟨result, reg'⟩ := out
  have hcreated : ∀ path, (abs.create abs.nextPath).content path = abs.content path := fun path =>
    S3Sink.DiskFileRegistry.content_create abs abs.nextPath path
  cases hcases with
  | refused error =>
      have houtcome := h.outcome hforetold rfl
      unfold S3Sink.DiskFileRegistry.newActiveFile
      simp only [houtcome, Operation.outcome]
      refine ⟨rfl, h.directory, h.os, congrArg (· + 1) h.tick, h.files, fun path => ?_⟩
      exact (h.content path).trans (takenBy_history_create _ _ _ _ _).symm
  | unencoded error =>
      have houtcome := h.outcome hforetold rfl
      unfold S3Sink.DiskFileRegistry.newActiveFile
      simp only [houtcome, Operation.outcome]
      refine ⟨rfl, h.directory, h.os, congrArg (· + 1) h.tick, h.files, fun path => ?_⟩
      exact ((hcreated path).trans (h.content path)).trans (takenBy_history_create _ _ _ _ _).symm
  | created hnew =>
      have houtcome := h.outcome hforetold rfl
      unfold S3Sink.DiskFileRegistry.newActiveFile
      simp only [houtcome, Operation.outcome]
      refine ⟨?_, h.directory, h.os, congrArg (· + 1) h.tick, h.files, fun path => ?_⟩
      · rw [hpath, ← newActiveFile_path hnew]
        rfl
      · exact ((hcreated path).trans (h.content path)).trans
          (takenBy_history_create _ _ _ _ _).symm

theorem Refines.getMut (h : Refines os reg abs)
    (hforetold : Foretold os (reg.getMutActiveFileOrCreate id).2) :
    (abs.getMutActiveFileOrCreate id).1 =
        (reg.getMutActiveFileOrCreate id).1.map (fun file => ⟨file.path⟩) ∧
      Refines os (reg.getMutActiveFileOrCreate id).2 (abs.getMutActiveFileOrCreate id).2 := by
  have hfiles := h.files id
  have hnew := h.newActiveFile
  unfold S3Sink.DiskFileRegistry.getMutActiveFileOrCreate
  unfold getMutActiveFileOrCreate at hforetold ⊢
  cases hget : reg.files.get? id with
  | some file =>
      rw [hget, Option.map_some] at hfiles
      rw [hfiles]
      exact ⟨rfl, h⟩
  | none =>
      rw [hget, Option.map_none] at hfiles
      rw [hget] at hforetold
      rw [hfiles]
      dsimp only at hforetold ⊢
      generalize reg.newActiveFile = out at hforetold hnew ⊢
      generalize abs.newActiveFile = out' at hnew ⊢
      obtain ⟨result, reg₁⟩ := out
      obtain ⟨result', abs₁⟩ := out'
      cases result with
      | error error =>
          obtain ⟨rfl, hrefines⟩ := hnew hforetold
          exact ⟨rfl, hrefines⟩
      | ok file =>
          obtain ⟨rfl, hrefines⟩ := hnew ⟨hforetold.1, hforetold.2⟩
          refine ⟨rfl, { hrefines with files := fun id' => ?_ }⟩
          change HashMap.get? (abs₁.files.insert id ⟨file.path⟩) id' =
            (HashMap.get? (reg₁.files.insert id file) id').map _
          rw [HashMap.get?_insert, HashMap.get?_insert]
          split
          · rfl
          · exact hrefines.files id'

omit [Zstd σ] in
/-- Both take the file from its stream. -/
theorem Refines.erase (h : Refines os reg abs) (id id' : StreamId) :
    HashMap.get? (abs.files.erase id) id' =
      (HashMap.get? (reg.files.erase id) id').map fun file => ⟨file.path⟩ := by
  rw [HashMap.get?_erase, HashMap.get?_erase]
  split
  · rfl
  · exact h.files id'

theorem Refines.close (h : Refines os reg abs) (hforetold : Foretold os (reg.close id).2) :
    (abs.close id).1 = (reg.close id).1 ∧ Refines os (reg.close id).2 (abs.close id).2 := by
  have hfiles := h.files id
  unfold S3Sink.DiskFileRegistry.close
  unfold DiskFileRegistry.close at hforetold ⊢
  cases hget : reg.files.get? id with
  | none =>
      rw [hget, Option.map_none] at hfiles
      rw [hfiles]
      exact ⟨rfl, h⟩
  | some file =>
      rw [hget, Option.map_some] at hfiles
      rw [hget] at hforetold
      rw [hfiles]
      dsimp only [S3Sink.DiskFileRegistry.closeActiveFile] at hforetold ⊢
      generalize hclose : file.close = out at hforetold ⊢
      obtain ⟨result, file'⟩ := out
      have hcontent : ∀ path' result path, abs.content path =
          takenBy ((.close path' result :: reg.operations).filter (·.path = path)) :=
        fun path' result path => (h.content path).trans (takenBy_history_close _ _ _ _).symm
      cases result with
      | error error =>
          have houtcome := h.outcome hforetold rfl
          simp only [houtcome, Operation.outcome]
          exact ⟨trivial, h.directory, h.os, congrArg (· + 1) h.tick, h.erase id, hcontent _ _⟩
      | ok compressedSizeB =>
          have houtcome := h.outcome hforetold rfl
          simp only [houtcome, Operation.outcome, ActiveFile.close_path hclose]
          exact ⟨trivial, h.directory, h.os, congrArg (· + 1) h.tick, h.erase id, hcontent _ _⟩

omit [Zstd σ] in
theorem Refines.revoke (h : Refines os reg abs) (id : StreamId) :
    (abs.revoke id).1 = (reg.revoke id).1 ∧ Refines os (reg.revoke id).2 (abs.revoke id).2 := by
  have hfiles := h.files id
  unfold S3Sink.DiskFileRegistry.revoke DiskFileRegistry.revoke
  cases hget : reg.files.get? id with
  | none =>
      rw [hget, Option.map_none] at hfiles
      rw [hfiles]
      exact ⟨rfl, h⟩
  | some file =>
      rw [hget, Option.map_some] at hfiles
      rw [hfiles]
      exact ⟨rfl, h.directory, h.os, h.tick, h.erase id, h.content⟩

variable [LawfulZstd σ]

/-- Both write the bytes the encoder took. -/
theorem Refines.writeActiveFile (h : Refines os reg abs) {file : ActiveFile σ} {bytes : Bytes}
    (hget : reg.files.get? id = some file)
    (hforetold : Foretold os (reg.writeActiveFile id file bytes).2) :
    (abs.writeActiveFile ⟨file.path⟩ bytes).1 = (reg.writeActiveFile id file bytes).1 ∧
      Refines os (reg.writeActiveFile id file bytes).2
        (abs.writeActiveFile ⟨file.path⟩ bytes).2 := by
  unfold DiskFileRegistry.writeActiveFile at hforetold ⊢
  unfold S3Sink.DiskFileRegistry.writeActiveFile
  generalize hwrite : file.writeAll bytes = out at hforetold ⊢
  obtain ⟨result, taken, file'⟩ := out
  have htook := ActiveFile.writeAll_spec hwrite
  have hfiles : ∀ id', abs.files.get? id' =
      (HashMap.get? (reg.files.insert id file') id').map fun file => ⟨file.path⟩ := by
    intro id'
    rw [HashMap.get?_insert]
    split
    · next hid =>
        subst hid
        rw [h.files, hget, Option.map_some, Option.map_some, htook.path]
    · exact h.files id'
  have hcontent : ∀ (taken : Bytes) (error : Option SinkError) (path : PathBuf),
      (S3Sink.DiskFileRegistry.append { abs with tick := abs.tick + 1 } file.path taken).content
          path =
        takenBy ((.write file'.path taken error :: reg.operations).filter (·.path = path)) := by
    intro taken error path
    rw [S3Sink.DiskFileRegistry.content_append, takenBy_history_write, htook.path]
    exact congrArg (fun content => if path = file.path then content ++ taken else content)
      (h.content path)
  cases result with
  | error error =>
      have htake : bytes.take (bytes.take taken).length = bytes.take taken := by
        rw [List.length_take, ← List.take_take, List.take_length]
      have houtcome := h.outcome hforetold rfl
      simp only [houtcome, Operation.outcome, Option.map_some, htake]
      exact ⟨trivial, h.directory, h.os, congrArg (· + 1) h.tick, hfiles, hcontent _ _⟩
  | ok done =>
      have houtcome := h.outcome hforetold rfl
      simp only [houtcome, Operation.outcome, Option.map_none, htook.taken]
      exact ⟨trivial, h.directory, h.os, congrArg (· + 1) h.tick, hfiles, hcontent _ _⟩

theorem Refines.writeAll (h : Refines os reg abs) {bytes : Bytes}
    (hsound : reg.Sound) (hforetold : Foretold os (reg.writeAll id bytes).2) :
    (abs.writeAll id bytes).1 = (reg.writeAll id bytes).1 ∧
      Refines os (reg.writeAll id bytes).2 (abs.writeAll id bytes).2 := by
  have hgetMut : Foretold os (reg.getMutActiveFileOrCreate id).2 → _ := h.getMut
  unfold S3Sink.DiskFileRegistry.writeAll
  unfold DiskFileRegistry.writeAll at hforetold ⊢
  generalize hout : reg.getMutActiveFileOrCreate id = out at hforetold hgetMut ⊢
  generalize abs.getMutActiveFileOrCreate id = out' at hgetMut ⊢
  obtain ⟨result, reg₁⟩ := out
  obtain ⟨result', abs₁⟩ := out'
  cases result with
  | error error =>
      obtain ⟨rfl, hrefines⟩ := hgetMut hforetold
      exact ⟨rfl, hrefines⟩
  | ok file =>
      have hforetold₁ := hforetold.of_extends (extends_writeActiveFile reg₁ id file bytes)
      obtain ⟨rfl, hrefines⟩ := hgetMut hforetold₁
      exact hrefines.writeActiveFile ((hsound.getMut hout).2 file rfl) hforetold

/-- Whatever the disk and the encoder do, the registry answers as if compression were left out. -/
theorem registrySimulation_refines (os : OperatingSystem) :
    RegistrySimulation (Foretold os)
      fun (reg : DiskFileRegistry σ) abs => reg.Sound ∧ Refines os reg abs where
  good :=
    { close := fun reg id hbad hgood =>
        hbad (hgood.of_extends ((registryInvariant_extends reg).close reg id (Extends.refl reg)))
      writeAll := fun reg id bytes hbad hgood => hbad (hgood.of_extends
        ((registryInvariant_extends reg).writeAll reg id bytes (Extends.refl reg)))
      revoke := fun reg id hbad hgood =>
        hbad (hgood.of_extends ((registryInvariant_extends reg).revoke reg id (Extends.refl reg))) }
  close hgood h :=
    let hclosed := h.2.close hgood
    ⟨hclosed.1, h.1.close _, hclosed.2⟩
  writeAll hgood h :=
    let hwritten := h.2.writeAll h.1 hgood
    ⟨hwritten.1, h.1.writeAll _ _, hwritten.2⟩
  revoke _ h :=
    let hrevoked := h.2.revoke _
    ⟨hrevoked.1, h.1.revoke _, hrevoked.2⟩

end DiskFileRegistry

/-! ## Runs -/

/-- The operating system that answers as the operations ended. -/
def System.replay (system : System) (operations : List Operation) : OperatingSystem where
  outcome tick := (operations.reverse[tick]?.map Operation.outcome).getD ⟨none, none, none, .ok 0⟩
  uuid := system.uuid
  uuid_injective := system.uuid_injective

theorem foretells_replay (system : System) {all operations : List Operation}
    (hsuffix : operations <:+ all) : Foretells (system.replay all) operations := by
  induction operations with
  | nil => trivial
  | cons operation operations ih =>
      refine ⟨?_, ih ((List.suffix_cons _ _).trans hsuffix)⟩
      obtain ⟨newer, rfl⟩ := hsuffix
      unfold System.replay
      dsimp only
      rw [List.reverse_append, List.reverse_cons, List.append_assoc,
        List.getElem?_append_right (Nat.le_of_eq (List.length_reverse)), List.length_reverse,
        Nat.sub_self]
      rfl

namespace DiskFileRegistry

section Invariants

variable {σ : Type} [Zstd σ]

theorem registryInvariant_sound [LawfulZstd σ] :
    RegistryInvariant fun reg : DiskFileRegistry σ => reg.Sound where
  close _ id h := h.close id
  writeAll _ id bytes h := h.writeAll id bytes
  revoke _ id h := h.revoke id

/-- What is closed stays closed. -/
theorem closeFact_closed : CloseFact fun path size (reg : DiskFileRegistry σ) =>
    .close path (.ok size) ∈ reg.operations where
  keeps path size :=
    { close := fun reg id hmem =>
        ((registryInvariant_extends reg).close reg id (Extends.refl reg)).operations.mem hmem
      writeAll := fun reg id bytes hmem =>
        ((registryInvariant_extends reg).writeAll reg id bytes (Extends.refl reg)).operations.mem
          hmem
      revoke := fun reg id hmem =>
        ((registryInvariant_extends reg).revoke reg id (Extends.refl reg)).operations.mem hmem }
  close := by
    intro reg reg' id path size hclose
    change reg.close id = _ at hclose
    unfold DiskFileRegistry.close at hclose
    split at hclose
    · cases hclose
    · dsimp only at hclose
      split at hclose
      · cases hclose
      · obtain ⟨hanswer, rfl⟩ := Prod.mk.inj hclose
        cases hanswer
        exact List.mem_cons_self

/-- As long as no write fails, no write has failed. -/
theorem writeInvariant_unbroken :
    WriteInvariant fun reg : DiskFileRegistry σ => Unbroken reg.operations where
  close reg id h := by
    change Unbroken (reg.close id).2.operations
    unfold DiskFileRegistry.close
    split
    · exact h
    · dsimp only
      split <;> exact fun path taken error hmem =>
        h path taken error ((List.mem_cons.1 hmem).resolve_left nofun)
  writeAll := by
    intro reg reg' id bytes hwrite h
    change reg.writeAll id bytes = _ at hwrite
    unfold DiskFileRegistry.writeAll at hwrite
    split at hwrite
    · cases hwrite
    · next file reg₁ hget =>
        have hget' : Unbroken reg₁.operations := by
          unfold getMutActiveFileOrCreate at hget
          split at hget
          · cases hget
            exact h
          · have hcases := newActiveFile_cases reg
            generalize reg.newActiveFile = out at hget hcases
            obtain ⟨result, reg₂⟩ := out
            cases hcases <;> cases hget
            exact fun path taken error hmem =>
              h path taken error ((List.mem_cons.1 hmem).resolve_left nofun)
        unfold writeActiveFile at hwrite
        split at hwrite
        · cases hwrite
        · obtain ⟨-, rfl⟩ := Prod.mk.inj hwrite
          exact fun path taken error hmem =>
            hget' path taken error ((List.mem_cons.1 hmem).resolve_left nofun)
  revoke reg id h := by
    change Unbroken (reg.revoke id).2.operations
    unfold DiskFileRegistry.revoke
    split <;> exact h

end Invariants

end DiskFileRegistry

section Runs

variable {σ K : Type} [Zstd σ] [LawfulZstd σ] [KeyGenerator K]
variable {inputTopics : List (TopicConfig × List TopicName)} {directory : PathBuf}
variable {compressionLevel : Int} {disk : System} {keyGenerator : K}
variable {config : StateMachineConfiguration} {h : List (Step (DiskFileRegistry σ) K)}
variable {sm : StateMachine (DiskFileRegistry σ) K}

omit [LawfulZstd σ] in
/-- What the operations of a run met is what the operating system answers without compression. -/
theorem foretold_of_run
    (hrun : Run (system (new inputTopics (DiskFileRegistry.new directory compressionLevel disk)
      keyGenerator config)) h sm) :
    sm.fileRegistry.Foretold (disk.replay sm.fileRegistry.operations) := by
  refine ⟨?_, foretells_replay disk List.suffix_rfl⟩
  have hextends : DiskFileRegistry.Extends
      (DiskFileRegistry.new directory compressionLevel disk) sm.fileRegistry := by
    induction hrun with
    | start hinit =>
        rw [hinit]
        exact DiskFileRegistry.Extends.refl _
    | step _ hstep ih =>
        exact Steps.registry (DiskFileRegistry.registryInvariant_extends _) hstep ih
  rw [hextends.system]
  rfl

omit [LawfulZstd σ] [KeyGenerator K] in
theorem similar_new (os : OperatingSystem) :
    Similar
      (fun (reg : DiskFileRegistry σ) abs => reg.Sound ∧ DiskFileRegistry.Refines os reg abs)
      (new inputTopics (DiskFileRegistry.new directory compressionLevel disk) keyGenerator config)
      (new inputTopics (S3Sink.DiskFileRegistry.new directory os) keyGenerator config) :=
  ⟨S3Sink.DiskFileRegistry.new directory os, rfl,
    DiskFileRegistry.sound_new directory compressionLevel disk,
    ⟨rfl, rfl, rfl, fun _ => rfl, fun _ => rfl⟩⟩

theorem sound_of_run
    (hrun : Run (system (new inputTopics (DiskFileRegistry.new directory compressionLevel disk)
      keyGenerator config)) h sm) : sm.fileRegistry.Sound := by
  induction hrun with
  | start hinit => exact hinit ▸ DiskFileRegistry.sound_new directory compressionLevel disk
  | step _ hstep ih => exact Steps.registry DiskFileRegistry.registryInvariant_sound hstep ih

/-- In a run without `Fatal` a file sealed is as long as was answered, and it decompresses to what
the registry without compression holds. -/
theorem decoded_of_sealed
    (hrun : Run (system (new inputTopics (DiskFileRegistry.new directory compressionLevel disk)
      keyGenerator config)) h sm) (hfree : FatalFree h) {os : OperatingSystem}
    {abs : S3Sink.DiskFileRegistry} (hrefines : sm.fileRegistry.Refines os abs) {file : SealedFile}
    (hfile : file ∈ sealedFiles h) :
    file.compressedSizeB = (sm.fileRegistry.onDisk file.path).length ∧
      Zstd.decodeAll σ (sm.fileRegistry.onDisk file.path) = some (abs.content file.path) := by
  have hclosed := closed_of_run DiskFileRegistry.closeFact_closed hrun file hfile
  have hunbroken := written_of_fatalFree DiskFileRegistry.writeInvariant_unbroken hrun hfree
    fun _ _ _ hmem => absurd hmem List.not_mem_nil
  obtain ⟨hsize, hdecoded⟩ := ((sound_of_run hrun).holds file.path).closed file.compressedSizeB
    (List.mem_filter.2 ⟨hclosed, by simp [Operation.path]⟩)
  refine ⟨hsize, ?_⟩
  rw [hrefines.content]
  exact hdecoded fun path taken error hmem =>
    hunbroken path taken error (List.mem_filter.1 hmem).1

/-- Every record has its place, and every file sealed is on disk in full: it is as long as was
answered and decompresses to the lines of its records. -/
structure Stored (configs : HashMap TopicName TopicConfig) (h : List (Step (DiskFileRegistry σ) K))
    (sm : StateMachine (DiskFileRegistry σ) K) (placed : List (Message × Place)) : Prop where
  once : placed.map Prod.fst = consumedRecords (requests h)
  stream : ∀ record id, (record, Place.stream id) ∈ placed → id ∈ sm.streams
  file : ∀ record path, (record, Place.file path) ∈ placed →
    path ∈ (sealedFiles h).map SealedFile.path
  /-- a record is dropped only by a revocation of its partition -/
  revoked : ∀ record position id partitions,
    (record, Place.revoked position id partitions) ∈ placed →
    record.topicId ∈ revokedTopicIds partitions ∧
      (requests h).reverse[position]? = some (.revokePartitions partitions)
  size : ∀ file ∈ sealedFiles h,
    file.compressedSizeB = (sm.fileRegistry.onDisk file.path).length
  described : ∀ file ∈ sealedFiles h, ∃ content,
    Zstd.decodeAll σ (sm.fileRegistry.onDisk file.path) = some content ∧
      Describes configs (Placement.itemsAt placed (.file file.path)) content file.rawSizeB
        file.recordCount file.offsetsConsumed

/-- In every run without `Fatal`, however the disk splits and interrupts what is written, every file
sealed is on disk in full from then on. -/
theorem stored_of_run
    (hrun : Run (system (new inputTopics (DiskFileRegistry.new directory compressionLevel disk)
      keyGenerator config)) h sm) (hfree : FatalFree h) :
    ∃ placed, Stored (Cache.newConfigs inputTopics) h sm placed := by
  obtain ⟨h', sm', hrun', ⟨reg, heq, -, hrefines⟩, halike⟩ :=
    backend_of_run (DiskFileRegistry.registrySimulation_refines _) (similar_new _) hrun
      (foretold_of_run hrun)
  have hfree' := fatalFree_alike halike hfree
  have hshelved := shelved_of_run hrun' hfree'
  have hregistry : sm'.fileRegistry = reg := by rw [heq]; rfl
  refine ⟨ledger h', ?_⟩
  exact
    { once := by rw [map_fst_ledger hrun' hfree', requests_alike halike]
      stream := fun record id hmem => by
        have hopen := hshelved.opened.stream_mem record id hmem
        rwa [heq] at hopen
      file := fun record path hmem => by
        rw [← sealedFiles_alike halike]
        exact hshelved.sealed.file_mem record path hmem
      revoked := fun record position id partitions hmem => by
        rw [← requests_alike halike]
        exact revoked_of_ledger hrun' hfree' hmem
      size := fun file hfile => (decoded_of_sealed hrun hfree hrefines hfile).1
      described := fun file hfile => by
        have hdescribed := hshelved.sealed.described file (sealedFiles_alike halike ▸ hfile)
        rw [hregistry, configs_of_run hrun'] at hdescribed
        exact ⟨_, (decoded_of_sealed hrun hfree hrefines hfile).2, hdescribed⟩ }

/-- A disk that interrupts the first write to a file and then takes less than it is offered. -/
def sampleDisk : System where
  opens _ := .ok [.fails IoError.interruption, .takes 5]
  uuid := OperatingSystem.faultless.uuid
  uuid_injective := OperatingSystem.faultless.uuid_injective

/-- `sampleStart` over the files of `sampleDisk`. -/
def sampleStartOnDisk : StateMachine (DiskFileRegistry RawBlocks) IdentityKeyGenerator :=
  sampleStart.withRegistry (DiskFileRegistry.new "scratch" 3 sampleDisk)

/-- Two records, each of which fills its file. -/
def storedInputs : List (Ambient × Request) :=
  [quiet (.processRecord (sampleRecord (sampleOffset 1))),
    quiet (.processRecord (sampleRecord (sampleOffset 0)))]

theorem stored_of_run_sample :
    (∃ placed, Stored sampleStart.cache.configs (trace sampleStartOnDisk storedInputs).1
      (trace sampleStartOnDisk storedInputs).2 placed) ∧
      (sealedFiles (trace sampleStartOnDisk storedInputs).1).map SealedFile.compressedSizeB =
        [24, 24] :=
  ⟨stored_of_run (run_trace sampleStartOnDisk storedInputs) (by decide), by decide⟩

end Runs

end FileIo
end S3Sink
