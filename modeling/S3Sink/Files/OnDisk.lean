import S3Sink.Files.FileIo
import S3Sink.Files.Operations

/-!
# OnDisk — what a closed file holds

Between a write and the disk stand the encoder, the counter and the buffer, and the disk may take
less than it is offered, interrupt a call or fail.  Once `close` has succeeded nothing is held back
any more: the file decompresses to what was written, and is as long as the counter says.

* `ActiveFile.writeAll_spec`, `ActiveFile.close_spec` — one file;
* `Sound` — what holds of every file of the registry;
* `Sound.writeAll`, `Sound.close`, `Sound.revoke` — the operations keep it, also if they fail.
-/

namespace S3Sink
namespace FileIo

/-! ## The counter -/

namespace CountingWriter

variable {W : Type} [Write W] [LawfulWrite W]

/-- The counter says what was received. -/
def Counts (self : CountingWriter W) : Prop :=
  self.compressedSizeB = (received self.inner).length

theorem Counts.calls {self self' : CountingWriter W} (h : Calls self self') (hself : self.Counts) :
    self'.Counts := by
  refine h.invariant ?_ ?_ hself
  · intro w buf hw
    change (w.write buf).2.Counts
    unfold write
    split
    · next error inner hwrite => exact hw.trans (by rw [← LawfulWrite.write_error hwrite])
    · next n inner hwrite =>
        obtain ⟨hle, hreceived⟩ := LawfulWrite.write_ok hwrite
        unfold Counts at hw ⊢
        rw [hreceived, List.length_append, List.length_take, Nat.min_eq_left hle, ← hw]
  · intro w hw
    exact hw.trans (congrArg List.length (LawfulWrite.flush_received w.inner).symm)

end CountingWriter

/-! ## One file -/

namespace ActiveFile

variable {σ : Type}

theorem drop_of_empty {self : ActiveFile σ} (hempty : self.writer.inner.inner.buffer = []) :
    self.drop = self.content := by
  unfold drop content
  rw [BufWriter.inner_flushBuf_of_empty hempty]

variable [Zstd σ]

/-- The loop of `write_all` keeps the session, and what it took is what was offered. -/
theorem loopInvariant_session {W : Type} [Write W] [LawfulWrite W] (input : Bytes) :
    LoopInvariant (fun taken (self : Encoder σ W) => Session (input ++ taken) self)
      (fun _ _ => True) where
  take h hwrite := by
    rw [← List.append_assoc]
    exact Session.write h hwrite
  interrupted h hwrite hint := Session.interrupted h hwrite hint
  error _ _ _ := trivial
  leave _ := trivial

/-- The outcomes of `close`: the last flush succeeded, or an operation failed. -/
theorem close_cases (self : ActiveFile σ) :
    (∃ error self', self.close = (.error error, self') ∧ self'.path = self.path) ∨
      ∃ self₁ self₂ inner, Zstd.flush self.writer = (.ok (), self₁) ∧
        Zstd.doFinish self₁ = (.ok (), self₂) ∧ Write.flush self₂.inner = (.ok (), inner) ∧
        self.close = (.ok inner.compressedSizeB, ⟨self.path, { self₂ with inner := inner }⟩) := by
  unfold close
  split
  · exact Or.inl ⟨_, _, rfl, rfl⟩
  · next self₁ hflush =>
      split
      · exact Or.inl ⟨_, _, rfl, rfl⟩
      · next self₂ hfinish =>
          split
          · exact Or.inl ⟨_, _, rfl, rfl⟩
          · next inner hlast => exact Or.inr ⟨self₁, self₂, inner, hflush, hfinish, hlast, rfl⟩

theorem close_path {self self' : ActiveFile σ} {result : Except IoError Nat}
    (h : self.close = (result, self')) : self'.path = self.path := by
  rcases self.close_cases with ⟨error, self₁, heq, hpath⟩ | ⟨self₁, self₂, inner, -, -, -, heq⟩
  · rw [heq] at h
    cases h
    exact hpath
  · rw [heq] at h
    cases h
    rfl

variable [LawfulZstd σ]

theorem calls_encoder {W : Type} [Write W] {self self' : Encoder σ W} (h : Calls self self') :
    Calls self.inner self'.inner := by
  refine h.invariant (P := fun w => Calls self.inner w.inner) ?_ ?_ (Calls.refl _)
  · exact fun w buf hw => hw.trans (LawfulZstd.write_calls w buf)
  · exact fun w hw => hw.trans (LawfulZstd.flush_calls w)

/-- A file opened empty: nothing was counted and nothing taken. -/
theorem new_spec {path : PathBuf} {answers : List Answer} {compressionLevel : Int}
    {self : ActiveFile σ} (h : new path ⟨[], answers⟩ compressionLevel = .ok self) :
    self.path = path ∧ self.writer.inner.Counts ∧ Session [] self.writer := by
  unfold new at h
  dsimp only at h
  split at h
  · cases h
  · next writer hnew =>
      cases h
      have hcounts : CountingWriter.Counts
          (⟨BufWriter.withCapacity bufferCapacity ⟨[], answers⟩, 0⟩ : DiskWriter) := rfl
      exact ⟨rfl, hcounts.calls (LawfulZstd.new_calls hnew), Session.new rfl hnew⟩

/-- What `write_all` does to a file. -/
structure Took (file : ActiveFile σ) (bytes : Bytes) (result : Except IoError Unit) (taken : Nat)
    (file' : ActiveFile σ) : Prop where
  path : file'.path = file.path
  calls : Calls file.writer.inner file'.writer.inner
  taken : result = .ok () → bytes.take taken = bytes
  session : ∀ input, Session input file.writer → result = .ok () →
    Session (input ++ bytes) file'.writer

theorem writeAll_spec {self self' : ActiveFile σ} {bytes : Bytes} {result : Except IoError Unit}
    {taken : Nat} (h : self.writeAll bytes = (result, taken, self')) :
    Took self bytes result taken self' := by
  have hloop : Write.writeAll self.writer bytes = (_, _, _) := rfl
  cases h
  have hrest : ∀ input, Session input self.writer → (self.writeAll bytes).1 = .ok () →
      (Write.writeAll self.writer bytes).2.1 = [] ∧
        Session (input ++ bytes) (Write.writeAll self.writer bytes).2.2 := by
    intro input hsession hresult
    obtain ⟨more, hsplit, -, hok⟩ := (loopInvariant_session input).loop hloop
      (by rwa [List.append_nil])
    obtain ⟨hrest, hsession'⟩ := hok hresult
    rw [hrest, List.append_nil] at hsplit
    exact ⟨hrest, hsplit ▸ hsession'⟩
  exact
    { path := rfl
      calls := calls_encoder (writeLoop_calls hloop)
      taken := fun hresult => by
        obtain ⟨-, -, hleft⟩ := writeLoop_split IoError.writeZero (fuelFor self.writer bytes)
          self.writer bytes
        refine List.take_of_length_le ?_
        have hleft' : (Write.writeAll self.writer bytes).2.1 = [] := hleft hresult
        rw [hleft', List.length_nil, Nat.sub_zero]
      session := fun input hsession hresult => (hrest input hsession hresult).2 }

instance {W : Type} [Write W] [PatientWrite W] : PatientWrite (Encoder σ W) where
  patience_write self buf := (LawfulZstd.write_calls self buf).patience_le
  patience_flush self := (LawfulZstd.flush_calls self).patience_le
  patience_interrupted h hint := LawfulZstd.patience_interrupted h hint

/-- The fuel of `write_all` lasts: it never answers an interruption. -/
theorem writeAll_not_interrupted {self self' : ActiveFile σ} {bytes : Bytes} {error : IoError}
    {taken : Nat} (h : self.writeAll bytes = (.error error, taken, self')) :
    error.isInterrupted = false :=
  writeLoop_not_interrupted rfl (Nat.le_refl _) (congrArg Prod.fst h)

/-- What a file holds once `close` has succeeded. -/
structure Closed (file : ActiveFile σ) (size : Nat) (file' : ActiveFile σ) : Prop where
  size : file.writer.inner.Counts → size = file'.drop.length
  decoded : ∀ input, Session input file.writer → Zstd.decodeAll σ file'.drop = some input

theorem close_spec {self self' : ActiveFile σ} {size : Nat}
    (h : self.close = (.ok size, self')) : Closed self size self' := by
  rcases self.close_cases with
    ⟨error, self₁, heq, -⟩ | ⟨self₁, self₂, inner, hflush, hfinish, hlast, heq⟩
  · rw [heq] at h
    cases h
  · rw [heq] at h
    cases h
    have hbuffered : Write.flush self₂.inner.inner = (.ok (), inner.inner) :=
      CountingWriter.flush_inner hlast
    have hdrop : drop ⟨self.path, { self₂ with inner := inner }⟩ = received self₂.inner := by
      rw [drop_of_empty (BufWriter.flush_ok hbuffered)]
      exact BufWriter.received_of_flush hbuffered
    have hcalls : Calls self.writer.inner inner := by
      have hcalls₁ := LawfulZstd.flush_calls self.writer
      have hcalls₂ := LawfulZstd.doFinish_calls self₁
      rw [hflush] at hcalls₁
      rw [hfinish] at hcalls₂
      exact (hcalls₁.trans hcalls₂).trans (Calls.flush hlast)
    exact
      { size := fun hcounts => by
          have hsame := LawfulWrite.flush_received self₂.inner
          rw [hlast] at hsame
          rw [hdrop, ← hsame]
          exact hcounts.calls hcalls
        decoded := fun input hsession => by
          rw [hdrop]
          exact LawfulZstd.roundTrip (Session.flush hsession hflush) hfinish }

end ActiveFile

/-! ## The files of the registry -/

/-- The file an operation is about. -/
def Operation.path : Operation → PathBuf
  | create path _ _ => path
  | write path _ _ => path
  | close path _ => path

/-- The bytes the encoder took. -/
def takenBy : List Operation → Bytes
  | [] => []
  | .write _ taken _ :: operations => takenBy operations ++ taken
  | _ :: operations => takenBy operations

/-- No write failed. -/
def Unbroken (operations : List Operation) : Prop :=
  ∀ path taken error, .write path taken (some error) ∉ operations

theorem Unbroken.tail {operation : Operation} {operations : List Operation}
    (h : Unbroken (operation :: operations)) : Unbroken operations :=
  fun path taken error hmem => h path taken error (List.mem_cons_of_mem _ hmem)

namespace DiskFileRegistry

variable {σ : Type} [Zstd σ] {reg reg' : DiskFileRegistry σ} {path : PathBuf} {id : StreamId}

/-- The operations on a file, the newest first. -/
def history (reg : DiskFileRegistry σ) (path : PathBuf) : List Operation :=
  reg.operations.filter (·.path = path)

/-- The path has one of the identifiers drawn so far. -/
def Drawn (reg : DiskFileRegistry σ) (path : PathBuf) : Prop :=
  ∃ tick < reg.operations.length,
    path = S3Sink.DiskFileRegistry.scratchPath reg.directory (reg.system.uuid tick)

/-- A file that is open: it was never closed, and the encoder has taken what was written. -/
structure Opened (reg : DiskFileRegistry σ) (file : ActiveFile σ) : Prop where
  unclosed : ∀ size, .close file.path (.ok size) ∉ reg.history file.path
  counts : file.writer.inner.Counts
  session : Unbroken (reg.history file.path) →
    Session (takenBy (reg.history file.path)) file.writer

/-- A file closed: it has the size answered and decompresses to what was written. -/
structure Shut (reg : DiskFileRegistry σ) (path : PathBuf) (size : Nat) : Prop where
  size : size = (reg.onDisk path).length
  decoded : Unbroken (reg.history path) →
    Zstd.decodeAll σ (reg.onDisk path) = some (takenBy (reg.history path))

/-- What holds of the file at a path. -/
structure Holds (reg : DiskFileRegistry σ) (path : PathBuf) : Prop where
  active : ∀ id file, reg.files.get? id = some file → file.path = path → reg.Opened file
  closed : ∀ size, .close path (.ok size) ∈ reg.history path → reg.Shut path size

/-- What holds of every file. -/
structure Sound (reg : DiskFileRegistry σ) : Prop where
  operations : ∀ operation ∈ reg.operations, reg.Drawn operation.path
  disk : ∀ path ∈ reg.disk, reg.Drawn path
  active : ∀ id file, reg.files.get? id = some file → reg.Drawn file.path
  injective : ∀ id id' file file', reg.files.get? id = some file →
    reg.files.get? id' = some file' → file.path = file'.path → id = id'
  holds : ∀ path, reg.Holds path

/-! ### Operations on one file -/

/-- Only the file at the path is touched. -/
structure Touches (path : PathBuf) (reg reg' : DiskFileRegistry σ) : Prop where
  directory : reg'.directory = reg.directory
  system : reg'.system = reg.system
  longer : reg.operations.length ≤ reg'.operations.length
  operations : ∀ operation ∈ reg'.operations, operation.path = path ∨ operation ∈ reg.operations
  disk : ∀ path' ∈ reg'.disk, path' = path ∨ path' ∈ reg.disk
  files : ∀ id file, reg'.files.get? id = some file →
    file.path = path ∨ reg.files.get? id = some file
  history : ∀ path', path' ≠ path → reg'.history path' = reg.history path'
  onDisk : ∀ path', path' ≠ path → reg'.onDisk path' = reg.onDisk path'

omit [Zstd σ] in
theorem Touches.drawn (h : Touches path reg reg') {path' : PathBuf} (hdrawn : reg.Drawn path') :
    reg'.Drawn path' := by
  obtain ⟨tick, hlt, heq⟩ := hdrawn
  refine ⟨tick, hlt.trans_le h.longer, ?_⟩
  rw [h.directory, h.system]
  exact heq

/-- The frame rule: the files at other paths are as they were. -/
theorem Touches.holds (h : Touches path reg reg') {path' : PathBuf} (hne : path' ≠ path)
    (hholds : reg.Holds path') : reg'.Holds path' where
  active id file hget hpath := by
    subst hpath
    have hget' := (h.files id file hget).resolve_left hne
    obtain ⟨hunclosed, hcounts, hsession⟩ := hholds.active id file hget' rfl
    constructor
    · rwa [h.history _ hne]
    · exact hcounts
    · rwa [h.history _ hne]
  closed size hmem := by
    rw [h.history _ hne] at hmem
    obtain ⟨hsize, hdecoded⟩ := hholds.closed size hmem
    constructor
    · rwa [h.onDisk _ hne]
    · rwa [h.history _ hne, h.onDisk _ hne]

theorem Sound.touch (h : reg.Sound) (htouches : Touches path reg reg')
    (hdrawn : reg'.Drawn path)
    (hinjective : ∀ id id' file file', reg'.files.get? id = some file →
      reg'.files.get? id' = some file' → file.path = path → file'.path = path → id = id')
    (hholds : reg'.Holds path) : reg'.Sound where
  operations operation hmem := by
    rcases htouches.operations operation hmem with hpath | hold
    · exact hpath ▸ hdrawn
    · exact htouches.drawn (h.operations operation hold)
  disk path' hmem := by
    rcases htouches.disk path' hmem with rfl | hold
    · exact hdrawn
    · exact htouches.drawn (h.disk path' hold)
  active id file hget := by
    rcases htouches.files id file hget with hpath | hold
    · exact hpath ▸ hdrawn
    · exact htouches.drawn (h.active id file hold)
  injective id id' file file' hget hget' heq := by
    by_cases hpath : file.path = path
    · exact hinjective id id' file file' hget hget' hpath (heq ▸ hpath)
    · have hold := (htouches.files id file hget).resolve_left hpath
      have hold' := (htouches.files id' file' hget').resolve_left (heq ▸ hpath)
      exact h.injective id id' file file' hold hold' heq
  holds path' := by
    by_cases hne : path' = path
    · exact hne ▸ hholds
    · exact htouches.holds hne (h.holds path')

omit [Zstd σ] in
/-- An operation on a file that leaves the active files at other paths alone. -/
theorem touches_record {files : HashMap StreamId (ActiveFile σ)} (operation : Operation)
    (hpath : operation.path = path) (content : Bytes)
    (hfiles : ∀ id file, files.get? id = some file →
      file.path = path ∨ reg.files.get? id = some file) :
    Touches path reg (({ reg with files := files }).record operation path content) where
  directory := rfl
  system := rfl
  longer := Nat.le_succ _
  operations operation' hmem := by
    rcases List.mem_cons.1 hmem with rfl | hold
    · exact Or.inl hpath
    · exact Or.inr hold
  disk path' hmem := (AList.mem_insert _).1 hmem
  files := hfiles
  history path' hne := List.filter_cons_of_neg (by simpa [hpath] using hne.symm)
  onDisk path' hne := by
    unfold onDisk record
    dsimp only
    rw [HashMap.get?_insert, if_neg hne]

omit [Zstd σ] in
theorem history_record (reg : DiskFileRegistry σ) {operation : Operation}
    (hpath : operation.path = path) (content : Bytes) :
    (reg.record operation path content).history path = operation :: reg.history path :=
  List.filter_cons_of_pos (by simpa using hpath)

omit [Zstd σ] in
theorem onDisk_record (operation : Operation) (path : PathBuf) (content : Bytes) :
    (reg.record operation path content).onDisk path = content := by
  unfold onDisk record
  dsimp only
  rw [HashMap.get?_insert_self]
  rfl

omit [Zstd σ] in
theorem drawn_nextPath {reg' : DiskFileRegistry σ} (hdirectory : reg'.directory = reg.directory)
    (hsystem : reg'.system = reg.system)
    (hlonger : reg.operations.length < reg'.operations.length) : reg'.Drawn reg.nextPath :=
  ⟨reg.operations.length, hlonger, by rw [hdirectory, hsystem]; rfl⟩

omit [Zstd σ] in
theorem not_drawn_nextPath : ¬ reg.Drawn reg.nextPath := by
  rintro ⟨tick, hlt, heq⟩
  have htick := reg.system.uuid_injective (S3Sink.DiskFileRegistry.scratchPath_injective heq)
  omega

/-! ### New files -/

section Fresh

variable (h : reg.Sound)

include h

theorem Sound.nextPath_notMem : reg.nextPath ∉ reg.disk :=
  fun hmem => not_drawn_nextPath (h.disk _ hmem)

theorem Sound.history_nextPath : reg.history reg.nextPath = [] := by
  refine List.filter_eq_nil_iff.2 fun operation hmem hpath => ?_
  have hdrawn := h.operations operation hmem
  rw [of_decide_eq_true hpath] at hdrawn
  exact not_drawn_nextPath hdrawn

theorem Sound.path_ne_nextPath {file : ActiveFile σ} (hget : reg.files.get? id = some file) :
    file.path ≠ reg.nextPath :=
  fun heq => not_drawn_nextPath (heq ▸ h.active id file hget)

theorem Sound.onDisk_nextPath : reg.onDisk reg.nextPath = [] := by
  rw [onDisk, HashMap.get?_eq_none.2 h.nextPath_notMem]
  rfl

end Fresh

/-- The outcomes of `newActiveFile`. -/
inductive Created (reg : DiskFileRegistry σ) :
    Except SinkError (ActiveFile σ) → DiskFileRegistry σ → Prop
  | refused (error : SinkError) : Created reg (.error error)
      { reg with operations := .create reg.nextPath (some error) none :: reg.operations }
  | unencoded (error : SinkError) : Created reg (.error error)
      (reg.record (.create reg.nextPath none (some error)) reg.nextPath (reg.onDisk reg.nextPath))
  | created {answers : List Answer} {file : ActiveFile σ}
      (hnew : ActiveFile.new reg.nextPath ⟨reg.onDisk reg.nextPath, answers⟩
        reg.compressionLevel = .ok file) :
      Created reg (.ok file)
        (reg.record (.create reg.nextPath none none) reg.nextPath file.content)

theorem newActiveFile_cases (reg : DiskFileRegistry σ) :
    Created reg reg.newActiveFile.1 reg.newActiveFile.2 := by
  unfold newActiveFile
  dsimp only
  split
  · exact Created.refused _
  · split
    · exact Created.unencoded _
    · next hnew => exact Created.created hnew

omit [Zstd σ] in
/-- Nothing is written to disk when a file cannot be opened. -/
theorem touches_refused (reg : DiskFileRegistry σ) (error : SinkError) :
    Touches reg.nextPath reg
      { reg with operations := .create reg.nextPath (some error) none :: reg.operations } where
  directory := rfl
  system := rfl
  longer := Nat.le_succ _
  operations operation hmem := by
    rcases List.mem_cons.1 hmem with rfl | hold
    · exact Or.inl rfl
    · exact Or.inr hold
  disk _ hmem := Or.inr hmem
  files _ _ hget := Or.inr hget
  history path' hne := List.filter_cons_of_neg fun heq => hne (of_decide_eq_true heq).symm
  onDisk _ _ := rfl

/-- An operation that creates a file, with the active file of at most one stream. -/
theorem Sound.create (h : reg.Sound) (id : StreamId) {openError encoderError : Option SinkError}
    (htouches : Touches reg.nextPath reg reg')
    (hoperations : reg'.operations =
      .create reg.nextPath openError encoderError :: reg.operations)
    (hactive : ∀ id' file, reg'.files.get? id' = some file → file.path = reg.nextPath →
      id' = id ∧ file.writer.inner.Counts ∧ Session [] file.writer) : reg'.Sound := by
  have hhistory : reg'.history reg.nextPath = [.create reg.nextPath openError encoderError] :=
    calc
      reg'.history reg.nextPath
          = .create reg.nextPath openError encoderError :: reg.history reg.nextPath := by
              rw [history, hoperations]
              exact List.filter_cons_of_pos (by simp [Operation.path])
      _ = [.create reg.nextPath openError encoderError] := by rw [h.history_nextPath]
  have hdrawn : reg'.Drawn reg.nextPath :=
    drawn_nextPath htouches.directory htouches.system (by simp [hoperations])
  refine h.touch htouches hdrawn ?_ ⟨?_, ?_⟩
  · intro id₁ id₂ file₁ file₂ hget₁ hget₂ hpath₁ hpath₂
    exact (hactive id₁ file₁ hget₁ hpath₁).1.trans (hactive id₂ file₂ hget₂ hpath₂).1.symm
  · intro id' file hget hpath
    obtain ⟨-, hcounts, hsession⟩ := hactive id' file hget hpath
    constructor
    · rw [hpath, hhistory]
      simp
    · exact hcounts
    · rw [hpath, hhistory]
      exact fun _ => hsession
  · intro size hmem
    rw [hhistory] at hmem
    simp at hmem

/-! ### Operations on an open file -/

/-- An operation on the open file of a stream, after which at most that stream holds it. -/
theorem Sound.operate (h : reg.Sound) {file : ActiveFile σ} {operation : Operation}
    {content : Bytes} {files : HashMap StreamId (ActiveFile σ)}
    (hget : reg.files.get? id = some file) (hpath : operation.path = file.path)
    (hfiles : ∀ id' file', files.get? id' = some file' →
      (id' = id ∧ file'.path = file.path) ∨ (id' ≠ id ∧ reg.files.get? id' = some file'))
    (hholds : (record { reg with files := files } operation file.path content).Holds file.path) :
    (record { reg with files := files } operation file.path content).Sound := by
  have htouches := @touches_record _ reg _ _ operation hpath content fun id' file' hget' =>
    (hfiles id' file' hget').imp And.right And.right
  refine h.touch htouches (htouches.drawn (h.active id file hget)) ?_ hholds
  have hself : ∀ id' file', files.get? id' = some file' → file'.path = file.path → id' = id := by
    intro id' file' hget' hpath'
    rcases hfiles id' file' hget' with ⟨hid, -⟩ | ⟨-, hold⟩
    · exact hid
    · exact h.injective id' id file' file hold hget hpath'
  intro id₁ id₂ file₁ file₂ hget₁ hget₂ hpath₁ hpath₂
  exact (hself id₁ file₁ hget₁ hpath₁).trans (hself id₂ file₂ hget₂ hpath₂).symm

/-- A stream that loses its file leaves the other streams theirs. -/
theorem get?_erase_of_path {file : ActiveFile σ} (h : reg.Sound)
    (hget : reg.files.get? id = some file) {id' : StreamId} {file' : ActiveFile σ}
    (hget' : HashMap.get? (reg.files.erase id) id' = some file') :
    id' ≠ id ∧ reg.files.get? id' = some file' ∧ file'.path ≠ file.path := by
  rw [HashMap.get?_erase] at hget'
  split at hget'
  · cases hget'
  · next hne =>
      exact ⟨hne, hget', fun hpath => hne (h.injective id' id file' file hget' hget hpath)⟩

/-- `revoke` drops the file of the stream. -/
theorem Sound.revoke (h : reg.Sound) (id : StreamId) : (reg.revoke id).2.Sound := by
  unfold DiskFileRegistry.revoke
  cases hget : reg.files.get? id with
  | none => exact h
  | some file =>
      have hopened := (h.holds file.path).active id file hget rfl
      have htouches : Touches file.path reg { reg with
          files := reg.files.erase id
          disk := reg.disk.insert file.path file.drop } :=
        { directory := rfl
          system := rfl
          longer := Nat.le_refl _
          operations := fun _ hmem => Or.inr hmem
          disk := fun path' hmem => (AList.mem_insert _).1 hmem
          files := fun id' file' hget' => Or.inr (get?_erase_of_path h hget hget').2.1
          history := fun _ _ => rfl
          onDisk := fun path' hne => by
            unfold onDisk
            dsimp only
            rw [HashMap.get?_insert, if_neg hne] }
      refine h.touch htouches (htouches.drawn (h.active id file hget)) ?_ ⟨?_, ?_⟩
      · intro id₁ id₂ file₁ file₂ hget₁ _ hpath₁ _
        exact absurd hpath₁ (get?_erase_of_path h hget hget₁).2.2
      · exact fun id' file' hget' hpath => absurd hpath (get?_erase_of_path h hget hget').2.2
      · exact fun size hmem => absurd hmem (hopened.unclosed size)

variable [LawfulZstd σ]

/-- Looking up the active file of a stream, or creating one. -/
theorem Sound.getMut (h : reg.Sound) {result : Except SinkError (ActiveFile σ)}
    (hout : reg.getMutActiveFileOrCreate id = (result, reg')) :
    reg'.Sound ∧ ∀ file, result = .ok file → reg'.files.get? id = some file := by
  have hnone : ∀ id' file, reg.files.get? id' = some file → file.path = reg.nextPath →
      id' = id ∧ file.writer.inner.Counts ∧ Session [] file.writer :=
    fun id' file hget hpath => absurd hpath (h.path_ne_nextPath hget)
  unfold getMutActiveFileOrCreate at hout
  cases hget : reg.files.get? id with
  | some file =>
      rw [hget] at hout
      cases hout
      exact ⟨h, fun file' heq => Except.ok.inj heq ▸ hget⟩
  | none =>
      have hcases := newActiveFile_cases reg
      rw [hget] at hout
      generalize reg.newActiveFile = out at hout hcases
      obtain ⟨result₁, reg₁⟩ := out
      cases hcases with
      | refused error =>
          obtain ⟨rfl, rfl⟩ := Prod.mk.inj hout
          exact ⟨h.create id (touches_refused reg error) rfl hnone, nofun⟩
      | unencoded error =>
          obtain ⟨rfl, rfl⟩ := Prod.mk.inj hout
          have htouches : Touches reg.nextPath reg (reg.record
              (.create reg.nextPath none (some error)) reg.nextPath (reg.onDisk reg.nextPath)) :=
            touches_record _ (by rfl) _ fun _ _ => Or.inr
          exact ⟨h.create id htouches rfl hnone, nofun⟩
      | @created answers file hnew =>
          obtain ⟨rfl, rfl⟩ := Prod.mk.inj hout
          rw [h.onDisk_nextPath] at hnew
          obtain ⟨hpath, hcounts, hsession⟩ := ActiveFile.new_spec hnew
          have hinserted : ∀ id' file', HashMap.get? (reg.files.insert id file) id' = some file' →
              (id' = id ∧ file' = file) ∨ reg.files.get? id' = some file' := by
            intro id' file' hget'
            rw [HashMap.get?_insert] at hget'
            split at hget'
            · next hid => exact Or.inl ⟨hid, (Option.some.inj hget').symm⟩
            · exact Or.inr hget'
          have htouches : Touches reg.nextPath reg
              (record { reg with files := reg.files.insert id file }
                (.create reg.nextPath none none) reg.nextPath file.content) := by
            refine touches_record _ (by rfl) _ fun id' file' hget' => ?_
            rcases hinserted id' file' hget' with ⟨-, rfl⟩ | hold
            · exact Or.inl hpath
            · exact Or.inr hold
          refine ⟨h.create id htouches rfl fun id' file' hget' hpath' => ?_, fun file' heq => ?_⟩
          · rcases hinserted id' file' hget' with ⟨rfl, rfl⟩ | hold
            · exact ⟨rfl, hcounts, hsession⟩
            · exact hnone id' file' hold hpath'
          · cases heq
            exact HashMap.get?_insert_self _ _ _

omit [LawfulZstd σ] in
/-- `write_all` on an active file, whether it succeeds or not. -/
theorem Sound.wrote (h : reg.Sound) {file file' : ActiveFile σ} {bytes : Bytes} {taken : Nat}
    {result : Except IoError Unit} {error : Option SinkError}
    (hget : reg.files.get? id = some file) (htook : ActiveFile.Took file bytes result taken file')
    (hresult : error = none → result = .ok ()) :
    (record { reg with files := reg.files.insert id file' }
      (.write file'.path (bytes.take taken) error) file'.path file'.content).Sound := by
  have hopened := (h.holds file.path).active id file hget rfl
  have hinserted : ∀ id₁ file₁, HashMap.get? (reg.files.insert id file') id₁ = some file₁ →
      (id₁ = id ∧ file₁ = file') ∨ (id₁ ≠ id ∧ reg.files.get? id₁ = some file₁) := by
    intro id₁ file₁ hget₁
    rw [HashMap.get?_insert] at hget₁
    split at hget₁
    · next hid => exact Or.inl ⟨hid, (Option.some.inj hget₁).symm⟩
    · next hne => exact Or.inr ⟨hne, hget₁⟩
  have hhistory := history_record { reg with files := reg.files.insert id file' }
    (show (Operation.write file.path (bytes.take taken) error).path = file.path from rfl)
    file'.content
  rw [htook.path]
  refine h.operate hget rfl (fun id₁ file₁ hget₁ => ?_) ⟨?_, ?_⟩
  · rcases hinserted id₁ file₁ hget₁ with ⟨hid, rfl⟩ | hold
    · exact Or.inl ⟨hid, htook.path⟩
    · exact Or.inr hold
  · intro id₁ file₁ hget₁ hpath
    rcases hinserted id₁ file₁ hget₁ with ⟨rfl, rfl⟩ | ⟨hne, hold⟩
    · refine ⟨?_, hopened.counts.calls htook.calls, ?_⟩
      · rw [hpath, hhistory]
        intro size hmem
        rcases List.mem_cons.1 hmem with heq | hmem
        · cases heq
        · exact hopened.unclosed size hmem
      · rw [hpath, hhistory]
        intro hunbroken
        -- the write did not fail, so it took all it was offered
        have hok : result = .ok () := by
          refine hresult ?_
          cases error with
          | none => rfl
          | some error => exact absurd List.mem_cons_self (hunbroken _ _ error)
        rw [takenBy, htook.taken hok]
        exact htook.session _ (hopened.session hunbroken.tail) hok
    · exact absurd (h.injective id₁ id file₁ file hold hget hpath) hne
  · intro size hmem
    rw [hhistory] at hmem
    rcases List.mem_cons.1 hmem with heq | hmem
    · cases heq
    · exact absurd hmem (hopened.unclosed size)

theorem Sound.writeAll (h : reg.Sound) (id : StreamId) (bytes : Bytes) :
    (reg.writeAll id bytes).2.Sound := by
  unfold DiskFileRegistry.writeAll
  generalize hout : reg.getMutActiveFileOrCreate id = out
  obtain ⟨result, reg₁⟩ := out
  obtain ⟨hsound, hget⟩ := h.getMut hout
  cases result with
  | error error => exact hsound
  | ok file =>
      dsimp only [writeActiveFile]
      generalize hwrite : file.writeAll bytes = written
      obtain ⟨answer, taken, file'⟩ := written
      have htook := ActiveFile.writeAll_spec hwrite
      cases answer with
      | error error => exact hsound.wrote (hget file rfl) htook nofun
      | ok done => exact hsound.wrote (hget file rfl) htook fun _ => rfl

omit [LawfulZstd σ] in
/-- `close` takes the file from its stream, whether it succeeds or not. -/
theorem Sound.closed (h : reg.Sound) {file file' : ActiveFile σ} {result : Except SinkError Nat}
    (hget : reg.files.get? id = some file) (hpath : file'.path = file.path)
    (hclosed : ∀ size, result = .ok size → ActiveFile.Closed file size file') :
    (record { reg with files := reg.files.erase id } (.close file'.path result) file'.path
      file'.drop).Sound := by
  have hopened := (h.holds file.path).active id file hget rfl
  have hhistory := history_record { reg with files := reg.files.erase id }
    (show (Operation.close file.path result).path = file.path from rfl) file'.drop
  rw [hpath]
  refine h.operate hget rfl (fun id₁ file₁ hget₁ => ?_) ⟨?_, ?_⟩
  · obtain ⟨hne, hold, -⟩ := get?_erase_of_path h hget hget₁
    exact Or.inr ⟨hne, hold⟩
  · exact fun id₁ file₁ hget₁ heq => absurd heq (get?_erase_of_path h hget hget₁).2.2
  · intro size hmem
    rw [hhistory] at hmem
    rcases List.mem_cons.1 hmem with heq | hmem
    · cases heq
      have hfile := hclosed size rfl
      constructor
      · rw [onDisk_record]
        exact hfile.size hopened.counts
      · rw [onDisk_record, hhistory]
        exact fun hunbroken => hfile.decoded _ (hopened.session hunbroken.tail)
    · exact absurd hmem (hopened.unclosed size)

theorem Sound.close (h : reg.Sound) (id : StreamId) : (reg.close id).2.Sound := by
  unfold DiskFileRegistry.close
  cases hget : reg.files.get? id with
  | none => exact h
  | some file =>
      dsimp only
      generalize hclose : file.close = out
      obtain ⟨result, file'⟩ := out
      cases result with
      | error error => exact h.closed hget (ActiveFile.close_path hclose) nofun
      | ok compressedSizeB =>
          refine h.closed hget (ActiveFile.close_path hclose) fun size heq => ?_
          cases heq
          exact ActiveFile.close_spec hclose

omit [LawfulZstd σ] in
theorem sound_new (directory : PathBuf) (compressionLevel : Int) (system : System) :
    (new directory compressionLevel system : DiskFileRegistry σ).Sound where
  operations _ hmem := absurd hmem List.not_mem_nil
  disk _ hmem := absurd hmem (AList.notMem_empty _)
  active _ _ hget := nomatch hget
  injective _ _ _ _ hget := nomatch hget
  holds _ := ⟨fun _ _ hget => (nomatch hget), fun _ hmem => absurd hmem List.not_mem_nil⟩

end DiskFileRegistry

end FileIo
end S3Sink
