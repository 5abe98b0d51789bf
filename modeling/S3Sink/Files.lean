import S3Sink.DataModel

/-!
# Files — the file registry

* `FileRegistry` — the operations the state machine needs (`files.rs`);
* `DiskFileRegistry` — the registry of active files on disk (`files/disk_file_registry.rs`,
  `files/file_io.rs`).

What the operating system and the compressor answer is an oracle `OperatingSystem`, asked once per
operation: the field `tick` counts the operations so far.  Compression is transparent: `written`
records, for every file ever created in the scratch directory, the bytes given to its encoder.
-/

namespace S3Sink

/-- `trait FileRegistry`. -/
class FileRegistry (F : Type) where
  close : F → StreamId → Except SinkError (PathBuf × Nat) × F
  writeAll : F → StreamId → Bytes → Except SinkError Unit × F
  revoke : F → StreamId → Option PathBuf × F

/-! ## The disk -/

/-- What one operation on the disk meets. -/
structure DiskOutcome where
  /-- `File::options().create(true).append(true).open(&path)` -/
  openError : Option SinkError
  /-- `Encoder::new` -/
  encoderError : Option SinkError
  /-- `write_all` on the encoder, with the number of bytes it took before failing -/
  writeError : Option (SinkError × Nat)
  /-- `flush`, `do_finish` and `flush`; the compressed size -/
  closeResult : Except SinkError Nat

/-- The answers to all operations.  `Uuid::new_v4` never draws the same value twice. -/
structure OperatingSystem where
  outcome : Nat → DiskOutcome
  uuid : Nat → String
  uuid_injective : Function.Injective uuid

namespace OperatingSystem

/-- No operation ever fails. -/
structure NeverFails (os : OperatingSystem) : Prop where
  openError : ∀ tick, (os.outcome tick).openError = none
  encoderError : ∀ tick, (os.outcome tick).encoderError = none
  writeError : ∀ tick, (os.outcome tick).writeError = none
  closeResult : ∀ tick, ∃ size, (os.outcome tick).closeResult = .ok size

/-- An operating system on which every operation succeeds. -/
def faultless : OperatingSystem where
  outcome _ := ⟨none, none, none, .ok 0⟩
  uuid n := String.ofList (List.replicate n '0')
  uuid_injective m n heq := by
    have hlists : List.replicate m '0' = List.replicate n '0' := by
      simpa using congrArg String.toList heq
    simpa using congrArg List.length hlists

theorem faultless_neverFails : faultless.NeverFails :=
  ⟨fun _ => rfl, fun _ => rfl, fun _ => rfl, fun _ => ⟨0, rfl⟩⟩

end OperatingSystem

structure ActiveFile where
  path : PathBuf
  deriving DecidableEq

structure DiskFileRegistry where
  directory : PathBuf
  files : HashMap StreamId ActiveFile
  os : OperatingSystem
  tick : Nat
  written : HashMap PathBuf Bytes

namespace DiskFileRegistry

def new (directory : PathBuf) (os : OperatingSystem) : DiskFileRegistry :=
  { directory := directory
    files := ∅
    os := os
    tick := 0
    written := ∅ }

/-- `directory.join(uuid)` with extension `jsonl.zst`. -/
def scratchPath (directory : PathBuf) (uuid : String) : PathBuf :=
  directory ++ "/" ++ uuid ++ ".jsonl.zst"

/-- The path the next file created gets. -/
def nextPath (self : DiskFileRegistry) : PathBuf :=
  scratchPath self.directory (self.os.uuid self.tick)

/-- The bytes written to a file so far. -/
def content (self : DiskFileRegistry) (path : PathBuf) : Bytes :=
  (self.written.get? path).getD []

def append (self : DiskFileRegistry) (path : PathBuf) (bytes : Bytes) : DiskFileRegistry :=
  { self with written := self.written.insert path (self.content path ++ bytes) }

/-! ## Active files -/

/-- `ActiveFile::new`: a file that is opened exists, also when its encoder is refused. -/
def newActiveFile (self : DiskFileRegistry) : Except SinkError ActiveFile × DiskFileRegistry :=
  let path := self.nextPath
  let outcome := self.os.outcome self.tick
  let self := { self with tick := self.tick + 1 }
  match outcome.openError with
  | some error => (.error error, self)
  | none =>
      let self := { self with written := self.written.orInsert path [] }
      match outcome.encoderError with
      | some error => (.error error, self)
      | none => (.ok ⟨path⟩, self)

/-- `ActiveFile::write_all`. -/
def writeActiveFile (self : DiskFileRegistry) (file : ActiveFile) (bytes : Bytes) :
    Except SinkError Unit × DiskFileRegistry :=
  let outcome := self.os.outcome self.tick
  let self := { self with tick := self.tick + 1 }
  match outcome.writeError with
  | some (error, taken) => (.error error, self.append file.path (bytes.take taken))
  | none => (.ok (), self.append file.path bytes)

/-- `ActiveFile::close`. -/
def closeActiveFile (self : DiskFileRegistry) (file : ActiveFile) :
    Except SinkError (PathBuf × Nat) × DiskFileRegistry :=
  let outcome := self.os.outcome self.tick
  let self := { self with tick := self.tick + 1 }
  match outcome.closeResult with
  | .error error => (.error error, self)
  | .ok compressedSizeB => (.ok (file.path, compressedSizeB), self)

/-! ## The registry -/

def getMutActiveFileOrCreate (self : DiskFileRegistry) (id : StreamId) :
    Except SinkError ActiveFile × DiskFileRegistry :=
  match self.files.get? id with
  | some file => (.ok file, self)
  | none =>
      match self.newActiveFile with
      | (.error error, self) => (.error error, self)
      | (.ok file, self) => (.ok file, { self with files := self.files.insert id file })

def writeAll (self : DiskFileRegistry) (id : StreamId) (bytes : Bytes) :
    Except SinkError Unit × DiskFileRegistry :=
  match self.getMutActiveFileOrCreate id with
  | (.error error, self) => (.error error, self)
  | (.ok file, self) => self.writeActiveFile file bytes

/-- The error of `close` on an id without an active file. -/
def notFound (id : StreamId) : SinkError :=
  .fileRegistry s!"active file '{id.id}' not found"

def close (self : DiskFileRegistry) (id : StreamId) :
    Except SinkError (PathBuf × Nat) × DiskFileRegistry :=
  match self.files.get? id with
  | none => (.error (notFound id), self)
  | some file => { self with files := self.files.erase id }.closeActiveFile file

def revoke (self : DiskFileRegistry) (id : StreamId) : Option PathBuf × DiskFileRegistry :=
  match self.files.get? id with
  | none => (none, self)
  | some file => (some file.path, { self with files := self.files.erase id })

instance : FileRegistry DiskFileRegistry where
  close := close
  writeAll := writeAll
  revoke := revoke

@[simp] theorem fileRegistry_close (reg : DiskFileRegistry) (id : StreamId) :
    FileRegistry.close reg id = reg.close id := rfl

@[simp] theorem fileRegistry_writeAll (reg : DiskFileRegistry) (id : StreamId) (bytes : Bytes) :
    FileRegistry.writeAll reg id bytes = reg.writeAll id bytes := rfl

@[simp] theorem fileRegistry_revoke (reg : DiskFileRegistry) (id : StreamId) :
    FileRegistry.revoke reg id = reg.revoke id := rfl

end DiskFileRegistry

end S3Sink
