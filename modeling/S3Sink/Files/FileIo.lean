import S3Sink.Files
import S3Sink.Lib.Write

/-!
# FileIo — the writers under an active file

The registry of `files/disk_file_registry.rs` once more, down to the calls of `write` on the disk
(`files/file_io.rs`): an encoder writes into a counter, which writes into a buffer, which writes
into a file.

* `CountingWriter` — counts the compressed bytes;
* `Zstd`, `LawfulZstd` — the encoder of the crate, and what its documentation promises;
* `ActiveFile`, `DiskFileRegistry` — as the code computes them, with the bytes on disk.

The registry keeps the list of its operations on files, the newest first.
-/

namespace S3Sink

/-- `impl From<std::io::Error> for SinkError`. -/
def SinkError.ofIo (error : IoError) : SinkError :=
  .io error.message

namespace FileIo

/-! ## CountingWriter -/

structure CountingWriter (W : Type) where
  inner : W
  compressedSizeB : Nat

namespace CountingWriter

variable {W : Type} [Write W]

def write (self : CountingWriter W) (buf : Bytes) : Except IoError Nat × CountingWriter W :=
  match Write.write self.inner buf with
  | (.error error, inner) => (.error error, { self with inner })
  | (.ok n, inner) => (.ok n, ⟨inner, self.compressedSizeB + n⟩)

def flush (self : CountingWriter W) : Except IoError Unit × CountingWriter W :=
  let out := Write.flush self.inner
  (out.1, { self with inner := out.2 })

instance : Write (CountingWriter W) where
  write := write
  flush := flush
  patience self := Write.patience self.inner

theorem write_inner {w w' : CountingWriter W} {buf : Bytes} {result : Except IoError Nat}
    (h : Write.write w buf = (result, w')) : Write.write w.inner buf = (result, w'.inner) := by
  change w.write buf = _ at h
  unfold write at h
  split at h <;> next hwrite => cases h; exact hwrite

theorem flush_inner {w w' : CountingWriter W} {result : Except IoError Unit}
    (h : Write.flush w = (result, w')) : Write.flush w.inner = (result, w'.inner) := by
  cases h
  rfl

instance [LawfulWrite W] : LawfulWrite (CountingWriter W) where
  received self := received self.inner
  write_ok h := LawfulWrite.write_ok (write_inner h)
  write_error h := LawfulWrite.write_error (write_inner h)
  flush_received self := LawfulWrite.flush_received self.inner

instance [PatientWrite W] : PatientWrite (CountingWriter W) where
  patience_write self buf := by
    have hinner := PatientWrite.patience_write self.inner buf
    rwa [write_inner (rfl : Write.write self buf = (_, _))] at hinner
  patience_flush self := PatientWrite.patience_flush self.inner
  patience_interrupted h hint := by
    have hinner := PatientWrite.patience_interrupted (write_inner h) hint
    exact hinner

end CountingWriter

/-! ## The encoder -/

/-- `zstd::Encoder`: a compression context in front of a writer. -/
structure Encoder (σ W : Type) where
  context : σ
  inner : W

/-- The operations of the encoder, and `zstd::decode_all`. -/
class Zstd (σ : Type) where
  new {W : Type} [Write W] (inner : W) (level : Int) : Except IoError (Encoder σ W)
  write {W : Type} [Write W] (self : Encoder σ W) (buf : Bytes) :
    Except IoError Nat × Encoder σ W
  flush {W : Type} [Write W] (self : Encoder σ W) : Except IoError Unit × Encoder σ W
  doFinish {W : Type} [Write W] (self : Encoder σ W) : Except IoError Unit × Encoder σ W
  decodeAll : Bytes → Option Bytes

instance {σ W : Type} [Zstd σ] [Write W] : Write (Encoder σ W) where
  write := Zstd.write
  flush := Zstd.flush
  patience self := Write.patience self.inner

/-- The encoder was given a fresh writer and took `input` since, and no operation failed. -/
inductive Session {σ W : Type} [Zstd σ] [Write W] [LawfulWrite W] : Bytes → Encoder σ W → Prop
  | new {inner : W} {level : Int} {self : Encoder σ W} (hfresh : received inner = [])
      (hnew : Zstd.new inner level = .ok self) : Session [] self
  | write {input buf : Bytes} {n : Nat} {self self' : Encoder σ W} (hself : Session input self)
      (hwrite : Zstd.write self buf = (.ok n, self')) : Session (input ++ buf.take n) self'
  | interrupted {input buf : Bytes} {error : IoError} {self self' : Encoder σ W}
      (hself : Session input self) (hwrite : Zstd.write self buf = (.error error, self'))
      (hinterrupted : error.isInterrupted = true) : Session input self'
  | flush {input : Bytes} {self self' : Encoder σ W} (hself : Session input self)
      (hflush : Zstd.flush self = (.ok (), self')) : Session input self'

/-- The encoder reaches the writer it owns through `Write` only, and once it is finished the writer
has received a compressed form of what the encoder took. -/
class LawfulZstd (σ : Type) [Zstd σ] : Prop where
  new_calls : ∀ {W : Type} [Write W] {inner : W} {level : Int} {self : Encoder σ W},
    Zstd.new inner level = .ok self → Calls inner self.inner
  write_calls : ∀ {W : Type} [Write W] (self : Encoder σ W) (buf : Bytes),
    Calls self.inner (Zstd.write self buf).2.inner
  flush_calls : ∀ {W : Type} [Write W] (self : Encoder σ W),
    Calls self.inner (Zstd.flush self).2.inner
  doFinish_calls : ∀ {W : Type} [Write W] (self : Encoder σ W),
    Calls self.inner (Zstd.doFinish self).2.inner
  /-- an interruption is passed on from the writer -/
  patience_interrupted : ∀ {W : Type} [Write W] [PatientWrite W] {self self' : Encoder σ W}
    {buf : Bytes} {error : IoError}, Zstd.write self buf = (.error error, self') →
    error.isInterrupted = true → Write.patience self'.inner < Write.patience self.inner
  roundTrip : ∀ {W : Type} [Write W] [LawfulWrite W] {input : Bytes} {self self' : Encoder σ W},
    Session input self → Zstd.doFinish self = (.ok (), self') →
    Zstd.decodeAll σ (received self'.inner) = some input

/-! ## ActiveFile -/

/-- What an encoder of the repository writes into. -/
abbrev DiskWriter := CountingWriter (BufWriter AppendFile)

structure ActiveFile (σ : Type) where
  path : PathBuf
  writer : Encoder σ DiskWriter

namespace ActiveFile

def bufferCapacity : Nat := 1024 * 64

variable {σ : Type}

/-- The bytes of the file on disk. -/
def content (self : ActiveFile σ) : Bytes :=
  self.writer.inner.inner.inner.content

/-- When the file is dropped, so is its buffer, which is flushed without regard to the result. -/
def drop (self : ActiveFile σ) : Bytes :=
  self.writer.inner.inner.flushBuf.2.inner.content

variable [Zstd σ]

/-- `ActiveFile::new` on a file just opened. -/
def new (path : PathBuf) (file : AppendFile) (compressionLevel : Int) :
    Except IoError (ActiveFile σ) :=
  let countingWriter : DiskWriter := ⟨BufWriter.withCapacity bufferCapacity file, 0⟩
  match Zstd.new countingWriter compressionLevel with
  | .error error => .error error
  | .ok writer => .ok { path, writer }

/-- `write_all`, with the number of bytes the encoder took. -/
def writeAll (self : ActiveFile σ) (bytes : Bytes) : Except IoError Unit × Nat × ActiveFile σ :=
  let out := Write.writeAll self.writer bytes
  (out.1, bytes.length - out.2.1.length, { self with writer := out.2.2 })

def close (self : ActiveFile σ) : Except IoError Nat × ActiveFile σ :=
  match Zstd.flush self.writer with
  | (.error error, writer) => (.error error, { self with writer })
  | (.ok (), writer) =>
      match Zstd.doFinish writer with
      | (.error error, writer) => (.error error, { self with writer })
      | (.ok (), writer) =>
          -- what the epilogue left in the buffer
          match Write.flush writer.inner with
          | (.error error, inner) => (.error error, { self with writer := { writer with inner } })
          | (.ok (), inner) =>
              (.ok inner.compressedSizeB, { self with writer := { writer with inner } })

end ActiveFile

/-! ## The registry -/

/-- An operation on a file: how it ended and, for a write, the bytes the encoder took. -/
inductive Operation
  | create (path : PathBuf) (openError encoderError : Option SinkError)
  | write (path : PathBuf) (taken : Bytes) (error : Option SinkError)
  | close (path : PathBuf) (result : Except SinkError Nat)

/-- What the operating system answers when a file is created, and to the writes to the file.
`Uuid::new_v4` never draws the same value twice. -/
structure System where
  opens : Nat → Except IoError (List Answer)
  uuid : Nat → String
  uuid_injective : Function.Injective uuid

structure DiskFileRegistry (σ : Type) where
  directory : PathBuf
  compressionLevel : Int
  files : HashMap StreamId (ActiveFile σ)
  system : System
  operations : List Operation
  disk : HashMap PathBuf Bytes

namespace DiskFileRegistry

variable {σ : Type}

def new (directory : PathBuf) (compressionLevel : Int) (system : System) : DiskFileRegistry σ :=
  { directory := directory
    compressionLevel := compressionLevel
    files := ∅
    system := system
    operations := []
    disk := ∅ }

/-- The path the next file created gets. -/
def nextPath (self : DiskFileRegistry σ) : PathBuf :=
  S3Sink.DiskFileRegistry.scratchPath self.directory (self.system.uuid self.operations.length)

/-- What a reader of the file finds. -/
def onDisk (self : DiskFileRegistry σ) (path : PathBuf) : Bytes :=
  (self.disk.get? path).getD []

/-- An operation has left the file with this content. -/
def record (self : DiskFileRegistry σ) (operation : Operation) (path : PathBuf) (content : Bytes) :
    DiskFileRegistry σ :=
  { self with
    operations := operation :: self.operations
    disk := self.disk.insert path content }

variable [Zstd σ]

/-- `File::options().create(true).append(true).open(&path)`, then `ActiveFile::new`. -/
def newActiveFile (self : DiskFileRegistry σ) :
    Except SinkError (ActiveFile σ) × DiskFileRegistry σ :=
  let path := self.nextPath
  match self.system.opens self.operations.length with
  | .error error =>
      -- no file is created
      (.error (.ofIo error), { self with
        operations := .create path (some (.ofIo error)) none :: self.operations })
  | .ok answers =>
      match ActiveFile.new path ⟨self.onDisk path, answers⟩ self.compressionLevel with
      | .error error =>
          (.error (.ofIo error),
            self.record (.create path none (some (.ofIo error))) path (self.onDisk path))
      | .ok file => (.ok file, self.record (.create path none none) path file.content)

def getMutActiveFileOrCreate (self : DiskFileRegistry σ) (id : StreamId) :
    Except SinkError (ActiveFile σ) × DiskFileRegistry σ :=
  match self.files.get? id with
  | some file => (.ok file, self)
  | none =>
      match self.newActiveFile with
      | (.error error, self) => (.error error, self)
      | (.ok file, self) => (.ok file, { self with files := self.files.insert id file })

/-- Write to the active file of the stream. -/
def writeActiveFile (self : DiskFileRegistry σ) (id : StreamId) (file : ActiveFile σ)
    (bytes : Bytes) : Except SinkError Unit × DiskFileRegistry σ :=
  match file.writeAll bytes with
  | (.error error, taken, file) =>
      (.error (.ofIo error), { self with files := self.files.insert id file }.record
        (.write file.path (bytes.take taken) (some (.ofIo error))) file.path file.content)
  | (.ok (), taken, file) =>
      (.ok (), { self with files := self.files.insert id file }.record
        (.write file.path (bytes.take taken) none) file.path file.content)

def writeAll (self : DiskFileRegistry σ) (id : StreamId) (bytes : Bytes) :
    Except SinkError Unit × DiskFileRegistry σ :=
  match self.getMutActiveFileOrCreate id with
  | (.error error, self) => (.error error, self)
  | (.ok file, self) => self.writeActiveFile id file bytes

def close (self : DiskFileRegistry σ) (id : StreamId) :
    Except SinkError (PathBuf × Nat) × DiskFileRegistry σ :=
  match self.files.get? id with
  | none => (.error (S3Sink.DiskFileRegistry.notFound id), self)
  | some file =>
      let self := { self with files := self.files.erase id }
      match file.close with
      | (.error error, file) =>
          (.error (.ofIo error),
            self.record (.close file.path (.error (.ofIo error))) file.path file.drop)
      | (.ok compressedSizeB, file) =>
          (.ok (file.path, compressedSizeB),
            self.record (.close file.path (.ok compressedSizeB)) file.path file.drop)

def revoke (self : DiskFileRegistry σ) (id : StreamId) : Option PathBuf × DiskFileRegistry σ :=
  match self.files.get? id with
  | none => (none, self)
  | some file =>
      (some file.path, { self with
        files := self.files.erase id
        disk := self.disk.insert file.path file.drop })

instance : FileRegistry (DiskFileRegistry σ) where
  close := close
  writeAll := writeAll
  revoke := revoke

@[simp] theorem fileRegistry_close (reg : DiskFileRegistry σ) (id : StreamId) :
    FileRegistry.close reg id = reg.close id := rfl

@[simp] theorem fileRegistry_writeAll (reg : DiskFileRegistry σ) (id : StreamId) (bytes : Bytes) :
    FileRegistry.writeAll reg id bytes = reg.writeAll id bytes := rfl

@[simp] theorem fileRegistry_revoke (reg : DiskFileRegistry σ) (id : StreamId) :
    FileRegistry.revoke reg id = reg.revoke id := rfl

end DiskFileRegistry

end FileIo
end S3Sink
