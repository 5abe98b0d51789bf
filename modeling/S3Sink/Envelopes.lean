import S3Sink.DataModel

/-!
# Envelopes — sealed files, uploads and their results

What travels between the state machine and the uploader (`envelopes.rs`).
-/

namespace S3Sink

structure SealedFile where
  path : PathBuf
  rawSizeB : Nat
  compressedSizeB : Nat
  recordCount : Nat
  offsetsConsumed : HashMap TopicId (List Offset)
  createdAt : Instant
  deriving DecidableEq

structure ToUpload where
  objectKey : String
  file : SealedFile
  retries : Nat
  deriving DecidableEq

namespace ToUpload

def path (self : ToUpload) : PathBuf := self.file.path

def recordCount (self : ToUpload) : Nat := self.file.recordCount

def rawSizeB (self : ToUpload) : Nat := self.file.rawSizeB

def intoParts (self : ToUpload) : PathBuf × HashMap TopicId (List Offset) :=
  (self.file.path, self.file.offsetsConsumed)

def decrement (self : ToUpload) : ToUpload :=
  { self with retries := u64Pred self.retries }

end ToUpload

inductive UploadResult
  | success (fileToGc : PathBuf) (offsets : HashMap TopicId (List Offset))
  | failure (toUpload : ToUpload) (error : SinkError)
  deriving DecidableEq

end S3Sink
