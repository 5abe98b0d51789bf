import S3Sink.Lib.HashMap
import S3Sink.Lib.BTreeSet

/-!
# DataModel — identifiers, errors and machine integers

The small types every other module uses (`data_model.rs`, `error.rs`, `config.rs`).

Kafka numbers the records of a partition from 0 and its log end offset is itself an `i64`, so the
offset of a record lies in `[0, i64::MAX)`: the type `Offset` carries that range.
-/

namespace S3Sink

abbrev Bytes := List UInt8

/-! ## Machine integers -/

def i64Max : Int := 0x7FFFFFFFFFFFFFFF

def i64Min : Int := -0x8000000000000000

/-- `x + 1` on `i64`, wrapping at the top as the release profile does. -/
def i64Succ (x : Int) : Int :=
  if x = i64Max then i64Min else x + 1

def u64Max : Nat := 0xFFFFFFFFFFFFFFFF

/-- `x - 1` on `u64`, wrapping at zero as the release profile does. -/
def u64Pred (x : Nat) : Nat :=
  if x = 0 then u64Max else x - 1

theorem u64Pred_of_pos {x : Nat} (hpos : 0 < x) : u64Pred x = x - 1 := by
  simp [u64Pred, hpos.ne']

/-- The offset of a record in its partition. -/
abbrev Offset := { o : Int // 0 ≤ o ∧ o < i64Max }

theorem i64Succ_offset (o : Offset) : i64Succ o.val = o.val + 1 := by
  have hlt : o.val ≠ i64Max := o.property.2.ne
  simp [i64Succ, hlt]

/-- A point in time, in nanoseconds. -/
abbrev Instant := Int

/-- `Duration::from_millis`. -/
def fromMillis (ms : Nat) : Int :=
  1000000 * ms

abbrev PathBuf := String

/-! ## Identifiers -/

structure TopicName where
  name : String
  deriving DecidableEq, Repr

/-- Identifies the file writer a record is appended to. -/
structure StreamId where
  id : String
  deriving DecidableEq, Repr

/-- A topic and one of its partitions. -/
structure TopicId where
  topicName : TopicName
  partition : Int
  deriving DecidableEq, Repr

theorem TopicId.ext_name {p q : TopicId} (hname : p.topicName.name = q.topicName.name)
    (hpartition : p.partition = q.partition) : p = q := by
  obtain ⟨⟨name⟩, partition⟩ := p
  obtain ⟨⟨name'⟩, partition'⟩ := q
  obtain rfl : name = name' := hname
  obtain rfl : partition = partition' := hpartition
  rfl

/-! ## Errors -/

inductive SinkError
  | kafka (message : String)
  | io (message : String)
  | configuration (message : String)
  | fileRegistry (message : String)
  | offsetRegistry (message : String)
  | serialization (message : String)
  | s3Upload (message : String)
  deriving DecidableEq, Repr

end S3Sink
