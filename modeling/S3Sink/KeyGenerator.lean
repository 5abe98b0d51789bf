import S3Sink.Record

/-!
# KeyGenerator — object keys

The trait of `key_generator.rs` and its S3 partitioner.  A generator may read a clock and draw
random numbers, so it is threaded through the state like the file registry.

`S3Partitioner.keyInner` — the fields of the stream id as folders, then a folder for the day and the
name of the object.
-/

namespace S3Sink

/-- `trait KeyGenerator`. -/
class KeyGenerator (K : Type) where
  key : K → StreamId → String × K

/-- The generator of the state machine's tests: the key is the stream id. -/
structure IdentityKeyGenerator where
  deriving DecidableEq

instance : KeyGenerator IdentityKeyGenerator where
  key self streamId := (streamId.id, self)

/-- A point in time as its formatter shows it: the text it makes of a format. -/
structure DateTime where
  format : String → String

/-- The clock readings and random identifiers of a process, and how many keys it has made. -/
structure S3Partitioner where
  now : Nat → DateTime
  uuid : Nat → String
  keys : Nat

namespace S3Partitioner

def keyInner (id : StreamId) (now : DateTime) (uuid : String) : String :=
  let parts := (id.id.toList.splitOn RouterStrategy.delimiter).map String.ofList
  let suffix := "ingest_year_month_day=" ++ now.format "%Y-%m-%d" ++ "/" ++
    now.format "%Y-%m-%dT%H:%M:%SZ" ++ "-" ++ uuid ++ ".jsonl.zst"
  "/".intercalate (parts ++ [suffix])

/-- Each key reads the clock and draws an identifier, of which it uses eight characters. -/
instance : KeyGenerator S3Partitioner where
  key self streamId :=
    let uuid := String.ofList ((self.uuid self.keys).toList.take 8)
    (keyInner streamId (self.now self.keys) uuid, { self with keys := self.keys + 1 })

example : keyInner ⟨"schema_name\x1Fschema_version"⟩ ⟨id⟩ "1234" =
    "schema_name/schema_version/" ++
      "ingest_year_month_day=%Y-%m-%d/%Y-%m-%dT%H:%M:%SZ-1234.jsonl.zst" := by
  decide

end S3Partitioner

end S3Sink
