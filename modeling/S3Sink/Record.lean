import S3Sink.DataModel

/-!
# Record — Kafka records, their decoder and their router

* `Message`, `Header` — what the sink reads of a Kafka record;
* `RecordDecoder.dataPayload` — the data body inside the value of a record (`record/decoder.rs`);
* `RouterStrategy.writeId` — the text of the stream id of a record (`record/router.rs`).
-/

namespace S3Sink

/-! ## Messages -/

structure Header where
  key : String
  value : Option Bytes
  deriving DecidableEq, Repr

structure Message where
  topic : String
  partition : Int
  offset : Offset
  payload : Option Bytes
  headers : Option (List Header)
  deriving DecidableEq

namespace Message

/-- The partition a record was consumed from. -/
def topicId (record : Message) : TopicId :=
  ⟨⟨record.topic⟩, record.partition⟩

end Message

/-! ## Decoder -/

inductive RecordDecoder
  | jsonSchemaDecoder
  | jsonStringDecoder
  deriving DecidableEq, Repr

namespace RecordDecoder

/-- The data body of a record's value: a schema payload starts with a zero magic byte and a schema
id of four bytes, a string payload is the body itself. -/
def dataPayload (decoder : RecordDecoder) (payload : Bytes) : Option Bytes :=
  match decoder with
  | .jsonSchemaDecoder =>
      -- `payload.get(5..)` exists from length 5 on
      match payload.head?.filter (fun byte => byte = 0x00) with
      | some _ => if 5 ≤ payload.length then some (payload.drop 5) else none
      | none => none
  | .jsonStringDecoder => some payload

/-- The `Display` text. -/
def display : RecordDecoder → String
  | .jsonSchemaDecoder => "JsonSchemaDecoder"
  | .jsonStringDecoder => "JsonStringDecoder"

example : jsonSchemaDecoder.dataPayload [0, 0, 0, 0, 0, 0x7B, 0x7D] = some [0x7B, 0x7D] := by
  decide

example : jsonSchemaDecoder.dataPayload [0, 1, 2] = none := by
  decide

end RecordDecoder

/-! ## Router -/

inductive RouterStrategy
  | topicVersion
  | dlq
  deriving DecidableEq, Repr

namespace RouterStrategy

def delimiter : Char := '\x1F'

def unknownSchemaName : String := "unknown_schema_name"
def unknownSchemaVersion : String := "unknown_schema_version"
def unknownStatusCode : String := "unknown_status_code"

def schemaNameHeader : String := "schema_name"
def schemaVersionHeader : String := "schema_version"
def statusCodeHeader : String := "status_code"

/-- `str::from_utf8`. -/
def fromUtf8 (bytes : Bytes) : Option String :=
  String.fromUTF8? ⟨bytes.toArray⟩

/-- The first header under `key` whose value is present, valid UTF-8 and not empty. -/
def getHeader (record : Message) (key : String) : Option String :=
  match record.headers with
  | none => none
  | some headers =>
      headers.findSome? fun header =>
        if header.key = key then
          (header.value.bind fromUtf8).filter (fun value => !value.isEmpty)
        else
          none

def groupByTopicVersion (record : Message) : String :=
  let schemaName := (getHeader record schemaNameHeader).getD unknownSchemaName
  let schemaVersion := (getHeader record schemaVersionHeader).getD unknownSchemaVersion
  schemaName.push delimiter ++ schemaVersion

def groupByDlq (record : Message) : String :=
  let schemaName := (getHeader record schemaNameHeader).getD unknownSchemaName
  let schemaVersion := (getHeader record schemaVersionHeader).getD unknownSchemaVersion
  let statusCode := (getHeader record statusCodeHeader).getD unknownStatusCode
  record.topic.push delimiter ++ schemaName.push delimiter ++ schemaVersion.push delimiter ++
    "status_code=" ++ statusCode

/-- The text written into the cleared buffer. -/
def writeId (strategy : RouterStrategy) (record : Message) : String :=
  match strategy with
  | .topicVersion => groupByTopicVersion record
  | .dlq => groupByDlq record

example : topicVersion.writeId ⟨"topic", 0, ⟨0, by decide⟩, none, none⟩ =
    "unknown_schema_name\x1Funknown_schema_version" := by
  decide

end RouterStrategy

/-! ## Topic configuration -/

structure TopicConfig where
  decoder : RecordDecoder
  router : RouterStrategy
  deriving DecidableEq, Repr

end S3Sink
