import S3Sink.Record

/-!
# JsonSerializer — one JSON line per record

`serialize` writes `{"data":<payload>,"x-<key>":"<value>",…}` and a newline into a buffer that is
reused from record to record (`json_serializer.rs`).  The payload is spliced in as it is; a header
is kept when its value is present and neither key nor value holds a quote, a backslash or a control
character.

* `serialize_result` — the reused buffer never shows: the answer is `serializeRecord`, a function of
  the record and the decoder;
* `keptHeaders`, `headerMembers_eq` — which headers are written; the others leave no trace.
-/

namespace S3Sink

structure JsonSerializer where
  buf : Bytes
  deriving DecidableEq

namespace JsonSerializer

def new : JsonSerializer := ⟨[]⟩

/-- No quote, no backslash and no control character. -/
def isValidJson (bytes : Bytes) : Bool :=
  !bytes.any fun b => b = 0x22 || b = 0x5C || b < 0x20

/-- `{"data":` -/
def dataPrefix : Bytes :=
  [0x7B, 0x22, 0x64, 0x61, 0x74, 0x61, 0x22, 0x3A]

def keyBytes (header : Header) : Bytes :=
  header.key.toUTF8.data.toList

/-- `,"x-<key>":"<value>"` for a header that is kept, nothing for one that is dropped. -/
def headerMember (header : Header) : Bytes :=
  match header.value with
  | none => []
  | some headerValue =>
      if isValidJson headerValue && isValidJson (keyBytes header) then
        [0x2C] ++ [0x22, 0x78, 0x2D] ++ keyBytes header ++ [0x22, 0x3A, 0x22] ++ headerValue ++
          [0x22]
      else
        []

/-- The loop over the headers, appending to the buffer. -/
def pushHeaders (buf : Bytes) : List Header → Bytes
  | [] => buf
  | header :: headers => pushHeaders (buf ++ headerMember header) headers

def decodeError (record : Message) (decoder : RecordDecoder) : SinkError :=
  .serialization
    (s!"could not decode record '{record.topic}', partition '{record.partition}', " ++
      s!"offset '{record.offset.val}' with {decoder.display}")

def serialize (self : JsonSerializer) (record : Message) (decoder : RecordDecoder) :
    Except SinkError (Option Bytes) × JsonSerializer :=
  match record.payload with
  | none => (.ok none, self)
  | some rawPayload =>
      match decoder.dataPayload rawPayload with
      | none => (.error (decodeError record decoder), ⟨[]⟩)
      | some dataPayload =>
          -- skip records with empty data body
          if dataPayload.isEmpty then
            (.ok none, ⟨[]⟩)
          else
            let buf := [] ++ dataPrefix ++ dataPayload
            let buf := match record.headers with
              | some headers => pushHeaders buf headers
              | none => buf
            let buf := buf ++ [0x7D, 0x0A]
            (.ok (some buf), ⟨buf⟩)

/-! ## The answer as a function of the record -/

/-- The members of the kept headers, in order. -/
def headerMembers (record : Message) : Bytes :=
  (record.headers.getD []).flatMap headerMember

/-- The line of a record with data body `dataPayload`, without its newline. -/
def lineBody (record : Message) (dataPayload : Bytes) : Bytes :=
  dataPrefix ++ dataPayload ++ headerMembers record ++ [0x7D]

/-- What `serialize` answers, whatever the buffer held before. -/
def serializeRecord (decoder : RecordDecoder) (record : Message) :
    Except SinkError (Option Bytes) :=
  match record.payload with
  | none => .ok none
  | some rawPayload =>
      match decoder.dataPayload rawPayload with
      | none => .error (decodeError record decoder)
      | some dataPayload =>
          if dataPayload.isEmpty then
            .ok none
          else
            .ok (some (lineBody record dataPayload ++ [0x0A]))

theorem pushHeaders_eq (headers : List Header) :
    ∀ buf : Bytes, pushHeaders buf headers = buf ++ headers.flatMap headerMember := by
  induction headers with
  | nil =>
      intro buf
      simp [pushHeaders]
  | cons header headers ih =>
      intro buf
      simp [pushHeaders, ih]

theorem serialize_result (self : JsonSerializer) (record : Message) (decoder : RecordDecoder) :
    (self.serialize record decoder).1 = serializeRecord decoder record := by
  unfold serialize serializeRecord
  cases record.payload with
  | none => rfl
  | some rawPayload =>
      dsimp only
      cases decoder.dataPayload rawPayload with
      | none => rfl
      | some dataPayload =>
          dsimp only
          split
          · rfl
          · cases hheaders : record.headers with
            | none => simp [lineBody, headerMembers, hheaders]
            | some headers => simp [lineBody, headerMembers, hheaders, pushHeaders_eq]

/-! ## Kept headers -/

/-- Value and key of the header both pass the check. -/
def kept (header : Header) : Bool :=
  match header.value with
  | none => false
  | some headerValue => isValidJson headerValue && isValidJson (keyBytes header)

/-- The headers that are written, in order. -/
def keptHeaders (record : Message) : List Header :=
  (record.headers.getD []).filter kept

theorem isValidJson_iff {bytes : Bytes} :
    isValidJson bytes = true ↔ ∀ b ∈ bytes, b ≠ 0x22 ∧ b ≠ 0x5C ∧ 0x20 ≤ b := by
  simp only [isValidJson, Bool.not_eq_true', List.any_eq_false, Bool.or_eq_true,
    decide_eq_true_eq, not_or, UInt8.not_lt, and_assoc]

theorem headerMember_of_kept {header : Header} (hkept : kept header = true) :
    ∃ headerValue, header.value = some headerValue ∧ isValidJson headerValue = true ∧
      isValidJson (keyBytes header) = true ∧
      headerMember header = [0x2C] ++ [0x22, 0x78, 0x2D] ++ keyBytes header ++
        [0x22, 0x3A, 0x22] ++ headerValue ++ [0x22] := by
  unfold kept at hkept
  cases hvalue : header.value with
  | none => simp [hvalue] at hkept
  | some headerValue =>
      simp only [hvalue] at hkept
      obtain ⟨hvalid, hkey⟩ := Bool.and_eq_true_iff.1 hkept
      exact ⟨headerValue, rfl, hvalid, hkey, by simp [headerMember, hvalue, hvalid, hkey]⟩

theorem headerMember_of_dropped {header : Header} (hdropped : kept header = false) :
    headerMember header = [] := by
  unfold kept at hdropped
  unfold headerMember
  cases hvalue : header.value with
  | none => rfl
  | some headerValue =>
      simp only [hvalue] at hdropped
      simp [hdropped]

/-- Dropped headers leave no trace. -/
theorem headerMembers_eq (record : Message) :
    headerMembers record = (keptHeaders record).flatMap headerMember := by
  unfold headerMembers keptHeaders
  induction record.headers.getD [] with
  | nil => rfl
  | cons header headers ih =>
      cases hkept : kept header with
      | true => simp [hkept, ih]
      | false => simp [hkept, ih, headerMember_of_dropped hkept]

end JsonSerializer

end S3Sink
