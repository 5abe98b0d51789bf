import S3Sink.JsonSerializer.Framing
import S3Sink.Lib.Json.Scan

/-!
# JsonSerializer.Decoding — reading a line back

The data body stands in a line as it is, and headers are written like members of JSON objects.  The
data body is read back as the JSON text behind `{"data":`; what follows is cut at its quotes, since
kept keys and values have none.

* `decodeLine` — data body and headers of a line;
* `readHeaders_headerMembers` — the pieces between the quotes give back the kept headers;
* `serialize_undone` — the line of a record is read back as its data body and kept headers.
-/

namespace S3Sink

namespace JsonSerializer

def quote : UInt8 := 0x22

/-- The pieces of `,"x-<key>":"<value>",…}` between its quotes, four for each header. -/
def readHeaders : List Bytes → List Header
  | _ :: key :: _ :: headerValue :: rest =>
      ⟨(RouterStrategy.fromUtf8 (key.drop 2)).getD "", some headerValue⟩ :: readHeaders rest
  | _ => []

def decodeLine (line : Bytes) : Bytes × List Header :=
  let (body, rest) := Json.splitText ⟨0, .outside⟩ (line.drop dataPrefix.length)
  (body, readHeaders (rest.splitOn quote))

/-! ## Headers -/

theorem fromUtf8_keyBytes (header : Header) :
    RouterStrategy.fromUtf8 (keyBytes header) = some header.key := by
  have hvalid : ByteArray.IsValidUTF8 header.key.toByteArray := header.key.isValidUTF8
  have hkey : String.fromUTF8 header.key.toByteArray hvalid = header.key := rfl
  simp [RouterStrategy.fromUtf8, keyBytes, String.fromUTF8?, hvalid, hkey]

theorem quote_notMem_of_isValidJson {bytes : Bytes} (h : isValidJson bytes = true) :
    quote ∉ bytes :=
  fun hmem => (isValidJson_iff.1 h quote hmem).1 rfl

/-- Kept headers are read back, up to the brace that closes the object. -/
theorem readHeaders_headerMembers {headers : List Header}
    (hkept : ∀ header ∈ headers, kept header = true) :
    readHeaders ((headers.flatMap headerMember ++ [0x7D, newline]).splitOn quote) = headers := by
  induction headers with
  | nil => decide
  | cons header headers ih =>
      obtain ⟨hhead, htail⟩ := List.forall_mem_cons.1 hkept
      obtain ⟨headerValue, hvalue, hcheck, hkey, hmember⟩ := headerMember_of_kept hhead
      have hpieces : (header :: headers).flatMap headerMember ++ [0x7D, newline] =
          [0x2C] ++ quote :: (([0x78, 0x2D] ++ keyBytes header) ++ quote :: ([0x3A] ++ quote ::
            (headerValue ++ quote :: (headers.flatMap headerMember ++ [0x7D, newline])))) := by
        rw [List.flatMap_cons, hmember]
        simp [quote]
      have hname : quote ∉ [0x78, 0x2D] ++ keyBytes header := by
        rw [List.mem_append, not_or]
        exact ⟨by decide, quote_notMem_of_isValidJson hkey⟩
      have hdrop : ([0x78, 0x2D] ++ keyBytes header).drop 2 = keyBytes header := rfl
      rw [hpieces, List.splitOn_append_cons_self_of_not_mem (by decide),
        List.splitOn_append_cons_self_of_not_mem hname,
        List.splitOn_append_cons_self_of_not_mem (by decide),
        List.splitOn_append_cons_self_of_not_mem (quote_notMem_of_isValidJson hcheck),
        readHeaders, ih htail, hdrop, fromUtf8_keyBytes, Option.getD_some, ← hvalue]

/-! ## Lines -/

/-- What follows the data body begins with a comma or the closing brace. -/
theorem headerMembers_head (record : Message) :
    ∃ b rest, headerMembers record ++ [0x7D, newline] = b :: rest ∧
      b ∈ [(0x2C : UInt8), 0x5D, 0x7D] := by
  rw [headerMembers_eq]
  cases hheaders : keptHeaders record with
  | nil => exact ⟨0x7D, [newline], rfl, by decide⟩
  | cons header headers =>
      have hkept : kept header = true := by
        have hmem : header ∈ keptHeaders record := hheaders ▸ List.mem_cons_self
        exact (List.mem_filter.1 hmem).2
      obtain ⟨headerValue, -, -, -, hmember⟩ := headerMember_of_kept hkept
      rw [List.flatMap_cons, hmember]
      exact ⟨0x2C, _, rfl, by decide⟩

theorem decodeLine_lineBody {record : Message} {body : Bytes}
    (htext : Json.Text Json.Whitespace body) :
    decodeLine (lineBody record body ++ [newline]) = (body, keptHeaders record) := by
  obtain ⟨b, rest, hrest, hb⟩ := headerMembers_head record
  have hline : lineBody record body ++ [newline] = dataPrefix ++ (body ++ b :: rest) := by
    rw [← hrest, lineBody]
    simp
  have hsplit : Json.splitText ⟨0, .outside⟩ (body ++ b :: rest) = (body, b :: rest) :=
    Json.splitText_text (fun _ => Json.Whitespace.plain) htext hb
  have hheaders := readHeaders_headerMembers fun header (hmem : header ∈ keptHeaders record) =>
    (List.mem_filter.1 hmem).2
  rw [decodeLine, hline, List.drop_left, hsplit]
  dsimp only
  rw [← hrest, headerMembers_eq, hheaders]

/-- A record whose data body is a JSON text is serialized to a line that is read back as its data
body and its kept headers, in order; so records with the same line agree on both. -/
theorem serialize_undone (self : JsonSerializer) {record : Message} {decoder : RecordDecoder}
    {body : Bytes} (hbody : dataBody record decoder = some body)
    (htext : Json.Text Json.Whitespace body) :
    (∃ bytes, (self.serialize record decoder).1 = .ok (some bytes) ∧
      decodeLine bytes = (body, keptHeaders record)) ∧
    ∀ (self' : JsonSerializer) (record' : Message) (decoder' : RecordDecoder) (body' : Bytes),
      dataBody record' decoder' = some body' → Json.Text Json.Whitespace body' →
      (self'.serialize record' decoder').1 = (self.serialize record decoder).1 →
        body' = body ∧ keptHeaders record' = keptHeaders record := by
  refine ⟨⟨_, serialize_of_text self hbody htext, decodeLine_lineBody htext⟩, ?_⟩
  intro self' record' decoder' body' hbody' htext' hsame
  rw [serialize_of_text self' hbody' htext', serialize_of_text self hbody htext,
    Except.ok.injEq, Option.some.injEq] at hsame
  -- both are what the one line is read back as
  have hread : (body', keptHeaders record') = (body, keptHeaders record) := by
    rw [← decodeLine_lineBody htext', hsame, decodeLine_lineBody htext]
  exact ⟨congrArg Prod.fst hread, congrArg Prod.snd hread⟩

theorem serialize_undone_sample :
    let record := sampleRecord (some [0x7B, 0x7D])
    let record' := sampleRecord (some [0, 0, 0, 0, 1, 0x7B, 0x7D])
    (∃ bytes, (new.serialize record .jsonStringDecoder).1 = .ok (some bytes) ∧
      decodeLine bytes = ([0x7B, 0x7D], keptHeaders record)) ∧
      keptHeaders record' = keptHeaders record := by
  have htext : Json.Text Json.Whitespace [0x7B, 0x7D] :=
    text_emptyObject fun _ h => absurd h List.not_mem_nil
  have hbody : dataBody (sampleRecord (some [0x7B, 0x7D])) .jsonStringDecoder =
      some [0x7B, 0x7D] := rfl
  obtain ⟨hread, hsame⟩ := serialize_undone new hbody htext
  exact ⟨hread, (hsame ⟨[0xFF]⟩ _ .jsonSchemaDecoder _ rfl htext rfl).2⟩

end JsonSerializer

end S3Sink
