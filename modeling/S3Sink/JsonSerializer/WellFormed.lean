import S3Sink.JsonSerializer.Framing
import S3Sink.Lib.Json.Encoding

/-!
# JsonSerializer.WellFormed — a line is a JSON object

The frame written around data body and headers is that of an object with one member `data` and one
member for each kept header.  The check on keys and values keeps out quotes, backslashes and control
characters; it does not look at the bytes from `0x80` on.

* `objectText_lineBody` — if the kept values are valid UTF-8, the line is an object;
* `valid_of_lineBody` — if the line is valid UTF-8, so is every kept value;
* `wellFormed_iff` — both together.
-/

namespace S3Sink

namespace JsonSerializer

/-! ## From the headers to the line -/

/-- A key that passed the check and a valid value make a member of an object. -/
theorem derives_headerMember {header : Header} {headerValue : Bytes}
    (hkey : isValidJson (keyBytes header) = true) (hvalue : isValidJson headerValue = true)
    (hvalid : Utf8.Valid headerValue) :
    Json.Derives Json.Whitespace .members
      ([0x22, 0x78, 0x2D] ++ keyBytes header ++ [0x22, 0x3A, 0x22] ++ headerValue ++ [0x22]) := by
  have hmarker : Utf8.Valid [0x78, 0x2D] := Json.utf8_of_ascii (List.all_iff_forall_prop.1 rfl)
  have hname : Json.StringChars ([0x78, 0x2D] ++ keyBytes header) := by
    apply Json.stringChars_of_utf8 (hmarker.append (Utf8.Valid.toUTF8 header.key))
    exact List.forall_mem_append.2 ⟨List.all_iff_forall_prop.1 rfl, isValidJson_iff.1 hkey⟩
  have hchars : Json.StringChars headerValue :=
    Json.stringChars_of_utf8 hvalid (isValidJson_iff.1 hvalue)
  have hgap : Json.Gap Json.Whitespace [] := fun _ h => absurd h List.not_mem_nil
  have hmember := Json.Derives.member hgap hname hgap hgap (Json.Derives.string hchars) hgap
  simpa using hmember

/-- Members of headers may follow the members of an object. -/
theorem derives_headers {headers : List Header} (hkept : ∀ header ∈ headers, kept header = true)
    (hvalid : ∀ header ∈ headers, ∀ headerValue, header.value = some headerValue →
      Utf8.Valid headerValue) {first : Bytes}
    (hfirst : Json.Derives Json.Whitespace .members first) :
    Json.Derives Json.Whitespace .members (first ++ headers.flatMap headerMember) := by
  induction headers generalizing first with
  | nil => simpa using hfirst
  | cons header headers ih =>
      obtain ⟨hhead, htail⟩ := List.forall_mem_cons.1 hkept
      obtain ⟨headerValue, hvalue, hcheck, hkey, hmember⟩ := headerMember_of_kept hhead
      have hderives := derives_headerMember hkey hcheck
        (hvalid header List.mem_cons_self headerValue hvalue)
      -- the member joins those before it
      have hgoal := ih htail (fun h hmem => hvalid h (List.mem_cons_of_mem _ hmem))
        (Json.Derives.nextMember hfirst hderives)
      rw [List.flatMap_cons, hmember]
      simpa using hgoal

theorem objectText_lineBody {record : Message} {body : Bytes}
    (htext : Json.Text Json.Whitespace body)
    (hvalid : ∀ header ∈ keptHeaders record, ∀ headerValue, header.value = some headerValue →
      Utf8.Valid headerValue) :
    Json.ObjectText Json.Whitespace (lineBody record body) := by
  obtain ⟨gap, value, gap', hgap, hvalue, hgap', rfl⟩ := htext
  have hnil : Json.Gap Json.Whitespace [] := fun _ h => absurd h List.not_mem_nil
  have hname : Json.StringChars [0x64, 0x61, 0x74, 0x61] :=
    Json.stringChars_of_utf8 (Json.utf8_of_ascii (List.all_iff_forall_prop.1 rfl))
      (List.all_iff_forall_prop.1 rfl)
  have hdata := Json.Derives.member hnil hname hnil hgap hvalue hgap'
  have hmembers := derives_headers
    (fun header (hmem : header ∈ keptHeaders record) => (List.mem_filter.1 hmem).2) hvalid hdata
  refine ⟨[], _, [], hnil, Json.Object.members hmembers, hnil, ?_⟩
  rw [lineBody, headerMembers_eq, dataPrefix]
  simp

/-! ## From the line to the headers -/

/-- A text is cut at the quotes around a kept value. -/
theorem valid_of_lineBody {record : Message} {body : Bytes}
    (hline : Utf8.Valid (lineBody record body)) {header : Header}
    (hheader : header ∈ keptHeaders record) {headerValue : Bytes}
    (hvalue : header.value = some headerValue) : Utf8.Valid headerValue := by
  obtain ⟨before, after, hsplit⟩ := List.append_of_mem hheader
  obtain ⟨headerValue', hvalue', -, -, hmember⟩ :=
    headerMember_of_kept (List.mem_filter.1 hheader).2
  obtain rfl : headerValue' = headerValue := Option.some.inj (hvalue'.symm.trans hvalue)
  have hquotes : lineBody record body =
      (dataPrefix ++ body ++ before.flatMap headerMember ++ [0x2C, 0x22, 0x78, 0x2D] ++
        keyBytes header ++ [0x22, 0x3A]) ++
        0x22 :: (headerValue' ++ 0x22 :: (after.flatMap headerMember ++ [0x7D])) := by
    rw [lineBody, headerMembers_eq, hsplit, List.flatMap_append, List.flatMap_cons, hmember]
    simp
  rw [hquotes] at hline
  have hafter := ((Utf8.valid_append_ascii (by decide)).1 hline).2
  exact ((Utf8.valid_append_ascii (by decide)).1 hafter).1

/-! ## Lines -/

/-- For a record whose body is a JSON text, the output is a JSON object and a newline exactly if
every header value that is kept is valid UTF-8. -/
theorem wellFormed_iff (self : JsonSerializer) {record : Message} {decoder : RecordDecoder}
    {body : Bytes} (hbody : dataBody record decoder = some body)
    (htext : Json.Text Json.Whitespace body) :
    (∀ bytes, (self.serialize record decoder).1 = .ok (some bytes) →
      ∃ text, bytes = text ++ [newline] ∧ Json.ObjectText Json.Whitespace text) ↔
      ∀ header ∈ keptHeaders record, ∀ headerValue, header.value = some headerValue →
        Utf8.Valid headerValue := by
  have hanswer := serialize_of_text self hbody htext
  constructor
  · intro hwell header hheader headerValue hvalue
    obtain ⟨text, heq, hobject⟩ := hwell _ hanswer
    obtain rfl : lineBody record body = text := List.append_cancel_right heq
    exact valid_of_lineBody (hobject.utf8 fun _ => Json.Whitespace.ascii) hheader hvalue
  · intro hvalid bytes hbytes
    rw [hanswer, Except.ok.injEq, Option.some.injEq] at hbytes
    exact ⟨_, hbytes.symm, objectText_lineBody htext hvalid⟩

theorem wellFormed_iff_sample :
    ∃ text, (new.serialize (sampleRecord (some [0x7B, 0x7D])) .jsonStringDecoder).1 =
        .ok (some (text ++ [newline])) ∧ Json.ObjectText Json.Whitespace text := by
  have htext : Json.Text Json.Whitespace [0x7B, 0x7D] :=
    text_emptyObject fun _ h => absurd h List.not_mem_nil
  -- the header with a newline in its value is not kept
  have hkept : keptHeaders (sampleRecord (some [0x7B, 0x7D])) = [⟨"key", some [0x61]⟩] := by decide
  have hvalid : ∀ header ∈ keptHeaders (sampleRecord (some [0x7B, 0x7D])), ∀ headerValue,
      header.value = some headerValue → Utf8.Valid headerValue := by
    intro header hheader headerValue hvalue
    rw [hkept, List.mem_singleton] at hheader
    subst hheader
    obtain rfl := Option.some.inj hvalue
    exact Utf8.Valid.ascii (by decide)
  have hbody : dataBody (sampleRecord (some [0x7B, 0x7D])) .jsonStringDecoder = some [0x7B, 0x7D] :=
    rfl
  have hanswer := serialize_of_text new hbody htext
  obtain ⟨text, heq, hobject⟩ := (wellFormed_iff new hbody htext).2 hvalid _ hanswer
  exact ⟨text, heq ▸ hanswer, hobject⟩

/-- A record with payload `{}` and a header whose value is the byte `FF`. -/
def latinRecord : Message :=
  { sampleRecord (some [0x7B, 0x7D]) with headers := some [⟨"key", some [0xFF]⟩] }

/-- The byte `FF` occurs in no UTF-8 text, and it passes the check. -/
theorem latin_value_kept :
    Json.Text Json.Whitespace [0x7B, 0x7D] ∧
      dataBody latinRecord .jsonStringDecoder = some [0x7B, 0x7D] ∧
      ∃ bytes, (new.serialize latinRecord .jsonStringDecoder).1 = .ok (some bytes) ∧
        ¬ ∃ text, bytes = text ++ [newline] ∧ Json.ObjectText Json.Whitespace text := by
  refine ⟨text_emptyObject fun _ h => absurd h List.not_mem_nil, rfl, _, rfl, ?_⟩
  rintro ⟨text, heq, hobject⟩
  have hline : lineBody latinRecord [0x7B, 0x7D] = text := List.append_cancel_right heq
  have hheader : (⟨"key", some [0xFF]⟩ : Header) ∈ keptHeaders latinRecord := by decide
  have hvalid : Utf8.Valid [0xFF] := valid_of_lineBody
    (hline ▸ hobject.utf8 fun _ => Json.Whitespace.ascii) hheader rfl
  exact absurd (Utf8.Valid.ascii_iff.1 hvalid) (by decide)

end JsonSerializer

end S3Sink
