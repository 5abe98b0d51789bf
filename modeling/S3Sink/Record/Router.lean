import S3Sink.Record
import S3Sink.Lib.Split

/-!
# Record.Router — when two records share a stream id

A stream id is made of routed fields with the delimiter U+001F between them.  The fields are header
values or placeholders, and a header value may hold the delimiter itself.

* `routedFields` — what a strategy routes by; `idFields` — the texts it writes for them;
* `writeId_toList` — the id is the texts joined with the delimiter;
* `idFields_inj` — the texts determine strategy and routed fields;
* `writeId_eq_iff` — exactly when ids are equal for equal routed fields only.
-/

namespace S3Sink

namespace RouterStrategy

/-- The fields a strategy routes by: header values, or their placeholders. -/
def routedFields (strategy : RouterStrategy) (record : Message) : List String :=
  let schemaName := (getHeader record schemaNameHeader).getD unknownSchemaName
  let schemaVersion := (getHeader record schemaVersionHeader).getD unknownSchemaVersion
  let statusCode := (getHeader record statusCodeHeader).getD unknownStatusCode
  match strategy with
  | .topicVersion => [schemaName, schemaVersion]
  | .dlq => [record.topic, schemaName, schemaVersion, statusCode]

/-- The texts between the delimiters of the id. -/
def idFields (strategy : RouterStrategy) (record : Message) : List String :=
  let schemaName := (getHeader record schemaNameHeader).getD unknownSchemaName
  let schemaVersion := (getHeader record schemaVersionHeader).getD unknownSchemaVersion
  let statusCode := (getHeader record statusCodeHeader).getD unknownStatusCode
  match strategy with
  | .topicVersion => [schemaName, schemaVersion]
  | .dlq => [record.topic, schemaName, schemaVersion, "status_code=" ++ statusCode]

/-- The texts of the id, cut at every delimiter they hold. -/
def idPieces (strategy : RouterStrategy) (record : Message) : List (List Char) :=
  Split.pieces delimiter ((strategy.idFields record).map String.toList)

/-- How many pieces each text of the id has. -/
def idCuts (strategy : RouterStrategy) (record : Message) : List Nat :=
  Split.cuts delimiter ((strategy.idFields record).map String.toList)

/-! ## The id and its fields -/

theorem writeId_toList (strategy : RouterStrategy) (record : Message) :
    (strategy.writeId record).toList =
      [delimiter].intercalate ((strategy.idFields record).map String.toList) := by
  cases strategy with
  | topicVersion => simp [writeId, groupByTopicVersion, idFields]
  | dlq => simp [writeId, groupByDlq, idFields]

theorem idFields_ne_nil (strategy : RouterStrategy) (record : Message) :
    (strategy.idFields record).map String.toList ≠ [] := by
  cases strategy <;> simp [idFields]

/-- The texts of an id determine the strategy and the routed fields. -/
theorem idFields_inj {s s' : RouterStrategy} {r r' : Message} :
    s.idFields r = s'.idFields r' ↔ s = s' ∧ s.routedFields r = s'.routedFields r' := by
  cases s with
  | topicVersion =>
      cases s' with
      | topicVersion => simp [idFields, routedFields]
      | dlq => simp [idFields]
  | dlq =>
      cases s' with
      | topicVersion => simp [idFields]
      | dlq => simp [idFields, routedFields]

theorem writeId_inj_iff {s s' : RouterStrategy} {r r' : Message} :
    s.writeId r = s'.writeId r' ↔ s.idPieces r = s'.idPieces r' := by
  rw [← String.toList_inj, writeId_toList, writeId_toList]
  exact Split.intercalate_inj_iff delimiter (idFields_ne_nil s r) (idFields_ne_nil s' r')

theorem idFields_eq_iff {s s' : RouterStrategy} {r r' : Message} :
    s.idFields r = s'.idFields r' ↔ s.idPieces r = s'.idPieces r' ∧ s.idCuts r = s'.idCuts r' := by
  have hmap : s.idFields r = s'.idFields r' ↔
      (s.idFields r).map String.toList = (s'.idFields r').map String.toList :=
    (List.map_inj_right fun _ _ => String.toList_inj.1).symm
  exact hmap.trans (Split.eq_iff_pieces delimiter)

/-- A character outside the routed fields and the label of the status code is in no text. -/
theorem notMem_idFields {s : RouterStrategy} {r : Message} {c : Char}
    (hlabel : c ∉ "status_code=".toList) (hfields : ∀ field ∈ s.routedFields r, c ∉ field.toList) :
    ∀ text ∈ (s.idFields r).map String.toList, c ∉ text := by
  cases s with
  | topicVersion => simpa [routedFields, idFields] using hfields
  | dlq =>
      simp only [routedFields, List.forall_mem_cons] at hfields
      obtain ⟨htopic, hname, hversion, hstatus, -⟩ := hfields
      simp only [idFields, List.map_cons, List.map_nil, List.forall_mem_cons, String.toList_append,
        List.mem_append, not_or]
      exact ⟨htopic, hname, hversion, ⟨hlabel, hstatus⟩, fun _ h => absurd h List.not_mem_nil⟩

/-- Ids are equal exactly for equal strategies and routed fields, if and only if equal pieces come
from equally many pieces in each text of the id; so it is where no routed field holds the
delimiter. -/
theorem writeId_eq_iff (s s' : RouterStrategy) (r r' : Message) :
    ((s.writeId r = s'.writeId r' ↔ s = s' ∧ s.routedFields r = s'.routedFields r') ↔
      (s.idPieces r = s'.idPieces r' → s.idCuts r = s'.idCuts r')) ∧
    ((∀ field ∈ s.routedFields r ++ s'.routedFields r', delimiter ∉ field.toList) →
      (s.writeId r = s'.writeId r' ↔ s = s' ∧ s.routedFields r = s'.routedFields r')) := by
  rw [writeId_inj_iff, ← idFields_inj, idFields_eq_iff]
  constructor
  · constructor
    · exact fun hiff hpieces => (hiff.1 hpieces).2
    · exact fun hcuts => ⟨fun hpieces => ⟨hpieces, hcuts hpieces⟩, And.left⟩
  · intro hfields
    obtain ⟨hfields, hfields'⟩ := List.forall_mem_append.1 hfields
    rw [← idFields_eq_iff]
    constructor
    -- the pieces are the texts themselves
    · intro hpieces
      unfold idPieces at hpieces
      rw [Split.pieces_of_notMem delimiter (notMem_idFields (by decide) hfields),
        Split.pieces_of_notMem delimiter (notMem_idFields (by decide) hfields')] at hpieces
      exact (List.map_inj_right fun _ _ => String.toList_inj.1).1 hpieces
    · intro heq
      rw [idPieces, idPieces, heq]

theorem zero_isOffset : (0 : Int) ≤ 0 ∧ 0 < i64Max := by decide

/-- A record with these two header values. -/
def versionedRecord (schemaName schemaVersion : Bytes) : Message :=
  ⟨"topic", 0, ⟨0, zero_isOffset⟩, none,
    some [⟨schemaNameHeader, some schemaName⟩, ⟨schemaVersionHeader, some schemaVersion⟩]⟩

theorem writeId_eq_iff_sample :
    topicVersion.writeId (versionedRecord [0x61] [0x31]) ≠
      topicVersion.writeId (versionedRecord [0x61] [0x32]) := by
  have hlaw := (writeId_eq_iff .topicVersion .topicVersion (versionedRecord [0x61] [0x31])
    (versionedRecord [0x61] [0x32])).2 (by decide)
  exact fun heq => absurd (hlaw.1 heq).2 (by decide)

/-- Schema `a␟b` in version `c` and schema `a` in version `b␟c` share one id. -/
theorem delimiter_in_value_collides :
    let r := versionedRecord [0x61, 0x1F, 0x62] [0x63]
    let r' := versionedRecord [0x61] [0x62, 0x1F, 0x63]
    topicVersion.writeId r = topicVersion.writeId r' ∧
      topicVersion.routedFields r ≠ topicVersion.routedFields r' := by
  decide

end RouterStrategy

end S3Sink
