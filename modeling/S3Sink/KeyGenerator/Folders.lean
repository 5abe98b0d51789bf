import S3Sink.KeyGenerator
import S3Sink.Record.Router

/-!
# KeyGenerator.Folders — when two streams share a folder

An object key is the stream id with a slash for each delimiter, a slash and a suffix.  A header
value may hold a slash itself.

* `keyInner_toList` — the key as the id with its delimiters replaced;
* `keyInner_inj_iff` — keys are equal exactly if the ids agree up to slashes for delimiters;
* `keyInner_determines_iff` — exactly when equal keys mean equal streams.
-/

namespace S3Sink

namespace S3Partitioner

open RouterStrategy (delimiter versionedRecord)

/-- The character of the key for a character of the id. -/
def slashed (c : Char) : Char :=
  if c = delimiter then '/' else c

/-- One has a slash where the other has the delimiter. -/
def Confused (c d : Char) : Prop :=
  (c = '/' ∧ d = delimiter) ∨ (c = delimiter ∧ d = '/')

instance (c d : Char) : Decidable (Confused c d) :=
  inferInstanceAs (Decidable (_ ∨ _))

/-- The ids have a slash for a delimiter somewhere, and are the same otherwise. -/
def SlashForDelimiter (id id' : StreamId) : Prop :=
  List.Forall₂ (fun c d => c = d ∨ Confused c d) id.id.toList id'.id.toList ∧
    ∃ c d, (c, d) ∈ id.id.toList.zip id'.id.toList ∧ Confused c d

theorem slashed_eq_iff {c d : Char} : slashed c = slashed d ↔ c = d ∨ Confused c d := by
  unfold slashed Confused
  by_cases hc : c = delimiter
  · by_cases hd : d = delimiter
    · simp [hc, hd]
    · have hne : delimiter ≠ d := fun h => hd h.symm
      simp [hc, hd, hne, eq_comm]
  · by_cases hd : d = delimiter
    · simp [hc, hd]
    · simp [hc, hd]

/-- Every key is the id with slashes for its delimiters and the same tail. -/
theorem keyInner_toList (now : DateTime) (uuid : String) :
    ∃ tail, ∀ id : StreamId, (keyInner id now uuid).toList = id.id.toList.map slashed ++ tail := by
  refine ⟨('/' :: ("ingest_year_month_day=" ++ now.format "%Y-%m-%d" ++ "/" ++
    now.format "%Y-%m-%dT%H:%M:%SZ" ++ "-" ++ uuid ++ ".jsonl.zst").toList), fun id => ?_⟩
  have hparts : (id.id.toList.splitOn delimiter).map String.ofList ≠ [] := by simp
  have hfolders : ("/".intercalate ((id.id.toList.splitOn delimiter).map String.ofList)).toList =
      id.id.toList.map slashed := by
    have hslash : slashed = fun c => if c = delimiter then '/' else c := rfl
    rw [String.toList_intercalate, List.map_map, hslash,
      ← Split.intercalate_splitOn_eq_map delimiter '/' id.id.toList]
    simp [Function.comp_def]
  rw [keyInner, String.intercalate_append_of_ne_nil hparts (List.cons_ne_nil _ _),
    String.intercalate_singleton, String.toList_append, String.toList_append, hfolders,
    List.append_assoc]
  rfl

/-- Keys are equal exactly if the ids agree up to slashes for delimiters. -/
theorem keyInner_inj_iff {id id' : StreamId} (now : DateTime) (uuid : String) :
    keyInner id now uuid = keyInner id' now uuid ↔
      List.Forall₂ (fun c d => c = d ∨ Confused c d) id.id.toList id'.id.toList := by
  obtain ⟨tail, htail⟩ := keyInner_toList now uuid
  rw [← String.toList_inj, htail, htail, List.append_left_inj, ← List.forall₂_eq_eq_eq,
    List.forall₂_map_left_iff, List.forall₂_map_right_iff]
  simp only [slashed_eq_iff]

theorem not_confused_self (c : Char) : ¬ Confused c c := by
  have hslash : '/' ≠ delimiter := by decide
  rintro (⟨rfl, heq⟩ | ⟨rfl, heq⟩)
  · exact hslash heq
  · exact hslash heq.symm

/-- Equal keys mean equal ids unless one id has slashes for delimiters of the other. -/
theorem keyInner_injective_iff {id id' : StreamId} (now : DateTime) (uuid : String) :
    (keyInner id now uuid = keyInner id' now uuid → id = id') ↔ ¬ SlashForDelimiter id id' := by
  rw [keyInner_inj_iff]
  constructor
  · rintro heq ⟨hagree, c, d, hmem, hconfused⟩
    obtain rfl := heq hagree
    -- a list zipped with itself pairs each character with itself
    rw [List.zip_eq_zipWith, List.zipWith_self, List.mem_map] at hmem
    obtain ⟨a, -, hpair⟩ := hmem
    obtain ⟨rfl, rfl⟩ := Prod.mk.inj hpair
    exact not_confused_self a hconfused
  · intro hnot hagree
    have hsame : List.Forall₂ (· = ·) id.id.toList id'.id.toList := by
      obtain ⟨hlength, hpairs⟩ := List.forall₂_iff_zip.1 hagree
      refine List.forall₂_iff_zip.2 ⟨hlength, fun {c d} hmem => ?_⟩
      exact (hpairs hmem).resolve_right fun hconfused => hnot ⟨hagree, c, d, hmem, hconfused⟩
    rw [List.forall₂_eq_eq_eq, String.toList_inj] at hsame
    exact congrArg StreamId.mk hsame

/-! ## Records -/

theorem slash_notMem_writeId {s : RouterStrategy} {r : Message}
    (hfields : ∀ field ∈ s.routedFields r, '/' ∉ field.toList) : '/' ∉ (s.writeId r).toList := by
  rw [RouterStrategy.writeId_toList]
  exact Split.notMem_intercalate (by decide) (RouterStrategy.notMem_idFields (by decide) hfields)

/-- For the same time and identifier, equal keys mean equal streams exactly if the two ids do not
differ just in slashes for delimiters; so they do where no routed field holds a slash. -/
theorem keyInner_determines_iff (s s' : RouterStrategy) (r r' : Message) (now : DateTime)
    (uuid : String) :
    let id : StreamId := ⟨s.writeId r⟩
    let id' : StreamId := ⟨s'.writeId r'⟩
    ((keyInner id now uuid = keyInner id' now uuid → id = id') ↔ ¬ SlashForDelimiter id id') ∧
    ((∀ field ∈ s.routedFields r ++ s'.routedFields r', '/' ∉ field.toList) →
      keyInner id now uuid = keyInner id' now uuid → id = id') := by
  refine ⟨keyInner_injective_iff now uuid, fun hfields => ?_⟩
  obtain ⟨hfields, hfields'⟩ := List.forall_mem_append.1 hfields
  apply (keyInner_injective_iff now uuid).2
  -- one of two confused characters is a slash
  rintro ⟨-, c, d, hmem, ⟨rfl, -⟩ | ⟨-, rfl⟩⟩
  · exact slash_notMem_writeId hfields (List.of_mem_zip hmem).1
  · exact slash_notMem_writeId hfields' (List.of_mem_zip hmem).2

theorem keyInner_determines_iff_sample :
    let id : StreamId := ⟨RouterStrategy.topicVersion.writeId (versionedRecord [0x61] [0x31])⟩
    let id' : StreamId := ⟨RouterStrategy.dlq.writeId (versionedRecord [0x61] [0x31])⟩
    keyInner id ⟨fun _ => "2026-05-29"⟩ "1234" ≠ keyInner id' ⟨fun _ => "2026-05-29"⟩ "1234" := by
  intro id id' heq
  have hids := (keyInner_determines_iff .topicVersion .dlq
    (versionedRecord [0x61] [0x31]) (versionedRecord [0x61] [0x31])
    ⟨fun _ => "2026-05-29"⟩ "1234").2 (by decide) heq
  exact absurd hids (by decide)

/-- Schema `a/b` in version `c` and schema `a` in version `b/c` share a folder. -/
theorem slash_in_value_collides :
    let id : StreamId :=
      ⟨RouterStrategy.topicVersion.writeId (versionedRecord [0x61, 0x2F, 0x62] [0x63])⟩
    let id' : StreamId :=
      ⟨RouterStrategy.topicVersion.writeId (versionedRecord [0x61] [0x62, 0x2F, 0x63])⟩
    keyInner id ⟨fun _ => "2026-05-29"⟩ "1234" = keyInner id' ⟨fun _ => "2026-05-29"⟩ "1234" ∧
      id ≠ id' := by
  decide

end S3Partitioner

end S3Sink
