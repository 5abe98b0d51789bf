import S3Sink.StateMachine

/-!
# Commit — what one commit request computes

`makeTopicPartitionList` walks over `offsets_uploaded`, changes it and the watermarks on the way and
collects keys to delete afterwards.  Read partition by partition (`uploadedAt`, `watermarkAt`, an
absent entry counting as the empty set) the outcome has no trace of the loop:

* `commitPoint_isLeast` — the commit point is the least offset from the watermark on that has not
  been uploaded;
* `makeTopicPartitionList_ok` — the partitions of the list, the new watermarks and the offsets kept.
-/

namespace S3Sink
namespace StateMachine

variable {F K : Type}

/-- The uploaded offsets of a partition that are still kept. -/
def uploadedAt (self : StateMachine F K) (topicId : TopicId) : BTreeSet Offset :=
  (self.offsetsUploaded.get? topicId).getD ∅

def watermarkAt (self : StateMachine F K) (topicId : TopicId) : Option Int :=
  self.offsetsWatermark.get? topicId

/-! ## The commit point -/

/-- No increment of the walk wraps: each one starts from the offset of a record. -/
theorem contiguousEnd_eq_firstGap : ∀ (offsets : List Offset) (c : Int),
    contiguousEnd c offsets = firstGap c (offsets.map Subtype.val)
  | [], c => rfl
  | offset :: offsets, c => by
      by_cases heq : offset.val = c
      · subst heq
        simp [contiguousEnd, firstGap, i64Succ_offset, contiguousEnd_eq_firstGap offsets]
      · simp [contiguousEnd, firstGap, heq]

theorem commitPoint_isLeast (watermark : Int) (offsets : BTreeSet Offset) :
    IsLeast {n | watermark ≤ n ∧ ∀ o ∈ offsets, o.val ≠ n} (commitPoint watermark offsets) := by
  have hsorted : ((offsets.restrict fun o => watermark ≤ o.val).toList.map Subtype.val).Pairwise
      (· < ·) :=
    (offsets.restrict _).sorted.map _ fun _ _ hlt => hlt
  have hfrom : ∀ n ∈ (offsets.restrict fun o => watermark ≤ o.val).toList.map Subtype.val,
      watermark ≤ n := by
    intro n hn
    obtain ⟨o, ho, rfl⟩ := List.mem_map.1 hn
    simpa using (BTreeSet.mem_restrict.1 ho).2
  have hleast := firstGap_isLeast hsorted hfrom
  rw [commitPoint, contiguousEnd_eq_firstGap]
  -- the two sets differ in whether `n` is looked up among all offsets or among those kept
  convert hleast using 1
  ext n
  apply and_congr_right
  intro hn
  constructor
  · intro hnot hmem
    obtain ⟨o, ho, heq⟩ := List.mem_map.1 hmem
    exact hnot o (BTreeSet.mem_restrict.1 ho).1 heq
  · intro hnot o ho heq
    refine hnot (List.mem_map.2 ⟨o, BTreeSet.mem_restrict.2 ⟨ho, ?_⟩, heq⟩)
    simpa [heq] using hn

theorem le_commitPoint (watermark : Int) (offsets : BTreeSet Offset) :
    watermark ≤ commitPoint watermark offsets :=
  (commitPoint_isLeast watermark offsets).1.1

/-- Every offset between the watermark and the commit point has been uploaded. -/
theorem exists_of_lt_commitPoint {watermark n : Int} {offsets : BTreeSet Offset}
    (hle : watermark ≤ n) (hlt : n < commitPoint watermark offsets) : ∃ o ∈ offsets, o.val = n := by
  by_contra hnone
  push Not at hnone
  exact absurd ((commitPoint_isLeast watermark offsets).2 ⟨hle, hnone⟩) (not_le.2 hlt)

@[simp] theorem commitPoint_empty (watermark : Int) : commitPoint watermark ∅ = watermark :=
  rfl

/-! ## One partition of the loop -/

/-- What the loop body adds to the list for a partition. -/
def emitted (currentAssignment : TopicPartitionList) (key : TopicId) (offsets : BTreeSet Offset)
    (watermark : Option Int) : List TopicPartitionListElem :=
  match watermark with
  | none => []
  | some w =>
      if currentAssignment.Assigns key ∧ w < commitPoint w offsets then
        [⟨key.topicName.name, key.partition, some (commitPoint w offsets)⟩]
      else
        []

/-- What the loop body keeps of the uploaded offsets of a partition. -/
def kept (currentAssignment : TopicPartitionList) (key : TopicId) (offsets : BTreeSet Offset)
    (watermark : Option Int) : BTreeSet Offset :=
  if currentAssignment.Assigns key then
    match watermark with
    | none => offsets
    | some w => offsets.restrict fun offset => commitPoint w offsets ≤ offset.val
  else
    ∅

theorem kept_subset {currentAssignment : TopicPartitionList} {key : TopicId}
    {offsets : BTreeSet Offset} {watermark : Option Int} {o : Offset}
    (ho : o ∈ kept currentAssignment key offsets watermark) : o ∈ offsets := by
  unfold kept at ho
  split at ho
  · cases watermark with
    | none => exact ho
    | some w => exact (BTreeSet.mem_restrict.1 ho).1
  · exact absurd ho (BTreeSet.notMem_empty o)

/-- The offsets a scan leaves to a partition, once the keys it noted are deleted. -/
def collected (scan : CommitScan) (key : TopicId) : BTreeSet Offset :=
  if key ∈ scan.keysForGc then ∅ else (scan.offsetsUploaded.get? key).getD ∅

/-- Nothing a scan holds about the partition changed. -/
structure Untouched (scan scan' : CommitScan) (key : TopicId) : Prop where
  watermark : scan'.offsetsWatermark.get? key = scan.offsetsWatermark.get? key
  uploaded : scan'.offsetsUploaded.get? key = scan.offsetsUploaded.get? key
  keysForGc : key ∈ scan'.keysForGc ↔ key ∈ scan.keysForGc

theorem Untouched.refl (scan : CommitScan) (key : TopicId) : Untouched scan scan key :=
  ⟨rfl, rfl, Iff.rfl⟩

theorem Untouched.trans {scan scan₁ scan' : CommitScan} {key : TopicId}
    (h : Untouched scan scan₁ key) (h' : Untouched scan₁ scan' key) : Untouched scan scan' key :=
  ⟨h'.watermark.trans h.watermark, h'.uploaded.trans h.uploaded, h'.keysForGc.trans h.keysForGc⟩

theorem Untouched.collected {scan scan' : CommitScan} {key : TopicId}
    (h : Untouched scan scan' key) : collected scan' key = collected scan key := by
  simp [StateMachine.collected, h.uploaded, h.keysForGc]

/-- The effect of the loop body: what it does to its own partition, and to no other. -/
structure Scanned (currentAssignment : TopicPartitionList) (key : TopicId)
    (offsets : BTreeSet Offset) (scan scan' : CommitScan) : Prop where
  result : scan'.result.elements = scan.result.elements ++
    emitted currentAssignment key offsets (scan.offsetsWatermark.get? key)
  watermark : scan'.offsetsWatermark.get? key =
    if currentAssignment.Assigns key then
      (scan.offsetsWatermark.get? key).map fun w => commitPoint w offsets
    else
      scan.offsetsWatermark.get? key
  collected : collected scan' key =
    kept currentAssignment key offsets (scan.offsetsWatermark.get? key)
  untouched : ∀ k, k ≠ key → Untouched scan scan' k

theorem untouched_splitOff (scan : CommitScan) {key k : TopicId} (offsets : BTreeSet Offset)
    (offsetToCommit : Int) (hne : k ≠ key) :
    Untouched scan (scan.splitOff key offsets offsetToCommit) k where
  watermark := rfl
  uploaded := by simp [CommitScan.splitOff, HashMap.get?_insert, hne]
  keysForGc := by
    unfold CommitScan.splitOff
    dsimp only
    split <;> simp [hne]

theorem collected_splitOff_self {scan : CommitScan} {key : TopicId} {offsets : BTreeSet Offset}
    {offsetToCommit : Int} (hkey : key ∉ scan.keysForGc) :
    collected (scan.splitOff key offsets offsetToCommit) key =
      offsets.restrict fun offset => offsetToCommit ≤ offset.val := by
  -- either the key is noted and will be deleted, or the smaller set stays
  by_cases hempty : (offsets.restrict fun offset => offsetToCommit ≤ offset.val).isEmpty
  · have hnone := BTreeSet.isEmpty_iff.1 hempty
    simp [collected, CommitScan.splitOff, hnone]
  · simp [collected, CommitScan.splitOff, hempty, hkey]

/-- The loop body, when it does not fail, on a key it meets for the first time. -/
theorem scanPartition_ok {ambient : Ambient} {currentAssignment : TopicPartitionList}
    {key : TopicId} {offsets : BTreeSet Offset} {scan scan' : CommitScan}
    (hkey : key ∉ scan.keysForGc) (hoffsets : scan.offsetsUploaded.get? key = some offsets)
    (hok : scanPartition ambient currentAssignment key offsets scan = .ok scan') :
    Scanned currentAssignment key offsets scan scan' := by
  unfold scanPartition at hok
  by_cases hassigned : currentAssignment.Assigns key
  · simp only [hassigned, not_true, if_false] at hok
    cases hw : scan.offsetsWatermark.get? key with
    -- no watermark: the loop body skips the partition
    | none =>
        simp only [hw, Except.ok.injEq] at hok
        subst hok
        exact
          { result := by simp [emitted, hw]
            watermark := by simp [hw]
            collected := by simp [StateMachine.collected, kept, hassigned, hkey, hoffsets, hw]
            untouched := fun k _ => Untouched.refl scan k }
    | some w =>
        simp only [hw] at hok
        -- progress or none; either way the offsets below the commit point are split off
        by_cases hlt : w < commitPoint w offsets
        · simp only [hlt, if_true] at hok
          unfold TopicPartitionList.addPartitionOffset at hok
          cases hrefuses : ambient.refuses key (commitPoint w offsets) with
          | some sinkError => simp [hrefuses] at hok
          | none =>
              simp only [hrefuses, Except.ok.injEq] at hok
              subst hok
              refine
                { result := by simp [CommitScan.splitOff, emitted, hassigned, hlt, hw]
                  watermark := by simp [CommitScan.splitOff, hassigned, hw]
                  collected := ?_
                  untouched := fun k hne => ?_ }
              · exact (collected_splitOff_self hkey).trans (by simp [kept, hassigned, hw])
              · obtain ⟨hwatermark, huploaded, hgc⟩ :=
                  untouched_splitOff scan offsets (commitPoint w offsets) hne
                exact ⟨by simp [CommitScan.splitOff, HashMap.get?_insert, hne], huploaded, hgc⟩
        · simp only [hlt, if_false, Except.ok.injEq] at hok
          subst hok
          have hw' : commitPoint w offsets = w :=
            le_antisymm (not_lt.1 hlt) (le_commitPoint w offsets)
          exact
            { result := by simp [CommitScan.splitOff, emitted, hlt, hw]
              watermark := by simp [CommitScan.splitOff, hassigned, hw, hw']
              collected := (collected_splitOff_self hkey).trans (by simp [kept, hassigned, hw])
              untouched := fun _ => untouched_splitOff scan offsets (commitPoint w offsets) }
  -- not assigned: the key is noted for deletion
  · simp only [hassigned, not_false_eq_true, if_true, Except.ok.injEq] at hok
    subst hok
    exact
      { result := by
          cases hw : scan.offsetsWatermark.get? key with
          | none => simp [emitted]
          | some w => simp [emitted, hassigned]
        watermark := by simp [hassigned]
        collected := by simp [StateMachine.collected, kept, hassigned]
        untouched := fun k hne => ⟨rfl, rfl, by simp [hne]⟩ }

/-! ## The whole loop -/

/-- The effect of the loop: what it does to the partitions of its entries, and to no other. -/
structure ScannedAll (currentAssignment : TopicPartitionList)
    (entries : List (TopicId × BTreeSet Offset)) (scan scan' : CommitScan) : Prop where
  result : scan'.result.elements = scan.result.elements ++ entries.flatMap fun e =>
    emitted currentAssignment e.1 e.2 (scan.offsetsWatermark.get? e.1)
  watermark : ∀ e ∈ entries, scan'.offsetsWatermark.get? e.1 =
    if currentAssignment.Assigns e.1 then
      (scan.offsetsWatermark.get? e.1).map fun w => commitPoint w e.2
    else
      scan.offsetsWatermark.get? e.1
  collected : ∀ e ∈ entries, collected scan' e.1 =
    kept currentAssignment e.1 e.2 (scan.offsetsWatermark.get? e.1)
  untouched : ∀ k, k ∉ entries.map Prod.fst → Untouched scan scan' k

/-- One turn of the loop, and the rest of it on other partitions. -/
theorem Scanned.cons {currentAssignment : TopicPartitionList} {key : TopicId}
    {offsets : BTreeSet Offset} {rest : List (TopicId × BTreeSet Offset)}
    {scan scan₁ scan' : CommitScan} (hhead : Scanned currentAssignment key offsets scan scan₁)
    (hrest : ScannedAll currentAssignment rest scan₁ scan') (hkey : key ∉ rest.map Prod.fst) :
    ScannedAll currentAssignment ((key, offsets) :: rest) scan scan' := by
  -- keys are distinct, so the two parts of the loop do not see each other
  have hbefore : ∀ e ∈ rest, Untouched scan scan₁ e.1 := fun e he =>
    hhead.untouched e.1 fun heq => hkey (heq ▸ List.mem_map_of_mem he)
  have hafter : Untouched scan₁ scan' key := hrest.untouched key hkey
  refine ⟨?_, fun e he => ?_, fun e he => ?_, fun k hk => ?_⟩
  · have hemitted : ∀ e ∈ rest,
        emitted currentAssignment e.1 e.2 (scan₁.offsetsWatermark.get? e.1) =
          emitted currentAssignment e.1 e.2 (scan.offsetsWatermark.get? e.1) :=
      fun e he => by rw [(hbefore e he).watermark]
    rw [hrest.result, hhead.result, List.append_assoc, List.flatMap_cons,
      List.flatMap_congr hemitted]
  · rcases List.mem_cons.1 he with rfl | he
    · exact hafter.watermark.trans hhead.watermark
    · rw [hrest.watermark e he, (hbefore e he).watermark]
  · rcases List.mem_cons.1 he with rfl | he
    · exact hafter.collected.trans hhead.collected
    · rw [hrest.collected e he, (hbefore e he).watermark]
  · rw [List.map_cons, List.mem_cons, not_or] at hk
    exact (hhead.untouched k hk.1).trans (hrest.untouched k hk.2)

/-- The loop, when it does not fail, over the entries of a map it has not touched yet. -/
theorem scanPartitions_ok {ambient : Ambient} {currentAssignment : TopicPartitionList} :
    ∀ {entries : List (TopicId × BTreeSet Offset)} {scan scan' : CommitScan},
      (entries.map Prod.fst).Nodup →
      (∀ e ∈ entries, e.1 ∉ scan.keysForGc ∧ scan.offsetsUploaded.get? e.1 = some e.2) →
      scanPartitions ambient currentAssignment entries scan = (none, scan') →
      ScannedAll currentAssignment entries scan scan'
  | [], scan, scan', _, _, hok => by
      simp only [scanPartitions, Prod.mk.injEq, true_and] at hok
      subst hok
      exact ⟨by simp, by simp, by simp, fun k _ => Untouched.refl scan k⟩
  | (key, offsets) :: rest, scan, scan', hnodup, hfresh, hok => by
      obtain ⟨hkey, hnodup⟩ := List.nodup_cons.1 hnodup
      have hhead := hfresh (key, offsets) List.mem_cons_self
      rw [scanPartitions] at hok
      cases hbody : scanPartition ambient currentAssignment key offsets scan with
      | error sinkError => simp [hbody] at hok
      | ok scan₁ =>
          simp only [hbody] at hok
          have hscanned := scanPartition_ok hhead.1 hhead.2 hbody
          -- the later keys are still as the map had them
          have hfresh₁ : ∀ e ∈ rest,
              e.1 ∉ scan₁.keysForGc ∧ scan₁.offsetsUploaded.get? e.1 = some e.2 := by
            intro e he
            have hold := hfresh e (List.mem_cons_of_mem _ he)
            have huntouched := hscanned.untouched e.1 fun heq =>
              hkey (heq ▸ List.mem_map_of_mem he)
            exact ⟨fun h => hold.1 (huntouched.keysForGc.1 h), huntouched.uploaded.trans hold.2⟩
          exact hscanned.cons (scanPartitions_ok hnodup hfresh₁ hok) hkey

/-! ## The whole request -/

/-- A commit request that does not fail, partition by partition. -/
structure Committed (currentAssignment : TopicPartitionList) (tpl : TopicPartitionList)
    (sm sm' : StateMachine F K) : Prop where
  frame : sm' = { sm with
    offsetsUploaded := sm'.offsetsUploaded, offsetsWatermark := sm'.offsetsWatermark }
  watermark : ∀ p, sm'.watermarkAt p =
    if currentAssignment.Assigns p then
      (sm.watermarkAt p).map fun w => commitPoint w (sm.uploadedAt p)
    else
      sm.watermarkAt p
  uploaded : ∀ p, sm'.uploadedAt p =
    kept currentAssignment p (sm.uploadedAt p) (sm.watermarkAt p)
  nodup : (tpl.elements.map TopicPartitionListElem.topicId).Nodup
  offset_isSome : ∀ e ∈ tpl.elements, e.offset.isSome = true
  contains : ∀ p c, tpl.Contains p c ↔
    currentAssignment.Assigns p ∧ ∃ w, sm.watermarkAt p = some w ∧
      c = commitPoint w (sm.uploadedAt p) ∧ w < c

theorem kept_empty (currentAssignment : TopicPartitionList) (key : TopicId)
    (watermark : Option Int) : kept currentAssignment key ∅ watermark = ∅ := by
  unfold kept
  split
  · cases watermark <;> rfl
  · rfl

theorem mem_emitted {currentAssignment : TopicPartitionList} {key : TopicId}
    {offsets : BTreeSet Offset} {watermark : Option Int} {e : TopicPartitionListElem} :
    e ∈ emitted currentAssignment key offsets watermark ↔
      currentAssignment.Assigns key ∧ ∃ w, watermark = some w ∧ w < commitPoint w offsets ∧
        e = ⟨key.topicName.name, key.partition, some (commitPoint w offsets)⟩ := by
  cases watermark with
  | none => simp [emitted]
  | some w =>
      by_cases hcond : currentAssignment.Assigns key ∧ w < commitPoint w offsets
      · simp [emitted, hcond]
      · simp only [emitted, hcond, if_false, List.not_mem_nil, false_iff]
        rintro ⟨hassigned, w', heq, hlt, -⟩
        cases heq
        exact hcond ⟨hassigned, hlt⟩

/-- The list names each partition once, in the order of the entries. -/
theorem topicIds_emitted_sublist (currentAssignment : TopicPartitionList)
    (watermark : TopicId → Option Int) : ∀ entries : List (TopicId × BTreeSet Offset),
    ((entries.flatMap fun e => emitted currentAssignment e.1 e.2 (watermark e.1)).map
      TopicPartitionListElem.topicId).Sublist (entries.map Prod.fst)
  | [] => List.Sublist.refl _
  | e :: entries => by
      have hhead : ((emitted currentAssignment e.1 e.2 (watermark e.1)).map
          TopicPartitionListElem.topicId).Sublist [e.1] := by
        cases hw : watermark e.1 with
        | none => simp [emitted]
        | some w =>
            by_cases hcond : currentAssignment.Assigns e.1 ∧ w < commitPoint w e.2
            · simp [emitted, hcond, TopicPartitionListElem.topicId]
            · simp [emitted, hcond]
      rw [List.flatMap_cons, List.map_append, List.map_cons]
      exact hhead.append (topicIds_emitted_sublist currentAssignment watermark entries)

/-- A partition is an entry of the map the loop walks over, or it has no uploaded offsets. -/
theorem uploadedAt_cases (self : StateMachine F K) (p : TopicId) :
    (p, self.uploadedAt p) ∈ self.offsetsUploaded.toList ∨
      p ∉ self.offsetsUploaded.toList.map Prod.fst ∧ self.offsetsUploaded.get? p = none := by
  cases hget : self.offsetsUploaded.get? p with
  | some offsets =>
      refine Or.inl (HashMap.mem_toList.2 ?_)
      simp [uploadedAt, hget]
  | none =>
      refine Or.inr ⟨fun hmem => ?_, rfl⟩
      obtain ⟨⟨k, offsets⟩, he, rfl⟩ := List.mem_map.1 hmem
      cases hget.symm.trans (HashMap.mem_toList.1 he)

theorem uploadedAt_of_mem {self : StateMachine F K} {e : TopicId × BTreeSet Offset}
    (he : e ∈ self.offsetsUploaded.toList) : self.uploadedAt e.1 = e.2 := by
  have hget : self.offsetsUploaded.get? e.1 = some e.2 := HashMap.mem_toList.1 he
  simp [uploadedAt, hget]

/-- The list a scan of the uploaded offsets has built names the partitions whose commit point has
passed the watermark. -/
theorem contains_emitted {currentAssignment tpl : TopicPartitionList} {self : StateMachine F K}
    (hresult : tpl.elements = self.offsetsUploaded.toList.flatMap fun e =>
      emitted currentAssignment e.1 e.2 (self.offsetsWatermark.get? e.1)) (p : TopicId) (c : Int) :
    tpl.Contains p c ↔ currentAssignment.Assigns p ∧ ∃ w, self.watermarkAt p = some w ∧
      c = commitPoint w (self.uploadedAt p) ∧ w < c := by
  unfold TopicPartitionList.Contains
  simp only [hresult, List.mem_flatMap, mem_emitted]
  constructor
  · rintro ⟨e, he, hassigned, w, hw, hlt, heq⟩
    rw [TopicPartitionListElem.mk.injEq] at heq
    have hkey : p = e.1 := TopicId.ext_name heq.1 heq.2.1
    rw [hkey, uploadedAt_of_mem he]
    have hc : c = commitPoint w e.2 := Option.some.inj heq.2.2
    exact ⟨hassigned, w, hw, hc, hc ▸ hlt⟩
  · rintro ⟨hassigned, w, hw, rfl, hlt⟩
    rcases uploadedAt_cases self p with hmem | ⟨-, hget⟩
    · exact ⟨_, hmem, hassigned, w, hw, hlt, rfl⟩
    -- without uploaded offsets the commit point is the watermark
    · have hempty : self.uploadedAt p = ∅ := by simp [uploadedAt, hget]
      rw [hempty, commitPoint_empty] at hlt
      exact absurd hlt (lt_irrefl w)

theorem makeTopicPartitionList_ok {ambient : Ambient} {currentAssignment tpl : TopicPartitionList}
    {self self' : StateMachine F K}
    (hok : self.makeTopicPartitionList ambient currentAssignment = (.ok tpl, self')) :
    Committed currentAssignment tpl self self' := by
  unfold makeTopicPartitionList at hok
  generalize hscan : scanPartitions ambient currentAssignment self.offsetsUploaded.toList
    ⟨TopicPartitionList.new, [], self.offsetsUploaded, self.offsetsWatermark⟩ = answer at hok
  obtain ⟨failure, scan⟩ := answer
  cases failure with
  | some sinkError => simp at hok
  | none =>
      simp only [Prod.mk.injEq, Except.ok.injEq] at hok
      obtain ⟨rfl, rfl⟩ := hok
      have hscanned := scanPartitions_ok (HashMap.nodup_keys_toList self.offsetsUploaded)
        (fun e he => ⟨List.not_mem_nil, HashMap.mem_toList.1 he⟩) hscan
      have hresult := hscanned.result
      simp only [TopicPartitionList.new, List.nil_append] at hresult
      refine
        { frame := rfl
          watermark := fun p => ?_
          uploaded := fun p => ?_
          nodup := ?_
          offset_isSome := fun e he => ?_
          contains := contains_emitted hresult }
      · rcases uploadedAt_cases self p with hmem | ⟨hnot, hget⟩
        · exact hscanned.watermark _ hmem
        · refine (hscanned.untouched p hnot).watermark.trans ?_
          simp [watermarkAt, uploadedAt, hget]
      -- deleting the keys noted turns what the scan left into `collected`
      · have hcollected : ((scan.keysForGc.foldl (fun acc key => acc.erase key)
            scan.offsetsUploaded).get? p).getD ∅ = collected scan p := by
          rw [HashMap.get?_foldl_erase]
          unfold collected
          split <;> rfl
        refine hcollected.trans ?_
        rcases uploadedAt_cases self p with hmem | ⟨hnot, hget⟩
        · exact hscanned.collected _ hmem
        · have hempty : self.uploadedAt p = ∅ := by simp [uploadedAt, hget]
          rw [(hscanned.untouched p hnot).collected, hempty, kept_empty]
          simp [collected, hget]
      · rw [hresult]
        exact (HashMap.nodup_keys_toList self.offsetsUploaded).sublist
          (topicIds_emitted_sublist currentAssignment self.offsetsWatermark.get? _)
      · rw [hresult] at he
        simp only [List.mem_flatMap, mem_emitted] at he
        obtain ⟨-, -, -, -, -, -, rfl⟩ := he
        rfl

/-- A commit request that fails changes nothing but the commit bookkeeping. -/
theorem makeTopicPartitionList_frame {ambient : Ambient} {currentAssignment : TopicPartitionList}
    {self self' : StateMachine F K} {answer : Except SinkError TopicPartitionList}
    (h : self.makeTopicPartitionList ambient currentAssignment = (answer, self')) :
    self' = { self with
      offsetsUploaded := self'.offsetsUploaded, offsetsWatermark := self'.offsetsWatermark } := by
  unfold makeTopicPartitionList at h
  split at h <;> simp only [Prod.mk.injEq] at h <;> rw [← h.2]

end StateMachine
end S3Sink
