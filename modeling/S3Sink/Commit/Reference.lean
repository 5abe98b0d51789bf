import S3Sink.Commit.Book
import Mathlib.Data.Finset.Card
import Mathlib.Algebra.Order.Group.Int

/-!
# Reference — commit bookkeeping that never prunes

What the commit bookkeeping of a partition is for, stated without any garbage collection: remember
the first offset consumed, every offset reported uploaded and the last offset emitted; on a commit
request emit the least offset from the first one on that has not been reported, if that is progress.

* `Prunes book ref` — the book of the code keeps what matters of the reference; every request
  preserves it (`Prunes.step`);
* `Agrees book ref` — moreover both have emitted the same; preserved as long as commit requests come
  with an assignment that contains every partition consumed from (`Agrees.step`).
-/

namespace S3Sink

open StateMachine (commitPoint commitPoint_isLeast le_commitPoint exists_of_lt_commitPoint
  revokedTopicIds)

/-- The unpruned bookkeeping of one partition. -/
structure Reference where
  /-- the first offset consumed since the last revocation -/
  first : Option Int
  /-- all offsets reported since the last revocation, or the last commit request whose assignment
  lacked the partition -/
  uploaded : Finset Int
  /-- the last offset emitted since the last revocation -/
  emitted : Option Int

namespace Reference

/-! ## The least missing offset -/

def leastMissingFrom (uploaded : Finset Int) : Nat → Int → Int
  | 0, n => n
  | fuel + 1, n => if n ∈ uploaded then leastMissingFrom uploaded fuel (n + 1) else n

/-- The least integer from `n` on that is not in the set. -/
def leastMissing (uploaded : Finset Int) (n : Int) : Int :=
  leastMissingFrom uploaded uploaded.card n

theorem leastMissingFrom_isLeast (uploaded : Finset Int) : ∀ (fuel : Nat) (n : Int),
    (uploaded.filter fun m => n ≤ m).card ≤ fuel →
    IsLeast {m | n ≤ m ∧ m ∉ uploaded} (leastMissingFrom uploaded fuel n)
  | 0, n, hcard => by
      have hempty := Finset.card_eq_zero.1 (Nat.le_zero.1 hcard)
      refine ⟨⟨le_rfl, fun hmem => ?_⟩, fun m hm => hm.1⟩
      have hn : n ∈ uploaded.filter fun m => n ≤ m := Finset.mem_filter.2 ⟨hmem, le_rfl⟩
      rw [hempty] at hn
      exact absurd hn (Finset.notMem_empty n)
  | fuel + 1, n, hcard => by
      by_cases hmem : n ∈ uploaded
      -- one offset fewer lies at or above the next start
      · have hsub : (uploaded.filter fun m => n + 1 ≤ m) ⊂ uploaded.filter fun m => n ≤ m := by
          rw [Finset.ssubset_iff_of_subset]
          · exact ⟨n, Finset.mem_filter.2 ⟨hmem, le_rfl⟩, by simp⟩
          · intro m hm
            rw [Finset.mem_filter] at hm ⊢
            exact ⟨hm.1, by omega⟩
        have hcard' := Finset.card_lt_card hsub
        obtain ⟨⟨hle, hnot⟩, hleast⟩ :=
          leastMissingFrom_isLeast uploaded fuel (n + 1) (by omega)
        simp only [leastMissingFrom, hmem, if_true]
        refine ⟨⟨by omega, hnot⟩, ?_⟩
        rintro m ⟨hnm, hm⟩
        have hne : n ≠ m := fun heq => hm (heq ▸ hmem)
        exact hleast ⟨by omega, hm⟩
      · simp only [leastMissingFrom, hmem, if_false]
        exact ⟨⟨le_rfl, hmem⟩, fun m hm => hm.1⟩

theorem leastMissing_isLeast (uploaded : Finset Int) (n : Int) :
    IsLeast {m | n ≤ m ∧ m ∉ uploaded} (leastMissing uploaded n) :=
  leastMissingFrom_isLeast uploaded uploaded.card n (Finset.card_filter_le _ _)

theorem mem_of_lt_leastMissing {uploaded : Finset Int} {n m : Int} (hle : n ≤ m)
    (hlt : m < leastMissing uploaded n) : m ∈ uploaded := by
  by_contra hnot
  exact absurd ((leastMissing_isLeast uploaded n).2 ⟨hle, hnot⟩) (not_le.2 hlt)

/-! ## Requests -/

def empty : Reference := ⟨none, ∅, none⟩

/-- The offset a commit request with the given assignment emits. -/
def emits (p : TopicId) (currentAssignment : TopicPartitionList) (ref : Reference) : Option Int :=
  match ref.first with
  | none => none
  | some w =>
      let n := leastMissing ref.uploaded w
      if currentAssignment.Assigns p ∧ w < n ∧ ref.emitted.all (fun last => last < n) then
        some n
      else
        none

/-- A commit request. -/
def commit (p : TopicId) (currentAssignment : TopicPartitionList) (ref : Reference) : Reference :=
  if currentAssignment.Assigns p then
    { ref with emitted := (ref.emits p currentAssignment).or ref.emitted }
  else
    { ref with uploaded := ∅ }

/-- The offsets of a partition that a completed upload reports. -/
def reported (p : TopicId) (offsets : HashMap TopicId (List Offset)) : Finset Int :=
  (((offsets.get? p).getD []).map Subtype.val).toFinset

/-- One request. -/
def step (p : TopicId) (ref : Reference) : Request → Reference
  | .processRecord record =>
      if record.topicId = p then
        { ref with first := some (ref.first.getD record.offset.val) }
      else
        ref
  | .uploadTick => ref
  | .commitTick currentAssignment => ref.commit p currentAssignment
  | .uploadCompletion (.failure _ _) => ref
  | .uploadCompletion (.success _ offsets) =>
      { ref with uploaded := ref.uploaded ∪ reported p offsets }
  | .finalCommit currentAssignment => ref.commit p currentAssignment
  | .revokePartitions partitions => if p ∈ revokedTopicIds partitions then empty else ref
  | .shutdownSignal => ref

/-- All requests of a history. -/
def after (p : TopicId) : List Request → Reference
  | [] => empty
  | request :: requests => (after p requests).step p request

theorem mem_reported {p : TopicId} {offsets : HashMap TopicId (List Offset)} {n : Int} :
    n ∈ reported p offsets ↔ ∃ o ∈ (offsets.get? p).getD [], o.val = n := by
  simp [reported]

theorem commit_first (p : TopicId) (currentAssignment : TopicPartitionList) (ref : Reference) :
    (ref.commit p currentAssignment).first = ref.first := by
  unfold commit
  split <;> rfl

/-- The first offset is the first of those consumed since the last revocation. -/
theorem first_after (p : TopicId) : ∀ requests : List Request,
    (after p requests).first = (History.consumedSince p requests).head?.map Subtype.val
  | [] => rfl
  | request :: requests => by
      have ih := first_after p requests
      cases request with
      | processRecord record =>
          by_cases hp : record.topicId = p
          · simp only [after, step, hp, if_true, ih, History.consumedSince, List.head?_append]
            cases (History.consumedSince p requests).head? <;> simp
          · simpa [after, step, hp, History.consumedSince] using ih
      | uploadCompletion uploadResult => cases uploadResult <;> exact ih
      | commitTick currentAssignment => exact (commit_first _ _ _).trans ih
      | finalCommit currentAssignment => exact (commit_first _ _ _).trans ih
      | revokePartitions partitions =>
          by_cases hp : p ∈ revokedTopicIds partitions
          · simp [after, step, hp, History.consumedSince, empty]
          · simpa [after, step, hp, History.consumedSince] using ih
      | uploadTick => exact ih
      | shutdownSignal => exact ih

end Reference

namespace History

/-- The offsets of a partition reported since its last revocation. -/
def reportedSince (p : TopicId) : List Request → Finset Int
  | [] => ∅
  | .uploadCompletion (.success _ offsets) :: requests =>
      reportedSince p requests ∪ Reference.reported p offsets
  | .revokePartitions partitions :: requests =>
      if p ∈ revokedTopicIds partitions then ∅ else reportedSince p requests
  | _ :: requests => reportedSince p requests

/-- A reported offset stays reported until its partition is revoked. -/
theorem mem_reportedSince_cons {p : TopicId} {request : Request} {requests : List Request} {n : Int}
    (hmem : n ∈ reportedSince p requests)
    (hrevoke : ∀ partitions, request = .revokePartitions partitions →
      p ∉ revokedTopicIds partitions) : n ∈ reportedSince p (request :: requests) := by
  cases request with
  | uploadCompletion uploadResult =>
      cases uploadResult with
      | success path offsets => exact Finset.mem_union_left _ hmem
      | failure toUpload error => exact hmem
  | revokePartitions partitions => simpa [reportedSince, hrevoke partitions rfl] using hmem
  | _ => exact hmem

end History

/-! ## The book prunes the reference -/

/-- The book keeps a watermark not below the first offset, and of the reported offsets at least
those from the watermark on. -/
structure Prunes (book : Book) (ref : Reference) : Prop where
  none_iff : book.watermark = none ↔ ref.first = none
  le : ∀ {w₀ w}, ref.first = some w₀ → book.watermark = some w → w₀ ≤ w
  subset : ∀ o ∈ book.uploaded, o.val ∈ ref.uploaded
  kept : ∀ n ∈ ref.uploaded, (∀ w, book.watermark = some w → w ≤ n) →
    ∃ o ∈ book.uploaded, o.val = n

namespace Prunes

variable {book : Book} {ref : Reference}

theorem empty : Prunes Book.empty Reference.empty where
  none_iff := by simp [Book.empty, Reference.empty]
  le := by simp [Reference.empty]
  subset := by simp [Book.empty]
  kept := by simp [Reference.empty]

theorem processRecord (h : Prunes book ref) (p : TopicId) (record : Message) :
    Prunes (book.step p (.processRecord record)) (ref.step p (.processRecord record)) := by
  by_cases hp : record.topicId = p
  · simp only [Book.step, Reference.step, hp, if_true]
    refine { none_iff := by simp, le := ?_, subset := h.subset, kept := ?_ }
    · rintro w₀ w ⟨⟩ ⟨⟩
      cases hw : book.watermark with
      | none => rw [h.none_iff.1 hw]
      | some w =>
          cases hfirst : ref.first with
          | none =>
              rw [h.none_iff.2 hfirst] at hw
              cases hw
          | some w₀ => exact h.le hfirst hw
    · intro n hn hfrom
      apply h.kept n hn
      intro w hw
      exact hfrom w (by simp [hw])
  · simpa [Book.step, Reference.step, hp] using h

theorem success (h : Prunes book ref) (p : TopicId) (path : PathBuf)
    (offsets : HashMap TopicId (List Offset)) :
    Prunes (book.step p (.uploadCompletion (.success path offsets)))
      (ref.step p (.uploadCompletion (.success path offsets))) := by
  refine { none_iff := h.none_iff, le := h.le, subset := ?_, kept := ?_ }
  · intro o ho
    rcases BTreeSet.mem_extend.1 ho with hold | hnew
    · exact Finset.mem_union_left _ (h.subset o hold)
    · exact Finset.mem_union_right _ (Reference.mem_reported.2 ⟨o, hnew, rfl⟩)
  · intro n hn hfrom
    rcases Finset.mem_union.1 hn with hold | hnew
    · obtain ⟨o, ho, heq⟩ := h.kept n hold hfrom
      exact ⟨o, BTreeSet.mem_extend.2 (Or.inl ho), heq⟩
    · obtain ⟨o, ho, heq⟩ := Reference.mem_reported.1 hnew
      exact ⟨o, BTreeSet.mem_extend.2 (Or.inr ho), heq⟩

theorem commit (h : Prunes book ref) (p : TopicId) (currentAssignment : TopicPartitionList) :
    Prunes (book.commit p currentAssignment) (ref.commit p currentAssignment) := by
  by_cases hassigned : currentAssignment.Assigns p
  · simp only [Book.commit, Reference.commit, StateMachine.kept, hassigned, if_true]
    cases hw : book.watermark with
    | none =>
        exact
          { none_iff := by simpa using h.none_iff.1 hw
            le := by simp
            subset := h.subset
            kept := fun n hn _ => h.kept n hn (by simp [hw]) }
    | some w =>
        refine
          { none_iff := by simpa [hw] using h.none_iff
            le := ?_
            subset := fun o ho => h.subset o (BTreeSet.mem_restrict.1 ho).1
            kept := ?_ }
        · intro w₀ w' hfirst hw'
          cases hw'
          exact (h.le hfirst hw).trans (le_commitPoint w book.uploaded)
        -- an offset from the new watermark on was kept before, and is kept again
        · intro n hn hfrom
          have hfrom' : commitPoint w book.uploaded ≤ n := hfrom _ rfl
          have hkept : ∃ o ∈ book.uploaded, o.val = n := by
            apply h.kept n hn
            intro w' hw'
            rw [hw] at hw'
            cases hw'
            exact (le_commitPoint w book.uploaded).trans hfrom'
          obtain ⟨o, ho, rfl⟩ := hkept
          exact ⟨o, BTreeSet.mem_restrict.2 ⟨ho, by simpa using hfrom'⟩, rfl⟩
  · simp only [Book.commit, Reference.commit, StateMachine.kept, hassigned, if_false]
    exact
      { none_iff := h.none_iff
        le := h.le
        subset := by simp
        kept := by simp }

theorem step (h : Prunes book ref) (p : TopicId) (request : Request) :
    Prunes (book.step p request) (ref.step p request) := by
  cases request with
  | processRecord record => exact h.processRecord p record
  | uploadCompletion uploadResult =>
      cases uploadResult with
      | success path offsets => exact h.success p path offsets
      | failure toUpload error => exact h
  | commitTick currentAssignment => exact h.commit p currentAssignment
  | finalCommit currentAssignment => exact h.commit p currentAssignment
  | revokePartitions partitions =>
      by_cases hp : p ∈ revokedTopicIds partitions
      · simpa [Book.step, Reference.step, hp] using empty
      · simpa [Book.step, Reference.step, hp] using h
  | uploadTick => exact h
  | shutdownSignal => exact h

theorem after (p : TopicId) : ∀ requests : List Request,
    Prunes (Book.after p requests) (Reference.after p requests)
  | [] => empty
  | request :: requests => (after p requests).step p request

end Prunes

/-! ## Both emit the same -/

/-- The watermark is the last offset emitted, and every offset below it has been reported. -/
structure Agrees (book : Book) (ref : Reference) : Prop extends Prunes book ref where
  watermark : book.watermark = ref.emitted.or ref.first
  covered : ∀ {w₀ w n}, ref.first = some w₀ → book.watermark = some w → w₀ ≤ n → n < w →
    n ∈ ref.uploaded

namespace Agrees

variable {book : Book} {ref : Reference}

theorem empty : Agrees Book.empty Reference.empty where
  toPrunes := Prunes.empty
  watermark := rfl
  covered := by simp [Reference.empty]

/-- Both see the same least missing offset. -/
theorem commitPoint_eq (h : Agrees book ref) {w₀ w : Int} (hfirst : ref.first = some w₀)
    (hw : book.watermark = some w) :
    commitPoint w book.uploaded = Reference.leastMissing ref.uploaded w₀ := by
  have hw₀ := h.le hfirst hw
  obtain ⟨⟨hle, hnot⟩, hleast⟩ := Reference.leastMissing_isLeast ref.uploaded w₀
  obtain ⟨⟨hle', hnot'⟩, hleast'⟩ := commitPoint_isLeast w book.uploaded
  -- each walk stops where the other one does
  apply le_antisymm
  · refine hleast' ⟨?_, fun o ho heq => hnot (heq ▸ h.subset o ho)⟩
    -- a missing offset is not below the watermark, since everything there was reported
    by_contra hlt
    exact hnot (h.covered hfirst hw hle (not_le.1 hlt))
  · refine hleast ⟨hw₀.trans hle', fun hmem => ?_⟩
    obtain ⟨o, ho, heq⟩ := h.kept _ hmem fun w' hw' => by
      rw [hw] at hw'
      cases hw'
      exact hle'
    exact hnot' o ho heq

/-- The code and the reference answer a commit request alike. -/
theorem emits_eq (h : Agrees book ref) (p : TopicId) (currentAssignment : TopicPartitionList) :
    book.emits p currentAssignment = ref.emits p currentAssignment := by
  unfold Book.emits Reference.emits
  cases hw : book.watermark with
  | none => simp [h.none_iff.1 hw]
  | some w =>
      cases hfirst : ref.first with
      | none => simp [h.none_iff.2 hfirst] at hw
      | some w₀ =>
          have hpoint := h.commitPoint_eq hfirst hw
          have hw₀ := h.le hfirst hw
          have hwatermark := h.watermark
          rw [hw, hfirst] at hwatermark
          have hiff : (w < commitPoint w book.uploaded) ↔
              (w₀ < Reference.leastMissing ref.uploaded w₀ ∧
                ref.emitted.all (fun last => last < Reference.leastMissing ref.uploaded w₀)) := by
            -- both start from the first offset, or from the last one emitted
            rw [hpoint]
            cases hemitted : ref.emitted with
            | none =>
                rw [hemitted] at hwatermark
                cases hwatermark
                simp
            | some last =>
                rw [hemitted] at hwatermark
                cases hwatermark
                simp only [Option.all_some, decide_eq_true_eq]
                exact ⟨fun hlt => ⟨lt_of_le_of_lt hw₀ hlt, hlt⟩, fun hboth => hboth.2⟩
          dsimp only
          rw [← hpoint] at hiff ⊢
          simp only [hiff]

theorem commit (h : Agrees book ref) (p : TopicId) (currentAssignment : TopicPartitionList)
    (hcover : ref.first ≠ none → currentAssignment.Assigns p) :
    Agrees (book.commit p currentAssignment) (ref.commit p currentAssignment) := by
  have hprunes := h.toPrunes.commit p currentAssignment
  by_cases hassigned : currentAssignment.Assigns p
  · refine { toPrunes := hprunes, watermark := ?_, covered := ?_ }
    · rw [Book.commit_watermark, h.emits_eq, h.watermark, ← Option.or_assoc]
      simp [Reference.commit, hassigned]
    · intro w₀ w n hfirst hw hn hlt
      rw [Reference.commit_first] at hfirst
      have huploaded : (ref.commit p currentAssignment).uploaded = ref.uploaded := by
        simp [Reference.commit, hassigned]
      rw [huploaded]
      cases hold : book.watermark with
      | none => simp [h.none_iff.1 hold] at hfirst
      | some w' =>
          simp only [Book.commit, hassigned, if_true, hold, Option.map_some,
            Option.some.injEq] at hw
          by_cases hbelow : n < w'
          · exact h.covered hfirst hold hn hbelow
          · obtain ⟨o, ho, heq⟩ := exists_of_lt_commitPoint (not_lt.1 hbelow) (hw ▸ hlt)
            exact heq ▸ h.subset o ho
  · -- the assignment lacks the partition only while nothing is consumed from it
    have hfirst : ref.first = none := by
      by_contra hsome
      exact hassigned (hcover hsome)
    have hwatermark := h.none_iff.2 hfirst
    refine { toPrunes := hprunes, watermark := ?_, covered := ?_ }
    · simpa [Book.commit, Reference.commit, hassigned] using h.watermark
    · intro w₀ w n hsome
      rw [Reference.commit_first, hfirst] at hsome
      cases hsome

theorem step (h : Agrees book ref) (p : TopicId) (request : Request)
    (hcover : ∀ currentAssignment, History.assignment? request = some currentAssignment →
      ref.first ≠ none → currentAssignment.Assigns p) :
    Agrees (book.step p request) (ref.step p request) := by
  have hprunes := h.toPrunes.step p request
  cases request with
  | processRecord record =>
      by_cases hp : record.topicId = p
      · simp only [Book.step, Reference.step, hp, if_true] at hprunes ⊢
        cases hfirst : ref.first with
        | none =>
            have hw := h.none_iff.2 hfirst
            have hemitted : ref.emitted = none := by
              have hwatermark := h.watermark
              rw [hw, hfirst] at hwatermark
              cases hr : ref.emitted with
              | none => rfl
              | some last => simp [hr] at hwatermark
            refine { toPrunes := by simpa [hfirst] using hprunes, watermark := ?_, covered := ?_ }
            · simp [hw, hemitted]
            · intro w₀ w n hw₀ hw' hn hlt
              simp [hw] at hw₀ hw'
              omega
        | some w₀ =>
            cases hw : book.watermark with
            | none => simp [h.none_iff.1 hw] at hfirst
            | some w =>
                refine
                  { toPrunes := by simpa [hfirst, hw] using hprunes
                    watermark := ?_
                    covered := ?_ }
                · have hwatermark := h.watermark
                  rw [hw, hfirst] at hwatermark
                  simpa using hwatermark
                · intro w₀' w' n hw₀ hw' hn hlt
                  exact h.covered (by simpa [hfirst] using hw₀) (by simpa [hw] using hw') hn hlt
      · simpa [Book.step, Reference.step, hp] using h
  | uploadCompletion uploadResult =>
      cases uploadResult with
      | success path offsets =>
          exact
            { toPrunes := hprunes
              watermark := h.watermark
              covered := fun hfirst hw hn hlt =>
                Finset.mem_union_left _ (h.covered hfirst hw hn hlt) }
      | failure toUpload error => exact h
  | commitTick currentAssignment => exact h.commit p currentAssignment (hcover _ rfl)
  | finalCommit currentAssignment => exact h.commit p currentAssignment (hcover _ rfl)
  | revokePartitions partitions =>
      by_cases hp : p ∈ revokedTopicIds partitions
      · simpa [Book.step, Reference.step, hp] using empty
      · simpa [Book.step, Reference.step, hp] using h
  | uploadTick => exact h
  | shutdownSignal => exact h

/-- The code and the reference agree after every history of covered commit requests. -/
theorem after (p : TopicId) : ∀ requests : List Request, History.AssignmentsCover requests →
    Agrees (Book.after p requests) (Reference.after p requests)
  | [], _ => empty
  | request :: requests, hcover => by
      refine (after p requests hcover.2).step p request fun currentAssignment hrequest hfirst => ?_
      refine hcover.1 currentAssignment hrequest p fun hnil => hfirst ?_
      rw [Reference.first_after, hnil]
      rfl

end Agrees

end S3Sink
