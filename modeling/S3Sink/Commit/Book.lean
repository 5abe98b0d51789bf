import S3Sink.StateMachine.Run

/-!
# Book — the commit bookkeeping of one partition

Read at one partition, the maps `offsets_watermark` and `offsets_uploaded` are a `Book`.  A request
changes the book of a partition by `Book.step`, which reads nothing else of the state, so after a
run without `Fatal` the book is `Book.after`, a function of the requests alone.

* `Handled.book` — one request;
* `book_eq_after` — a whole run;
* `Handled.contains_iff` — what a commit request emits for the partition.
-/

namespace S3Sink

open StateMachine (commitPoint revokedTopicIds)

/-- What the state machine keeps for one partition. -/
structure Book where
  watermark : Option Int
  uploaded : BTreeSet Offset

namespace Book

def empty : Book := ⟨none, ∅⟩

/-- The offset a commit request with the given assignment emits. -/
def emits (p : TopicId) (currentAssignment : TopicPartitionList) (book : Book) : Option Int :=
  match book.watermark with
  | none => none
  | some w =>
      if currentAssignment.Assigns p ∧ w < commitPoint w book.uploaded then
        some (commitPoint w book.uploaded)
      else
        none

/-- A commit request. -/
def commit (p : TopicId) (currentAssignment : TopicPartitionList) (book : Book) : Book :=
  { watermark :=
      if currentAssignment.Assigns p then
        book.watermark.map fun w => commitPoint w book.uploaded
      else
        book.watermark
    uploaded := StateMachine.kept currentAssignment p book.uploaded book.watermark }

/-- One request. -/
def step (p : TopicId) (book : Book) : Request → Book
  | .processRecord record =>
      if record.topicId = p then
        { book with watermark := some (book.watermark.getD record.offset.val) }
      else
        book
  | .uploadTick => book
  | .commitTick currentAssignment => book.commit p currentAssignment
  | .uploadCompletion (.failure _ _) => book
  | .uploadCompletion (.success _ offsets) =>
      { book with uploaded := book.uploaded.extend ((offsets.get? p).getD []) }
  | .finalCommit currentAssignment => book.commit p currentAssignment
  | .revokePartitions partitions => if p ∈ revokedTopicIds partitions then empty else book
  | .shutdownSignal => book

/-- All requests of a history. -/
def after (p : TopicId) : List Request → Book
  | [] => empty
  | request :: requests => (after p requests).step p request

theorem emits_eq_some {p : TopicId} {currentAssignment : TopicPartitionList} {book : Book}
    {c : Int} :
    book.emits p currentAssignment = some c ↔
      currentAssignment.Assigns p ∧ ∃ w, book.watermark = some w ∧
        c = commitPoint w book.uploaded ∧ w < c := by
  unfold emits
  cases hw : book.watermark with
  | none => simp
  | some w =>
      by_cases hcond : currentAssignment.Assigns p ∧ w < commitPoint w book.uploaded
      · simp only [hcond, and_self, if_true, Option.some.injEq]
        constructor
        · rintro rfl
          exact ⟨trivial, w, rfl, rfl, hcond.2⟩
        · rintro ⟨-, w', rfl, rfl, -⟩
          rfl
      · simp only [hcond, if_false, reduceCtorEq, Option.some.injEq, false_iff]
        rintro ⟨hassigned, w', rfl, rfl, hlt⟩
        exact hcond ⟨hassigned, hlt⟩

/-- A commit request raises the watermark to the offset it emits, or leaves it. -/
theorem commit_watermark (p : TopicId) (currentAssignment : TopicPartitionList) (book : Book) :
    (book.commit p currentAssignment).watermark =
      (book.emits p currentAssignment).or book.watermark := by
  unfold commit emits
  cases hw : book.watermark with
  | none => simp
  | some w =>
      by_cases hassigned : currentAssignment.Assigns p
      · by_cases hlt : w < commitPoint w book.uploaded
        · simp [hassigned, hlt]
        · have heq : commitPoint w book.uploaded = w :=
            le_antisymm (not_lt.1 hlt) (StateMachine.le_commitPoint w book.uploaded)
          simp [hassigned, heq]
      · simp [hassigned]

end Book

namespace StateMachine

open TransitionSystem

variable {F K : Type}

/-- The book of a partition. -/
def book (self : StateMachine F K) (p : TopicId) : Book :=
  ⟨self.watermarkAt p, self.uploadedAt p⟩

theorem uploadedAt_extendUploaded {offsets : List (TopicId × List Offset)}
    (hnodup : (offsets.map Prod.fst).Nodup) (uploaded : HashMap TopicId (BTreeSet Offset))
    (p : TopicId) :
    ((offsets.foldl extendUploaded uploaded).get? p).getD ∅ =
      ((uploaded.get? p).getD ∅).extend
        (((offsets.find? fun e => e.1 = p).map Prod.snd).getD []) := by
  induction offsets generalizing uploaded with
  | nil => rfl
  | cons e offsets ih =>
      rw [List.map_cons, List.nodup_cons] at hnodup
      rw [List.foldl_cons, ih hnodup.2, extendUploaded, HashMap.get?_insert]
      by_cases hp : p = e.1
      · subst hp
        have hnone : offsets.find? (fun e' => e'.1 = e.1) = none := by
          rw [List.find?_eq_none]
          intro e' he' heq
          exact hnodup.1 (List.mem_map.2 ⟨e', he', by simpa using heq⟩)
        simp [hnone, BTreeSet.extend]
      · have hp' : e.1 ≠ p := fun heq => hp heq.symm
        simp [hp, hp']

/-- The offsets of a partition that a map of offsets lists. -/
theorem find?_toList (offsets : HashMap TopicId (List Offset)) (p : TopicId) :
    ((offsets.toList.find? fun e => e.1 = p).map Prod.snd).getD [] = (offsets.get? p).getD [] := by
  cases hfind : offsets.toList.find? (fun e => e.1 = p) with
  | none =>
      have hnone : offsets.get? p = none := by
        cases hget : offsets.get? p with
        | none => rfl
        | some listed =>
            have hmem := HashMap.mem_toList.2 hget
            simpa using List.find?_eq_none.1 hfind _ hmem
      simp [hnone]
  | some e =>
      have hkey : e.1 = p := by simpa using List.find?_some hfind
      have hget := HashMap.mem_toList.1 (List.mem_of_find?_eq_some hfind)
      rw [hkey] at hget
      simp [hget]

theorem Reordered.book {sm sm' : StateMachine F K} (h : Reordered sm sm') (p : TopicId) :
    sm'.book p = sm.book p := by
  simp only [StateMachine.book, h.watermarkAt, h.uploadedAt]

theorem Committed.book {currentAssignment tpl : TopicPartitionList} {sm sm' : StateMachine F K}
    (h : Committed currentAssignment tpl sm sm') (p : TopicId) :
    sm'.book p = (sm.book p).commit p currentAssignment := by
  simp only [StateMachine.book, h.watermark, h.uploaded]
  rfl

variable [FileRegistry F] [KeyGenerator K]

theorem closeAndUpload_book (streamId : StreamId) (streamState : StreamState)
    (sm : StateMachine F K) (p : TopicId) :
    (closeAndUpload streamId streamState sm).book p = sm.book p := by
  obtain ⟨fileRegistry, keyGenerator, response, heq, -⟩ := closeAndUpload_spec streamId streamState sm
  rw [heq]
  rfl

theorem closeAndUploadAll_book (streams : List (StreamId × StreamState)) (sm : StateMachine F K)
    (p : TopicId) : (closeAndUploadAll streams sm).book p = sm.book p := by
  obtain ⟨fileRegistry, keyGenerator, responses, heq, -⟩ := closeAndUploadAll_spec streams sm
  rw [heq]
  rfl

omit [FileRegistry F] [KeyGenerator K] in
/-- A record sets the watermark of its partition, if it has none yet. -/
theorem book_orInsert (sm : StateMachine F K) (record : Message) (p : TopicId) :
    (⟨(sm.offsetsWatermark.orInsert record.topicId record.offset.val).get? p, sm.uploadedAt p⟩ :
      Book) = (sm.book p).step p (.processRecord record) := by
  rw [HashMap.get?_orInsert]
  by_cases hp : p = record.topicId
  · subst hp
    simp [Book.step, book, watermarkAt]
  · have hp' : record.topicId ≠ p := fun heq => hp heq.symm
    simp [Book.step, book, watermarkAt, hp, hp']

/-- One request changes the book of every partition by `Book.step`. -/
theorem Handled.book {ambient : Ambient} {sm sm' : StateMachine F K} {request : Request}
    {responses : List Response} (h : Handled ambient sm request responses sm')
    (hfree : NoFatal responses) (p : TopicId) :
    sm'.book p = (sm.book p).step p request := by
  cases h with
  | unconfigured => exact absurd List.mem_cons_self (hfree _)
  | undecodable => exact absurd List.mem_cons_self (hfree _)
  | skipped => exact book_orInsert sm _ p
  | writeFailed => exact absurd List.mem_cons_self (hfree _)
  | written => exact book_orInsert sm _ p
  | sealed _ _ _ _ _ _ hclose =>
      subst hclose
      exact (closeAndUpload_book _ _ _ p).trans (book_orInsert sm _ p)
  | uploadTick _ hclose =>
      subst hclose
      exact closeAndUploadAll_book _ _ p
  | retried => rfl
  | exhausted => exact absurd List.mem_cons_self (hfree _)
  | @uploaded path offsets =>
      have hextend := uploadedAt_extendUploaded (HashMap.nodup_keys_toList offsets)
        sm.offsetsUploaded p
      rw [find?_toList] at hextend
      simp only [StateMachine.book, Book.step, Book.mk.injEq]
      exact ⟨rfl, hextend⟩
  | committedAsync hcommitted => exact hcommitted.book p
  | committedSync hcommitted => exact hcommitted.book p
  | commitFailed => exact absurd List.mem_cons_self (hfree _)
  | @revoked partitions dropped streams _ _ hrevoke =>
      subst hrevoke
      obtain ⟨fileRegistry, paths, heq⟩ :=
        revokeAll_spec dropped { sm with streams := streams, responses := [] }
      rw [heq]
      simp only [StateMachine.book, watermarkAt, uploadedAt, HashMap.get?_foldl_erase, Book.step]
      by_cases hp : p ∈ revokedTopicIds partitions
      · simp [hp, Book.empty]
      · simp [hp]
  | shutdown hclose =>
      subst hclose
      exact closeAndUploadAll_book _ _ p

theorem Steps.book {sm sm' : StateMachine F K} {e : Step F K} (h : Steps sm e sm')
    (hfree : NoFatal e.responses) (p : TopicId) :
    sm'.book p = (sm.book p).step p e.request :=
  calc
    sm'.book p
        = e.post.book p := by rw [h.post]
    _ = (e.pre.book p).step p e.request := h.cases.book hfree p
    _ = (sm.book p).step p e.request := by rw [h.reordered.book p]

/-- After a run without `Fatal` the book of a partition is a function of the requests. -/
theorem book_eq_after {start : StateMachine F K} (hstart : ∀ p, start.book p = Book.empty)
    {h : List (Step F K)} {sm : StateMachine F K} (hrun : Run (system start) h sm)
    (hfree : FatalFree h) (p : TopicId) : sm.book p = Book.after p (requests h) := by
  induction hrun with
  | start hinit =>
      rw [hinit]
      exact hstart p
  | @step h sm sm' e _ hstep ih =>
      calc
        sm'.book p
            = (sm.book p).step p e.request := hstep.book hfree.head p
        _ = (Book.after p (requests h)).step p e.request := by rw [ih hfree.tail]
        _ = Book.after p (requests (e :: h)) := rfl

omit [FileRegistry F] [KeyGenerator K] in
theorem book_new (inputTopics : List (TopicConfig × List TopicName)) (fileRegistry : F)
    (keyGenerator : K) (config : StateMachineConfiguration) (p : TopicId) :
    (new inputTopics fileRegistry keyGenerator config).book p = Book.empty :=
  rfl

/-! ## What a commit request answers -/

/-- The list a commit request was answered with. -/
def committedList? : List Response → Option TopicPartitionList
  | [.commitAsync tpl] => some tpl
  | [.commitSync tpl] => some tpl
  | _ => none

/-- A commit request that does not fail answers one list: it names each partition at most once,
always with an offset, and names `p` with the offset the book of `p` emits. -/
theorem Handled.commit_list {ambient : Ambient} {sm sm' : StateMachine F K} {request : Request}
    {responses : List Response} (h : Handled ambient sm request responses sm')
    (hfree : NoFatal responses) {currentAssignment : TopicPartitionList}
    (hrequest : History.assignment? request = some currentAssignment) :
    ∃ tpl, committedList? responses = some tpl ∧
      (tpl.elements.map TopicPartitionListElem.topicId).Nodup ∧
      (∀ e ∈ tpl.elements, e.offset.isSome = true) ∧
      ∀ p c, tpl.Contains p c ↔ (sm.book p).emits p currentAssignment = some c := by
  have hanswer : ∀ {tpl : TopicPartitionList} {sm' : StateMachine F K},
      Committed currentAssignment tpl { sm with responses := [] } sm' →
      (tpl.elements.map TopicPartitionListElem.topicId).Nodup ∧
        (∀ e ∈ tpl.elements, e.offset.isSome = true) ∧
        ∀ p c, tpl.Contains p c ↔ (sm.book p).emits p currentAssignment = some c := by
    intro tpl sm' hcommitted
    refine ⟨hcommitted.nodup, hcommitted.offset_isSome, fun p c => ?_⟩
    rw [Book.emits_eq_some]
    exact hcommitted.contains p c
  cases h with
  | committedAsync hcommitted =>
      cases hrequest
      exact ⟨_, rfl, hanswer hcommitted⟩
  | committedSync hcommitted =>
      cases hrequest
      exact ⟨_, rfl, hanswer hcommitted⟩
  | commitFailed => exact absurd List.mem_cons_self (hfree _)
  | _ => simp [History.assignment?] at hrequest

end StateMachine

end S3Sink
