import S3Sink.StateMachine.Run
import Mathlib.Algebra.Order.Group.Multiset

/-!
# Uploads — what is sealed, completed and deleted

Bookkeeping of one request that needs no state:

* `Handled.parts` — an upload that completes is reported or tried again, a file sealed is answered
  once;
* `Handled.deletes` — the files to delete are those reported and those revoked.
-/

namespace S3Sink

/-! ## Reading requests and responses -/

/-- The files sealed on a request; a retry seals nothing new. -/
def sealedBy (request : Request) (responses : List Response) : List SealedFile :=
  match request with
  | .uploadCompletion _ => []
  | _ => (uploadsOf responses).map ToUpload.file

theorem sealedBy_eq {request : Request} (responses : List Response)
    (hrequest : ∀ result, request ≠ .uploadCompletion result) :
    sealedBy request responses = (uploadsOf responses).map ToUpload.file := by
  cases request with
  | uploadCompletion result => exact absurd rfl (hrequest result)
  | _ => rfl

/-- The files revoked on a request. -/
def revokedBy (request : Request) (responses : List Response) : List PathBuf :=
  match request with
  | .revokePartitions _ => deletesOf responses
  | _ => []

/-- What the uploader hands back of a file: its path and the offsets in it. -/
abbrev FileParts := PathBuf × HashMap TopicId (List Offset)

def SealedFile.parts (self : SealedFile) : FileParts :=
  (self.path, self.offsetsConsumed)

/-- The file whose upload a request completes, successfully or not. -/
def Request.completed : Request → List FileParts
  | .uploadCompletion (.success path offsets) => [(path, offsets)]
  | .uploadCompletion (.failure toUpload _) => [toUpload.file.parts]
  | _ => []

/-- The file whose upload a request reports as successful. -/
def Request.reported : Request → List FileParts
  | .uploadCompletion (.success path offsets) => [(path, offsets)]
  | _ => []

theorem path_comp_file : SealedFile.path ∘ ToUpload.file = ToUpload.path := rfl

theorem parts_comp_file : SealedFile.parts ∘ ToUpload.file = ToUpload.intoParts := rfl

section History

variable {F K : Type}

/-- The files sealed in a history. -/
def sealedFiles (h : List (Step F K)) : List SealedFile :=
  h.flatMap fun e => sealedBy e.request e.responses

/-- The files revoked in a history. -/
def revokedFiles (h : List (Step F K)) : List PathBuf :=
  h.flatMap fun e => revokedBy e.request e.responses

/-- What was reported as successful, newest first. -/
def reportedParts (h : List (Step F K)) : List FileParts :=
  h.flatMap fun e => e.request.reported

theorem sealedFiles_cons (e : Step F K) (h : List (Step F K)) :
    sealedFiles (e :: h) = sealedBy e.request e.responses ++ sealedFiles h := rfl

theorem revokedFiles_cons (e : Step F K) (h : List (Step F K)) :
    revokedFiles (e :: h) = revokedBy e.request e.responses ++ revokedFiles h := rfl

theorem reportedParts_cons (e : Step F K) (h : List (Step F K)) :
    reportedParts (e :: h) = e.request.reported ++ reportedParts h := rfl

theorem map_fst_reportedParts : ∀ h : List (Step F K),
    (reportedParts h).map Prod.fst = History.reportedPaths (requests h)
  | [] => rfl
  | e :: h => by
      have ih := map_fst_reportedParts h
      rw [reportedParts_cons, List.map_append, ih]
      have hcons : History.reportedPaths (requests (e :: h)) =
          History.reportedPaths [e.request] ++ History.reportedPaths (requests h) :=
        List.filterMap_append (l := [e.request])
      rw [hcons]
      congr 1
      cases e.request with
      | uploadCompletion result => cases result <;> rfl
      | _ => rfl

end History

/-! ## One request -/

namespace StateMachine

variable {F K : Type} [FileRegistry F] [KeyGenerator K]

/-- The upload completed and the files sealed are those answered for upload and those reported. -/
theorem Handled.parts {ambient : Ambient} {sm sm' : StateMachine F K} {request : Request}
    {responses : List Response} (h : Handled ambient sm request responses sm')
    (hfree : NoFatal responses) :
    request.completed ++ (sealedBy request responses).map SealedFile.parts =
      (uploadsOf responses).map ToUpload.intoParts ++ request.reported := by
  cases request with
  | uploadCompletion result =>
      cases result with
      | success path offsets => rw [h.success_responses]; rfl
      | failure toUpload error => rw [h.failure_responses hfree]; rfl
  | _ => simp [Request.completed, Request.reported, sealedBy, parts_comp_file]

/-- Only a successful upload and a revocation answer files to delete. -/
theorem Handled.deletes {ambient : Ambient} {sm sm' : StateMachine F K} {request : Request}
    {responses : List Response} (h : Handled ambient sm request responses sm') :
    deletesOf responses =
      revokedBy request responses ++ request.reported.map Prod.fst := by
  have hsealed : ∀ {config : StateMachineConfiguration} {streams : List (StreamId × StreamState)}
      {responses : List Response},
      List.Forall₂ (fun e response => SealAnswer config e.2 response) streams responses →
      deletesOf responses = [] := by
    intro config streams responses hanswers
    apply List.eq_nil_iff_forall_not_mem.2
    intro path hmem
    exact notMem_of_sealAnswers hanswers (fun _ hanswer => by cases hanswer) (mem_deletesOf.1 hmem)
  cases h with
  | sealed _ _ _ _ _ _ hclose =>
      obtain ⟨fileRegistry, keyGenerator, response, rfl, hanswer⟩ := sealed_spec hclose
      cases hanswer <;> rfl
  | uploadTick _ hclose =>
      obtain ⟨fileRegistry, keyGenerator, responses, rfl, hanswers⟩ := sealedAll_spec hclose
      exact (hsealed hanswers).trans rfl
  | shutdown hclose =>
      obtain ⟨fileRegistry, keyGenerator, responses, rfl, hanswers⟩ := sealedAll_spec hclose
      rw [deletesOf_append]
      exact congrArg (· ++ _) (hsealed hanswers)
  | revoked _ hrevoke =>
      obtain ⟨fileRegistry, paths, rfl⟩ := revokedAll_spec hrevoke
      simp [revokedBy, Request.reported]
  | commitFailed hrequest => rcases hrequest with rfl | rfl <;> rfl
  | _ => rfl

end StateMachine

end S3Sink
