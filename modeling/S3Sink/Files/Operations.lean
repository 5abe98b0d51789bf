import S3Sink.Files
import Mathlib.Algebra.Order.Group.Multiset

/-!
# Operations — what the disk registry does when it succeeds

One specification for each operation of `DiskFileRegistry`: which file it is about, what happens to
the active files, to the files created and to the bytes written.

`Fresh` is the invariant that makes the paths of new files new: every file created so far has one of
the identifiers drawn so far.
-/

namespace S3Sink
namespace DiskFileRegistry

/-! ## Paths -/

theorem scratchPath_injective {directory uuid uuid' : String}
    (heq : scratchPath directory uuid = scratchPath directory uuid') : uuid = uuid' := by
  have hlists := congrArg String.toList heq
  simp only [scratchPath, String.toList_append] at hlists
  -- directory and extension are the same on both sides
  have huuid := List.append_cancel_right hlists
  exact String.toList_inj.1 (List.append_cancel_left huuid)

/-- Every file created so far has one of the identifiers drawn so far. -/
def Fresh (reg : DiskFileRegistry) : Prop :=
  ∀ path ∈ reg.written, ∃ tick < reg.tick, path = scratchPath reg.directory (reg.os.uuid tick)

theorem Fresh.nextPath_notMem {reg : DiskFileRegistry} (hfresh : reg.Fresh) :
    reg.nextPath ∉ reg.written := by
  intro hmem
  obtain ⟨tick, hlt, heq⟩ := hfresh _ hmem
  have htick := reg.os.uuid_injective (scratchPath_injective heq)
  omega

/-- The paths of the active files. -/
def activePaths (reg : DiskFileRegistry) : Multiset PathBuf :=
  ↑(reg.files.toList.map fun e => e.2.path)

/-- The paths of all files ever created. -/
def createdPaths (reg : DiskFileRegistry) : Multiset PathBuf :=
  ↑reg.written.keys

theorem mem_createdPaths {reg : DiskFileRegistry} {path : PathBuf} :
    path ∈ reg.createdPaths ↔ path ∈ reg.written :=
  AList.mem_keys.symm

theorem nodup_createdPaths (reg : DiskFileRegistry) : reg.createdPaths.Nodup :=
  reg.written.keys_nodup

theorem mem_activePaths {reg : DiskFileRegistry} {path : PathBuf} :
    path ∈ reg.activePaths ↔ ∃ id, reg.files.get? id = some ⟨path⟩ := by
  unfold activePaths
  rw [Multiset.mem_coe, List.mem_map]
  constructor
  · rintro ⟨⟨id, file⟩, hmem, rfl⟩
    exact ⟨id, HashMap.mem_toList.1 hmem⟩
  · rintro ⟨id, hget⟩
    exact ⟨(id, ⟨path⟩), HashMap.mem_toList.2 hget, rfl⟩

/-- The file that a write to the stream goes to. -/
def pathFor (reg : DiskFileRegistry) (id : StreamId) : PathBuf :=
  match reg.files.get? id with
  | some file => file.path
  | none => reg.nextPath

theorem pathFor_of_active {reg : DiskFileRegistry} {id : StreamId} {file : ActiveFile}
    (hget : reg.files.get? id = some file) : reg.pathFor id = file.path := by
  simp [pathFor, hget]

theorem content_append (reg : DiskFileRegistry) (path : PathBuf) (bytes : Bytes) (path' : PathBuf) :
    (reg.append path bytes).content path' =
      if path' = path then reg.content path' ++ bytes else reg.content path' := by
  unfold content append
  dsimp only
  rw [HashMap.get?_insert]
  by_cases heq : path' = path
  · subst heq
    simp [content]
  · simp [heq]

/-! ## Writing -/

/-- What a successful `write_all` does. -/
structure Wrote (reg : DiskFileRegistry) (id : StreamId) (bytes : Bytes)
    (reg' : DiskFileRegistry) : Prop where
  directory : reg'.directory = reg.directory
  os : reg'.os = reg.os
  tick : reg.tick < reg'.tick
  files : reg'.files = reg.files.orInsert id ⟨reg.pathFor id⟩
  content : ∀ path, reg'.content path =
    if path = reg.pathFor id then reg.content path ++ bytes else reg.content path
  mem_written : ∀ path, path ∈ reg'.written ↔ path = reg.pathFor id ∨ path ∈ reg.written
  created : reg'.createdPaths =
    if reg.pathFor id ∈ reg.written then reg.createdPaths else reg.pathFor id ::ₘ reg.createdPaths

theorem createdPaths_append (reg : DiskFileRegistry) (path : PathBuf) (bytes : Bytes) :
    (reg.append path bytes).createdPaths =
      if path ∈ reg.written then reg.createdPaths else path ::ₘ reg.createdPaths := by
  unfold createdPaths append
  dsimp only
  split
  · next hmem => exact Multiset.coe_eq_coe.2 (HashMap.keys_insert_perm hmem _)
  · next hnot =>
      rw [AList.keys_insert, List.erase_of_not_mem (fun h => hnot (AList.mem_keys.2 h))]
      rfl

/-- Opening a file in create mode leaves its bytes as they are. -/
def create (reg : DiskFileRegistry) (path : PathBuf) : DiskFileRegistry :=
  { reg with written := reg.written.orInsert path [] }

theorem content_create (reg : DiskFileRegistry) (path path' : PathBuf) :
    (reg.create path).content path' = reg.content path' := by
  unfold content create
  dsimp only
  rw [HashMap.get?_orInsert]
  by_cases heq : path' = path
  · subst heq
    cases reg.written.get? path' <;> simp
  · simp [heq]

theorem createdPaths_create (reg : DiskFileRegistry) (path : PathBuf) :
    (reg.create path).createdPaths =
      if path ∈ reg.written then reg.createdPaths else path ::ₘ reg.createdPaths := by
  unfold createdPaths create HashMap.orInsert
  dsimp only
  cases hget : reg.written.get? path with
  | some bytes => simp [HashMap.mem_iff, hget]
  | none =>
      have hnot : path ∉ reg.written := HashMap.get?_eq_none.1 hget
      rw [if_neg hnot]
      dsimp only
      rw [AList.keys_insert, List.erase_of_not_mem (fun h => hnot (AList.mem_keys.2 h))]
      rfl

theorem newActiveFile_ok {reg reg' : DiskFileRegistry} {file : ActiveFile}
    (hok : reg.newActiveFile = (.ok file, reg')) :
    file = ⟨reg.nextPath⟩ ∧ reg' = { reg with
      tick := reg.tick + 1, written := reg.written.orInsert reg.nextPath [] } := by
  unfold newActiveFile at hok
  dsimp only at hok
  split at hok
  · cases hok
  · split at hok
    · cases hok
    · cases hok
      exact ⟨rfl, rfl⟩

theorem writeActiveFile_ok {reg reg' : DiskFileRegistry} {file : ActiveFile} {bytes : Bytes}
    (hok : reg.writeActiveFile file bytes = (.ok (), reg')) :
    reg' = { reg with tick := reg.tick + 1 }.append file.path bytes := by
  unfold writeActiveFile at hok
  dsimp only at hok
  split at hok
  · cases hok
  · cases hok
    rfl

theorem writeAll_ok {reg reg' : DiskFileRegistry} {id : StreamId} {bytes : Bytes}
    (hok : reg.writeAll id bytes = (.ok (), reg')) : Wrote reg id bytes reg' := by
  unfold writeAll getMutActiveFileOrCreate at hok
  -- the stream has an active file, or one is created first
  cases hget : reg.files.get? id with
  | some file =>
      simp only [hget] at hok
      have hpath := pathFor_of_active hget
      have hreg := writeActiveFile_ok hok
      subst hreg
      exact
        { directory := rfl
          os := rfl
          tick := Nat.lt_succ_self _
          files := by rw [HashMap.orInsert_of_some hget]; rfl
          content := fun path => by rw [content_append, hpath]; rfl
          mem_written := fun path => by
            rw [hpath]
            exact AList.mem_insert _
          created := by rw [createdPaths_append, hpath]; rfl }
  | none =>
      have hpath : reg.pathFor id = reg.nextPath := by simp [pathFor, hget]
      simp only [hget] at hok
      cases hnew : reg.newActiveFile with
      | mk out reg₁ =>
          rw [hnew] at hok
          cases out with
          | error error => cases hok
          | ok file =>
              obtain ⟨rfl, rfl⟩ := newActiveFile_ok hnew
              have hreg := writeActiveFile_ok hok
              subst hreg
              -- the file created before the write counts as written
              have hmem : reg.nextPath ∈ reg.written.orInsert reg.nextPath [] :=
                HashMap.mem_orInsert.2 (Or.inl rfl)
              exact
                { directory := rfl
                  os := rfl
                  tick := Nat.lt_succ_of_lt (Nat.lt_succ_self _)
                  files := by rw [hpath, HashMap.orInsert_of_none hget]; rfl
                  content := fun path => by
                    rw [content_append, hpath]
                    have hcreate := content_create reg reg.nextPath path
                    unfold content create at hcreate
                    unfold content
                    dsimp only at hcreate ⊢
                    rw [hcreate]
                  mem_written := fun path => by
                    rw [hpath]
                    refine (AList.mem_insert _).trans ?_
                    rw [HashMap.mem_orInsert, ← or_assoc, or_self]
                  created := by
                    rw [createdPaths_append, hpath]
                    dsimp only
                    rw [if_pos hmem]
                    exact createdPaths_create reg reg.nextPath }

/-! ## Closing and revoking -/

/-- A successful `close` hands out the active file of the stream. -/
theorem close_ok {reg reg' : DiskFileRegistry} {id : StreamId} {path : PathBuf} {size : Nat}
    (hok : reg.close id = (.ok (path, size), reg')) :
    reg.files.get? id = some ⟨path⟩ ∧
      reg' = { reg with files := reg.files.erase id, tick := reg.tick + 1 } := by
  unfold close at hok
  cases hget : reg.files.get? id with
  | none => simp [hget] at hok
  | some file =>
      simp only [hget, closeActiveFile] at hok
      split at hok
      · cases hok
      · cases hok
        exact ⟨rfl, rfl⟩

/-- `revoke` hands out the active file of the stream, if there is one. -/
theorem revoke_cases (reg : DiskFileRegistry) (id : StreamId) :
    (reg.files.get? id = none ∧ reg.revoke id = (none, reg)) ∨
      ∃ file, reg.files.get? id = some file ∧
        reg.revoke id = (some file.path, { reg with files := reg.files.erase id }) := by
  unfold revoke
  cases hget : reg.files.get? id with
  | none => exact Or.inl ⟨rfl, rfl⟩
  | some file => exact Or.inr ⟨file, rfl, rfl⟩

/-- An erased active file leaves the multiset of active paths. -/
theorem activePaths_erase {reg : DiskFileRegistry} {id : StreamId} {file : ActiveFile}
    (hget : reg.files.get? id = some file) (tick : Nat) :
    reg.activePaths = file.path ::ₘ
      activePaths { reg with files := reg.files.erase id, tick := tick } := by
  have hperm := (HashMap.toList_erase_perm hget).map fun e => e.2.path
  rw [List.map_cons] at hperm
  exact Multiset.coe_eq_coe.2 hperm

/-- A failed `close` opens no file. -/
theorem activePaths_close_error {reg reg' : DiskFileRegistry} {id : StreamId} {error : SinkError}
    (herror : reg.close id = (.error error, reg')) : reg'.activePaths ≤ reg.activePaths := by
  unfold close at herror
  cases hget : reg.files.get? id with
  | none =>
      simp only [hget] at herror
      cases herror
      exact le_rfl
  | some file =>
      simp only [hget, closeActiveFile] at herror
      split at herror
      · cases herror
        rw [activePaths_erase hget (reg.tick + 1)]
        exact Multiset.le_cons_self _ _
      · cases herror

/-! ## Invariants -/

theorem Wrote.fresh {reg reg' : DiskFileRegistry} {id : StreamId} {bytes : Bytes}
    (h : Wrote reg id bytes reg') (hfresh : reg.Fresh) (hactive : ∀ path ∈ reg.activePaths,
      path ∈ reg.written) : reg'.Fresh := by
  intro path hpath
  rw [h.directory, h.os]
  have hold : ∀ path ∈ reg.written, ∃ tick < reg'.tick,
      path = scratchPath reg.directory (reg.os.uuid tick) := by
    intro path hpath
    obtain ⟨tick, hlt, heq⟩ := hfresh path hpath
    exact ⟨tick, hlt.trans h.tick, heq⟩
  -- the file written to is an active one or has the identifier just drawn
  rcases (h.mem_written path).1 hpath with rfl | hpath
  · cases hget : reg.files.get? id with
    | some file =>
        rw [pathFor_of_active hget]
        exact hold _ (hactive _ (mem_activePaths.2 ⟨id, hget⟩))
    | none => exact ⟨reg.tick, h.tick, by simp [pathFor, hget, nextPath]⟩
  · exact hold path hpath

/-- A write adds the path of a new file to the active and to the created ones alike. -/
theorem Wrote.active {reg reg' : DiskFileRegistry} {id : StreamId} {bytes : Bytes}
    (h : Wrote reg id bytes reg') (hfresh : reg.Fresh) (hactive : ∀ path ∈ reg.activePaths,
      path ∈ reg.written) :
    reg'.activePaths + reg.createdPaths = reg.activePaths + reg'.createdPaths := by
  cases hget : reg.files.get? id with
  | some file =>
      -- a write to an active file creates none
      have hfiles : reg'.files = reg.files := by rw [h.files, HashMap.orInsert_of_some hget]
      have hmem : reg.pathFor id ∈ reg.written := by
        rw [pathFor_of_active hget]
        exact hactive _ (mem_activePaths.2 ⟨id, hget⟩)
      calc
        reg'.activePaths + reg.createdPaths
            = reg.activePaths + reg.createdPaths := by
                rw [activePaths, hfiles]
                rfl
        _ = reg.activePaths + reg'.createdPaths := by rw [h.created, if_pos hmem]
  | none =>
      have hpath : reg.pathFor id = reg.nextPath := by simp [pathFor, hget]
      have hfiles : reg'.files = reg.files.insert id ⟨reg.nextPath⟩ := by
        rw [h.files, hpath, HashMap.orInsert_of_none hget]
      have hactive' : reg'.activePaths = reg.nextPath ::ₘ reg.activePaths := by
        rw [activePaths, hfiles, HashMap.toList_insert (HashMap.get?_eq_none.1 hget)]
        rfl
      have hcreated : reg'.createdPaths = reg.nextPath ::ₘ reg.createdPaths := by
        rw [h.created, hpath, if_neg hfresh.nextPath_notMem]
      rw [hactive', hcreated, Multiset.cons_add, Multiset.add_cons]

/-! ## Bytes -/

/-- The bytes written for a stream; a stream without a file has none. -/
def fileBytes (reg : DiskFileRegistry) (id : StreamId) : Bytes :=
  match reg.files.get? id with
  | some file => reg.content file.path
  | none => []

theorem path_injective {reg : DiskFileRegistry} (hnodup : reg.activePaths.Nodup) {id id' : StreamId}
    {path : PathBuf} (hget : reg.files.get? id = some ⟨path⟩)
    (hget' : reg.files.get? id' = some ⟨path⟩) : id = id' := by
  have hinj := List.inj_on_of_nodup_map (Multiset.coe_nodup.1 hnodup)
    (HashMap.mem_toList.2 hget) (HashMap.mem_toList.2 hget') rfl
  exact congrArg Prod.fst hinj

section Written

variable {reg reg' : DiskFileRegistry} {id : StreamId} {bytes : Bytes}

theorem Wrote.get?_files (h : Wrote reg id bytes reg') (id' : StreamId) :
    reg'.files.get? id' = if id' = id then some ⟨reg.pathFor id⟩ else reg.files.get? id' := by
  rw [h.files, HashMap.get?_orInsert]
  split
  · next hid =>
      subst hid
      cases hget : reg.files.get? id' with
      | some file => rw [pathFor_of_active hget]; rfl
      | none => rfl
  · rfl

theorem Wrote.pathFor (h : Wrote reg id bytes reg') : reg'.pathFor id = reg.pathFor id :=
  pathFor_of_active ((h.get?_files id).trans (if_pos rfl))

/-- A file that is not the active one of the stream keeps its bytes. -/
theorem Wrote.content_other (h : Wrote reg id bytes reg') (hfresh : reg.Fresh) {path : PathBuf}
    (hwritten : path ∈ reg.written) (hother : reg.files.get? id ≠ some ⟨path⟩) :
    reg'.content path = reg.content path := by
  rw [h.content, if_neg]
  rintro rfl
  cases hget : reg.files.get? id with
  | some file =>
      rw [pathFor_of_active hget] at hother
      exact hother hget
  | none =>
      have hpath : reg.pathFor id = reg.nextPath := by simp [DiskFileRegistry.pathFor, hget]
      exact hfresh.nextPath_notMem (hpath ▸ hwritten)

theorem Wrote.fileBytes_self (h : Wrote reg id bytes reg') (hfresh : reg.Fresh) :
    reg'.fileBytes id = reg.fileBytes id ++ bytes := by
  unfold fileBytes
  rw [h.get?_files, if_pos rfl]
  dsimp only
  rw [h.content, if_pos rfl]
  cases hget : reg.files.get? id with
  | some file => rw [pathFor_of_active hget]
  | none =>
      have hpath : reg.pathFor id = reg.nextPath := by simp [DiskFileRegistry.pathFor, hget]
      -- a new file starts empty, since its path was not used before
      have hempty : reg.content reg.nextPath = [] := by
        rw [DiskFileRegistry.content, HashMap.get?_eq_none.2 hfresh.nextPath_notMem]
        rfl
      rw [hpath, hempty]

theorem Wrote.fileBytes_other (h : Wrote reg id bytes reg') (hfresh : reg.Fresh)
    (hactive : ∀ path ∈ reg.activePaths, path ∈ reg.written) (hnodup : reg.activePaths.Nodup)
    {id' : StreamId} (hid : id' ≠ id) : reg'.fileBytes id' = reg.fileBytes id' := by
  unfold fileBytes
  rw [h.get?_files, if_neg hid]
  cases hget : reg.files.get? id' with
  | none => rfl
  | some file =>
      refine h.content_other hfresh (hactive _ (mem_activePaths.2 ⟨id', hget⟩)) fun hsame => ?_
      exact hid (path_injective hnodup hget hsame)

end Written

end DiskFileRegistry
end S3Sink
