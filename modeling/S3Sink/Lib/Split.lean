import Mathlib.Data.List.Basic

/-!
# Split — lists joined with a separator

Parts joined with a separator can be told apart from the joined list if no part contains the
separator.  In general the joined list only knows the pieces between separators, not which of them
were one part.

* `pieces`, `cuts` — the pieces of all parts, and how many of them each part has;
* `intercalate_inj_iff` — the joined lists are the same exactly if the pieces are;
* `eq_iff_pieces` — the parts are the same exactly if pieces and cuts are;
* `intercalate_splitOn_eq_map` — splitting at one separator and joining with another replaces it.
-/

namespace Split

variable {α : Type*} [DecidableEq α]

def pieces (x : α) (parts : List (List α)) : List (List α) :=
  parts.flatMap (List.splitOn x)

def cuts (x : α) (parts : List (List α)) : List Nat :=
  parts.map fun part => (part.splitOn x).length

theorem splitOn_intercalate (x : α) {parts : List (List α)} (hparts : parts ≠ []) :
    ([x].intercalate parts).splitOn x = pieces x parts := by
  induction parts with
  | nil => exact absurd rfl hparts
  | cons part parts ih =>
      cases parts with
      | nil => simp [pieces]
      | cons part' parts =>
          rw [List.intercalate_cons_cons, List.append_assoc, List.singleton_append,
            List.splitOn_append_cons_self, ih (List.cons_ne_nil _ _)]
          rfl

/-- Joined lists are the same exactly if their pieces are. -/
theorem intercalate_inj_iff (x : α) {parts parts' : List (List α)} (hparts : parts ≠ [])
    (hparts' : parts' ≠ []) :
    [x].intercalate parts = [x].intercalate parts' ↔ pieces x parts = pieces x parts' := by
  rw [← splitOn_intercalate x hparts, ← splitOn_intercalate x hparts']
  constructor
  · intro heq
    rw [heq]
  · intro heq
    have hjoin := congrArg [x].intercalate heq
    rwa [List.intercalate_splitOn, List.intercalate_splitOn] at hjoin

theorem splitOn_injective (x : α) {part part' : List α} (h : part.splitOn x = part'.splitOn x) :
    part = part' := by
  have hjoin := congrArg [x].intercalate h
  rwa [List.intercalate_splitOn, List.intercalate_splitOn] at hjoin

/-- Parts are the same exactly if they have the same pieces, cut into parts in the same way. -/
theorem eq_iff_pieces (x : α) {parts parts' : List (List α)} :
    parts = parts' ↔ pieces x parts = pieces x parts' ∧ cuts x parts = cuts x parts' := by
  constructor
  · rintro rfl
    exact ⟨rfl, rfl⟩
  · rintro ⟨hpieces, hcuts⟩
    induction parts generalizing parts' with
    | nil =>
        have hlength := congrArg List.length hcuts
        simp only [cuts, List.map_nil, List.length_nil, List.length_map] at hlength
        exact (List.length_eq_zero_iff.1 hlength.symm).symm
    | cons part parts ih =>
        cases parts' with
        | nil => simp [cuts] at hcuts
        | cons part' parts' =>
            simp only [cuts, List.map_cons, List.cons.injEq] at hcuts
            simp only [pieces, List.flatMap_cons] at hpieces
            -- the first parts have the same number of pieces
            obtain ⟨hfirst, hrest⟩ := List.append_inj hpieces hcuts.1
            rw [splitOn_injective x hfirst, ih hrest hcuts.2]

/-- Without separators inside, each part is one piece. -/
theorem pieces_of_notMem (x : α) {parts : List (List α)} (hparts : ∀ part ∈ parts, x ∉ part) :
    pieces x parts = parts := by
  induction parts with
  | nil => rfl
  | cons part parts ih =>
      obtain ⟨hpart, hrest⟩ := List.forall_mem_cons.1 hparts
      rw [pieces, List.flatMap_cons, List.splitOn_eq_singleton hpart, ← pieces, ih hrest]
      rfl

omit [DecidableEq α] in
theorem notMem_intercalate {x a : α} (ha : a ≠ x) {parts : List (List α)}
    (hparts : ∀ part ∈ parts, a ∉ part) : a ∉ [x].intercalate parts := by
  induction parts with
  | nil => exact List.not_mem_nil
  | cons part parts ih =>
      obtain ⟨hpart, hrest⟩ := List.forall_mem_cons.1 hparts
      cases parts with
      | nil => simpa using hpart
      | cons part' parts =>
          rw [List.intercalate_cons_cons, List.mem_append, List.mem_append, List.mem_singleton]
          exact fun hmem => hmem.elim (fun h => h.elim hpart ha) (ih hrest)

theorem intercalate_splitOn_eq_map (x y : α) (xs : List α) :
    [y].intercalate (xs.splitOn x) = xs.map fun a => if a = x then y else a := by
  induction xs with
  | nil => simp
  | cons a xs ih =>
      rw [List.splitOn_cons_eq_if_modifyHead, List.map_cons, ← ih]
      obtain ⟨first, rest, hsplit⟩ := List.exists_cons_of_ne_nil (List.splitOn_ne_nil x xs)
      by_cases ha : a = x
      · simp [ha, hsplit]
      · cases rest with
        | nil => simp [ha, hsplit]
        | cons second rest => simp [ha, hsplit]

end Split
