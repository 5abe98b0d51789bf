import Mathlib.Data.List.Basic

/-!
# Lines — splitting a list after each separator

`splitInclusive sep l` cuts `l` behind every `sep`; each piece keeps the separator it ends with.
Lines that end with the separator are found again exactly if none of them holds it earlier.
-/

universe u

section Lines

variable {α : Type u} [DecidableEq α] {sep : α}

/-- The pieces of a list, each ending with a separator except perhaps the last one. -/
def splitInclusive (sep : α) : List α → List (List α)
  | [] => []
  | a :: l =>
      if a = sep then
        [a] :: splitInclusive sep l
      else
        match splitInclusive sep l with
        | [] => [[a]]
        | piece :: pieces => (a :: piece) :: pieces

theorem splitInclusive_cons_ne {a : α} (ha : a ≠ sep) {l piece : List α} {pieces : List (List α)}
    (h : splitInclusive sep l = piece :: pieces) :
    splitInclusive sep (a :: l) = (a :: piece) :: pieces := by
  simp [splitInclusive, ha, h]

/-- A line without an inner separator is the first piece. -/
theorem splitInclusive_append {body : List α} (hbody : sep ∉ body) (rest : List α) :
    splitInclusive sep (body ++ sep :: rest) = (body ++ [sep]) :: splitInclusive sep rest := by
  induction body with
  | nil => simp [splitInclusive]
  | cons a body ih =>
      rw [List.mem_cons, not_or] at hbody
      exact splitInclusive_cons_ne (fun heq => hbody.1 heq.symm) (ih hbody.2)

/-- A separator stands only at the end of a piece. -/
theorem notMem_dropLast_of_mem_splitInclusive : ∀ {l piece : List α},
    piece ∈ splitInclusive sep l → sep ∉ piece.dropLast
  | [], piece, hmem => absurd hmem List.not_mem_nil
  | a :: l, piece, hmem => by
      by_cases ha : a = sep
      · rw [splitInclusive, if_pos ha] at hmem
        rcases List.mem_cons.1 hmem with rfl | hrest
        · simp
        · exact notMem_dropLast_of_mem_splitInclusive hrest
      · rw [splitInclusive, if_neg ha] at hmem
        cases hsplit : splitInclusive sep l with
        | nil =>
            rw [hsplit] at hmem
            obtain rfl := List.mem_singleton.1 hmem
            simp
        | cons first pieces =>
            rw [hsplit] at hmem
            rcases List.mem_cons.1 hmem with rfl | hrest
            -- the first piece grows by an item that is no separator
            · have hfirst : sep ∉ first.dropLast :=
                notMem_dropLast_of_mem_splitInclusive (hsplit ▸ List.mem_cons_self)
              cases first with
              | nil => simp
              | cons b first =>
                  rw [List.dropLast_cons_cons, List.mem_cons, not_or]
                  exact ⟨fun heq => ha heq.symm, hfirst⟩
            · exact notMem_dropLast_of_mem_splitInclusive
                (hsplit ▸ List.mem_cons_of_mem _ hrest)

/-- Lines are found again exactly if no line holds the separator before its end. -/
theorem splitInclusive_flatten_iff {bodies : List (List α)} :
    splitInclusive sep (bodies.map (· ++ [sep])).flatten = bodies.map (· ++ [sep]) ↔
      ∀ body ∈ bodies, sep ∉ body := by
  constructor
  · intro heq body hbody
    have hpiece : body ++ [sep] ∈ splitInclusive sep (bodies.map (· ++ [sep])).flatten := by
      rw [heq]
      exact List.mem_map_of_mem hbody
    simpa using notMem_dropLast_of_mem_splitInclusive hpiece
  · intro hbodies
    induction bodies with
    | nil => rfl
    | cons body bodies ih =>
        have hflatten : ((body :: bodies).map (· ++ [sep])).flatten =
            body ++ sep :: (bodies.map (· ++ [sep])).flatten := by simp
        rw [hflatten, splitInclusive_append (hbodies body List.mem_cons_self),
          ih fun body' hbody' => hbodies body' (List.mem_cons_of_mem _ hbody')]
        rfl

end Lines
