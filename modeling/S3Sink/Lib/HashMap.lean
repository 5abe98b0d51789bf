import Mathlib.Data.List.AList
import Mathlib.Data.List.Perm.Basic

/-!
# HashMap — finite maps with an unspecified iteration order

A hash map is Mathlib's `AList` at a constant family: a list of entries without duplicate keys.
The list is the order in which an iteration visits the entries.  A hash map promises nothing about
that order, so a client lets it change between two operations (`AList` entries up to
`List.Perm`); every lemma here that speaks about `get?` is invariant under such a change.

Besides the entry operations we define `extractIf`, the iterator that removes and yields the
entries satisfying a predicate, cut short after a number of items.
-/

universe u v

/-- A finite map; the entries are listed in iteration order. -/
abbrev HashMap (κ : Type u) (ν : Type v) := AList (fun _ : κ => ν)

/-! ## Extraction from a list -/

/-- Take out the first `n` items that satisfy `p`: the items taken, and the items left. -/
def extractList {α : Type u} (p : α → Bool) : Nat → List α → List α × List α
  | 0, l => ([], l)
  | _ + 1, [] => ([], [])
  | n + 1, a :: l =>
      if p a then
        (a :: (extractList p n l).1, (extractList p n l).2)
      else
        ((extractList p (n + 1) l).1, a :: (extractList p (n + 1) l).2)

section ExtractList

variable {α : Type u} (p : α → Bool)

theorem extractList_perm : ∀ (n : Nat) (l : List α),
    ((extractList p n l).1 ++ (extractList p n l).2).Perm l
  | 0, l => by simp [extractList]
  | _ + 1, [] => by simp [extractList]
  | n + 1, a :: l => by
      by_cases ha : p a
      · simpa [extractList, ha] using extractList_perm n l
      · have htail := extractList_perm (n + 1) l
        simp only [extractList, ha, if_neg, Bool.false_eq_true, not_false_eq_true]
        exact List.perm_middle.trans (htail.cons a)

theorem extractList_rest_sublist : ∀ (n : Nat) (l : List α),
    (extractList p n l).2.Sublist l
  | 0, l => by simp [extractList]
  | _ + 1, [] => by simp [extractList]
  | n + 1, a :: l => by
      by_cases ha : p a
      · simpa [extractList, ha] using (extractList_rest_sublist n l).trans (List.sublist_cons_self a l)
      · simpa [extractList, ha] using extractList_rest_sublist (n + 1) l

theorem of_mem_extractList : ∀ (n : Nat) (l : List α) {a : α},
    a ∈ (extractList p n l).1 → p a = true
  | 0, l, a => by simp [extractList]
  | _ + 1, [], a => by simp [extractList]
  | n + 1, b :: l, a => by
      intro hmem
      by_cases hb : p b
      · simp only [extractList, hb, if_true, List.mem_cons] at hmem
        rcases hmem with heq | hrest
        · exact heq ▸ hb
        · exact of_mem_extractList n l hrest
      · simp only [extractList, hb] at hmem
        exact of_mem_extractList (n + 1) l hmem

theorem length_extractList : ∀ (n : Nat) (l : List α),
    (extractList p n l).1.length = min n (l.countP p)
  | 0, l => by simp [extractList]
  | _ + 1, [] => by simp [extractList]
  | n + 1, a :: l => by
      by_cases ha : p a
      · simp [extractList, ha, length_extractList n l, Nat.succ_min_succ]
      · simp [extractList, ha, length_extractList (n + 1) l]

/-- With a large enough limit every item that satisfies `p` is taken. -/
theorem extractList_of_length_le : ∀ (n : Nat) (l : List α), l.length ≤ n →
    extractList p n l = (l.filter p, l.filter fun a => !p a)
  | 0, l, hlength => by
      obtain rfl := List.length_eq_zero_iff.1 (Nat.le_zero.1 hlength)
      rfl
  | _ + 1, [], _ => rfl
  | n + 1, a :: l, hlength => by
      rw [List.length_cons] at hlength
      by_cases ha : p a
      · simp [extractList, ha, extractList_of_length_le n l (by omega)]
      · simp [extractList, ha, extractList_of_length_le (n + 1) l (by omega)]

end ExtractList

namespace HashMap

variable {κ : Type u} {ν : Type v} [DecidableEq κ]

/-! ## Entries -/

/-- The value stored under a key. -/
def get? (m : HashMap κ ν) (k : κ) : Option ν :=
  AList.lookup k m

/-- `entry(k).or_insert(v)`: keep the value of a present key, store `v` under an absent one. -/
def orInsert (m : HashMap κ ν) (k : κ) (v : ν) : HashMap κ ν :=
  match m.get? k with
  | some _ => m
  | none => m.insert k v

/-- The entries in iteration order. -/
def toList (m : HashMap κ ν) : List (κ × ν) :=
  m.entries.map fun e => (e.1, e.2)

@[simp] theorem get?_empty (k : κ) : get? (∅ : HashMap κ ν) k = none :=
  AList.lookup_empty k

theorem get?_insert (m : HashMap κ ν) (k : κ) (v : ν) (k' : κ) :
    get? (m.insert k v) k' = if k' = k then some v else get? m k' := by
  by_cases hk : k' = k
  · subst hk
    simp [get?]
  · simp [get?, hk]

@[simp] theorem get?_insert_self (m : HashMap κ ν) (k : κ) (v : ν) :
    get? (m.insert k v) k = some v := by
  simp [get?_insert]

theorem get?_erase (m : HashMap κ ν) (k k' : κ) :
    get? (m.erase k) k' = if k' = k then none else get? m k' := by
  by_cases hk : k' = k
  · subst hk
    simp [get?]
  · simp [get?, hk]

theorem erase_insert (m : HashMap κ ν) (k : κ) (v : ν) : (m.insert k v).erase k = m.erase k := by
  apply AList.ext
  change List.kerase k (⟨k, v⟩ :: List.kerase k m.entries) = List.kerase k m.entries
  simp

theorem orInsert_of_none {m : HashMap κ ν} {k : κ} (hget : get? m k = none) (v : ν) :
    m.orInsert k v = m.insert k v := by
  simp [orInsert, hget]

theorem orInsert_of_some {m : HashMap κ ν} {k : κ} {w : ν} (hget : get? m k = some w) (v : ν) :
    m.orInsert k v = m := by
  simp [orInsert, hget]

theorem get?_orInsert (m : HashMap κ ν) (k : κ) (v : ν) (k' : κ) :
    get? (m.orInsert k v) k' = if k' = k then some ((get? m k).getD v) else get? m k' := by
  unfold orInsert
  cases hget : get? m k with
  | none => simp [get?_insert]
  | some old =>
      by_cases hk : k' = k
      · simp [hk, hget]
      · simp [hk]

theorem mem_orInsert {m : HashMap κ ν} {k k' : κ} {v : ν} :
    k' ∈ m.orInsert k v ↔ k' = k ∨ k' ∈ m := by
  unfold orInsert
  cases hget : get? m k with
  | none => exact AList.mem_insert _
  | some w =>
      have hk : k ∈ m := AList.lookup_isSome.1 (Option.isSome_iff_exists.2 ⟨w, hget⟩)
      exact ⟨Or.inr, fun h => h.elim (fun heq => heq ▸ hk) id⟩

theorem mem_iff {m : HashMap κ ν} {k : κ} : k ∈ m ↔ ∃ v, get? m k = some v := by
  rw [← AList.lookup_isSome, Option.isSome_iff_exists]
  rfl

theorem mem_entries {m : HashMap κ ν} {k : κ} {v : ν} :
    (⟨k, v⟩ : Sigma fun _ : κ => ν) ∈ m.entries ↔ get? m k = some v :=
  AList.mem_lookup_iff.symm

theorem mem_toList {m : HashMap κ ν} {k : κ} {v : ν} :
    (k, v) ∈ m.toList ↔ get? m k = some v := by
  rw [← mem_entries]
  constructor
  · intro hmem
    obtain ⟨⟨k', v'⟩, he, heq⟩ := List.mem_map.1 hmem
    cases heq
    exact he
  · intro hmem
    exact List.mem_map.2 ⟨_, hmem, rfl⟩

omit [DecidableEq κ] in
theorem map_fst_toList (m : HashMap κ ν) : m.toList.map Prod.fst = m.keys := by
  simp [toList, AList.keys, List.keys, Function.comp_def]

omit [DecidableEq κ] in
theorem nodup_keys_toList (m : HashMap κ ν) : (m.toList.map Prod.fst).Nodup := by
  rw [map_fst_toList]
  exact m.keys_nodup

theorem get?_eq_none {m : HashMap κ ν} {k : κ} : get? m k = none ↔ k ∉ m :=
  AList.lookup_eq_none

/-- Storing under an absent key adds one entry. -/
theorem toList_insert {m : HashMap κ ν} {k : κ} (hk : k ∉ m) (v : ν) :
    toList (m.insert k v) = (k, v) :: m.toList := by
  rw [toList, AList.entries_insert_of_notMem hk]
  rfl

/-- Storing under a present key leaves the keys, up to their order. -/
theorem keys_insert_perm {m : HashMap κ ν} {k : κ} (hk : k ∈ m) (v : ν) :
    (m.insert k v).keys.Perm m.keys := by
  rw [AList.keys_insert]
  exact (List.perm_cons_erase (AList.mem_keys.1 hk)).symm

theorem get?_erase_of_none {m : HashMap κ ν} {k : κ} (hnone : get? m k = none) : m.erase k = m := by
  apply AList.ext
  exact List.kerase_of_notMem_keys fun hmem => get?_eq_none.1 hnone (AList.mem_keys.2 hmem)

/-- Removing a key takes away its entry. -/
theorem toList_erase_perm {m : HashMap κ ν} {k : κ} {v : ν} (hget : get? m k = some v) :
    m.toList.Perm ((k, v) :: toList (m.erase k)) := by
  have hkey : k ∈ m.entries.keys := AList.mem_keys.1 (mem_iff.2 ⟨v, hget⟩)
  obtain ⟨w, l₁, l₂, -, hentries, herase⟩ := List.exists_of_kerase hkey
  have hw : get? m k = some w := mem_entries.1 (by rw [hentries]; simp)
  -- keys are distinct, so the entry removed is the one stored
  rw [hget, Option.some.injEq] at hw
  subst hw
  have hrest : (m.erase k).entries = l₁ ++ l₂ := herase
  rw [toList, toList, hrest, hentries, List.map_append, List.map_cons, List.map_append]
  exact List.perm_middle

/-- A change of the iteration order is invisible to lookups. -/
theorem get?_perm {m m' : HashMap κ ν} (hperm : m.entries.Perm m'.entries) (k : κ) :
    get? m k = get? m' k :=
  AList.perm_lookup hperm

theorem get?_foldl_erase (ks : List κ) (m : HashMap κ ν) (k : κ) :
    get? (ks.foldl (fun acc k' => acc.erase k') m) k = if k ∈ ks then none else get? m k := by
  induction ks generalizing m with
  | nil => simp
  | cons k' ks ih =>
      rw [List.foldl_cons, ih, get?_erase]
      by_cases hmem : k ∈ ks <;> by_cases heq : k = k' <;> simp [hmem, heq]

/-! ## Extraction -/

/-- `extract_if(p).take(limit)`: remove and yield entries that satisfy `p`, in iteration order,
at most `limit` of them; the second component is what stays in the map. -/
def extractIfTake (m : HashMap κ ν) (p : κ → ν → Bool) (limit : Nat) :
    List (κ × ν) × HashMap κ ν :=
  let taken := extractList (fun e : Sigma fun _ : κ => ν => p e.1 e.2) limit m.entries
  (taken.1.map fun e => (e.1, e.2),
    ⟨taken.2, m.nodupKeys.sublist (extractList_rest_sublist _ limit m.entries)⟩)

/-- `extract_if(p)`, run to its end. -/
def extractIf (m : HashMap κ ν) (p : κ → ν → Bool) : List (κ × ν) × HashMap κ ν :=
  m.extractIfTake p m.entries.length

section Extraction

variable (m : HashMap κ ν) (p : κ → ν → Bool) (limit : Nat)

omit [DecidableEq κ] in
/-- The entries taken and the entries left are the entries of the map. -/
theorem extractIfTake_perm :
    ((m.extractIfTake p limit).1 ++ (m.extractIfTake p limit).2.toList).Perm m.toList := by
  have hperm := (extractList_perm (fun e : Sigma fun _ : κ => ν => p e.1 e.2) limit m.entries).map
    (fun e => (e.1, e.2))
  rw [List.map_append] at hperm
  exact hperm

omit [DecidableEq κ] in
theorem nodup_keys_extractIfTake :
    (((m.extractIfTake p limit).1 ++ (m.extractIfTake p limit).2.toList).map Prod.fst).Nodup :=
  ((extractIfTake_perm m p limit).map Prod.fst).nodup_iff.2 (nodup_keys_toList m)

omit [DecidableEq κ] in
/-- As many entries are taken as satisfy the predicate, up to the limit. -/
theorem length_extractIfTake : (m.extractIfTake p limit).1.length =
    min limit (m.toList.countP fun e => p e.1 e.2) := by
  rw [extractIfTake, List.length_map, length_extractList, toList, List.countP_map]
  rfl

variable {m p limit}

theorem of_mem_extractIfTake {k : κ} {v : ν} (hmem : (k, v) ∈ (m.extractIfTake p limit).1) :
    get? m k = some v ∧ p k v = true := by
  constructor
  · exact mem_toList.1 ((extractIfTake_perm m p limit).subset (List.mem_append_left _ hmem))
  · obtain ⟨⟨k', v'⟩, he, heq⟩ := List.mem_map.1 hmem
    cases heq
    exact of_mem_extractList (fun e : Sigma fun _ : κ => ν => p e.1 e.2) limit m.entries he

/-- An entry stays in the map exactly when it was not taken. -/
theorem get?_extractIfTake {k : κ} {v : ν} :
    get? (m.extractIfTake p limit).2 k = some v ↔
      get? m k = some v ∧ ∀ w, (k, w) ∉ (m.extractIfTake p limit).1 := by
  have hperm := extractIfTake_perm m p limit
  have hnodup := nodup_keys_extractIfTake m p limit
  constructor
  · intro hrest
    have hrest' := mem_toList.2 hrest
    refine ⟨mem_toList.1 (hperm.subset (List.mem_append_right _ hrest')), ?_⟩
    intro w hw
    rw [List.map_append, List.nodup_append] at hnodup
    -- the key would stand in both parts
    exact hnodup.2.2 k (List.mem_map_of_mem (f := Prod.fst) hw) k
      (List.mem_map_of_mem (f := Prod.fst) hrest') rfl
  · rintro ⟨hget, hnot⟩
    rcases List.mem_append.1 (hperm.symm.subset (mem_toList.2 hget)) with htaken | hrest
    · exact absurd htaken (hnot v)
    · exact mem_toList.1 hrest

/-- `extract_if` leaves exactly the entries that do not satisfy the predicate. -/
theorem get?_extractIf {k : κ} {v : ν} :
    get? (m.extractIf p).2 k = some v ↔ get? m k = some v ∧ p k v = false := by
  have hentries : (m.extractIf p).2.entries = m.entries.filter fun e => !p e.1 e.2 :=
    congrArg Prod.snd (extractList_of_length_le _ _ _ (le_refl _))
  rw [← mem_entries, hentries, List.mem_filter, mem_entries]
  simp

/-- `extract_if` yields exactly the keys of the entries that satisfy the predicate. -/
theorem mem_keys_extractIf {k : κ} :
    k ∈ (m.extractIf p).1.map Prod.fst ↔ ∃ v, get? m k = some v ∧ p k v = true := by
  constructor
  · intro hk
    obtain ⟨⟨k, v⟩, hmem, rfl⟩ := List.mem_map.1 hk
    exact ⟨v, of_mem_extractIfTake hmem⟩
  · rintro ⟨v, hget, hp⟩
    by_contra hnot
    have hrest : get? (m.extractIf p).2 k = some v :=
      get?_extractIfTake.2 ⟨hget, fun w hw => hnot (List.mem_map_of_mem (f := Prod.fst) hw)⟩
    rw [get?_extractIf, hp] at hrest
    cases hrest.2

section Splits

variable {taken : List (κ × ν)} {rest : HashMap κ ν}

/-- The map splits into the entries taken and the entries left. -/
structure Splits (m : HashMap κ ν) (taken : List (κ × ν)) (rest : HashMap κ ν) : Prop where
  nodup : (taken.map Prod.fst).Nodup
  get?_taken : ∀ e ∈ taken, get? m e.1 = some e.2
  get?_rest : ∀ k v, get? rest k = some v ↔ k ∉ taken.map Prod.fst ∧ get? m k = some v

namespace Splits

variable (h : Splits m taken rest) {k : κ} {v : ν}

include h

/-- The keys left are those not taken. -/
theorem mem_rest : k ∈ rest ↔ k ∉ taken.map Prod.fst ∧ k ∈ m := by
  simp only [mem_iff, h.get?_rest, exists_and_left]

theorem mem_of_taken (hk : k ∈ taken.map Prod.fst) : k ∈ m := by
  obtain ⟨⟨k', v⟩, hmem, rfl⟩ := List.mem_map.1 hk
  exact mem_iff.2 ⟨v, h.get?_taken _ hmem⟩

/-- An entry is taken or left. -/
theorem taken_or_rest (hget : get? m k = some v) : (k, v) ∈ taken ∨ get? rest k = some v := by
  by_cases hk : k ∈ taken.map Prod.fst
  · obtain ⟨⟨k', w⟩, hmem, rfl⟩ := List.mem_map.1 hk
    have hw := h.get?_taken _ hmem
    rw [hget, Option.some.injEq] at hw
    exact Or.inl (hw ▸ hmem)
  · exact Or.inr ((h.get?_rest k v).2 ⟨hk, hget⟩)

end Splits

theorem splits_extractIfTake (h : m.extractIfTake p limit = (taken, rest)) :
    Splits m taken rest where
  nodup := by
    have hnodup := nodup_keys_extractIfTake m p limit
    rw [h, List.map_append, List.nodup_append] at hnodup
    exact hnodup.1
  get?_taken e he := (of_mem_extractIfTake (p := p) (by rw [h]; exact he)).1
  get?_rest k v := by
    have htaken : (m.extractIfTake p limit).1 = taken := congrArg Prod.fst h
    have hrest : (m.extractIfTake p limit).2 = rest := congrArg Prod.snd h
    rw [← hrest, ← htaken, get?_extractIfTake, and_comm]
    apply and_congr_left
    intro _
    rw [List.mem_map]
    constructor
    · rintro hnot ⟨⟨k', w⟩, hw, rfl⟩
      exact hnot w hw
    · exact fun hnot w hw => hnot ⟨(k, w), hw, rfl⟩

theorem satisfies_of_taken (h : m.extractIfTake p limit = (taken, rest)) {e : κ × ν}
    (he : e ∈ taken) : p e.1 e.2 = true :=
  (of_mem_extractIfTake (p := p) (by rw [h]; exact he)).2

/-- If an entry that satisfies the predicate is left, the limit has been reached. -/
theorem length_of_left (h : m.extractIfTake p limit = (taken, rest)) {k : κ} {v : ν}
    (hleft : get? rest k = some v) (hsatisfies : p k v = true) : taken.length = limit := by
  have hlength := length_extractIfTake m p limit
  have hperm := (extractIfTake_perm m p limit).countP_eq fun e => p e.1 e.2
  rw [h] at hlength hperm
  have htaken : taken.countP (fun e => p e.1 e.2) = taken.length :=
    List.countP_eq_length.2 fun e he => satisfies_of_taken h he
  have hrest : 0 < rest.toList.countP fun e => p e.1 e.2 :=
    List.countP_pos_iff.2 ⟨(k, v), mem_toList.2 hleft, hsatisfies⟩
  rw [List.countP_append, htaken] at hperm
  dsimp only at hlength hperm
  omega

/-- `drain` takes every entry. -/
theorem splits_drain (m : HashMap κ ν) : Splits m m.toList ∅ where
  nodup := nodup_keys_toList m
  get?_taken e he := mem_toList.1 he
  get?_rest k v := by
    simp only [get?_empty, reduceCtorEq, false_iff, not_and]
    intro hnot hget
    exact hnot (List.mem_map.2 ⟨(k, v), mem_toList.2 hget, rfl⟩)

theorem splits_erase {k : κ} {v : ν} (hget : get? m k = some v) :
    Splits m [(k, v)] (m.erase k) where
  nodup := List.nodup_singleton k
  get?_taken e he := by
    obtain rfl := List.mem_singleton.1 he
    exact hget
  get?_rest k' v' := by
    rw [get?_erase]
    by_cases hk : k' = k <;> simp [hk]

end Splits

end Extraction

end HashMap
