import Mathlib.Order.Bounds.Basic
import Mathlib.Data.List.Basic
import Mathlib.Data.Int.Order.Basic

/-!
# BTreeSet — ordered sets, and the first gap above a point

An ordered set is a strictly increasing list, so the order and the absence of duplicates are part
of the type.  Two operations are all a client needs to change one: inserting items and keeping the
items that satisfy a predicate (`range(x..)` and `split_off(x)` are both such a restriction).

`firstGap c l` walks an increasing list from `c` while the items are consecutive.
`firstGap_isLeast` says what the walk computes: the least integer from `c` on that is not in the
list.
-/

universe u

/-- An ordered set, listed in increasing order. -/
structure BTreeSet (α : Type u) [LinearOrder α] where
  toList : List α
  sorted : toList.Pairwise (· < ·)

namespace BTreeSet

variable {α : Type u} [LinearOrder α]

instance : Membership α (BTreeSet α) where
  mem s a := a ∈ s.toList

instance : EmptyCollection (BTreeSet α) where
  emptyCollection := ⟨[], List.Pairwise.nil⟩

instance (s : BTreeSet α) (a : α) : Decidable (a ∈ s) :=
  inferInstanceAs (Decidable (a ∈ s.toList))

@[simp] theorem notMem_empty (a : α) : a ∉ (∅ : BTreeSet α) :=
  List.not_mem_nil

/-- `is_empty`. -/
def isEmpty (s : BTreeSet α) : Bool :=
  s.toList.isEmpty

theorem isEmpty_iff {s : BTreeSet α} : s.isEmpty = true ↔ s = ∅ := by
  cases s with
  | mk l hl =>
      cases l with
      | nil => simp [isEmpty, EmptyCollection.emptyCollection]
      | cons a l => simp [isEmpty, EmptyCollection.emptyCollection]

/-! ## Insertion -/

/-- Put an item at its place in an increasing list; an item that is there stays once. -/
def insertList (a : α) : List α → List α
  | [] => [a]
  | b :: l =>
      if a < b then
        a :: b :: l
      else if b < a then
        b :: insertList a l
      else
        b :: l

theorem mem_insertList {a c : α} : ∀ {l : List α}, c ∈ insertList a l ↔ c = a ∨ c ∈ l
  | [] => by simp [insertList]
  | b :: l => by
      by_cases hab : a < b
      · simp [insertList, hab]
      · by_cases hba : b < a
        · simp only [insertList, hab, hba, if_false, if_true, List.mem_cons, mem_insertList (l := l)]
          exact or_left_comm
        · have heq : a = b := le_antisymm (not_lt.1 hba) (not_lt.1 hab)
          simp [insertList, heq]

theorem insertList_sorted {a : α} : ∀ {l : List α}, l.Pairwise (· < ·) →
    (insertList a l).Pairwise (· < ·)
  | [], _ => List.pairwise_singleton _ _
  | b :: l, hl => by
      obtain ⟨hb, htail⟩ := List.pairwise_cons.1 hl
      by_cases hab : a < b
      · simp only [insertList, hab, if_true]
        refine List.pairwise_cons.2 ⟨?_, hl⟩
        intro c hc
        rcases List.mem_cons.1 hc with heq | hmem
        · exact heq ▸ hab
        · exact hab.trans (hb c hmem)
      · by_cases hba : b < a
        · simp only [insertList, hab, hba, if_false, if_true]
          refine List.pairwise_cons.2 ⟨?_, insertList_sorted htail⟩
          intro c hc
          rcases mem_insertList.1 hc with heq | hmem
          · exact heq ▸ hba
          · exact hb c hmem
        · simpa [insertList, hab, hba] using hl

/-- `insert`. -/
def insert (s : BTreeSet α) (a : α) : BTreeSet α :=
  ⟨insertList a s.toList, insertList_sorted s.sorted⟩

theorem mem_insert {s : BTreeSet α} {a c : α} : c ∈ s.insert a ↔ c = a ∨ c ∈ s :=
  mem_insertList

/-- `extend`: insert every item of a list. -/
def extend (s : BTreeSet α) (items : List α) : BTreeSet α :=
  items.foldl insert s

theorem mem_extend {c : α} : ∀ {items : List α} {s : BTreeSet α},
    c ∈ s.extend items ↔ c ∈ s ∨ c ∈ items
  | [], s => by simp [extend]
  | a :: items, s => by
      have htail : c ∈ (s.insert a).extend items ↔ c ∈ s.insert a ∨ c ∈ items := mem_extend
      rw [show s.extend (a :: items) = (s.insert a).extend items from rfl, htail, mem_insert,
        List.mem_cons, or_comm (a := c = a), or_assoc]

/-! ## Restriction -/

/-- The items that satisfy a predicate. -/
def restrict (s : BTreeSet α) (p : α → Bool) : BTreeSet α :=
  ⟨s.toList.filter p, s.sorted.filter p⟩

theorem mem_restrict {s : BTreeSet α} {p : α → Bool} {a : α} :
    a ∈ s.restrict p ↔ a ∈ s ∧ p a = true :=
  List.mem_filter

end BTreeSet

/-! ## The first gap -/

/-- Walk an increasing list from `c` while its items are consecutive integers. -/
def firstGap : Int → List Int → Int
  | c, [] => c
  | c, a :: l => if a = c then firstGap (c + 1) l else c

/-- Over an increasing list of integers from `c` on, the walk ends at the least integer from `c`
on that the list misses. -/
theorem firstGap_isLeast : ∀ {l : List Int} {c : Int}, l.Pairwise (· < ·) →
    (∀ a ∈ l, c ≤ a) → IsLeast {n | c ≤ n ∧ n ∉ l} (firstGap c l)
  | [], c, _, _ => by
      refine ⟨⟨le_rfl, List.not_mem_nil⟩, ?_⟩
      rintro n ⟨hn, -⟩
      exact hn
  | a :: l, c, hl, hc => by
      obtain ⟨hgt, htail⟩ := List.pairwise_cons.1 hl
      by_cases hac : a = c
      · subst hac
        simp only [firstGap, if_true]
        -- the items behind the first start one above it
        have hrest : ∀ b ∈ l, a + 1 ≤ b := fun b hb => hgt b hb
        obtain ⟨⟨hle, hnot⟩, hleast⟩ := firstGap_isLeast htail hrest
        refine ⟨⟨by omega, ?_⟩, ?_⟩
        · intro hmem
          rcases List.mem_cons.1 hmem with heq | hmem
          · omega
          · exact hnot hmem
        · rintro n ⟨hn, hnmem⟩
          rw [List.mem_cons, not_or] at hnmem
          exact hleast ⟨by omega, hnmem.2⟩
      -- the first item lies above `c`, so `c` itself is missing
      · simp only [firstGap, hac, if_false]
        refine ⟨⟨le_rfl, ?_⟩, ?_⟩
        · intro hmem
          rcases List.mem_cons.1 hmem with heq | hmem
          · exact hac heq.symm
          · have hca : c ≤ a := hc a List.mem_cons_self
            exact absurd (hgt c hmem) (not_lt.2 hca)
        · rintro n ⟨hn, -⟩
          exact hn
