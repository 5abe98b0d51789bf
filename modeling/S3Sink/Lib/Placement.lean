import Mathlib.Data.List.Basic
import Mathlib.Data.List.Pairwise

/-!
# Placement — items and the places they are kept in

A list of items, each with its present place, in the order the items came.  An item has one place at
a time by construction; `move` carries the items of one place to another, `itemsAt` reads a place.
Two items stand in one order in the list, whatever their places.
-/

universe u v

namespace Placement

variable {α : Type u} {β : Type v}

/-- Every item is moved to the place that `f` names for its present one. -/
def move (f : β → β) (placed : List (α × β)) : List (α × β) :=
  placed.map fun e => (e.1, f e.2)

@[simp] theorem map_fst_move (f : β → β) (placed : List (α × β)) :
    (move f placed).map Prod.fst = placed.map Prod.fst := by
  simp [move, Function.comp_def]

theorem mem_move {f : β → β} {placed : List (α × β)} {a : α} {b : β} :
    (a, b) ∈ move f placed ↔ ∃ b', (a, b') ∈ placed ∧ f b' = b := by
  unfold move
  rw [List.mem_map]
  constructor
  · rintro ⟨e, hmem, heq⟩
    cases heq
    exact ⟨e.2, hmem, rfl⟩
  · rintro ⟨b', hmem, rfl⟩
    exact ⟨(a, b'), hmem, rfl⟩

theorem move_eq_self {f : β → β} {placed : List (α × β)} (h : ∀ e ∈ placed, f e.2 = e.2) :
    move f placed = placed := by
  unfold move
  conv_rhs => rw [← List.map_id placed]
  apply List.map_congr_left
  intro e he
  rw [h e he]
  rfl

variable [DecidableEq β]

/-- The items at a place, in order. -/
def itemsAt (placed : List (α × β)) (place : β) : List α :=
  placed.filterMap fun e => if e.2 = place then some e.1 else none

theorem mem_itemsAt {placed : List (α × β)} {place : β} {a : α} :
    a ∈ itemsAt placed place ↔ (a, place) ∈ placed := by
  unfold itemsAt
  rw [List.mem_filterMap]
  constructor
  · rintro ⟨e, hmem, hsome⟩
    split at hsome
    · next hplace =>
        cases hsome
        rw [← hplace]
        exact hmem
    · cases hsome
  · intro hmem
    exact ⟨(a, place), hmem, if_pos rfl⟩

theorem itemsAt_eq_nil {placed : List (α × β)} {place : β} :
    itemsAt placed place = [] ↔ ∀ a, (a, place) ∉ placed := by
  rw [List.eq_nil_iff_forall_not_mem]
  simp only [mem_itemsAt]

theorem itemsAt_append (placed placed' : List (α × β)) (place : β) :
    itemsAt (placed ++ placed') place = itemsAt placed place ++ itemsAt placed' place :=
  List.filterMap_append

@[simp] theorem itemsAt_singleton (a : α) (place place' : β) :
    itemsAt [(a, place)] place' = if place = place' then [a] else [] := by
  by_cases h : place = place' <;> simp [itemsAt, h]

theorem countP_itemsAt (placed : List (α × β)) (place : β) (q : α → Bool) :
    (itemsAt placed place).countP q = placed.countP fun e => e.2 = place && q e.1 := by
  induction placed with
  | nil => rfl
  | cons e placed ih =>
      have hcons : itemsAt (e :: placed) place = itemsAt [e] place ++ itemsAt placed place :=
        itemsAt_append [e] placed place
      rw [hcons, List.countP_append, ih, itemsAt_singleton e.1 e.2, List.countP_cons]
      by_cases hplace : e.2 = place
      · cases hq : q e.1 <;> simp [hplace, hq, Nat.add_comm]
      · simp [hplace]

/-- The items that end up at a place are those of the place they all come from. -/
theorem itemsAt_move {f : β → β} {placed : List (α × β)} {place place' : β}
    (h : ∀ e ∈ placed, f e.2 = place ↔ e.2 = place') :
    itemsAt (move f placed) place = itemsAt placed place' := by
  unfold itemsAt move
  rw [List.filterMap_map]
  apply List.filterMap_congr
  intro e he
  simp only [Function.comp_apply, h e he]

/-! ## Two items of a list -/

/-- Of two items of a list one stands before the other. -/
theorem pairwise_or_swap {R : α → α → Prop} {l : List α} (h : l.Pairwise R) {a b : α} (ha : a ∈ l)
    (hb : b ∈ l) (hne : a ≠ b) : R a b ∨ R b a := by
  have : Std.Symm fun a b => R a b ∨ R b a := ⟨fun _ _ => Or.symm⟩
  have hsymm : l.Pairwise fun a b => R a b ∨ R b a := h.imp Or.inl
  exact hsymm.forall ha hb hne

/-- If no item occurs twice, two items stand in one order only. -/
theorem not_sublist_swap {a b : α} {l : List α} (hnodup : l.Nodup) (hab : [a, b].Sublist l) :
    ¬ [b, a].Sublist l := by
  induction l with
  | nil => cases hab
  | cons x l ih =>
      rw [List.nodup_cons] at hnodup
      intro hba
      rcases List.sublist_cons_iff.1 hab with hrest | ⟨r, heq, hr⟩
      · rcases List.sublist_cons_iff.1 hba with hrest' | ⟨r, heq, -⟩
        · exact ih hnodup.2 hrest hrest'
        · cases heq
          exact hnodup.1 (hrest.subset (List.mem_cons_of_mem a List.mem_cons_self))
      · cases heq
        have hb : b ∈ l := List.singleton_sublist.1 hr
        rcases List.sublist_cons_iff.1 hba with hrest | ⟨r, heq, -⟩
        · exact hnodup.1 (hrest.subset (List.mem_cons_of_mem b List.mem_cons_self))
        · cases heq
          exact hnodup.1 hb

/-! ## Items in the order of their places -/

/-- A filter that keeps every item of a place. -/
theorem itemsAt_filter {placed : List (α × β)} {place : β} {q : α × β → Bool}
    (h : ∀ e ∈ placed, e.2 = place → q e = true) :
    itemsAt (placed.filter q) place = itemsAt placed place := by
  induction placed with
  | nil => rfl
  | cons e placed ih =>
      have hrest := ih fun e' he' => h e' (List.mem_cons_of_mem e he')
      have hcons : ∀ l : List (α × β), itemsAt (e :: l) place =
          itemsAt [e] place ++ itemsAt l place := fun l => itemsAt_append [e] l place
      by_cases hq : q e = true
      · rw [List.filter_cons_of_pos hq, hcons (placed.filter q), hcons placed, hrest]
      · have hplace : ¬ e.2 = place := fun heq => hq (h e List.mem_cons_self heq)
        rw [List.filter_cons_of_neg hq, hcons placed, hrest, itemsAt_singleton e.1 e.2,
          if_neg hplace]
        rfl

theorem itemsAt_filter_eq_nil {placed : List (α × β)} {place : β} {q : α × β → Bool}
    (h : ∀ e ∈ placed, e.2 = place → q e = false) : itemsAt (placed.filter q) place = [] := by
  refine itemsAt_eq_nil.2 fun a hmem => ?_
  obtain ⟨hplaced, hq⟩ := List.mem_filter.1 hmem
  rw [h (a, place) hplaced rfl] at hq
  cases hq

theorem map_fst_filter (placed : List (α × β)) (place : β) :
    (placed.filter fun e => decide (e.2 = place)).map Prod.fst = itemsAt placed place := by
  induction placed with
  | nil => rfl
  | cons e placed ih =>
      rw [itemsAt] at ih ⊢
      by_cases hplace : e.2 = place
      · simp [hplace, ih]
      · simp [hplace, ih]

omit [DecidableEq β] in
/-- If what has a property comes first, the list splits there. -/
theorem eq_filter_append {γ : Type u} {q : γ → Bool} {l : List γ}
    (h : l.Pairwise fun a b => q b = true → q a = true) :
    l = l.filter q ++ l.filter fun a => !q a := by
  induction l with
  | nil => rfl
  | cons a l ih =>
      rw [List.pairwise_cons] at h
      by_cases ha : q a = true
      · rw [List.filter_cons_of_pos ha, List.filter_cons_of_neg (by simp [ha]), List.cons_append,
          ← ih h.2]
      · have hnone : l.filter q = [] :=
          List.filter_eq_nil_iff.2 fun b hb hqb => ha (h.1 b hb hqb)
        rw [List.filter_cons_of_neg ha, List.filter_cons_of_pos (by simp [ha]), hnone,
          List.nil_append]
        congr 1
        exact (List.filter_eq_self.2 fun b hb => by
          simpa using List.filter_eq_nil_iff.1 hnone b hb).symm

/-- Items that came in the order of their places are those of one place after the other. -/
theorem map_fst_eq_flatMap {places : List β} (hnodup : places.Nodup) {placed : List (α × β)}
    (hplaces : ∀ e ∈ placed, e.2 ∈ places)
    (horder : placed.Pairwise fun a b => a.2 = b.2 ∨ [a.2, b.2].Sublist places) :
    placed.map Prod.fst = places.flatMap (itemsAt placed) := by
  induction places generalizing placed with
  | nil =>
      have hnil : placed = [] := List.eq_nil_iff_forall_not_mem.2 fun e he =>
        absurd (hplaces e he) List.not_mem_nil
      rw [hnil]
      rfl
  | cons place places ih =>
      rw [List.nodup_cons] at hnodup
      -- the items of the first place come first
      have hfirst : placed.Pairwise fun a b => decide (b.2 = place) = true →
          decide (a.2 = place) = true := by
        refine horder.imp fun {a b} hab hb => ?_
        simp only [decide_eq_true_eq] at hb ⊢
        rcases hab with heq | hsub
        · exact heq.trans hb
        · rcases List.sublist_cons_iff.1 hsub with hrest | ⟨r, heq, -⟩
          · exact absurd (hb ▸ hrest.subset (by simp)) hnodup.1
          · exact (List.cons.inj heq).1
      have hothers : (placed.filter fun e => !decide (e.2 = place)).map Prod.fst =
          places.flatMap (itemsAt (placed.filter fun e => !decide (e.2 = place))) := by
        refine ih hnodup.2 (fun e he => ?_) ((horder.filter _).imp_of_mem ?_)
        · obtain ⟨hplaced, hne⟩ := List.mem_filter.1 he
          exact (List.mem_cons.1 (hplaces e hplaced)).resolve_left (by simpa using hne)
        · refine fun {a b} ha _ hab => hab.imp_right fun hsub => ?_
          rcases List.sublist_cons_iff.1 hsub with hrest | ⟨r, heq, -⟩
          · exact hrest
          · exact absurd (List.cons.inj heq).1 (by simpa using (List.mem_filter.1 ha).2)
      have hkept : ∀ place' ∈ places,
          itemsAt (placed.filter fun e => !decide (e.2 = place)) place' =
            itemsAt placed place' := by
        intro place' hmem
        refine itemsAt_filter fun e _ heq => ?_
        have hne : place' ≠ place := fun hsame => hnodup.1 (hsame ▸ hmem)
        simp [heq, hne]
      calc
        placed.map Prod.fst
            = (placed.filter fun e => decide (e.2 = place)).map Prod.fst ++
                (placed.filter fun e => !decide (e.2 = place)).map Prod.fst := by
                  rw [← List.map_append, ← eq_filter_append hfirst]
        _ = itemsAt placed place ++ places.flatMap (itemsAt placed) := by
                  rw [map_fst_filter, hothers, List.flatMap_congr hkept]
        _ = (place :: places).flatMap (itemsAt placed) := rfl

omit [DecidableEq β] in
/-- What is empty may be left out. -/
theorem flatMap_filter_eq {q : β → Bool} {f g : β → List α} {l : List β}
    (hsame : ∀ b ∈ l, q b = true → f b = g b) (hnil : ∀ b ∈ l, q b = false → f b = []) :
    l.flatMap f = (l.filter q).flatMap g := by
  induction l with
  | nil => rfl
  | cons b l ih =>
      have hrest := ih (fun b' hb' => hsame b' (List.mem_cons_of_mem b hb'))
        fun b' hb' => hnil b' (List.mem_cons_of_mem b hb')
      cases hq : q b with
      | true =>
          rw [List.filter_cons_of_pos hq, List.flatMap_cons, List.flatMap_cons, hrest,
            hsame b List.mem_cons_self hq]
      | false =>
          rw [List.filter_cons_of_neg (by simp [hq]), List.flatMap_cons, hrest,
            hnil b List.mem_cons_self hq, List.nil_append]

end Placement
