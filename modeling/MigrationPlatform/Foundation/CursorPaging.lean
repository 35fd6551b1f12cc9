/-
Paging through the marked keys of a store whose marks change on the way.

A page is the first keys, in ascending order, that are marked and lie above a
cursor. Its keys are visited in order, and a visit may change the mark of its
key and of keys below, but of none above. What was marked above the cursor is
then the page and what is marked above its last key afterwards, so that paging
visits each key that was marked once, whatever the visits do to the marks.
-/

import Mathlib.Data.List.Sort

namespace CursorPaging

variable {Key State : Type*} [LinearOrder Key]

def above (cursor : Key) (keys : List Key) : List Key :=
  keys.filter (fun key => decide (cursor < key))

def page (limit : Nat) (cursor : Key) (keys : List Key) : List Key :=
  (above cursor keys).take limit

def Keeps (marked : State → List Key) (key : Key) (before after : State) : Prop :=
  above key (marked after) = above key (marked before)

inductive Visits (marked : State → List Key) : State → List Key → State → Prop
  | nil (s : State) : Visits marked s [] s
  | cons {s mid last : State} {key : Key} {keys : List Key} (kept : Keeps marked key s mid)
      (rest : Visits marked mid keys last) : Visits marked s (key :: keys) last

/-! ### Keys above a cursor -/

section Above

variable {cursor : Key} {keys : List Key}

theorem mem_above {key : Key} : key ∈ above cursor keys ↔ key ∈ keys ∧ cursor < key := by
  unfold above
  rw [List.mem_filter, decide_eq_true_iff]

theorem above_above {higher : Key} (bound : cursor ≤ higher) (keys : List Key) :
    above higher (above cursor keys) = above higher keys := by
  unfold above
  rw [List.filter_filter]
  apply List.filter_congr
  intro key _member
  rw [Bool.and_eq_left_iff_imp]
  intro beyond
  exact decide_eq_true (lt_of_le_of_lt bound (of_decide_eq_true beyond))

theorem above_ascending (ascending : keys.Pairwise (· < ·)) (cursor : Key) :
    (above cursor keys).Pairwise (· < ·) :=
  ascending.sublist List.filter_sublist

theorem filter_above_last {Item : Type*} {key : Item → Key} {items : List Item} {limit : Nat}
    {last : Item} (ascending : (items.map key).Pairwise (· < ·))
    (ends : (items.take limit).getLast? = some last) :
    items.filter (fun item => decide (key last < key item)) = items.drop limit := by
  obtain ⟨front, shape⟩ := List.getLast?_eq_some_iff.mp ends
  have whole : items = (front ++ [last]) ++ items.drop limit := by
    rw [← shape, List.take_append_drop]
  have order := ascending
  rw [whole, List.map_append, List.map_append] at order
  obtain ⟨within, _behind, across⟩ := List.pairwise_append.mp order
  have noneOfPage : (front ++ [last]).filter (fun item => decide (key last < key item)) = [] := by
    apply List.filter_eq_nil_iff.mpr
    intro item member
    rw [decide_eq_true_iff, not_lt]
    rcases List.mem_append.mp member with earlier | same
    · have before := (List.pairwise_append.mp within).2.2 (key item) (List.mem_map_of_mem earlier)
        (key last) (List.mem_map_of_mem (List.mem_singleton_self last))
      exact le_of_lt before
    · exact le_of_eq (congrArg key (List.mem_singleton.mp same))
  have allBehind : (items.drop limit).filter (fun item => decide (key last < key item)) =
      items.drop limit := by
    apply List.filter_eq_self.mpr
    intro item member
    apply decide_eq_true
    exact across (key last)
      (List.mem_append_right _ (List.mem_map_of_mem (List.mem_singleton_self last))) (key item)
      (List.mem_map_of_mem member)
  calc items.filter (fun item => decide (key last < key item))
      = ((front ++ [last]) ++ items.drop limit).filter (fun item => decide (key last < key item)) :=
        by rw [← whole]
    _ = (front ++ [last]).filter (fun item => decide (key last < key item)) ++
          (items.drop limit).filter (fun item => decide (key last < key item)) :=
        List.filter_append ..
    _ = items.drop limit := by rw [noneOfPage, allBehind, List.nil_append]

theorem above_last {limit : Nat} {last : Key} (ascending : keys.Pairwise (· < ·))
    (ends : (keys.take limit).getLast? = some last) : above last keys = keys.drop limit := by
  have order : (keys.map id).Pairwise (· < ·) := by
    rw [List.map_id]
    exact ascending
  exact filter_above_last order ends

end Above

section Visiting

variable {marked : State → List Key} {s last : State} {keys : List Key}

theorem Keeps.above {key cursor : Key} (kept : Keeps marked key s last) (bound : key ≤ cursor) :
    CursorPaging.above cursor (marked last) = CursorPaging.above cursor (marked s) := by
  rw [← above_above bound (marked last), kept, above_above bound]

theorem Visits.above {cursor : Key} (visits : Visits marked s keys last)
    (bound : ∀ key ∈ keys, key ≤ cursor) :
    CursorPaging.above cursor (marked last) = CursorPaging.above cursor (marked s) := by
  induction visits with
  | nil s => rfl
  | @cons s mid last key keys kept _rest ih =>
      have later := ih (fun other member => bound other (List.mem_cons_of_mem _ member))
      rw [later, kept.above (bound key List.mem_cons_self)]

end Visiting

section Pages

variable {marked : State → List Key} {s last : State} {limit : Nat} {cursor : Key}

theorem page_append_rest {key : Key} (ascending : (marked s).Pairwise (· < ·))
    (ends : (page limit cursor (marked s)).getLast? = some key)
    (visits : Visits marked s (page limit cursor (marked s)) last) :
    page limit cursor (marked s) ++ above key (marked last) = above cursor (marked s) := by
  have order := above_ascending ascending cursor
  have ofPage : key ∈ above cursor (marked s) :=
    List.mem_of_mem_take (List.mem_of_getLast? ends)
  have bound : ∀ other ∈ page limit cursor (marked s), other ≤ key := by
    obtain ⟨front, shape⟩ := List.getLast?_eq_some_iff.mp ends
    intro other member
    have pageOrder : (page limit cursor (marked s)).Pairwise (· < ·) :=
      order.sublist (List.take_sublist _ _)
    rw [shape] at member pageOrder
    rcases List.mem_append.mp member with earlier | same
    · exact le_of_lt ((List.pairwise_append.mp pageOrder).2.2 other earlier key List.mem_cons_self)
    · exact le_of_eq (List.mem_singleton.mp same)
  have rest : above key (marked last) = (above cursor (marked s)).drop limit := by
    calc above key (marked last)
        = above key (marked s) := visits.above bound
      _ = above key (above cursor (marked s)) :=
          (above_above (le_of_lt (mem_above.mp ofPage).2) (marked s)).symm
      _ = (above cursor (marked s)).drop limit := above_last order ends
  rw [rest]
  exact List.take_append_drop limit _

theorem page_of_short {keys : List Key} (short : (page limit cursor keys).length < limit) :
    page limit cursor keys = above cursor keys := by
  unfold page at short ⊢
  apply List.take_of_length_le
  rw [List.length_take] at short
  omega

end Pages

end CursorPaging
