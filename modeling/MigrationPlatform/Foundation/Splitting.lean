/-
The pieces of a list between its separators.

`List.splitOn` of the library comes with the lemmas that put the pieces together
again; these say what a piece has, and where the first piece stands that is not
empty.
-/

import Mathlib.Data.List.Basic

namespace Splitting

variable {Item : Type*} [BEq Item] {mark : Item}

theorem splitOn_cons (item : Item) (rest : List Item) :
    ∃ head tail, rest.splitOn mark = head :: tail ∧
      (item :: rest).splitOn mark =
        if (item == mark) = true then [] :: head :: tail else (item :: head) :: tail := by
  cases pieces : rest.splitOn mark with
  | nil => exact absurd pieces (List.splitOn_ne_nil mark rest)
  | cons head tail =>
      refine ⟨head, tail, rfl, ?_⟩
      rw [List.splitOn_cons_eq_if_modifyHead, pieces]
      rfl

def firstPiece (mark : Item) (items : List Item) : List Item :=
  ((items.splitOn mark).find? (fun piece => !piece.isEmpty)).getD []

theorem mem_of_mem_splitOn (items : List Item) :
    ∀ piece ∈ items.splitOn mark, ∀ item ∈ piece, item ∈ items := by
  induction items with
  | nil =>
      intro piece member item inside
      rw [List.splitOn_nil, List.mem_singleton] at member
      rw [member] at inside
      cases inside
  | cons first rest ih =>
      obtain ⟨head, tail, pieces, split_cons⟩ := @splitOn_cons Item _ mark first rest
      rw [pieces, List.forall_mem_cons] at ih
      have later : ∀ piece ∈ tail, ∀ item ∈ piece, item ∈ first :: rest :=
        fun piece member item inside => .tail _ (ih.2 piece member item inside)
      rw [split_cons]
      split
      · refine List.forall_mem_cons.mpr ⟨List.forall_mem_nil _, ?_⟩
        exact List.forall_mem_cons.mpr ⟨fun item inside => .tail _ (ih.1 item inside), later⟩
      · refine List.forall_mem_cons.mpr ⟨?_, later⟩
        intro item inside
        rcases List.mem_cons.mp inside with same | found
        · rw [same]
          exact List.mem_cons_self
        · exact .tail _ (ih.1 item found)

variable [LawfulBEq Item]

theorem not_mem_of_mem_splitOn (items : List Item) :
    ∀ piece ∈ items.splitOn mark, mark ∉ piece := by
  induction items with
  | nil =>
      intro piece member
      rw [List.splitOn_nil, List.mem_singleton] at member
      rw [member]
      exact List.not_mem_nil
  | cons item rest ih =>
      obtain ⟨head, tail, pieces, split_cons⟩ := @splitOn_cons Item _ mark item rest
      rw [pieces, List.forall_mem_cons] at ih
      rw [split_cons]
      split
      · exact List.forall_mem_cons.mpr ⟨List.not_mem_nil, List.forall_mem_cons.mpr ih⟩
      · rename_i other
        refine List.forall_mem_cons.mpr ⟨?_, ih.2⟩
        intro member
        rcases List.mem_cons.mp member with same | inside
        · exact other (beq_iff_eq.mpr same.symm)
        · exact ih.1 inside

theorem exists_mem_splitOn {item : Item} (other : item ≠ mark) (items : List Item) :
    item ∈ items → ∃ piece ∈ items.splitOn mark, item ∈ piece := by
  induction items with
  | nil =>
      intro absent
      cases absent
  | cons first rest ih =>
      intro member
      obtain ⟨head, tail, pieces, split_cons⟩ := @splitOn_cons Item _ mark first rest
      rw [pieces] at ih
      rw [split_cons]
      split
      · rename_i separates
        rcases List.mem_cons.mp member with same | found
        · exact absurd (same.trans (beq_iff_eq.mp separates)) other
        · obtain ⟨piece, among, inside⟩ := ih found
          exact ⟨piece, .tail _ among, inside⟩
      · rcases List.mem_cons.mp member with same | found
        · refine ⟨first :: head, List.mem_cons_self, ?_⟩
          rw [same]
          exact List.mem_cons_self
        · obtain ⟨piece, among, inside⟩ := ih found
          rcases List.mem_cons.mp among with first_piece | later
          · rw [first_piece] at inside
            exact ⟨first :: head, List.mem_cons_self, .tail _ inside⟩
          · exact ⟨piece, .tail _ later, inside⟩

theorem firstPiece_parts (items : List Item) (found : firstPiece mark items ≠ []) :
    ∃ blanks rest, items = blanks ++ (firstPiece mark items ++ rest) ∧
      (∀ item ∈ blanks, item = mark) ∧ (rest = [] ∨ ∃ more, rest = mark :: more) := by
  induction items with
  | nil => exact absurd rfl found
  | cons item rest ih =>
      obtain ⟨head, tail, pieces, split_cons⟩ := @splitOn_cons Item _ mark item rest
      by_cases separates : (item == mark) = true
      · have same : firstPiece mark (item :: rest) = firstPiece mark rest := by
          unfold firstPiece
          rw [split_cons, if_pos separates, ← pieces, List.find?_cons]
          rfl
        rw [same] at found ⊢
        obtain ⟨blanks, later, whole, marks, ends⟩ := ih found
        refine ⟨item :: blanks, later, ?_, ?_, ends⟩
        · rw [List.cons_append, ← whole]
        · exact List.forall_mem_cons.mpr ⟨beq_iff_eq.mp separates, marks⟩
      · have same : firstPiece mark (item :: rest) = item :: head := by
          unfold firstPiece
          rw [split_cons, if_neg separates, List.find?_cons]
          rfl
        have whole := @List.intercalate_splitOn Item rest _ _ mark
        rw [pieces] at whole
        rw [same]
        cases tail with
        | nil =>
            rw [List.intercalate_singleton] at whole
            refine ⟨[], [], ?_, List.forall_mem_nil _, .inl rfl⟩
            rw [whole, List.append_nil, List.nil_append]
        | cons next others =>
            rw [List.intercalate_cons_cons, List.append_assoc] at whole
            refine ⟨[], mark :: [mark].intercalate (next :: others), ?_,
              List.forall_mem_nil _, .inr ⟨_, rfl⟩⟩
            rw [List.nil_append, List.cons_append, ← whole]
            rfl

theorem splitOn_append_left {front : List Item} (noMark : mark ∉ front) (items : List Item) :
    ∃ head tail, items.splitOn mark = head :: tail ∧
      (front ++ items).splitOn mark = (front ++ head) :: tail := by
  induction front with
  | nil =>
      cases pieces : items.splitOn mark with
      | nil => exact absurd pieces (List.splitOn_ne_nil mark items)
      | cons head tail => exact ⟨head, tail, rfl, by rw [List.nil_append, List.nil_append, pieces]⟩
  | cons first rest ih =>
      have other : mark ≠ first := fun same => noMark (same ▸ List.mem_cons_self)
      have later : mark ∉ rest := fun inside => noMark (List.mem_cons_of_mem first inside)
      obtain ⟨head, tail, pieces, joined⟩ := ih later
      obtain ⟨next, more, split, split_cons⟩ := @splitOn_cons Item _ mark first (rest ++ items)
      rw [joined] at split
      obtain ⟨sameHead, sameTail⟩ := List.cons.inj split
      refine ⟨head, tail, pieces, ?_⟩
      rw [List.cons_append, split_cons, if_neg (fun same => other (beq_iff_eq.mp same).symm),
        ← sameHead, ← sameTail]
      rfl

theorem splitOn_append_right {back : List Item} (noMark : mark ∉ back) (items : List Item) :
    ∃ before last, items.splitOn mark = before ++ [last] ∧
      (items ++ back).splitOn mark = before ++ [last ++ back] := by
  induction items with
  | nil => exact ⟨[], [], List.splitOn_nil mark, List.splitOn_eq_singleton noMark⟩
  | cons item rest ih =>
      obtain ⟨before, last, pieces, joined⟩ := ih
      rw [List.cons_append, List.splitOn_cons_eq_if_modifyHead, List.splitOn_cons_eq_if_modifyHead,
        pieces, joined]
      split
      · exact ⟨[] :: before, last, rfl, rfl⟩
      · cases before with
        | nil => exact ⟨[], item :: last, rfl, rfl⟩
        | cons head tail => exact ⟨(item :: head) :: tail, last, rfl, rfl⟩

theorem splitOn_map {change : Item → Item} (keeps : change mark = mark) (items : List Item) :
    (items.map change).splitOn mark =
      (items.splitOn mark).flatMap (fun piece => (piece.map change).splitOn mark) := by
  induction items with
  | nil => rfl
  | cons item rest ih =>
      obtain ⟨head, tail, pieces, split_cons⟩ := @splitOn_cons Item _ mark item rest
      rw [pieces, List.flatMap_cons] at ih
      rw [split_cons, List.map_cons, List.splitOn_cons_eq_if_modifyHead, ih]
      by_cases same : item = mark
      · rw [same, keeps]
        simp only [beq_self_eq_true, if_true, List.flatMap_cons]
        rfl
      · rw [if_neg (fun equal => same (beq_iff_eq.mp equal)), List.flatMap_cons, List.map_cons,
          List.splitOn_cons_eq_if_modifyHead]
        split
        · rfl
        · cases inner : (head.map change).splitOn mark with
          | nil => exact absurd inner (List.splitOn_ne_nil mark _)
          | cons first more => rfl

end Splitting
