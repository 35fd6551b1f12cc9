/-
Lists without what stands at their ends.

A list is what is cut off in front, the trimmed list and what is cut off behind.
Where nothing is to be cut off in front, the trimmed list begins the whole one.
-/

import Mathlib.Data.List.DropRight

namespace Trimming

variable {Item : Type*} (p : Item → Bool)

def trim (items : List Item) : List Item := ((items.dropWhile p).reverse.dropWhile p).reverse

theorem trim_eq_rdropWhile (items : List Item) : trim p items = (items.dropWhile p).rdropWhile p := rfl

variable {p}

theorem dropWhile_of_head {items : List Item} (head : ∀ item ∈ items.head?, p item = false) :
    items.dropWhile p = items := by
  cases items with
  | nil => rfl
  | cons item rest =>
      rw [List.dropWhile_cons, head item rfl]
      rfl

theorem dropWhile_append_of_head {front items : List Item} (all : ∀ item ∈ front, p item = true)
    (head : ∀ item ∈ items.head?, p item = false) : (front ++ items).dropWhile p = items := by
  induction front with
  | nil => exact dropWhile_of_head head
  | cons item front ih =>
      rw [List.cons_append, List.dropWhile_cons, if_pos (all item List.mem_cons_self)]
      exact ih (fun other member => all other (List.mem_cons_of_mem _ member))

theorem exists_dropWhile (items : List Item) :
    ∃ front, items = front ++ items.dropWhile p ∧ ∀ item ∈ front, p item = true :=
  ⟨items.takeWhile p, List.takeWhile_append_dropWhile.symm, fun _ => List.mem_takeWhile_imp⟩

theorem head_dropWhile (items : List Item) : ∀ item ∈ (items.dropWhile p).head?, p item = false := by
  intro item found
  have behind := List.head?_dropWhile_not p items
  rw [Option.mem_def.mp found] at behind
  exact behind

theorem exists_trim_of_head {items : List Item} (head : ∀ item ∈ items.head?, p item = false) :
    ∃ back, items = trim p items ++ back ∧ ∀ item ∈ back, p item = true := by
  refine ⟨items.rtakeWhile p, ?_, ?_⟩
  · rw [trim_eq_rdropWhile, dropWhile_of_head head]
    exact List.rdropWhile_append_rtakeWhile.symm
  · intro item member
    exact List.mem_rtakeWhile_imp member

theorem trim_of_ends {items : List Item} (head : ∀ item ∈ items.head?, p item = false)
    (last : ∀ item ∈ items.getLast?, p item = false) : trim p items = items := by
  rw [trim_eq_rdropWhile, dropWhile_of_head head, List.rdropWhile_eq_self_iff]
  intro nonempty
  rw [last _ (List.getLast?_eq_some_getLast nonempty)]
  exact Bool.false_ne_true

theorem exists_trim (items : List Item) :
    ∃ front back, items = front ++ trim p items ++ back ∧
      (∀ item ∈ front, p item = true) ∧ ∀ item ∈ back, p item = true := by
  obtain ⟨front, parts, all⟩ := exists_dropWhile (p := p) items
  obtain ⟨back, rest, behind⟩ := exists_trim_of_head (head_dropWhile (p := p) items)
  have same : trim p (items.dropWhile p) = trim p items := by
    rw [trim, trim, dropWhile_of_head (head_dropWhile items)]
  refine ⟨front, back, ?_, all, behind⟩
  rw [List.append_assoc, ← same, ← rest]
  exact parts

end Trimming
