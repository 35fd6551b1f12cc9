/-
Places in a text, counted in bytes of UTF-8.

A search returns the byte at which a character begins, and a slice is taken from
one byte to another. It panics unless both stand between two characters, in
order and within the text.
-/

import Mathlib.Data.List.Basic

namespace ByteOffsets

def size (text : List Char) : Nat := text.foldr (fun c n => c.utf8Size + n) 0

def cut : List Char → Nat → Option (List Char × List Char)
  | text, 0 => some ([], text)
  | [], _ + 1 => none
  | c :: rest, offset + 1 =>
      if c.utf8Size ≤ offset + 1 then
        (cut rest (offset + 1 - c.utf8Size)).map (fun parts => (c :: parts.1, parts.2))
      else none

def find (c : Char) : List Char → Option Nat
  | [] => none
  | head :: rest => if head = c then some 0 else (find c rest).map (fun n => head.utf8Size + n)

def rfind (c : Char) : List Char → Option Nat
  | [] => none
  | head :: rest =>
      match rfind c rest with
      | some n => some (head.utf8Size + n)
      | none => if head = c then some 0 else none

inductive SlicePanic
  | outOfBounds
  | outOfOrder
  | notBoundary
deriving DecidableEq, Repr

/-- The bytes from `start` on that stand before `stop`. -/
def slice (text : List Char) (start stop : Nat) : Except SlicePanic (List Char) :=
  if size text < start ∨ size text < stop then .error .outOfBounds
  else if stop < start then .error .outOfOrder
  else
    match cut text stop with
    | none => .error .notBoundary
    | some (front, _) =>
        match cut front start with
        | none => .error .notBoundary
        | some (_, middle) => .ok middle

section Sizes

variable {front back text : List Char} {c : Char}

theorem size_cons : size (c :: text) = c.utf8Size + size text := rfl

theorem size_append : size (front ++ back) = size front + size back := by
  induction front with
  | nil => rw [List.nil_append, show size [] = 0 from rfl, Nat.zero_add]
  | cons c rest ih => rw [List.cons_append, size_cons, ih, size_cons, Nat.add_assoc]

theorem eq_nil_of_size (empty : size text = 0) : text = [] := by
  cases text with
  | nil => rfl
  | cons c rest =>
      rw [size_cons] at empty
      have := c.utf8Size_pos
      omega

theorem cut_size (front back : List Char) :
    cut (front ++ back) (size front) = some (front, back) := by
  induction front with
  | nil =>
      unfold cut
      rfl
  | cons c rest ih =>
      have positive := c.utf8Size_pos
      obtain ⟨before, next⟩ := Nat.exists_eq_add_of_lt positive
      have total : size (c :: rest) = (before + size rest) + 1 := by
        rw [size_cons]
        omega
      rw [total, List.cons_append, cut, if_pos (by omega)]
      have left : before + size rest + 1 - c.utf8Size = size rest := by omega
      rw [left, ih]
      rfl

theorem slice_size (front middle back : List Char) :
    slice (front ++ middle ++ back) (size front) (size front + size middle) = .ok middle := by
  have inside : ¬(size (front ++ middle ++ back) < size front ∨
      size (front ++ middle ++ back) < size front + size middle) := by
    rw [size_append, size_append]
    omega
  have ordered : ¬size front + size middle < size front := by omega
  have upper := cut_size (front ++ middle) back
  rw [size_append] at upper
  unfold slice
  rw [if_neg inside, if_neg ordered, upper]
  dsimp only
  rw [cut_size]

theorem prefix_of_size_le {other : List Char} (begins : front <+: text)
    (otherBegins : other <+: text) (shorter : size front ≤ size other) : front <+: other := by
  rcases List.prefix_or_prefix_of_prefix begins otherBegins with first | ⟨more, same⟩
  · exact first
  · rw [← same, size_append] at shorter
    have empty : more = [] := eq_nil_of_size (by omega)
    rw [empty, List.append_nil] at same
    subst same
    exact List.prefix_rfl

theorem slice_outOfOrder {start stop : Nat} (inside : start ≤ size text) (order : stop < start) :
    slice text start stop = .error .outOfOrder := by
  unfold slice
  rw [if_neg (by omega), if_pos order]

end Sizes

section Searches

variable {front back text : List Char} {c : Char}

theorem find_append (absent : c ∉ front) (back : List Char) :
    find c (front ++ c :: back) = some (size front) := by
  induction front with
  | nil =>
      rw [List.nil_append, find, if_pos rfl]
      rfl
  | cons head rest ih =>
      have different : head ≠ c := fun same => absent (same ▸ List.mem_cons_self)
      rw [List.cons_append, find, if_neg different,
        ih (fun member => absent (List.mem_cons_of_mem _ member)), size_cons]
      rfl

theorem find_absent (absent : c ∉ text) : find c text = none := by
  induction text with
  | nil => rfl
  | cons head rest ih =>
      have different : head ≠ c := fun same => absent (same ▸ List.mem_cons_self)
      rw [find, if_neg different, ih (fun member => absent (List.mem_cons_of_mem _ member))]
      rfl

theorem exists_of_find {n : Nat} (found : find c text = some n) :
    ∃ front back, text = front ++ c :: back ∧ c ∉ front ∧ n = size front := by
  by_cases member : c ∈ text
  · obtain ⟨front, back, split, absent⟩ := List.eq_append_cons_of_mem member
    rw [split, find_append absent] at found
    exact ⟨front, back, split, absent, (Option.some.inj found).symm⟩
  · rw [find_absent member] at found
    cases found

theorem rfind_absent (absent : c ∉ text) : rfind c text = none := by
  induction text with
  | nil => rfl
  | cons head rest ih =>
      have different : head ≠ c := fun same => absent (same ▸ List.mem_cons_self)
      rw [rfind, ih (fun member => absent (List.mem_cons_of_mem _ member))]
      exact if_neg different

theorem rfind_append (front : List Char) (absent : c ∉ back) :
    rfind c (front ++ c :: back) = some (size front) := by
  induction front with
  | nil =>
      rw [List.nil_append, rfind, rfind_absent absent]
      exact if_pos rfl
  | cons head rest ih =>
      rw [List.cons_append, rfind, ih, size_cons]

theorem exists_of_rfind {n : Nat} (found : rfind c text = some n) :
    ∃ front back, text = front ++ c :: back ∧ c ∉ back ∧ n = size front := by
  by_cases member : c ∈ text
  · obtain ⟨back, front, split, absent⟩ :=
      List.eq_append_cons_of_mem (List.mem_reverse.mpr member)
    have split' : text = front.reverse ++ c :: back.reverse := by
      rw [← List.reverse_reverse text, split]
      simp
    have absent' : c ∉ back.reverse := fun inside => absent (List.mem_reverse.mp inside)
    rw [split', rfind_append _ absent'] at found
    exact ⟨front.reverse, back.reverse, split', absent', (Option.some.inj found).symm⟩
  · rw [rfind_absent member] at found
    cases found

theorem slice_found_iff {first last : Char} {start stop : Nat} (single : last.utf8Size = 1)
    (found : find first text = some start) (rfound : rfind last text = some stop) :
    (∃ middle, slice text start (stop + 1) = .ok middle) ↔ start ≤ stop + 1 := by
  obtain ⟨front, back, split, _absent, same⟩ := exists_of_find found
  obtain ⟨before, after, rsplit, _rabsent, rsame⟩ := exists_of_rfind rfound
  have upper : size (before ++ [last]) = stop + 1 := by
    rw [size_append, size_cons, single, rsame]
    rfl
  constructor
  · rintro ⟨middle, taken⟩
    by_contra order
    have inside : start ≤ size text := by
      rw [same, split, size_append]
      omega
    rw [slice_outOfOrder inside (by omega)] at taken
    cases taken
  · intro order
    have begins : front <+: before ++ [last] := by
      have whole : before ++ [last] <+: text := ⟨after, by rw [rsplit]; simp⟩
      exact prefix_of_size_le ⟨_, split.symm⟩ whole (by omega)
    obtain ⟨middle, parts⟩ := begins
    refine ⟨middle, ?_⟩
    have shape : text = front ++ middle ++ after := by
      rw [parts, rsplit]
      simp
    have stops : stop + 1 = size front + size middle := by
      rw [← upper, ← parts, size_append]
    rw [stops, same, shape]
    exact slice_size front middle after

end Searches

end ByteOffsets
