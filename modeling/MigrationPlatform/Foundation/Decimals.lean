/-
Decimal numbers in text.

A decimal has digits only, with a minus sign before those of a negative number.
In a text where a mark follows that is no digit, the number can be read off.
-/

import Mathlib.Data.List.Basic

namespace Decimals

theorem toList_toString (number : Nat) : (toString number).toList = Nat.toDigits 10 number :=
  Nat.toList_repr

theorem isDigit_of_mem {number : Nat} {c : Char} (member : c ∈ (toString number).toList) :
    c.isDigit = true := by
  rw [toList_toString] at member
  exact Nat.isDigit_of_mem_toDigits (by decide) (by decide) member

theorem digits_inj {left right : Nat}
    (same : (toString left).toList = (toString right).toList) : left = right := by
  rw [toList_toString, toList_toString] at same
  have values := congrArg (fun digits => Nat.ofDigitChars 10 digits 0) same
  simpa only [Nat.ofDigitChars_ten_toDigits] using values

theorem not_mem_digits {c : Char} (other : c.isDigit = false) (number : Nat) :
    c ∉ (toString number).toList := by
  intro member
  rw [isDigit_of_mem member] at other
  cases other

theorem toList_toString_neg (number : Nat) :
    (toString (Int.negSucc number)).toList = '-' :: (toString (number + 1)).toList := by
  change ("-" ++ toString (number + 1)).toList = _
  rw [String.toList_append]
  rfl

theorem not_mem_toString {c : Char} (other : c.isDigit = false) (noDash : c ≠ '-') (number : Int) :
    c ∉ (toString number).toList := by
  cases number with
  | ofNat number => exact not_mem_digits other number
  | negSucc number =>
      rw [toList_toString_neg, List.mem_cons, not_or]
      exact ⟨noDash, not_mem_digits other _⟩

theorem append_mark_inj {mark : Char} (left : List Char) :
    ∀ {right l r : List Char}, mark ∉ left → mark ∉ right →
      left ++ mark :: l = right ++ mark :: r → left = right ∧ l = r := by
  induction left with
  | nil =>
      intro right l r _absent absent same
      cases right with
      | nil => exact ⟨rfl, (List.cons.inj same).2⟩
      | cons c right =>
          rw [← (List.cons.inj same).1] at absent
          exact absurd List.mem_cons_self absent
  | cons c left ih =>
      intro right l r absent absentRight same
      cases right with
      | nil =>
          rw [(List.cons.inj same).1] at absent
          exact absurd List.mem_cons_self absent
      | cons d right =>
          obtain ⟨head, tails⟩ := List.cons.inj same
          obtain ⟨tail, rest⟩ := ih (fun member => absent (List.mem_cons_of_mem _ member))
            (fun member => absentRight (List.mem_cons_of_mem _ member)) tails
          rw [head, tail]
          exact ⟨rfl, rest⟩

theorem digits_inj_append {mark : Char} (other : mark.isDigit = false) {left right : Nat}
    {l r : List Char}
    (same : (toString left).toList ++ mark :: l = (toString right).toList ++ mark :: r) :
    left = right ∧ l = r := by
  obtain ⟨texts, rest⟩ := append_mark_inj _ (not_mem_digits other left)
    (not_mem_digits other right) same
  exact ⟨digits_inj texts, rest⟩

theorem append_digits_inj {mark : Char} (other : mark.isDigit = false) {left right : Nat}
    {l r : List Char}
    (same : l ++ mark :: (toString left).toList = r ++ mark :: (toString right).toList) :
    l = r ∧ left = right := by
  have backward := congrArg List.reverse same
  simp only [List.reverse_append, List.reverse_cons, List.append_assoc,
    List.singleton_append] at backward
  obtain ⟨digits, texts⟩ := append_mark_inj _
    (fun member => not_mem_digits other left (List.mem_reverse.mp member))
    (fun member => not_mem_digits other right (List.mem_reverse.mp member)) backward
  exact ⟨List.reverse_inj.mp texts, digits_inj (List.reverse_inj.mp digits)⟩

theorem digits_unsigned (number : Nat) (l r : List Char) :
    (toString number).toList ++ l ≠ '-' :: r := by
  intro same
  cases digits : (toString number).toList with
  | nil =>
      rw [toList_toString] at digits
      exact Nat.toDigits_ne_nil digits
  | cons c rest =>
      have digit : c.isDigit = true := isDigit_of_mem (by rw [digits]; exact List.mem_cons_self)
      rw [digits] at same
      rw [(List.cons.inj same).1] at digit
      exact absurd digit (by decide)

theorem toString_inj_append {mark : Char} (other : mark.isDigit = false) {left right : Int}
    {l r : List Char}
    (same : (toString left).toList ++ mark :: l = (toString right).toList ++ mark :: r) :
    left = right ∧ l = r := by
  cases left with
  | ofNat first =>
      cases right with
      | ofNat second =>
          obtain ⟨numbers, rest⟩ := digits_inj_append other same
          rw [numbers]
          exact ⟨rfl, rest⟩
      | negSucc second =>
          rw [toList_toString_neg] at same
          exact absurd same (digits_unsigned first _ _)
  | negSucc first =>
      cases right with
      | ofNat second =>
          rw [toList_toString_neg] at same
          exact absurd same.symm (digits_unsigned second _ _)
      | negSucc second =>
          rw [toList_toString_neg, toList_toString_neg] at same
          obtain ⟨numbers, rest⟩ := digits_inj_append other (List.cons.inj same).2
          rw [Nat.succ.inj numbers]
          exact ⟨rfl, rest⟩

end Decimals
