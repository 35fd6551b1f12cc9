/-
What `String.replace` makes of a text.

The replacement goes from left to right and never looks at what it has written.
As a relation on characters it has one result, so that a result that is guessed
from the shape of a text can be compared with the computed one.
-/

import Mathlib.Data.List.Basic

namespace ReplaceAll

open String.Slice.Pattern String.Slice.Pattern.Model

variable {Item : Type*}

inductive Replaced (pat rep : List Item) : List Item → List Item → Prop
  | nil : Replaced pat rep [] []
  | matched {rest out : List Item} (later : Replaced pat rep rest out) :
      Replaced pat rep (pat ++ rest) (rep ++ out)
  | skipped {item : Item} {rest out : List Item} (absent : ¬pat <+: item :: rest)
      (later : Replaced pat rep rest out) : Replaced pat rep (item :: rest) (item :: out)

theorem Replaced.unique {pat rep text left right : List Item} (some : pat ≠ [])
    (first : Replaced pat rep text left) (second : Replaced pat rep text right) : left = right := by
  induction first generalizing right with
  | nil =>
      generalize empty : ([] : List Item) = text at second
      cases second with
      | nil => rfl
      | matched _ => exact absurd (List.append_eq_nil_iff.mp empty.symm).1 some
      | skipped _ _ => cases empty
  | @matched rest out _ ih =>
      generalize whole : pat ++ rest = text at second
      cases second with
      | nil => exact absurd (List.append_eq_nil_iff.mp whole).1 some
      | matched later =>
          rw [ih (List.append_cancel_left whole ▸ later)]
      | skipped absent _ => exact absurd ⟨rest, whole⟩ absent
  | @skipped item rest out absent _ ih =>
      generalize whole : item :: rest = text at second
      cases second with
      | nil => cases whole
      | @matched other _ _ => exact absurd ⟨other, whole.symm⟩ absent
      | skipped _ later =>
          obtain ⟨rfl, rfl⟩ := List.cons.inj whole
          rw [ih later]

theorem Replaced.skip_all {pat rep rest out : List Item} (front : List Item)
    (absent : ∀ before after, front = before ++ after → after ≠ [] → ¬pat <+: after ++ rest)
    (later : Replaced pat rep rest out) : Replaced pat rep (front ++ rest) (front ++ out) := by
  induction front with
  | nil => exact later
  | cons item front ih =>
      refine .skipped (absent [] (item :: front) rfl (by simp)) (ih ?_)
      intro before after split nonempty
      exact absent (item :: before) after (by rw [split]; rfl) nonempty

/-! ### `String.replace` -/

theorem exists_pos {s : String.Slice} {front rest : String} (whole : s.copy = front ++ rest) :
    ∃ pos : s.Pos, pos.Splits front rest := by
  have valid : front.rawEndPos.IsValidForSlice s :=
    String.Pos.Raw.isValidForSlice_iff_exists_append.mpr ⟨front, rest, whole, rfl⟩
  exact ⟨s.pos _ valid, whole, by simp⟩

theorem absent_of_rejected {pat : String} {s : String.Slice} {start stop : s.Pos}
    (rejected : ∀ pos, start ≤ pos → pos < stop → ¬MatchesAt pat pos)
    {before front rest : String} (begins : start.Splits before (front ++ rest))
    (ends : stop.Splits (before ++ front) rest) (first second : List Char)
    (split : front.toList = first ++ second) (nonempty : second ≠ []) :
    ¬pat.toList <+: second ++ rest.toList := by
  rintro ⟨behind, found⟩
  have parts : front = String.ofList first ++ String.ofList second := by
    rw [← String.toList_inj, String.toList_append, String.toList_ofList, String.toList_ofList, split]
  have whole : s.copy = (before ++ String.ofList first) ++ (String.ofList second ++ rest) := by
    rw [begins.eq_append, parts]
    simp only [String.append_assoc]
  obtain ⟨pos, stands⟩ := exists_pos whole
  have after : start ≤ pos := by
    rw [begins.le_iff_exists_eq_append stands]
    exact ⟨String.ofList first, rfl, by rw [parts, String.append_assoc]⟩
  have inside : pos < stop := by
    rw [stands.lt_iff_exists_eq_append ends]
    refine ⟨String.ofList second, ?_, ?_, rfl⟩
    · intro empty
      apply nonempty
      rw [← String.toList_ofList (l := second), empty]
      rfl
    · rw [parts, String.append_assoc]
  apply rejected pos after inside
  rw [ForwardStringSearcher.matchesAt_iff_splits]
  refine ⟨before ++ String.ofList first, String.ofList behind, ?_⟩
  have same : pat ++ String.ofList behind = String.ofList second ++ rest := by
    rw [← String.toList_inj]
    simpa using found
  rw [same]
  exact stands

def write (rep : String) (s : String.Slice) : String → SearchStep s → String
  | sofar, .matched .. => sofar ++ String.ToSlice.toSlice rep
  | sofar, .rejected start stop => sofar ++ s.slice! start stop

theorem replaced_of_search {pat rep : String} {s : String.Slice} {pos : s.Pos}
    {steps : List (SearchStep s)} (search : IsValidSearchFrom pat pos steps) :
    ∀ before rest, pos.Splits before rest →
      ∃ out : List Char, Replaced pat.toList rep.toList rest.toList out ∧
        ∀ sofar : String, (steps.foldl (write rep s) sofar).toList = sofar.toList ++ out := by
  induction search with
  | endPos =>
      intro before rest stands
      have empty : rest = "" := stands.eq_endPos_iff.mp rfl
      rw [empty]
      exact ⟨[], .nil, fun sofar => by simp⟩
  | matched found _ ih =>
      intro before rest stands
      obtain ⟨front, behind, begins, ends⟩ :=
        ForwardStringSearcher.isLongestMatchAt_iff_splits.mp found
      obtain ⟨out, later, fold⟩ := ih _ _ ends
      refine ⟨rep.toList ++ out, ?_, ?_⟩
      · rw [stands.eq_right begins, String.toList_append]
        exact .matched later
      · intro sofar
        rw [List.foldl_cons, fold]
        change (sofar ++ rep.toSlice).toList ++ out = _
        simp
  | @mismatched steps start stop below rejected _ ih =>
      intro before rest stands
      have ends := stop.splits
      obtain ⟨front, _, left, whole⟩ := (stands.lt_iff_exists_eq_append ends).mp below
      rw [left] at ends
      rw [whole] at stands
      obtain ⟨out, later, fold⟩ := ih _ _ ends
      have cut : (s.slice! start stop).copy = front := by
        rw [← String.Slice.slice_eq_slice! (h := Std.le_of_lt below)]
        exact (String.Slice.copy_slice_eq_iff_splits.mpr ⟨_, _, stands, ends⟩).choose_spec
      refine ⟨front.toList ++ out, ?_, ?_⟩
      · rw [whole, String.toList_append]
        apply Replaced.skip_all _ _ later
        intro first second split nonempty
        exact absent_of_rejected rejected stands ends first second split nonempty
      · intro sofar
        rw [List.foldl_cons, fold]
        change (sofar ++ s.slice! start stop).toList ++ out = _
        simp [cut]

theorem replaced_replace (text pat rep : String) (some : pat ≠ "") :
    Replaced pat.toList rep.toList text.toList (text.replace pat rep).toList := by
  have lawful := ForwardStringSearcher.lawfulToForwardSearcherModel some
  have search := lawful.isValidSearchFrom_toList text.toSlice
  obtain ⟨out, replaced, fold⟩ :=
    @replaced_of_search pat rep _ _ _ search "" text (by simp)
  have result : (text.replace pat rep).toList = out := by
    have folded := fold ""
    rw [String.toList_empty, List.nil_append, Std.Iter.foldl_toList] at folded
    exact folded
  rw [result]
  exact replaced

theorem replace_self (pat rep : String) (some : pat ≠ "") : pat.replace pat rep = rep := by
  have computed := replaced_replace pat pat rep some
  have once : Replaced pat.toList rep.toList (pat.toList ++ []) (rep.toList ++ []) := .matched .nil
  rw [List.append_nil, List.append_nil] at once
  have nonempty : pat.toList ≠ [] := fun empty => some (String.toList_eq_nil_iff.mp empty)
  exact String.toList_inj.mp (Replaced.unique nonempty computed once)

end ReplaceAll
