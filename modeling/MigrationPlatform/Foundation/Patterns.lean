/-
Patterns that are sequences of classes, and what they match in a text.

A repetition takes as many items as it can and gives them back one by one; the
first way to match that is found in this order is the match. A search goes from
left to right, and what it has matched it does not look at again, but for the item
before a boundary.
-/

import Mathlib.Data.List.Basic

namespace Patterns

variable {Item : Type*}

inductive Part (Item : Type*)
  | one (fits : Item → Bool)
  | maybe (fits : Item → Bool)
  | many (least : Nat) (fits : Item → Bool)
  | boundary (isWord : Item → Bool)

abbrev Pattern (Item : Type*) := List (Part Item)

/-- What is left of the text behind at least so many items, the longest repetition first. -/
def repeatEnds (go : Option Item → List Item → List (List Item)) (fits : Item → Bool) :
    Nat → Option Item → List Item → List (List Item)
  | least, before, [] => if least = 0 then go before [] else []
  | least, before, item :: rest =>
      (if fits item then repeatEnds go fits (least - 1) (some item) rest else []) ++
        if least = 0 then go before (item :: rest) else []

/-- A boundary stands between an item of a word and one of none, or the end. -/
def isBoundary (isWord : Item → Bool) (before after : Option Item) : Bool :=
  before.any isWord != after.any isWord

def oneEnds (go : Option Item → List Item → List (List Item)) (fits : Item → Bool) :
    List Item → List (List Item)
  | [] => []
  | item :: rest => if fits item then go (some item) rest else []

/-- What is left of the text behind each way to match, in the order of preference. -/
def ends : Pattern Item → Option Item → List Item → List (List Item)
  | [], _, text => [text]
  | .one fits :: parts, _, text => oneEnds (ends parts) fits text
  | .maybe fits :: parts, before, text => oneEnds (ends parts) fits text ++ ends parts before text
  | .many least fits :: parts, before, text => repeatEnds (ends parts) fits least before text
  | .boundary isWord :: parts, before, text =>
      if isBoundary isWord before text.head? then ends parts before text else []

/-- The part of the text that is matched where it stands, unless it is empty. -/
def matchLength (pattern : Pattern Item) (before : Option Item) (text : List Item) : Option Nat :=
  match (ends pattern before text).head? with
  | some rest => if rest.length < text.length then some (text.length - rest.length) else none
  | none => none

def Matches (pattern : Pattern Item) (before : Option Item) (middle rest : List Item) : Prop :=
  rest ∈ ends pattern before (middle ++ rest)

inductive Piece (Item : Type*)
  | single (item : Item)
  | hit (items : List Item)
deriving DecidableEq, Repr

/-- `skip` counts the items that still belong to the last hit. -/
def piecesFrom (pattern : Pattern Item) : Nat → Option Item → List Item → List (Piece Item)
  | _, _, [] => []
  | skip + 1, _, item :: rest => piecesFrom pattern skip (some item) rest
  | 0, before, item :: rest =>
      match matchLength pattern before (item :: rest) with
      | some length =>
          .hit ((item :: rest).take length) :: piecesFrom pattern (length - 1) (some item) rest
      | none => .single item :: piecesFrom pattern 0 (some item) rest

def pieces (pattern : Pattern Item) (text : List Item) : List (Piece Item) :=
  piecesFrom pattern 0 none text

def Piece.replaced (mask : List Item) : Piece Item → List Item
  | .single item => [item]
  | .hit _ => mask

def replaceAll (pattern : Pattern Item) (mask text : List Item) : List Item :=
  (pieces pattern text).flatMap (Piece.replaced mask)

section Ends

variable {go : Option Item → List Item → List (List Item)} {fits : Item → Bool}
  {before : Option Item} {text rest : List Item} {least : Nat}

def lastOr (before : Option Item) (read : List Item) : Option Item := read.getLast?.or before

theorem lastOr_cons (before : Option Item) (item : Item) (read : List Item) :
    lastOr (some item) read = lastOr before (item :: read) := by
  unfold lastOr
  rw [List.getLast?_cons]
  cases read.getLast? <;> rfl

theorem mem_repeatEnds :
    rest ∈ repeatEnds go fits least before text ↔
      ∃ front back, text = front ++ back ∧ (∀ item ∈ front, fits item = true) ∧
        least ≤ front.length ∧ rest ∈ go (lastOr before front) back := by
  induction text generalizing least before with
  | nil =>
      rw [repeatEnds]
      constructor
      · intro member
        split at member
        · rename_i zero
          exact ⟨[], [], rfl, List.forall_mem_nil _, Nat.le_of_eq zero, member⟩
        · cases member
      · rintro ⟨front, back, split, _fitting, enough, member⟩
        obtain ⟨rfl, rfl⟩ := List.append_eq_nil_iff.mp split.symm
        rw [if_pos (Nat.le_zero.mp enough)]
        exact member
  | cons item more ih =>
      rw [repeatEnds, List.mem_append]
      constructor
      · rintro (member | member)
        · split at member
          · rename_i fitting
            obtain ⟨front, back, split, all, enough, inside⟩ := ih.mp member
            rw [lastOr_cons before] at inside
            refine ⟨item :: front, back, by rw [split]; rfl, ?_, ?_, inside⟩
            · exact List.forall_mem_cons.mpr ⟨fitting, all⟩
            · rw [List.length_cons]
              omega
          · cases member
        · split at member
          · rename_i zero
            exact ⟨[], _, rfl, List.forall_mem_nil _, Nat.le_of_eq zero, member⟩
          · cases member
      · rintro ⟨front, back, split, all, enough, member⟩
        cases front with
        | nil =>
            right
            rw [if_pos (Nat.le_zero.mp enough)]
            cases split
            exact member
        | cons first front =>
            obtain ⟨rfl, rest⟩ := List.cons.inj split
            left
            obtain ⟨fitting, others⟩ := List.forall_mem_cons.mp all
            rw [if_pos fitting]
            rw [← lastOr_cons before] at member
            rw [List.length_cons] at enough
            exact ih.mpr ⟨front, back, rest, others, by omega, member⟩

theorem mem_oneEnds :
    rest ∈ oneEnds go fits text ↔
      ∃ item more, text = item :: more ∧ fits item = true ∧ rest ∈ go (some item) more := by
  cases text with
  | nil =>
      rw [oneEnds]
      refine iff_of_false List.not_mem_nil ?_
      rintro ⟨_, _, same, _⟩
      cases same
  | cons item more =>
      rw [oneEnds]
      constructor
      · intro member
        split at member
        · rename_i fitting
          exact ⟨item, more, rfl, fitting, member⟩
        · cases member
      · rintro ⟨_, _, same, fitting, member⟩
        cases same
        rw [if_pos fitting]
        exact member

theorem suffix_of_mem_ends (pattern : Pattern Item) :
    ∀ before text, rest ∈ ends pattern before text → rest <:+ text := by
  induction pattern with
  | nil =>
      intro before text member
      rw [ends, List.mem_singleton] at member
      subst member
      exact List.suffix_refl _
  | cons part parts ih =>
      have single : ∀ fits text, rest ∈ oneEnds (ends parts) fits text → rest <:+ text := by
        intro fits text member
        obtain ⟨item, more, same, _, inside⟩ := mem_oneEnds.mp member
        rw [same]
        exact (ih _ _ inside).trans (List.suffix_cons item more)
      intro before text member
      cases part with
      | one fits =>
          rw [ends] at member
          exact single fits text member
      | maybe fits =>
          rw [ends, List.mem_append] at member
          rcases member with member | member
          · exact single fits text member
          · exact ih before text member
      | many least fits =>
          rw [ends] at member
          obtain ⟨front, back, split, _, _, inside⟩ := mem_repeatEnds.mp member
          rw [split]
          exact (ih _ _ inside).trans (List.suffix_append front back)
      | boundary isWord =>
          rw [ends] at member
          split at member
          · exact ih before text member
          · cases member

end Ends

section Repetitions

variable {fits last : Item → Bool} {before : Option Item} {least : Nat} {front rest : List Item}
  {item : Item}

/-- No item that would end the repetition stands among the items that it takes. -/
def Stops (fits last : Item → Bool) (rest : List Item) : Prop :=
  ∀ item ∈ rest.takeWhile fits, last item = false

theorem mem_ends_one {text : List Item} :
    rest ∈ ends [.one last] before text ↔ ∃ item, text = item :: rest ∧ last item = true := by
  rw [ends, mem_oneEnds]
  constructor
  · rintro ⟨item, more, same, fitting, member⟩
    rw [ends, List.mem_singleton] at member
    rw [member]
    exact ⟨item, same, fitting⟩
  · rintro ⟨item, same, fitting⟩
    exact ⟨item, rest, same, fitting, List.mem_singleton.mpr rfl⟩

theorem repeatEnds_of_stops (narrow : ∀ item, last item = true → fits item = true)
    (stops : Stops fits last rest) :
    repeatEnds (ends [.one last]) fits least before rest = [] := by
  rw [List.eq_nil_iff_forall_not_mem]
  intro behind member
  obtain ⟨front, back, split, all, _enough, inside⟩ := mem_repeatEnds.mp member
  obtain ⟨item, same, ending⟩ := mem_ends_one.mp inside
  have taken : item ∈ rest.takeWhile fits := by
    rw [split, same, List.takeWhile_append_of_pos all, List.takeWhile_cons,
      if_pos (narrow item ending)]
    exact List.mem_append_right _ List.mem_cons_self
  rw [stops item taken] at ending
  cases ending

theorem head_repeatEnds (narrow : ∀ item, last item = true → fits item = true)
    (all : ∀ item ∈ front, fits item = true) (ending : last item = true)
    (stops : Stops fits last rest) :
    (repeatEnds (ends [.one last]) fits least before (front ++ item :: rest)).head? =
      if least ≤ front.length then some rest else none := by
  induction front generalizing least before with
  | nil =>
      rw [List.nil_append, repeatEnds, if_pos (narrow item ending),
        repeatEnds_of_stops narrow stops, List.nil_append, List.length_nil]
      by_cases zero : least = 0
      · rw [if_pos zero, if_pos (Nat.le_of_eq zero), ends, oneEnds, if_pos ending]
        rfl
      · rw [if_neg zero, if_neg (by omega)]
        rfl
  | cons first more ih =>
      obtain ⟨fitting, others⟩ := List.forall_mem_cons.mp all
      rw [List.cons_append, repeatEnds, if_pos fitting, List.head?_append, ih others,
        List.length_cons]
      by_cases enough : least - 1 ≤ more.length
      · have whole : least ≤ more.length + 1 := by omega
        rw [if_pos enough, if_pos whole, Option.some_or]
      · have positive : ¬least = 0 := by omega
        have short : ¬least ≤ more.length + 1 := by omega
        rw [if_neg enough, if_neg positive, if_neg short]
        rfl

end Repetitions

/-! ### Searches -/

section Searches

variable {pattern : Pattern Item} {before : Option Item} {text middle rest mask : List Item}

theorem exists_of_matchLength {length : Nat}
    (found : matchLength pattern before text = some length) :
    ∃ middle rest, text = middle ++ rest ∧ middle.length = length ∧ middle ≠ [] ∧
      Matches pattern before middle rest := by
  unfold matchLength at found
  split at found
  · rename_i rest first
    split at found
    · rename_i shorter
      have member := List.mem_of_head? first
      obtain ⟨middle, split⟩ := suffix_of_mem_ends pattern _ _ member
      have sizes := congrArg List.length split
      rw [List.length_append] at sizes
      have size : middle.length = length := by
        have := Option.some.inj found
        omega
      refine ⟨middle, rest, split.symm, size, ?_, ?_⟩
      · intro empty
        rw [empty, List.length_nil] at sizes
        omega
      · unfold Matches
        rw [split]
        exact member
    · cases found
  · cases found

theorem matchLength_of_head (nonempty : middle ≠ [])
    (found : (ends pattern before (middle ++ rest)).head? = some rest) :
    matchLength pattern before (middle ++ rest) = some middle.length := by
  have positive := List.length_pos_iff.mpr nonempty
  have shorter : rest.length < (middle ++ rest).length := by
    rw [List.length_append]
    omega
  unfold matchLength
  rw [found]
  dsimp only
  rw [if_pos shorter, List.length_append, Nat.add_sub_cancel]

theorem matchLength_of_none (found : (ends pattern before text).head? = none) :
    matchLength pattern before text = none := by
  unfold matchLength
  rw [found]

theorem piecesFrom_skip (skip : Nat) : ∀ (before : Option Item) (text : List Item),
    piecesFrom pattern skip before text =
      piecesFrom pattern 0 (lastOr before (text.take skip)) (text.drop skip) := by
  induction skip with
  | zero =>
      intro before text
      rfl
  | succ skip ih =>
      intro before text
      cases text with
      | nil => rw [piecesFrom, List.drop_nil, piecesFrom]
      | cons item more =>
          rw [piecesFrom, ih, lastOr_cons before, List.take_succ_cons, List.drop_succ_cons]

theorem piecesFrom_single {item : Item}
    (unmatched : matchLength pattern before (item :: rest) = none) :
    piecesFrom pattern 0 before (item :: rest) =
      .single item :: piecesFrom pattern 0 (some item) rest := by
  rw [piecesFrom, unmatched]

theorem piecesFrom_hit (nonempty : middle ≠ [])
    (matched : matchLength pattern before (middle ++ rest) = some middle.length) :
    piecesFrom pattern 0 before (middle ++ rest) =
      .hit middle :: piecesFrom pattern 0 middle.getLast? rest := by
  cases middle with
  | nil => exact absurd rfl nonempty
  | cons item more =>
      rw [List.cons_append] at matched ⊢
      rw [piecesFrom, matched]
      dsimp only
      rw [piecesFrom_skip, List.length_cons, Nat.add_sub_cancel, List.take_left, List.drop_left,
        ← List.cons_append, ← List.length_cons, List.take_left, lastOr_cons none]
      unfold lastOr
      rw [Option.or_none]

/-- The induction over the pieces of a text. -/
theorem piecesFrom_induct {Holds : Option Item → List Item → List (Piece Item) → Prop}
    (nil : ∀ before, Holds before [] [])
    (single : ∀ before item rest, matchLength pattern before (item :: rest) = none →
      Holds (some item) rest (piecesFrom pattern 0 (some item) rest) →
      Holds before (item :: rest) (.single item :: piecesFrom pattern 0 (some item) rest))
    (hit : ∀ before middle rest, middle ≠ [] → Matches pattern before middle rest →
      Holds middle.getLast? rest (piecesFrom pattern 0 middle.getLast? rest) →
      Holds before (middle ++ rest) (.hit middle :: piecesFrom pattern 0 middle.getLast? rest)) :
    ∀ before text, Holds before text (piecesFrom pattern 0 before text) := by
  have bounded : ∀ size before text, text.length ≤ size →
      Holds before text (piecesFrom pattern 0 before text) := by
    intro size
    induction size with
    | zero =>
        intro before text short
        rw [List.eq_nil_of_length_eq_zero (Nat.le_zero.mp short)]
        exact nil before
    | succ size ih =>
        intro before text short
        cases text with
        | nil => exact nil before
        | cons item more =>
            cases matched : matchLength pattern before (item :: more) with
            | none =>
                rw [piecesFrom_single matched]
                exact single before item more matched
                  (ih _ more (Nat.le_of_succ_le_succ short))
            | some length =>
                obtain ⟨middle, rest, split, size', nonempty, matches_⟩ :=
                  exists_of_matchLength matched
                rw [split] at matched short ⊢
                rw [piecesFrom_hit nonempty (by rw [matched, size'])]
                refine hit before middle rest nonempty matches_ (ih _ rest ?_)
                have positive := List.length_pos_iff.mpr nonempty
                rw [List.length_append] at short
                omega
  exact fun before text => bounded text.length before text (Nat.le_refl _)

theorem replaceAll_of_masked (masked : ∀ front middle back, text = front ++ middle ++ back →
      Matches pattern front.getLast? middle back → middle = mask) :
    replaceAll pattern mask text = text := by
  have general : ∀ before text, ∀ front : List Item, before = front.getLast? →
      (∀ first middle back, front ++ text = first ++ middle ++ back →
        Matches pattern first.getLast? middle back → middle = mask) →
      (piecesFrom pattern 0 before text).flatMap (Piece.replaced mask) = text := by
    intro before text
    refine @piecesFrom_induct Item pattern (fun before text found =>
      ∀ front : List Item, before = front.getLast? →
        (∀ first middle back, front ++ text = first ++ middle ++ back →
          Matches pattern first.getLast? middle back → middle = mask) →
        found.flatMap (Piece.replaced mask) = text) ?_ ?_ ?_ before text
    · intro _before _front _last _masked
      rfl
    · intro before item rest _unmatched ih front _last masked
      rw [List.flatMap_cons, ih (front ++ [item]) (by rw [List.getLast?_concat])]
      · rfl
      · intro first middle back split
        apply masked
        rw [← split, List.append_assoc, List.singleton_append]
    · intro before middle rest nonempty matches_ ih front last masked
      rw [last] at matches_
      have same := masked front middle rest (List.append_assoc _ _ _).symm matches_
      rw [List.flatMap_cons, ih (front ++ middle)]
      · rw [same]
        rfl
      · rw [List.getLast?_append_of_ne_nil _ nonempty]
      · intro first other back split
        apply masked
        rw [← split, List.append_assoc]
  exact general none text [] rfl masked

end Searches

end Patterns
