/-
Slash-separated paths as lists of characters.

Cleaning a path drops empty and dot segments and resolves the dot-dot segments
it can. The rules here are about the last segment: a proper name at the end of
a path, or of a joined path, is still its last segment afterwards.
-/

import MigrationPlatform.Foundation.Splitting
import Mathlib.Data.List.TakeWhile
import Mathlib.Logic.Relation

namespace SlashPaths

def lastSegment (path : List Char) : List Char :=
  (path.reverse.takeWhile (fun c => c != '/')).reverse

/-- The segments that stay, in order; `kept` holds those so far, last first. -/
def cleanSegments (rooted : Bool) : List (List Char) → List (List Char) → List (List Char)
  | kept, [] => kept.reverse
  | kept, segment :: rest =>
      if segment = [] ∨ segment = ['.'] then cleanSegments rooted kept rest
      else if segment = ['.', '.'] then
        match kept with
        | [] => if rooted then cleanSegments rooted [] rest else cleanSegments rooted [segment] rest
        | top :: below =>
            if top = ['.', '.'] then cleanSegments rooted (segment :: top :: below) rest
            else cleanSegments rooted below rest
      else cleanSegments rooted (segment :: kept) rest

def clean (path : List Char) : List Char :=
  let rooted := path.head? == some '/'
  let text := ['/'].intercalate (cleanSegments rooted [] (path.splitOn '/'))
  if rooted then '/' :: text else if text = [] then ['.'] else text

/-- Empty parts are left out. -/
def join (parts : List (List Char)) : List Char :=
  match parts.filter (fun part => !part.isEmpty) with
  | [] => []
  | part :: rest => clean (['/'].intercalate (part :: rest))

structure ProperName (name : List Char) : Prop where
  nonempty : name ≠ []
  notDot : name ≠ ['.']
  notDots : name ≠ ['.', '.']
  noSlash : '/' ∉ name

theorem takes_name {name : List Char} (noSlash : '/' ∉ name) :
    ∀ c ∈ name.reverse, (c != '/') = true := by
  intro c present
  apply bne_iff_ne.mpr
  intro same
  rw [same] at present
  exact noSlash (List.mem_reverse.mp present)

theorem lastSegment_of_no_slash {name : List Char} (noSlash : '/' ∉ name) :
    lastSegment name = name := by
  unfold lastSegment
  rw [List.takeWhile_eq_self_iff.mpr (takes_name noSlash), List.reverse_reverse]

theorem lastSegment_append {name : List Char} (directory : List Char) (noSlash : '/' ∉ name) :
    lastSegment (directory ++ '/' :: name) = name := by
  have stops : (['/'] ++ directory.reverse).takeWhile (fun c => c != '/') = [] := by
    rfl
  unfold lastSegment
  rw [List.reverse_append, List.reverse_cons, List.append_assoc,
    List.takeWhile_append_of_pos (takes_name noSlash), stops, List.append_nil,
    List.reverse_reverse]

theorem not_mem_lastSegment (path : List Char) : '/' ∉ lastSegment path := by
  intro present
  have taken := List.mem_takeWhile_imp (List.mem_reverse.mp present)
  exact absurd rfl (bne_iff_ne.mp taken)

theorem intercalate_concat {segments : List (List Char)} (name : List Char)
    (more : segments ≠ []) :
    ['/'].intercalate (segments ++ [name]) = ['/'].intercalate segments ++ '/' :: name := by
  induction segments with
  | nil => exact absurd rfl more
  | cons segment rest ih =>
      cases rest with
      | nil => simp
      | cons second others =>
          have later := ih (List.cons_ne_nil second others)
          simp only [List.cons_append, List.intercalate_cons_cons] at later ⊢
          rw [later, List.append_assoc]
          simp

theorem lastSegment_intercalate (segments : List (List Char)) {name : List Char}
    (noSlash : '/' ∉ name) : lastSegment (['/'].intercalate (segments ++ [name])) = name := by
  by_cases alone : segments = []
  · rw [alone]
    simp only [List.nil_append, List.intercalate_singleton]
    exact lastSegment_of_no_slash noSlash
  · rw [intercalate_concat name alone]
    exact lastSegment_append _ noSlash

section Cleaning

variable {name : List Char}

theorem cleanSegments_concat (proper : ProperName name) (rooted : Bool) :
    ∀ segments kept : List (List Char),
      cleanSegments rooted kept (segments ++ [name]) =
        cleanSegments rooted kept segments ++ [name] := by
  have kept_name : ¬ (name = [] ∨ name = ['.']) := by
    rintro (empty | dot)
    · exact proper.nonempty empty
    · exact proper.notDot dot
  intro segments
  induction segments with
  | nil =>
      intro kept
      rw [List.nil_append]
      unfold cleanSegments
      rw [if_neg kept_name, if_neg proper.notDots]
      simp only [cleanSegments, List.reverse_cons]
  | cons segment rest ih =>
      intro kept
      rw [List.cons_append]
      unfold cleanSegments
      split
      · exact ih kept
      · split
        · cases kept with
          | nil =>
              dsimp only
              split
              · exact ih []
              · exact ih [segment]
          | cons top below =>
              dsimp only
              split
              · exact ih (segment :: top :: below)
              · exact ih below
        · exact ih (segment :: kept)

theorem lastSegment_clean (proper : ProperName name) {path : List Char} {before : List (List Char)}
    (splits : path.splitOn '/' = before ++ [name]) : lastSegment (clean path) = name := by
  unfold clean
  dsimp only
  rw [splits, cleanSegments_concat proper]
  have final := lastSegment_intercalate
    (cleanSegments (path.head? == some '/') [] before) proper.noSlash
  split
  · by_cases alone : cleanSegments (path.head? == some '/') [] before = []
    · rw [alone]
      simp only [List.nil_append, List.intercalate_singleton]
      exact lastSegment_append [] proper.noSlash
    · rw [intercalate_concat name alone, ← List.cons_append]
      exact lastSegment_append _ proper.noSlash
  · split
    · rename_i empty
      rw [empty] at final
      exact absurd final.symm proper.nonempty
    · exact final

theorem splitOn_intercalate_concat (parts : List (List Char)) (noSlash : '/' ∉ name) :
    ∃ before, (['/'].intercalate (parts ++ [name])).splitOn '/' = before ++ [name] := by
  by_cases alone : parts = []
  · refine ⟨[], ?_⟩
    rw [alone]
    simp only [List.nil_append, List.intercalate_singleton]
    exact List.splitOn_eq_singleton noSlash
  · refine ⟨(['/'].intercalate parts).splitOn '/', ?_⟩
    rw [intercalate_concat name alone, List.splitOn_append_cons_self,
      List.splitOn_eq_singleton noSlash]

theorem lastSegment_join (proper : ProperName name) (parts : List (List Char)) :
    lastSegment (join (parts ++ [name])) = name := by
  have present : (!name.isEmpty) = true := by
    cases shape : name with
    | nil => exact absurd shape proper.nonempty
    | cons head tail => rfl
  have kept : (parts ++ [name]).filter (fun part => !part.isEmpty) =
      parts.filter (fun part => !part.isEmpty) ++ [name] := by
    rw [List.filter_append]
    simp only [List.filter_cons, present, if_true, List.filter_nil]
  unfold join
  rw [kept]
  obtain ⟨before, splits⟩ :=
    splitOn_intercalate_concat (parts.filter (fun part => !part.isEmpty)) proper.noSlash
  cases filtered : parts.filter (fun part => !part.isEmpty) with
  | nil =>
      rw [filtered] at splits
      exact lastSegment_clean proper splits
  | cons first others =>
      rw [filtered] at splits
      exact lastSegment_clean proper splits

end Cleaning

theorem mem_cleanSegments (rooted : Bool) :
    ∀ (segments kept : List (List Char)) (segment : List Char),
      segment ∈ cleanSegments rooted kept segments →
      segment ∈ kept ∨ (segment ∈ segments ∧ segment ≠ []) := by
  intro segments
  induction segments with
  | nil =>
      intro kept segment member
      exact .inl (List.mem_reverse.mp member)
  | cons head rest ih =>
      -- whatever the recursive call keeps comes from its stack or from the rest
      have later : ∀ stack kept : List (List Char), ∀ segment,
          (∀ piece ∈ stack, piece ∈ kept ∨ (piece = head ∧ head ≠ [])) →
          segment ∈ cleanSegments rooted stack rest →
          segment ∈ kept ∨ (segment ∈ head :: rest ∧ segment ≠ []) := by
        intro stack kept segment from_stack member
        rcases ih stack segment member with inStack | inRest
        · rcases from_stack segment inStack with old | new
          · exact .inl old
          · right
            rw [new.1]
            exact ⟨List.mem_cons_self, new.2⟩
        · exact .inr ⟨List.mem_cons_of_mem head inRest.1, inRest.2⟩
      intro kept segment member
      unfold cleanSegments at member
      split at member
      · exact later kept kept segment (fun piece old => .inl old) member
      · rename_i named
        have nonempty : head ≠ [] := fun empty => named (.inl empty)
        have pushed : ∀ piece ∈ head :: kept, piece ∈ kept ∨ (piece = head ∧ head ≠ []) := by
          intro piece inStack
          rcases List.mem_cons.mp inStack with same | old
          · exact .inr ⟨same, nonempty⟩
          · exact .inl old
        split at member
        · cases kept with
          | nil =>
              dsimp only at member
              split at member
              · exact later [] [] segment (fun piece old => .inl old) member
              · exact later [head] [] segment pushed member
          | cons top below =>
              dsimp only at member
              split at member
              · exact later (head :: top :: below) (top :: below) segment pushed member
              · exact later below (top :: below) segment
                  (fun piece old => .inl (List.mem_cons_of_mem top old)) member
        · exact later (head :: kept) kept segment pushed member

theorem lastSegment_clean_ne_nil {path : List Char} (unrooted : path.head? ≠ some '/') :
    lastSegment (clean path) ≠ [] := by
  have relative : (path.head? == some '/') = false := beq_eq_false_iff_ne.mpr unrooted
  unfold clean
  dsimp only
  rw [relative]
  simp only [Bool.false_eq_true, if_false]
  split
  · exact List.cons_ne_nil '.' []
  · rename_i some_text
    rcases List.eq_nil_or_concat (cleanSegments false [] (path.splitOn '/')) with none_kept | kept
    · rw [none_kept] at some_text
      exact absurd rfl some_text
    · obtain ⟨before, final, shape⟩ := kept
      have member : final ∈ cleanSegments false [] (path.splitOn '/') := by
        rw [shape, List.concat_eq_append]
        exact List.mem_append_right before (List.mem_singleton_self final)
      rcases mem_cleanSegments false _ _ final member with absent | found
      · exact absurd absent List.not_mem_nil
      · rw [shape, List.concat_eq_append,
          lastSegment_intercalate before (Splitting.not_mem_of_mem_splitOn path final found.1)]
        exact found.2

theorem lastSegment_join_ne_nil {part : List Char} (rest : List (List Char)) (nonempty : part ≠ [])
    (unrooted : part.head? ≠ some '/') : lastSegment (join (part :: rest)) ≠ [] := by
  have present : (!part.isEmpty) = true := by
    cases shape : part with
    | nil => exact absurd shape nonempty
    | cons head tail => rfl
  unfold join
  simp only [List.filter_cons, present, if_true]
  apply lastSegment_clean_ne_nil
  cases shape : part with
  | nil => exact absurd shape nonempty
  | cons head tail =>
      rw [shape] at unrooted
      cases rest.filter (fun part => !part.isEmpty) with
      | nil =>
          simp only [List.intercalate_singleton]
          exact unrooted
      | cons second others =>
          simp only [List.intercalate_cons_cons, List.cons_append]
          exact unrooted

/-! ### Paths that lead to the same place -/

/-- A segment that may follow the root of a tree or be left again. -/
def IsStep (segment : List Char) : Prop :=
  segment ≠ [] ∧ segment ≠ ['.'] ∧ segment ≠ ['.', '.']

instance (segment : List Char) : Decidable (IsStep segment) :=
  inferInstanceAs (Decidable (segment ≠ [] ∧ segment ≠ ['.'] ∧ segment ≠ ['.', '.']))

/-- Leaving out a segment that goes nowhere, or one that is left again. -/
inductive Shorter : List (List Char) → List (List Char) → Prop
  | empty (before after : List (List Char)) : Shorter (before ++ [] :: after) (before ++ after)
  | dot (before after : List (List Char)) : Shorter (before ++ ['.'] :: after) (before ++ after)
  | back (before after : List (List Char)) {name : List Char} (step : IsStep name) :
      Shorter (before ++ name :: ['.', '.'] :: after) (before ++ after)

def SamePath : List (List Char) → List (List Char) → Prop := Relation.EqvGen Shorter

theorem Shorter.within {left right : List (List Char)} (shorter : Shorter left right)
    (front behind : List (List Char)) :
    Shorter (front ++ left ++ behind) (front ++ right ++ behind) := by
  cases shorter with
  | empty before after =>
      have step := Shorter.empty (front ++ before) (after ++ behind)
      simpa only [List.append_assoc, List.cons_append] using step
  | dot before after =>
      have step := Shorter.dot (front ++ before) (after ++ behind)
      simpa only [List.append_assoc, List.cons_append] using step
  | back before after name =>
      have step := Shorter.back (front ++ before) (after ++ behind) name
      simpa only [List.append_assoc, List.cons_append] using step

theorem SamePath.within {left right : List (List Char)} (same : SamePath left right)
    (front behind : List (List Char)) :
    SamePath (front ++ left ++ behind) (front ++ right ++ behind) := by
  induction same with
  | rel left right shorter => exact .rel _ _ (shorter.within front behind)
  | refl left => exact .refl _
  | symm left right _ ih => exact .symm _ _ ih
  | trans left middle right _ _ first second => exact .trans _ _ _ first second

theorem cleanSegments_cons (rooted : Bool) (kept : List (List Char)) (segment : List Char)
    (rest : List (List Char)) :
    cleanSegments rooted kept (segment :: rest) =
      if segment = [] ∨ segment = ['.'] then cleanSegments rooted kept rest
      else if segment = ['.', '.'] then
        match kept with
        | [] => if rooted then cleanSegments rooted [] rest else cleanSegments rooted [segment] rest
        | top :: below =>
            if top = ['.', '.'] then cleanSegments rooted (segment :: top :: below) rest
            else cleanSegments rooted below rest
      else cleanSegments rooted (segment :: kept) rest := by
  rw [cleanSegments.eq_def]

theorem cleanSegments_append (rooted : Bool) (before after : List (List Char)) :
    ∀ kept, cleanSegments rooted kept (before ++ after) =
      cleanSegments rooted (cleanSegments rooted kept before).reverse after := by
  induction before with
  | nil =>
      intro kept
      rw [List.nil_append, cleanSegments, List.reverse_reverse]
  | cons segment rest ih =>
      intro kept
      rw [List.cons_append, cleanSegments_cons, cleanSegments_cons]
      split
      · exact ih kept
      · split
        · cases kept with
          | nil =>
              dsimp only
              split
              · exact ih []
              · exact ih [segment]
          | cons top below =>
              dsimp only
              split
              · exact ih (segment :: top :: below)
              · exact ih below
        · exact ih (segment :: kept)

theorem cleanSegments_steps {rooted : Bool} {segments : List (List Char)}
    (steps : ∀ segment ∈ segments, IsStep segment) :
    ∀ kept, cleanSegments rooted kept segments = kept.reverse ++ segments := by
  induction segments with
  | nil =>
      intro kept
      exact (List.append_nil _).symm
  | cons segment rest ih =>
      intro kept
      obtain ⟨nonempty, notDot, notDots⟩ := steps segment List.mem_cons_self
      rw [cleanSegments_cons, if_neg (not_or.mpr ⟨nonempty, notDot⟩), if_neg notDots,
        ih (fun other member => steps other (List.mem_cons_of_mem _ member)), List.reverse_cons,
        List.append_assoc]
      rfl

theorem cleanSegments_shorter {left right : List (List Char)} (shorter : Shorter left right)
    (rooted : Bool) : cleanSegments rooted [] left = cleanSegments rooted [] right := by
  cases shorter with
  | empty before after =>
      rw [cleanSegments_append, cleanSegments_append, cleanSegments_cons, if_pos (.inl rfl)]
  | dot before after =>
      rw [cleanSegments_append, cleanSegments_append, cleanSegments_cons, if_pos (.inr rfl)]
  | @back before after name step =>
      obtain ⟨nonempty, notDot, notDots⟩ := step
      have up : ¬(['.', '.'] = ([] : List Char) ∨ ['.', '.'] = ['.']) := by decide
      rw [cleanSegments_append, cleanSegments_append, cleanSegments_cons,
        if_neg (not_or.mpr ⟨nonempty, notDot⟩), if_neg notDots, cleanSegments_cons, if_neg up,
        if_pos rfl]
      dsimp only
      rw [if_neg notDots]

theorem samePath_cleanSegments (segments : List (List Char)) :
    ∀ kept : List (List Char), (∀ segment ∈ kept, segment ≠ [] ∧ segment ≠ ['.']) →
      SamePath (kept.reverse ++ segments) (cleanSegments false kept segments) := by
  induction segments with
  | nil =>
      intro kept _named
      rw [List.append_nil, cleanSegments]
      exact .refl _
  | cons segment rest ih =>
      intro kept named
      have pushed : (segment :: kept).reverse ++ rest = kept.reverse ++ segment :: rest := by
        rw [List.reverse_cons, List.append_assoc]
        rfl
      rw [cleanSegments_cons]
      split
      · rename_i stays
        apply Relation.EqvGen.trans _ (kept.reverse ++ rest) _ _ (ih kept named)
        rcases stays with empty | dot
        · rw [empty]
          exact .rel _ _ (.empty _ _)
        · rw [dot]
          exact .rel _ _ (.dot _ _)
      · rename_i moves
        rw [not_or] at moves
        have namedPush : ∀ other ∈ segment :: kept, other ≠ [] ∧ other ≠ ['.'] :=
          List.forall_mem_cons.mpr ⟨moves, named⟩
        split
        · rename_i up
          cases kept with
          | nil =>
              simp only [Bool.false_eq_true, if_false]
              exact ih [segment] namedPush
          | cons top below =>
              dsimp only
              split
              · rw [← pushed]
                exact ih (segment :: top :: below) namedPush
              · rename_i step
                obtain ⟨nonempty, notDot⟩ := named top List.mem_cons_self
                have namedBelow : ∀ other ∈ below, other ≠ [] ∧ other ≠ ['.'] :=
                  fun other member => named other (List.mem_cons_of_mem _ member)
                apply Relation.EqvGen.trans _ (below.reverse ++ rest) _ _ (ih below namedBelow)
                rw [up, List.reverse_cons, List.append_assoc]
                exact .rel _ _ (.back _ _ ⟨nonempty, notDot, step⟩)
        · rw [← pushed]
          exact ih (segment :: kept) namedPush

theorem cleanSegments_eq_iff (left right : List (List Char)) :
    cleanSegments false [] left = cleanSegments false [] right ↔ SamePath left right := by
  constructor
  · intro same
    have first := samePath_cleanSegments left [] (List.forall_mem_nil _)
    have second := samePath_cleanSegments right [] (List.forall_mem_nil _)
    rw [same] at first
    exact .trans _ _ _ first (.symm _ _ second)
  · intro same
    induction same with
    | rel left right shorter => exact cleanSegments_shorter shorter false
    | refl left => rfl
    | symm left right _ ih => exact ih.symm
    | trans left middle right _ _ first second => exact first.trans second

/-- Where a path leads: whether it starts at the root, and the segments it goes through. -/
def walk (path : List Char) : Bool × List (List Char) :=
  (path.head? == some '/', cleanSegments (path.head? == some '/') [] (path.splitOn '/'))

/-- A path that goes on from the directory by the segments of the name, at least
one, none of which stays or leads back. -/
structure StrictlyInside (directory name path : List Char) : Prop where
  named : ∀ segment ∈ name.splitOn '/', IsStep segment
  leads : walk path = ((walk directory).1, (walk directory).2 ++ name.splitOn '/')

theorem isStep_cleanSegments {segments : List (List Char)} :
    ∀ kept : List (List Char), (∀ segment ∈ kept, IsStep segment) →
      ∀ segment ∈ cleanSegments true kept segments, IsStep segment := by
  induction segments with
  | nil =>
      intro kept steps segment member
      rw [cleanSegments, List.mem_reverse] at member
      exact steps segment member
  | cons head rest ih =>
      intro kept steps
      rw [cleanSegments_cons]
      split
      · exact ih kept steps
      · rename_i moves
        rw [not_or] at moves
        split
        · cases kept with
          | nil => exact ih [] steps
          | cons top below =>
              have step := steps top List.mem_cons_self
              dsimp only
              rw [if_neg step.2.2]
              exact ih below (fun other member => steps other (List.mem_cons_of_mem _ member))
        · rename_i notDots
          exact ih (head :: kept) (List.forall_mem_cons.mpr ⟨⟨moves.1, moves.2, notDots⟩, steps⟩)

theorem cleanSegments_idem (rooted : Bool) (segments : List (List Char)) :
    cleanSegments rooted [] (cleanSegments rooted [] segments) = cleanSegments rooted [] segments := by
  cases rooted with
  | false =>
      rw [cleanSegments_eq_iff]
      exact .symm _ _ (samePath_cleanSegments segments [] (List.forall_mem_nil _))
  | true =>
      rw [cleanSegments_steps (isStep_cleanSegments [] (List.forall_mem_nil _))]
      rfl

theorem head_intercalate {first : List Char} (rest : List (List Char)) (nonempty : first ≠ []) :
    (['/'].intercalate (first :: rest)).head? = first.head? := by
  cases first with
  | nil => exact absurd rfl nonempty
  | cons c more =>
      cases rest with
      | nil => rfl
      | cons second others => rfl

theorem walk_clean (path : List Char) : walk (clean path) = walk path := by
  have whole : ∀ segment ∈ cleanSegments (path.head? == some '/') [] (path.splitOn '/'),
      segment ≠ [] ∧ '/' ∉ segment := by
    intro segment member
    rcases mem_cleanSegments _ _ _ segment member with absent | found
    · exact absurd absent List.not_mem_nil
    · exact ⟨found.2, Splitting.not_mem_of_mem_splitOn path segment found.1⟩
  have again := cleanSegments_idem (path.head? == some '/') (path.splitOn '/')
  unfold clean walk
  dsimp only
  cases kept : cleanSegments (path.head? == some '/') [] (path.splitOn '/') with
  | nil =>
      cases rooted : path.head? == some '/' with
      | true => rfl
      | false => rfl
  | cons first rest =>
      rw [kept] at whole again
      have split_text : (['/'].intercalate (first :: rest)).splitOn '/' = first :: rest :=
        List.splitOn_intercalate '/' (fun segment member => (whole segment member).2)
          (List.cons_ne_nil first rest)
      have head := head_intercalate rest (whole first List.mem_cons_self).1
      have nonempty : ['/'].intercalate (first :: rest) ≠ [] := by
        intro empty
        rw [empty] at head
        exact (whole first List.mem_cons_self).1 (List.head?_eq_none_iff.mp head.symm)
      cases rooted : path.head? == some '/' with
      | true =>
          rw [rooted] at again
          have split_rooted : ('/' :: ['/'].intercalate (first :: rest)).splitOn '/' =
              [] :: first :: rest := by
            rw [List.splitOn_cons_eq_if_modifyHead, split_text]
            rfl
          simp only [if_true, List.head?_cons, beq_self_eq_true]
          rw [split_rooted, cleanSegments_cons, if_pos (.inl rfl), again]
      | false =>
          rw [rooted] at again
          have relative : (first.head? == some '/') = false := by
            rw [beq_eq_false_iff_ne]
            intro slash
            exact (whole first List.mem_cons_self).2 (List.mem_of_mem_head? slash)
          simp only [Bool.false_eq_true, if_false]
          rw [if_neg nonempty, head, relative, split_text, again]

theorem clean_of_steps {name : List Char} (steps : ∀ segment ∈ name.splitOn '/', IsStep segment) :
    clean name = name := by
  have relative : (name.head? == some '/') = false := by
    rw [beq_eq_false_iff_ne]
    intro slash
    cases name with
    | nil => cases slash
    | cons c rest =>
        have same : c = '/' := Option.some.inj slash
        rw [same, List.splitOn_cons_eq_if_modifyHead] at steps
        exact (steps [] List.mem_cons_self).1 rfl
  have nonempty : name ≠ [] := by
    intro empty
    rw [empty, List.splitOn_nil] at steps
    exact (steps [] List.mem_cons_self).1 rfl
  unfold clean
  dsimp only
  rw [relative, cleanSegments_steps steps, List.reverse_nil, List.nil_append,
    List.intercalate_splitOn]
  simp only [Bool.false_eq_true, if_false]
  rw [if_neg nonempty]

theorem strictlyInside_join (directory : List Char) {name : List Char}
    (steps : ∀ segment ∈ name.splitOn '/', IsStep segment) :
    StrictlyInside directory name (join [directory, name]) := by
  have nonempty : name ≠ [] := by
    intro empty
    rw [empty, List.splitOn_nil] at steps
    exact (steps [] List.mem_cons_self).1 rfl
  refine ⟨steps, ?_⟩
  cases directory with
  | nil =>
      cases name with
      | nil => exact absurd rfl nonempty
      | cons c rest =>
          have alone : join [[], c :: rest] = clean (c :: rest) := by
            simp only [join, List.filter_cons, List.isEmpty_nil, List.isEmpty_cons, Bool.not_true,
              Bool.not_false, Bool.false_eq_true, if_false, if_true, List.filter_nil,
              List.intercalate_singleton]
          have relative : ((c :: rest).head? == some '/') = false := by
            rw [beq_eq_false_iff_ne]
            intro slash
            have same : c = '/' := Option.some.inj slash
            rw [same, List.splitOn_cons_eq_if_modifyHead] at steps
            exact (steps [] List.mem_cons_self).1 rfl
          rw [alone, walk_clean, walk, relative, cleanSegments_steps steps]
          rfl
  | cons d more =>
      cases name with
      | nil => exact absurd rfl nonempty
      | cons c rest =>
          have both : join [d :: more, c :: rest] = clean ((d :: more) ++ '/' :: c :: rest) := by
            simp only [join, List.filter_cons, List.isEmpty_cons, Bool.not_false, if_true,
              List.filter_nil, List.intercalate_cons_cons, List.intercalate_singleton,
              List.append_assoc, List.cons_append, List.nil_append]
          have split : ((d :: more) ++ '/' :: c :: rest).splitOn '/' =
              (d :: more).splitOn '/' ++ (c :: rest).splitOn '/' :=
            List.splitOn_append_cons_self (d :: more) (c :: rest)
          rw [both, walk_clean, walk, split, cleanSegments_append, cleanSegments_steps steps,
            List.reverse_reverse]
          rfl

end SlashPaths
