/-
Texts with named holes, such as `{name}`.

A scanner reads a text as items and holes. Replacing the holes of one name in
the text is filling these pieces, as long as no filled text makes a hole with
the braces around it: a list of pieces without such braces is read back from its
text.
-/

import MigrationPlatform.Foundation.ReplaceAll

namespace HoleTemplates

open ReplaceAll

/-- The braces, and the items that a name begins with and goes on with. -/
structure Grammar (Item : Type*) where
  opening : Item
  closing : Item
  starts : Item → Bool
  continues : Item → Bool
  starts_continues : ∀ item, starts item = true → continues item = true
  opening_outside : continues opening = false
  closing_outside : continues closing = false
  distinct : opening ≠ closing

inductive Piece (Item : Type*)
  | item (item : Item)
  | hole (name : List Item)

variable {Item : Type*} (g : Grammar Item)

namespace Grammar

def isName : List Item → Bool
  | [] => false
  | first :: rest => g.starts first && rest.all g.continues

def goesOn : List Item → Item → Bool
  | [], item => g.starts item
  | _ :: _, item => g.continues item

def opened : Option (List Item) → List Item
  | none => []
  | some name => g.opening :: name.reverse

def braced (name : List Item) : List Item := g.opening :: name ++ [g.closing]

def spellPiece : Piece Item → List Item
  | .item item => [item]
  | .hole name => g.braced name

def spell (ps : List (Piece Item)) : List Item := ps.flatMap g.spellPiece

/-- `started` holds the name that is being read behind a brace, newest item first. -/
def pieces [DecidableEq Item] (started : Option (List Item)) : List Item → List (Piece Item)
  | [] => (g.opened started).map .item
  | item :: rest =>
      match started with
      | none =>
          if item = g.opening then pieces (some []) rest else .item item :: pieces none rest
      | some name =>
          if item = g.closing ∧ name ≠ [] then .hole name.reverse :: pieces none rest
          else if g.goesOn name item = true then pieces (some (item :: name)) rest
          else
            (g.opened (some name)).map .item ++
              if item = g.opening then pieces (some []) rest else .item item :: pieces none rest

end Grammar

def fillSome (values : List Item → Option (List Item)) (ps : List (Piece Item)) : List (Piece Item) :=
  ps.flatMap (fun piece =>
    match piece with
    | .item item => [.item item]
    | .hole name =>
        match values name with
        | none => [.hole name]
        | some value => value.map .item)

def single [DecidableEq Item] (name value : List Item) (own : List Item) : Option (List Item) :=
  if own = name then some value else none

def fill (values : List Item → List Item) (ps : List (Piece Item)) : List Item :=
  ps.flatMap (fun piece =>
    match piece with
    | .item item => [item]
    | .hole name => values name)

def holes (ps : List (Piece Item)) : List (List Item) :=
  ps.filterMap (fun piece =>
    match piece with
    | .item _ => none
    | .hole name => some name)

/-! ### Filling -/

theorem fillSome_append (values : List Item → Option (List Item)) (first second : List (Piece Item)) :
    fillSome values (first ++ second) = fillSome values first ++ fillSome values second :=
  List.flatMap_append

theorem fillSome_items (values : List Item → Option (List Item)) (items : List Item) :
    fillSome values (items.map .item) = items.map .item := by
  induction items with
  | nil => rfl
  | cons item rest ih =>
      change Piece.item item :: fillSome values (rest.map .item) = _
      rw [ih]
      rfl

theorem fillSome_fillSome (first second : List Item → Option (List Item)) (ps : List (Piece Item)) :
    fillSome second (fillSome first ps) = fillSome (fun name => (first name).or (second name)) ps := by
  induction ps with
  | nil => rfl
  | cons piece rest ih =>
      cases piece with
      | item item =>
          change Piece.item item :: fillSome second (fillSome first rest) = _
          rw [ih]
          rfl
      | hole name =>
          cases found : first name with
          | none =>
              simp only [fillSome, List.flatMap_cons, found, Option.none_or] at ih ⊢
              rw [List.flatMap_append, ih]
              simp
          | some value =>
              simp only [fillSome, List.flatMap_cons, found, Option.some_or] at ih ⊢
              rw [List.flatMap_append, ih]
              exact congrArg (· ++ _) (fillSome_items second value)

theorem fillSome_none (ps : List (Piece Item)) : fillSome (fun _ => none) ps = ps := by
  induction ps with
  | nil => rfl
  | cons piece rest ih =>
      cases piece <;> exact congrArg (_ :: ·) ih

theorem fillSome_of_total {values : List Item → Option (List Item)} {ps : List (Piece Item)}
    (total : ∀ name ∈ holes ps, (values name).isSome = true) :
    fillSome values ps = (fill (fun name => (values name).getD []) ps).map .item := by
  induction ps with
  | nil => rfl
  | cons piece rest ih =>
      cases piece with
      | item item =>
          change Piece.item item :: fillSome values rest = .item item :: (fill _ rest).map .item
          rw [ih total]
      | hole name =>
          have later := ih (fun other member => total other (List.mem_cons_of_mem _ member))
          obtain ⟨value, found⟩ := Option.isSome_iff_exists.mp (total name List.mem_cons_self)
          simp only [fillSome, fill, List.flatMap_cons, found, Option.getD_some,
            List.map_append] at later ⊢
          rw [later]

variable {name : List Item}

theorem mem_holes_fillSome {values : List Item → Option (List Item)} {ps : List (Piece Item)}
    :
    name ∈ holes (fillSome values ps) ↔ name ∈ holes ps ∧ values name = none := by
  induction ps with
  | nil => simp [holes, fillSome]
  | cons piece rest ih =>
      cases piece with
      | item item => exact ih
      | hole own =>
          have behind : name ∈ holes (.hole own :: rest) ↔ name = own ∨ name ∈ holes rest :=
            List.mem_cons
          cases found : values own with
          | none =>
              have kept : fillSome values (.hole own :: rest) = .hole own :: fillSome values rest := by
                simp [fillSome, found]
              have front : name ∈ holes (.hole own :: fillSome values rest) ↔
                  name = own ∨ name ∈ holes (fillSome values rest) := List.mem_cons
              rw [kept, front, behind, ih]
              grind
          | some value =>
              have gone : holes (fillSome values (.hole own :: rest)) = holes (fillSome values rest) := by
                simp [fillSome, holes, found, List.filterMap_map]
              rw [gone, behind, ih]
              grind

theorem split_fill {values : List Item → List Item} {ps : List (Piece Item)} {item : Item}
    (free : ∀ name ∈ holes ps, item ∉ values name) {front back : List Item}
    (split : fill values ps = front ++ item :: back) :
    ∃ before after, ps = before ++ .item item :: after ∧
      fill values before = front ∧ fill values after = back := by
  induction ps generalizing front with
  | nil =>
      cases front <;> cases split
  | cons piece rest ih =>
      cases piece with
      | item own =>
          change own :: fill values rest = front ++ item :: back at split
          cases front with
          | nil =>
              obtain ⟨rfl, behind⟩ := List.cons.inj split
              exact ⟨[], rest, rfl, rfl, behind⟩
          | cons first front =>
              obtain ⟨rfl, behind⟩ := List.cons.inj split
              obtain ⟨before, after, rfl, left, right⟩ := ih free behind
              exact ⟨.item own :: before, after, rfl, congrArg (own :: ·) left, right⟩
      | hole name =>
          change values name ++ fill values rest = front ++ item :: back at split
          have outside := free name List.mem_cons_self
          have later : ∀ other ∈ holes rest, item ∉ values other :=
            fun other member => free other (List.mem_cons_of_mem _ member)
          rcases List.append_eq_append_iff.mp split with ⟨excess, left, right⟩ | ⟨excess, left, right⟩
          · obtain ⟨before, after, rfl, filled, behind⟩ := ih later right
            refine ⟨.hole name :: before, after, rfl, ?_, behind⟩
            rw [left, ← filled]
            rfl
          · cases excess with
            | nil =>
                have start : fill values rest = [] ++ item :: back := right.symm
                obtain ⟨before, after, rfl, filled, behind⟩ := ih later start
                refine ⟨.hole name :: before, after, rfl, ?_, behind⟩
                change values name ++ fill values before = front
                rw [filled, left]
                simp
            | cons other excess =>
                rw [← (List.cons.inj right).1] at left
                refine absurd ?_ outside
                rw [left]
                simp

namespace Grammar

variable {g}

theorem starts_opening : g.starts g.opening = false := by
  rw [Bool.eq_false_iff]
  intro starts
  have inside := g.starts_continues _ starts
  rw [g.opening_outside] at inside
  cases inside

theorem goesOn_opening (name : List Item) : g.goesOn name g.opening = false := by
  cases name with
  | nil => exact starts_opening
  | cons _ _ => exact g.opening_outside

def Reading (g : Grammar Item) (started : Option (List Item)) : Prop :=
  ∀ name ∈ started, name ≠ [] → g.isName name.reverse = true

theorem reading_none : g.Reading none := by
  intro name member
  cases member

theorem reading_empty : g.Reading (some []) := by
  intro name member nonempty
  cases member
  exact absurd rfl nonempty

theorem isName_append_iff {front rest : List Item} (nonempty : front ≠ []) :
    g.isName (front ++ rest) = true ↔
      g.isName front = true ∧ ∀ item ∈ rest, g.continues item = true := by
  cases front with
  | nil => exact absurd rfl nonempty
  | cons first front =>
      simp [isName, and_assoc]

theorem Reading.extend {item : Item} (reading : g.Reading (some name))
    (goes : g.goesOn name item = true) : g.Reading (some (item :: name)) := by
  intro longer member _
  cases member
  rw [List.reverse_cons]
  cases name with
  | nil =>
      change g.starts item = true at goes
      simp [isName, goes]
  | cons last name =>
      rw [isName_append_iff (by simp)]
      refine ⟨reading _ rfl (by simp), ?_⟩
      intro other same
      rw [List.mem_singleton.mp same]
      exact goes

theorem continues_of_isName (own : g.isName name = true) :
    ∀ item ∈ name, g.continues item = true := by
  cases name with
  | nil => cases own
  | cons first rest =>
      simp only [isName, Bool.and_eq_true] at own
      intro item member
      rcases List.mem_cons.mp member with rfl | later
      · exact g.starts_continues _ own.1
      · exact List.all_eq_true.mp own.2 item later

theorem Reading.continues (reading : g.Reading (some name)) :
    ∀ item ∈ name, g.continues item = true := by
  intro item member
  have own := reading name rfl (List.ne_nil_of_mem member)
  exact continues_of_isName own item (List.mem_reverse.mpr member)

theorem closing_not_mem (inside : ∀ item ∈ name, g.continues item = true) :
    g.closing ∉ name := by
  intro member
  have continues := inside _ member
  rw [g.closing_outside] at continues
  cases continues

theorem opening_not_mem (inside : ∀ item ∈ name, g.continues item = true) :
    g.opening ∉ name := by
  intro member
  have continues := inside _ member
  rw [g.opening_outside] at continues
  cases continues

@[simp] theorem spell_item_cons (item : Item) (ps : List (Piece Item)) :
    g.spell (.item item :: ps) = item :: g.spell ps := rfl

@[simp] theorem spell_hole_cons (name : List Item) (ps : List (Piece Item)) :
    g.spell (.hole name :: ps) = g.braced name ++ g.spell ps := rfl

theorem spell_append (first second : List (Piece Item)) :
    g.spell (first ++ second) = g.spell first ++ g.spell second := List.flatMap_append

theorem spell_items (items : List Item) : g.spell (items.map .item) = items := by
  induction items with
  | nil => rfl
  | cons item rest ih =>
      change item :: g.spell (rest.map .item) = item :: rest
      rw [ih]

theorem prefix_cases {name read rest : List Item} (inside : ∀ item ∈ read, g.continues item = true)
    (found : name ++ [g.closing] <+: read ++ rest) :
    (name = read ∧ ∃ more, rest = g.closing :: more) ∨
      ∃ item more behind, name = read ++ item :: more ∧ rest = item :: behind := by
  obtain ⟨behind, whole⟩ := found
  rw [List.append_assoc, List.singleton_append, List.append_eq_append_iff] at whole
  rcases whole with ⟨excess, split, tail⟩ | ⟨excess, split, tail⟩
  · cases excess with
    | nil => exact Or.inl ⟨by rw [split, List.append_nil], behind, tail.symm⟩
    | cons item excess =>
        have same : g.closing = item := (List.cons.inj tail).1
        refine absurd ?_ (closing_not_mem inside)
        rw [split, same]
        simp
  · cases excess with
    | nil => exact Or.inl ⟨by rw [split, List.append_nil], behind, tail⟩
    | cons item excess => exact Or.inr ⟨item, excess, _, split, tail⟩

theorem not_braced_of_other {name rest : List Item} {item : Item} (other : item ≠ g.opening) :
    ¬g.braced name <+: item :: rest := by
  intro found
  exact other (List.cons_prefix_cons.mp found).1.symm

theorem braced_prefix_iff {name rest : List Item} :
    g.braced name <+: g.opening :: rest ↔ name ++ [g.closing] <+: rest := by
  rw [braced, List.cons_append, List.cons_prefix_cons]
  exact and_iff_right rfl

theorem skip_opened {name value read rest out : List Item} (free : g.opening ∉ read)
    (absent : ¬name ++ [g.closing] <+: read ++ rest) (later : Replaced (g.braced name) value rest out) :
    Replaced (g.braced name) value (g.opening :: read ++ rest) (g.opening :: read ++ out) := by
  refine .skipped (fun found => absent (braced_prefix_iff.mp found)) (Replaced.skip_all read ?_ later)
  intro before after split nonempty
  cases after with
  | nil => exact absurd rfl nonempty
  | cons item after =>
      apply not_braced_of_other
      rintro rfl
      exact free (by rw [split]; simp)

def Plain (g : Grammar Item) (ps : List (Piece Item)) : Prop :=
  ∀ before inner after,
    ps = before ++ .item g.opening :: inner.map .item ++ .item g.closing :: after →
      g.isName inner = false

theorem Plain.of_append {front ps : List (Piece Item)} (plain : g.Plain (front ++ ps)) : g.Plain ps := by
  intro before inner after split
  apply plain (front ++ before) inner after
  rw [split]
  simp

theorem Plain.of_fillSome {values : List Item → Option (List Item)} {ps : List (Piece Item)}
    (plain : g.Plain (fillSome values ps)) : g.Plain ps := by
  intro before inner after split
  apply plain (fillSome values before) inner (fillSome values after)
  rw [split, fillSome_append]
  change fillSome values (before ++ ([.item g.opening] ++ inner.map .item)) ++ _ = _
  rw [fillSome_append, fillSome_append, fillSome_items]
  simp [fillSome]

def Encloses (g : Grammar Item) (values : List Item → List Item) (ps : List (Piece Item)) : Prop :=
  ∃ before inner after,
    ps = before ++ .item g.opening :: inner ++ .item g.closing :: after ∧
      g.isName (fill values inner) = true

theorem plain_fill_iff {values : List Item → List Item} {ps : List (Piece Item)}
    (free : ∀ name ∈ holes ps, g.opening ∉ values name ∧ g.closing ∉ values name) :
    g.Plain ((fill values ps).map .item) ↔ ¬g.Encloses values ps := by
  constructor
  · rintro plain ⟨before, inner, after, rfl, named⟩
    rw [plain ((fill values before).map .item) (fill values inner) ((fill values after).map .item)] at named
    · cases named
    · simp [fill]
  · intro apart before inner after split
    rw [Bool.eq_false_iff]
    intro named
    apply apart
    obtain ⟨whole, behind, text, opens, closes⟩ := List.map_eq_append_iff.mp split
    obtain ⟨front, middle, parts, _, inside⟩ := List.map_eq_append_iff.mp opens
    obtain ⟨first, name, rfl, firstIs, nameIs⟩ := List.map_eq_cons_iff.mp inside
    obtain ⟨last, tail, rfl, lastIs, _⟩ := List.map_eq_cons_iff.mp closes
    cases firstIs
    cases lastIs
    have same : name = inner := List.map_injective_iff.mpr (fun _ _ eq => Piece.item.inj eq) nameIs
    subst same
    rw [parts, List.append_assoc] at text
    obtain ⟨start, later, rfl, _, rest⟩ := split_fill (fun own member => (free own member).1) text
    have freeLater : ∀ own ∈ holes later, g.closing ∉ values own := by
      intro own member
      exact (free own (by simp [holes] at member ⊢; grind)).2
    obtain ⟨held, stop, rfl, heldIs, _⟩ := split_fill freeLater rest
    exact ⟨start, held, stop, by simp, heldIs ▸ named⟩

variable [DecidableEq Item]

def restart (g : Grammar Item) (item : Item) (rest : List Item) : List (Piece Item) :=
  if item = g.opening then g.pieces (some []) rest else .item item :: g.pieces none rest

theorem pieces_some_cons (name : List Item) (item : Item) (rest : List Item) :
    g.pieces (some name) (item :: rest) =
      if item = g.closing ∧ name ≠ [] then .hole name.reverse :: g.pieces none rest
      else if g.goesOn name item = true then g.pieces (some (item :: name)) rest
      else (g.opened (some name)).map .item ++ g.restart item rest := rfl

theorem spell_pieces (started : Option (List Item)) (text : List Item) :
    g.spell (g.pieces started text) = g.opened started ++ text := by
  induction text generalizing started with
  | nil =>
      change g.spell ((g.opened started).map .item) = _
      rw [spell_items, List.append_nil]
  | cons item rest ih =>
      have again : g.spell (g.restart item rest) = item :: rest := by
        unfold restart
        split
        · rename_i same
          rw [ih, same]
          rfl
        · change item :: g.spell (g.pieces none rest) = _
          rw [ih]
          rfl
      cases started with
      | none => exact again
      | some name =>
          rw [pieces_some_cons]
          split
          · rename_i closed
            change g.braced name.reverse ++ g.spell (g.pieces none rest) = _
            rw [ih, closed.1]
            simp [braced, opened]
          · split
            · rw [ih]
              simp [opened]
            · rw [spell_append, again, spell_items]

theorem isName_of_mem_pieces {started : Option (List Item)} (reading : g.Reading started)
    (text : List Item) (member : .hole name ∈ g.pieces started text) :
    g.isName name = true := by
  induction text generalizing started with
  | nil => simp [pieces] at member
  | cons item rest ih =>
      have again (inside : .hole name ∈ g.restart item rest) : g.isName name = true := by
        unfold restart at inside
        split at inside
        · exact ih reading_empty inside
        · exact ih reading_none (by simpa using inside)
      cases started with
      | none => exact again member
      | some own =>
          rw [pieces_some_cons] at member
          split at member
          · rename_i closed
            rcases List.mem_cons.mp member with same | later
            · cases same
              exact reading own rfl closed.2
            · exact ih reading_none later
          · split at member
            · rename_i goes
              exact ih (reading.extend goes) member
            · rcases List.mem_append.mp member with front | later
              · simp at front
              · exact again later

theorem pieces_opening (started : Option (List Item)) (rest : List Item) :
    g.pieces started (g.opening :: rest) =
      (g.opened started).map .item ++ g.pieces (some []) rest := by
  cases started with
  | none => exact if_pos rfl
  | some name =>
      have outside : ¬g.goesOn name g.opening = true := by
        rw [goesOn_opening]
        exact Bool.false_ne_true
      rw [pieces_some_cons, if_neg (fun closed => g.distinct closed.1), if_neg outside, restart,
        if_pos rfl]

theorem pieces_name (read name rest : List Item) (own : g.isName (read.reverse ++ name) = true) :
    g.pieces (some read) (name ++ g.closing :: rest) =
      .hole (read.reverse ++ name) :: g.pieces none rest := by
  induction name generalizing read with
  | nil =>
      rw [List.append_nil] at own ⊢
      have nonempty : read ≠ [] := by
        rintro rfl
        cases own
      change g.pieces (some read) (g.closing :: rest) = _
      rw [pieces_some_cons, if_pos ⟨rfl, nonempty⟩]
  | cons item name ih =>
      have inside : g.continues item = true := continues_of_isName own item (by simp)
      have goes : g.goesOn read item = true := by
        cases read with
        | nil =>
            simp only [List.reverse_nil, List.nil_append, isName, Bool.and_eq_true] at own
            exact own.1
        | cons _ _ => exact inside
      have open_ : ¬(item = g.closing ∧ read ≠ []) := by
        rintro ⟨rfl, _⟩
        rw [g.closing_outside] at inside
        cases inside
      have longer := ih (item :: read) (by simpa using own)
      change g.pieces (some read) (item :: (name ++ g.closing :: rest)) = _
      rw [pieces_some_cons, if_neg open_, if_pos goes, longer]
      simp

theorem mem_pieces_of_braced (own : g.isName name = true) (front rest : List Item)
    (started : Option (List Item)) :
    .hole name ∈ g.pieces started (front ++ g.braced name ++ rest) := by
  have here (started : Option (List Item)) :
      .hole name ∈ g.pieces started (g.braced name ++ rest) := by
    have text : g.braced name ++ rest = g.opening :: (name ++ g.closing :: rest) := by
      simp [braced]
    rw [text, pieces_opening, pieces_name [] name rest own]
    simp
  induction front generalizing started with
  | nil => exact here started
  | cons item front ih =>
      have again : .hole name ∈ g.restart item (front ++ g.braced name ++ rest) := by
        unfold restart
        split
        · exact ih _
        · exact List.mem_cons_of_mem _ (ih none)
      cases started with
      | none => exact again
      | some read =>
          change .hole name ∈ g.pieces (some read) (item :: (front ++ g.braced name ++ rest))
          rw [pieces_some_cons]
          split
          · exact List.mem_cons_of_mem _ (ih none)
          · split
            · exact ih _
            · exact List.mem_append_right _ again

/-! ### Replacing is filling -/

theorem replaced_pieces (own : g.isName name = true) (value : List Item)
    {started : Option (List Item)} (reading : g.Reading started) (text : List Item) :
    Replaced (g.braced name) value (g.opened started ++ text)
      (g.spell (fillSome (single name value) (g.pieces started text))) := by
  induction text generalizing started with
  | nil =>
      change Replaced _ _ _ (g.spell (fillSome _ ((g.opened started).map .item)))
      rw [fillSome_items, spell_items]
      cases started with
      | none => exact .nil
      | some read =>
          have inside : ∀ item ∈ read.reverse, g.continues item = true := by
            intro item member
            exact reading.continues item (List.mem_reverse.mp member)
          have absent : ¬name ++ [g.closing] <+: read.reverse ++ [] := by
            intro found
            rcases prefix_cases inside found with ⟨_, _, empty⟩ | ⟨_, _, _, _, empty⟩ <;> cases empty
          have ended : Replaced (g.braced name) value [] [] := .nil
          have passed := skip_opened (opening_not_mem inside) absent ended
          rw [List.append_nil] at passed
          exact (List.append_nil (g.opened (some read))).symm ▸ passed
  | cons item rest ih =>
      have again : Replaced (g.braced name) value (item :: rest)
          (g.spell (fillSome (single name value) (g.restart item rest))) := by
        unfold restart
        split
        · rename_i same
          rw [same]
          exact ih reading_empty
        · rename_i other
          exact .skipped (not_braced_of_other other) (ih reading_none)
      cases started with
      | none => exact again
      | some read =>
          have inside : ∀ item ∈ read.reverse, g.continues item = true := by
            intro item member
            exact reading.continues item (List.mem_reverse.mp member)
          rw [pieces_some_cons]
          split
          · rename_i closed
            obtain ⟨rfl, nonempty⟩ := closed
            have text : g.opened (some read) ++ g.closing :: rest = g.braced read.reverse ++ rest := by
              simp [opened, braced]
            rw [text]
            by_cases same : read.reverse = name
            · have filled : fillSome (single name value) (.hole read.reverse :: g.pieces none rest) =
                  value.map .item ++ fillSome (single name value) (g.pieces none rest) := by
                simp [fillSome, single, same]
              rw [filled, spell_append, spell_items, same]
              exact .matched (ih reading_none)
            · have kept : fillSome (single name value) (.hole read.reverse :: g.pieces none rest) =
                  .hole read.reverse :: fillSome (single name value) (g.pieces none rest) := by
                simp [fillSome, single, same]
              have free : g.opening ∉ read.reverse ++ [g.closing] := by
                rw [List.mem_append, List.mem_singleton]
                rintro (member | closing)
                · exact opening_not_mem inside member
                · exact g.distinct closing
              have absent : ¬name ++ [g.closing] <+: (read.reverse ++ [g.closing]) ++ rest := by
                rw [List.append_assoc]
                intro found
                rcases prefix_cases inside found with ⟨other, _⟩ | ⟨item, more, behind, other, head⟩
                · exact same other.symm
                · rw [← (List.cons.inj head).1] at other
                  refine closing_not_mem (continues_of_isName own) ?_
                  rw [other]
                  simp
              rw [kept, spell_hole_cons]
              exact skip_opened free absent (ih reading_none)
          · rename_i open_
            split
            · rename_i goes
              have text : g.opened (some read) ++ item :: rest = g.opened (some (item :: read)) ++ rest := by
                simp [opened]
              rw [text]
              exact ih (reading.extend goes)
            · rename_i stops
              rw [fillSome_append, fillSome_items, spell_append, spell_items]
              refine skip_opened (opening_not_mem inside) ?_ again
              intro found
              rcases prefix_cases inside found with ⟨same, _, head⟩ | ⟨next, more, _, longer, head⟩
              · refine open_ ⟨(List.cons.inj head).1, ?_⟩
                rintro rfl
                rw [same] at own
                cases own
              · obtain ⟨rfl, _⟩ := List.cons.inj head
                apply stops
                cases read with
                | nil =>
                    rw [longer] at own
                    exact (Bool.and_eq_true_iff.mp own).1
                | cons _ _ => exact continues_of_isName own item (by rw [longer]; simp)

theorem pieces_spell_aux (ps : List (Piece Item)) {started : Option (List Item)}
    (reading : g.Reading started) (named : ∀ name ∈ holes ps, g.isName name = true)
    (plain : g.Plain ((g.opened started).map .item ++ ps)) :
    g.pieces started (g.spell ps) = (g.opened started).map .item ++ ps := by
  induction ps generalizing started with
  | nil => exact (List.append_nil _).symm
  | cons piece ps ih =>
      cases piece with
      | hole name =>
          have behind : g.Plain ([.hole name] ++ ps) := plain.of_append
          have apart : g.Plain ps := behind.of_append
          have later := ih reading_none (fun other member => named other (List.mem_cons_of_mem _ member))
            apart
          have text : g.spell (.hole name :: ps) = g.opening :: (name ++ g.closing :: g.spell ps) := by
            simp [braced]
          rw [text, pieces_opening, pieces_name [] name _ (named name List.mem_cons_self), later]
          rfl
      | item item =>
          have names : ∀ name ∈ holes ps, g.isName name = true := named
          have again (free : g.Plain (.item item :: ps)) :
              g.restart item (g.spell ps) = .item item :: ps := by
            unfold restart
            split
            · rename_i same
              rw [ih reading_empty names (by rw [same] at free; exact free), same]
              rfl
            · have behind : g.Plain ([.item item] ++ ps) := free
              rw [ih reading_none names behind.of_append]
              rfl
          rw [spell_item_cons]
          cases started with
          | none => exact again plain
          | some read =>
              rw [pieces_some_cons]
              split
              · rename_i closed
                obtain ⟨rfl, nonempty⟩ := closed
                have outside := plain [] read.reverse ps (by simp [opened])
                rw [reading read rfl nonempty] at outside
                cases outside
              · split
                · rename_i goes
                  have text : (g.opened (some (item :: read))).map .item ++ ps =
                      (g.opened (some read)).map .item ++ Piece.item item :: ps := by
                    simp [opened]
                  rw [ih (reading.extend goes) names (text ▸ plain), text]
                · rw [again plain.of_append]

theorem pieces_spell {ps : List (Piece Item)} (named : ∀ name ∈ holes ps, g.isName name = true)
    (plain : g.Plain ps) : g.pieces none (g.spell ps) = ps :=
  pieces_spell_aux ps reading_none named plain

omit [DecidableEq Item] in
theorem holes_items (items : List Item) : holes (items.map .item) = [] := by
  simp [holes]

omit [DecidableEq Item] in
theorem mem_holes {ps : List (Piece Item)} :
    name ∈ holes ps ↔ .hole name ∈ ps := by
  unfold holes
  rw [List.mem_filterMap]
  constructor
  · rintro ⟨piece, member, found⟩
    cases piece <;> cases found
    exact member
  · intro member
    exact ⟨_, member, rfl⟩

theorem holes_pieces_eq_nil_iff (text : List Item) :
    holes (g.pieces none text) = [] ↔ g.Plain (text.map .item) := by
  constructor
  · intro empty before inner after split
    rw [Bool.eq_false_iff]
    intro named
    obtain ⟨front, back, rfl, frontIs, backIs⟩ := List.map_eq_append_iff.mp split
    have text : front ++ back = g.spell before ++ g.braced inner ++ g.spell after := by
      rw [← spell_items (g := g) (front ++ back), split]
      simp [spell_append, spell_items, braced]
    have found := mem_pieces_of_braced named (g.spell before) (g.spell after) none
    rw [← text, ← mem_holes, empty] at found
    cases found
  · intro plain
    have names : ∀ name ∈ holes (text.map .item), g.isName name = true := by simp [holes_items]
    have read := pieces_spell names plain
    rw [spell_items] at read
    rw [read, holes_items]

theorem hole_kept {name other value text out : List Item} (own : g.isName name = true)
    (member : other ∈ holes (g.pieces none text)) (apart : other ≠ name)
    (replaced : Replaced (g.braced name) value text out) : other ∈ holes (g.pieces none out) := by
  have filled := replaced_pieces own value reading_none text
  have nonempty : g.braced name ≠ [] := List.cons_ne_nil _ _
  have same := Replaced.unique nonempty replaced filled
  have kept : other ∈ holes (fillSome (single name value) (g.pieces none text)) :=
    mem_holes_fillSome.mpr ⟨member, if_neg apart⟩
  obtain ⟨front, back, split⟩ := List.append_of_mem (mem_holes.mp kept)
  rw [same, split, spell_append, spell_hole_cons, ← List.append_assoc, mem_holes]
  exact mem_pieces_of_braced (isName_of_mem_pieces reading_none text (mem_holes.mp member)) _ _ _

end Grammar

end HoleTemplates
