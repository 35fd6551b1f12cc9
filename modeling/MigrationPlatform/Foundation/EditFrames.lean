/-
Editors, and what an edit leaves alone.

An editor shows a document in parts. It says of each edit which parts the edit
touches; the frame says that the edit keeps what is shown of all the others. Over a
run of edits the frame holds again, for the parts that no edit of the run touches in
the state in which it is made.

The second half is about a list of items that carry tags: what is shown of the items
with a tag, after one item is edited, removed or added.
-/

import Mathlib.Data.List.Basic

namespace EditFrames

structure Editor (State Edit Part : Type) where
  apply : State → Edit → State
  touches : State → Edit → Part → Prop
  Shown : Part → Type
  shows : State → (part : Part) → Shown part

namespace Editor

variable {State Edit Part : Type} (editor : Editor State Edit Part)

def run : State → List Edit → State
  | state, [] => state
  | state, edit :: rest => run (editor.apply state edit) rest

def Touched : State → List Edit → Part → Prop
  | _, [], _ => False
  | state, edit :: rest, part =>
      editor.touches state edit part ∨ Touched (editor.apply state edit) rest part

def Careful (care : State → Edit → Prop) : State → List Edit → Prop
  | _, [] => True
  | state, edit :: rest => care state edit ∧ Careful care (editor.apply state edit) rest

def Framed (care : State → Edit → Prop) : Prop :=
  ∀ state edit part, care state edit → ¬editor.touches state edit part →
    editor.shows (editor.apply state edit) part = editor.shows state part

variable {editor} {care : State → Edit → Prop}

theorem Framed.run (framed : editor.Framed care) {edits : List Edit} {state : State} {part : Part}
    (careful : editor.Careful care state edits) (untouched : ¬editor.Touched state edits part) :
    editor.shows (editor.run state edits) part = editor.shows state part := by
  induction edits generalizing state with
  | nil => rfl
  | cons edit rest ih =>
      obtain ⟨here, later⟩ := careful
      rw [Touched, not_or] at untouched
      exact (ih later untouched.2).trans (framed state edit part here untouched.1)

end Editor

section Tagged

variable {Item Tag Shown : Type} [DecidableEq Tag] (tag : Item → Option Tag) (look : Item → Shown)

def seen (wanted : Tag) (items : List Item) : List Shown :=
  (items.filter (fun item => tag item = some wanted)).map look

variable {tag look} {wanted : Tag}

theorem seen_cons_of_other {item : Item} {rest : List Item} (other : tag item ≠ some wanted) :
    seen tag look wanted (item :: rest) = seen tag look wanted rest := by
  unfold seen
  rw [List.filter_cons_of_neg (by simpa using other)]

theorem seen_cons_of_tag {item : Item} {rest : List Item} (own : tag item = some wanted) :
    seen tag look wanted (item :: rest) = look item :: seen tag look wanted rest := by
  unfold seen
  rw [List.filter_cons_of_pos (by simpa using own), List.map_cons]

theorem seen_cons_congr {item other : Item} {rest later : List Item} (sameTag : tag other = tag item)
    (sameLook : tag item = some wanted → look other = look item)
    (sameRest : seen tag look wanted later = seen tag look wanted rest) :
    seen tag look wanted (other :: later) = seen tag look wanted (item :: rest) := by
  by_cases own : tag item = some wanted
  · rw [seen_cons_of_tag own, seen_cons_of_tag (sameTag.trans own), sameLook own, sameRest]
  · rw [seen_cons_of_other own, seen_cons_of_other (sameTag ▸ own), sameRest]

variable {items : List Item}

theorem seen_modify (change : Item → Item) (sameTag : ∀ item, tag (change item) = tag item)
    {index : Nat} (sameLook : ∀ item, items[index]? = some item → tag item = some wanted →
      look (change item) = look item) :
    seen tag look wanted (items.modify index change) = seen tag look wanted items := by
  induction items generalizing index with
  | nil => rw [List.modify_nil]
  | cons item rest ih =>
      cases index with
      | zero =>
          rw [List.modify_zero_cons]
          exact seen_cons_congr (sameTag item) (sameLook item rfl) rfl
      | succ index =>
          rw [List.modify_succ_cons]
          exact seen_cons_congr rfl (fun _ => rfl) (ih sameLook)

theorem seen_map (change : Item → Item) (sameTag : ∀ item, tag (change item) = tag item)
    (sameLook : ∀ item ∈ items, tag item = some wanted → look (change item) = look item) :
    seen tag look wanted (items.map change) = seen tag look wanted items := by
  induction items with
  | nil => rfl
  | cons item rest ih =>
      rw [List.map_cons]
      exact seen_cons_congr (sameTag item) (sameLook item List.mem_cons_self)
        (ih (fun later member => sameLook later (List.mem_cons_of_mem item member)))

theorem seen_eraseIdx {index : Nat}
    (other : ∀ item, items[index]? = some item → tag item ≠ some wanted) :
    seen tag look wanted (items.eraseIdx index) = seen tag look wanted items := by
  induction items generalizing index with
  | nil => rw [List.eraseIdx_nil]
  | cons item rest ih =>
      cases index with
      | zero => rw [List.eraseIdx_zero, List.tail_cons, seen_cons_of_other (other item rfl)]
      | succ index =>
          rw [List.eraseIdx_cons_succ]
          exact seen_cons_congr rfl (fun _ => rfl) (ih other)

theorem seen_append_other {item : Item} (other : tag item ≠ some wanted) :
    seen tag look wanted (items ++ [item]) = seen tag look wanted items := by
  unfold seen
  rw [List.filter_append, List.filter_cons_of_neg (by simpa using other), List.filter_nil,
    List.append_nil]

omit [DecidableEq Tag] in
theorem tags_modify (change : Item → Item) (sameTag : ∀ item, tag (change item) = tag item)
    (items : List Item) (index : Nat) : (items.modify index change).map tag = items.map tag := by
  induction items generalizing index with
  | nil => rw [List.modify_nil]
  | cons item rest ih =>
      cases index with
      | zero => rw [List.modify_zero_cons, List.map_cons, List.map_cons, sameTag]
      | succ index => rw [List.modify_succ_cons, List.map_cons, List.map_cons, ih]

theorem seen_nil_of_none (none : ∀ item ∈ items, tag item ≠ some wanted) :
    seen tag look wanted items = [] := by
  unfold seen
  rw [List.filter_eq_nil_iff.mpr (by simpa using none), List.map_nil]

theorem exists_of_seen {shown : Shown} (present : shown ∈ seen tag look wanted items) :
    ∃ (index : Nat) (item : Item), items[index]? = some item ∧ tag item = some wanted ∧ look item = shown := by
  obtain ⟨item, member, same⟩ := List.mem_map.mp present
  obtain ⟨inItems, own⟩ := List.mem_filter.mp member
  obtain ⟨index, found⟩ := List.mem_iff_getElem?.mp inItems
  exact ⟨index, item, found, of_decide_eq_true own, same⟩

theorem same_of_seen {shown : Shown} {index : Nat} {item : Item}
    (only : seen tag look wanted items = [shown]) (found : items[index]? = some item)
    (own : tag item = some wanted) : look item = shown := by
  have member : look item ∈ seen tag look wanted items :=
    List.mem_map_of_mem (List.mem_filter.mpr ⟨List.mem_of_getElem? found, decide_eq_true own⟩)
  rw [only] at member
  exact List.mem_singleton.mp member

end Tagged

section Numbered

variable {Origin Item Shown : Type} {tag : Item → Option Nat} {look : Item → Shown}

theorem seen_mapIdx (make : Nat → Origin → Item) (numbered : ∀ place own, tag (make place own) = some place)
    (origins : List Origin) (wanted first : Nat) :
    seen tag look (wanted + first) (origins.mapIdx (fun place own => make (place + first) own)) =
      (origins[wanted]?.map (fun own => look (make (wanted + first) own))).toList := by
  induction origins generalizing wanted first with
  | nil => rfl
  | cons origin rest ih =>
      have later (place : Nat) (own : Origin) : make (place + 1 + first) own = make (place + (first + 1)) own := by
        rw [Nat.add_assoc, Nat.add_comm 1 first]
      rw [List.mapIdx_cons]
      simp only [later]
      cases wanted with
      | zero =>
          rw [seen_cons_of_tag (numbered _ origin), seen_nil_of_none]
          · rfl
          · intro item member
            obtain ⟨place, inside, rfl⟩ := List.mem_mapIdx.mp member
            rw [numbered, Ne, Option.some.injEq]
            omega
      | succ wanted =>
          rw [seen_cons_of_other (by rw [numbered, Ne, Option.some.injEq]; omega),
            show wanted + 1 + first = wanted + (first + 1) by omega, ih wanted (first + 1)]
          rfl

end Numbered

end EditFrames
