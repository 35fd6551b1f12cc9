/-
Chains of named items that refer backwards.

A chain is a list of items with distinct names, each of which refers only to names of
items before it. Appending, changing, removing and renaming an item keep the chain in
order where the item is fresh or nothing refers to it.
-/

import Mathlib.Data.List.Basic

namespace NamedChains

variable {Item Name : Type} (name : Item → Name) (refers : Item → Name → Prop)

def Ordered : List Name → List Item → Prop
  | _, [] => True
  | seen, item :: rest =>
      name item ∉ seen ∧ (∀ other, refers item other → other ∈ seen) ∧
        Ordered (seen ++ [name item]) rest

variable {name refers} {seen : List Name} {items : List Item}

theorem names_modify {change : Item → Item} (same : ∀ item, name (change item) = name item)
    (items : List Item) (index : Nat) :
    (items.modify index change).map name = items.map name := by
  induction items generalizing index with
  | nil => rw [List.modify_nil]
  | cons item rest ih =>
      cases index with
      | zero => rw [List.modify_zero_cons, List.map_cons, List.map_cons, same]
      | succ index => rw [List.modify_succ_cons, List.map_cons, List.map_cons, ih]

theorem mem_modify {change : Item → Item} {index : Nat} {item : Item}
    (member : item ∈ items.modify index change) :
    item ∈ items ∨ ∃ own, items[index]? = some own ∧ item = change own := by
  induction items generalizing index with
  | nil =>
      rw [List.modify_nil] at member
      cases member
  | cons first rest ih =>
      cases index with
      | zero =>
          rw [List.modify_zero_cons] at member
          rcases List.mem_cons.mp member with same | later
          · exact Or.inr ⟨first, rfl, same⟩
          · exact Or.inl (List.mem_cons_of_mem first later)
      | succ index =>
          rw [List.modify_succ_cons] at member
          rcases List.mem_cons.mp member with same | later
          · rw [same]
            exact Or.inl List.mem_cons_self
          · rcases ih later with inside | changed
            · exact Or.inl (List.mem_cons_of_mem first inside)
            · exact Or.inr changed

theorem Ordered.congr {others : List Name} (ordered : Ordered name refers seen items)
    (known : ∀ item ∈ items, ∀ other, refers item other → other ∈ seen → other ∈ others)
    (fresh : ∀ item ∈ items, name item ∉ seen → name item ∉ others) :
    Ordered name refers others items := by
  induction items generalizing seen others with
  | nil => trivial
  | cons item rest ih =>
      obtain ⟨unused, earlier, later⟩ := ordered
      refine ⟨fresh item List.mem_cons_self unused, ?_, ih later ?_ ?_⟩
      · intro other refered
        exact known item List.mem_cons_self other refered (earlier other refered)
      · intro own member other refered inside
        rcases List.mem_append.mp inside with before | here
        · exact List.mem_append_left _
            (known own (List.mem_cons_of_mem item member) other refered before)
        · exact List.mem_append_right _ here
      · intro own member unseen
        rw [List.mem_append, not_or] at unseen ⊢
        exact ⟨fresh own (List.mem_cons_of_mem item member) unseen.1, unseen.2⟩

theorem Ordered.not_seen (ordered : Ordered name refers seen items) :
    ∀ item ∈ items, name item ∉ seen := by
  induction items generalizing seen with
  | nil =>
      intro item impossible
      cases impossible
  | cons first rest ih =>
      intro item member
      rcases List.mem_cons.mp member with same | later
      · rw [same]
        exact ordered.1
      · intro known
        exact ih ordered.2.2 item later (List.mem_append_left _ known)

theorem Ordered.nodup (ordered : Ordered name refers seen items) : (items.map name).Nodup := by
  induction items generalizing seen with
  | nil => exact List.nodup_nil
  | cons item rest ih =>
      rw [List.map_cons, List.nodup_cons]
      refine ⟨?_, ih ordered.2.2⟩
      intro member
      obtain ⟨other, inside, same⟩ := List.mem_map.mp member
      apply ordered.2.2.not_seen other inside
      rw [same]
      exact List.mem_append_right _ List.mem_cons_self

theorem Ordered.before (ordered : Ordered name refers seen items) {index : Nat} {item : Item}
    (found : items[index]? = some item) {other : Name} (refered : refers item other) :
    other ∈ seen ++ (items.map name).take index := by
  induction items generalizing seen index with
  | nil => cases found
  | cons first rest ih =>
      cases index with
      | zero =>
          rw [List.getElem?_cons_zero, Option.some.injEq] at found
          rw [found] at ordered
          exact List.mem_append_left _ (ordered.2.1 other refered)
      | succ index =>
          have inside := ih ordered.2.2 found
          rw [List.append_assoc] at inside
          exact inside

theorem ordered_of_before (distinct : (seen ++ items.map name).Nodup)
    (before : ∀ index item, items[index]? = some item → ∀ other, refers item other →
      other ∈ seen ++ (items.map name).take index) : Ordered name refers seen items := by
  induction items generalizing seen with
  | nil => trivial
  | cons first rest ih =>
      rw [List.map_cons, ← List.singleton_append, ← List.append_assoc] at distinct
      refine ⟨?_, ?_, ih distinct ?_⟩
      · intro member
        have apart := (List.nodup_append.mp (List.nodup_append.mp distinct).1).2.2
        exact apart _ member _ List.mem_cons_self rfl
      · intro other refered
        have inside := before 0 first rfl other refered
        rw [List.take_zero, List.append_nil] at inside
        exact inside
      · intro index item found other refered
        have inside := before (index + 1) item found other refered
        rw [List.append_assoc]
        exact inside

theorem Ordered.append (ordered : Ordered name refers seen items) {item : Item}
    (fresh : name item ∉ seen ++ items.map name)
    (known : ∀ other, refers item other → other ∈ seen ++ items.map name) :
    Ordered name refers seen (items ++ [item]) := by
  induction items generalizing seen with
  | nil =>
      rw [List.map_nil, List.append_nil] at fresh known
      exact ⟨fresh, known, trivial⟩
  | cons first rest ih =>
      rw [List.map_cons, ← List.singleton_append, ← List.append_assoc] at fresh known
      exact ⟨ordered.1, ordered.2.1, ih ordered.2.2 fresh known⟩

theorem Ordered.modify (ordered : Ordered name refers seen items) {index : Nat}
    {change : Item → Item} (same : ∀ item, name (change item) = name item)
    (known : ∀ item, items[index]? = some item → ∀ other, refers (change item) other →
      other ∈ seen ++ (items.map name).take index) :
    Ordered name refers seen (items.modify index change) := by
  induction items generalizing seen index with
  | nil =>
      rw [List.modify_nil]
      trivial
  | cons first rest ih =>
      obtain ⟨unused, earlier, later⟩ := ordered
      cases index with
      | zero =>
          rw [List.modify_zero_cons]
          refine ⟨?_, ?_, ?_⟩
          · rw [same]
            exact unused
          · intro other refered
            have inside := known first rfl other refered
            rw [List.take_zero, List.append_nil] at inside
            exact inside
          · rw [same]
            exact later
      | succ index =>
          rw [List.modify_succ_cons]
          refine ⟨unused, earlier, ih later ?_⟩
          intro item found other refered
          have inside := known item found other refered
          rw [List.append_assoc]
          exact inside

theorem Ordered.map {Other : Type} {otherName : Other → Name} {otherRefers : Other → Name → Prop}
    (ordered : Ordered name refers seen items) {change : Item → Other}
    (same : ∀ item, otherName (change item) = name item)
    (fewer : ∀ item ∈ items, ∀ other, otherRefers (change item) other → refers item other) :
    Ordered otherName otherRefers seen (items.map change) := by
  induction items generalizing seen with
  | nil => trivial
  | cons first rest ih =>
      obtain ⟨unused, earlier, later⟩ := ordered
      rw [List.map_cons]
      refine ⟨?_, ?_, ?_⟩
      · rw [same]
        exact unused
      · intro other refered
        exact earlier other (fewer first List.mem_cons_self other refered)
      · rw [same]
        exact ih later (fun item member => fewer item (List.mem_cons_of_mem first member))

theorem Ordered.eraseIdx (ordered : Ordered name refers seen items) {index : Nat} {item : Item}
    (found : items[index]? = some item)
    (unused : ∀ other ∈ items.eraseIdx index, ¬refers other (name item)) :
    Ordered name refers seen (items.eraseIdx index) := by
  induction items generalizing seen index with
  | nil => cases found
  | cons first rest ih =>
      cases index with
      | zero =>
          rw [List.getElem?_cons_zero, Option.some.injEq] at found
          rw [List.eraseIdx_cons_zero] at unused ⊢
          rw [found] at ordered
          apply ordered.2.2.congr
          · intro own member other refered inside
            rcases List.mem_append.mp inside with before | here
            · exact before
            · rw [List.mem_singleton.mp here] at refered
              exact absurd refered (unused own member)
          · intro own _ unseen
            rw [List.mem_append, not_or] at unseen
            exact unseen.1
      | succ index =>
          rw [List.eraseIdx_cons_succ] at unused ⊢
          exact ⟨ordered.1, ordered.2.1, ih ordered.2.2 found
            (fun other member => unused other (List.mem_cons_of_mem first member))⟩

theorem Ordered.rename (ordered : Ordered name refers seen items) {index : Nat} {item : Item}
    {change : Item → Item} (found : items[index]? = some item)
    (unused : ∀ other ∈ items.eraseIdx index, ¬refers other (name item))
    (fresh : name (change item) ∉ seen ++ (items.eraseIdx index).map name)
    (fewer : ∀ other, refers (change item) other → refers item other) :
    Ordered name refers seen (items.modify index change) := by
  induction items generalizing seen index with
  | nil => cases found
  | cons first rest ih =>
      obtain ⟨unseen, earlier, later⟩ := ordered
      cases index with
      | zero =>
          rw [List.getElem?_cons_zero, Option.some.injEq] at found
          rw [List.eraseIdx_cons_zero] at unused fresh
          rw [List.mem_append, not_or] at fresh
          rw [List.modify_zero_cons, found]
          rw [found] at earlier later
          refine ⟨fresh.1, fun other refered => earlier other (fewer other refered), ?_⟩
          apply later.congr
          · intro own member other refered inside
            rcases List.mem_append.mp inside with before | here
            · exact List.mem_append_left _ before
            · rw [List.mem_singleton.mp here] at refered
              exact absurd refered (unused own member)
          · intro own member different
            rw [List.mem_append, not_or] at different ⊢
            refine ⟨different.1, ?_⟩
            intro here
            apply fresh.2
            rw [← List.mem_singleton.mp here]
            exact List.mem_map_of_mem member
      | succ index =>
          rw [List.eraseIdx_cons_succ] at unused fresh
          rw [List.modify_succ_cons]
          refine ⟨unseen, earlier, ih later found ?_ ?_⟩
          · intro other member
            exact unused other (List.mem_cons_of_mem first member)
          · rw [List.append_assoc]
            exact fresh

end NamedChains
