/-
Tables with a key column, as lists of rows.

`upsert` is the effect of an INSERT that updates the row in its way, `insertNew`
of one that does nothing then. The rules say which keys a table has afterwards
and what is found under a key.
-/

import Mathlib.Data.List.Basic

namespace KeyedTable

variable {Row Key : Type*} [DecidableEq Key]

def upsert (key : Row → Key) (fresh : Row) (update : Row → Row) : List Row → List Row
  | [] => [fresh]
  | row :: rest =>
      if key row = key fresh then update row :: rest else row :: upsert key fresh update rest

def insertNew (key : Row → Key) (fresh : Row) (rows : List Row) : List Row :=
  if key fresh ∈ rows.map key then rows else rows ++ [fresh]

def lookup (key : Row → Key) (wanted : Key) (rows : List Row) : Option Row :=
  rows.find? (fun row => decide (key row = wanted))

section Rules

variable {key : Row → Key} {fresh : Row} {update : Row → Row}

theorem map_upsert_of_mem {Column : Type*} {column : Row → Column}
    (keeps : ∀ row, column (update row) = column row) :
    ∀ rows : List Row, key fresh ∈ rows.map key →
      (upsert key fresh update rows).map column = rows.map column := by
  intro rows
  induction rows with
  | nil =>
      intro impossible
      cases impossible
  | cons row rest ih =>
      intro member
      unfold upsert
      by_cases same : key row = key fresh
      · rw [if_pos same, List.map_cons, List.map_cons, keeps]
      · rw [if_neg same, List.map_cons, List.map_cons]
        have later : key fresh ∈ rest.map key := by
          rcases List.mem_cons.mp member with here | later
          · exact absurd here.symm same
          · exact later
        rw [ih later]

theorem filter_upsert_other {kept : Row → Bool} (keeps : ∀ row, key (update row) = key row)
    (other : ∀ row, key row = key fresh → kept row = false) (rows : List Row) :
    (upsert key fresh update rows).filter kept = rows.filter kept := by
  induction rows with
  | nil =>
      unfold upsert
      rw [List.filter_cons_of_neg (by rw [other fresh rfl]; exact Bool.false_ne_true)]
  | cons row rest ih =>
      unfold upsert
      by_cases same : key row = key fresh
      · have updated : key (update row) = key fresh := (keeps row).trans same
        rw [if_pos same, List.filter_cons_of_neg (by rw [other _ updated]; exact Bool.false_ne_true),
          List.filter_cons_of_neg (by rw [other row same]; exact Bool.false_ne_true)]
      · rw [if_neg same, List.filter_cons, List.filter_cons, ih]

theorem upsert_of_not_mem :
    ∀ rows : List Row, key fresh ∉ rows.map key →
      upsert key fresh update rows = rows ++ [fresh] := by
  intro rows
  induction rows with
  | nil =>
      intro _absent
      rfl
  | cons row rest ih =>
      intro absent
      have different : key row ≠ key fresh := by
        intro same
        exact absent (by rw [List.map_cons, same]; exact List.mem_cons_self)
      have later : key fresh ∉ rest.map key := by
        intro member
        exact absent (List.mem_cons_of_mem _ member)
      unfold upsert
      rw [if_neg different, ih later, List.cons_append]

theorem mem_keys_upsert (keeps : ∀ row, key (update row) = key row) (rows : List Row) :
    key fresh ∈ (upsert key fresh update rows).map key := by
  induction rows with
  | nil => exact List.mem_cons_self
  | cons row rest ih =>
      unfold upsert
      by_cases same : key row = key fresh
      · rw [if_pos same, List.map_cons, keeps, same]
        exact List.mem_cons_self
      · rw [if_neg same, List.map_cons]
        exact List.mem_cons_of_mem _ ih

theorem mem_upsert {row : Row} {rows : List Row} (member : row ∈ upsert key fresh update rows) :
    row = fresh ∨ row ∈ rows ∨ ∃ old ∈ rows, key old = key fresh ∧ row = update old := by
  induction rows with
  | nil => exact .inl (List.mem_singleton.mp member)
  | cons head rest ih =>
      unfold upsert at member
      split at member
      · rename_i same
        rcases List.mem_cons.mp member with changed | later
        · exact .inr (.inr ⟨head, List.mem_cons_self, same, changed⟩)
        · exact .inr (.inl (List.mem_cons_of_mem head later))
      · rcases List.mem_cons.mp member with kept | later
        · exact .inr (.inl (kept ▸ List.mem_cons_self))
        · rcases ih later with new | old | ⟨before, present, changed⟩
          · exact .inl new
          · exact .inr (.inl (List.mem_cons_of_mem head old))
          · exact .inr (.inr ⟨before, List.mem_cons_of_mem head present, changed⟩)

theorem mem_insertNew_of_mem {row : Row} {rows : List Row} (member : row ∈ rows) :
    row ∈ insertNew key fresh rows := by
  unfold insertNew
  split
  · exact member
  · exact List.mem_append_left _ member

theorem mem_insertNew {row : Row} {rows : List Row} (member : row ∈ insertNew key fresh rows) :
    row ∈ rows ∨ row = fresh := by
  unfold insertNew at member
  split at member
  · exact .inl member
  · rcases List.mem_append.mp member with old | new
    · exact .inl old
    · exact .inr (List.mem_singleton.mp new)

theorem exists_insertNew (rows : List Row) :
    ∃ row ∈ insertNew key fresh rows, key row = key fresh := by
  unfold insertNew
  split
  · rename_i present
    exact List.mem_map.mp present
  · exact ⟨fresh, List.mem_append_right _ List.mem_cons_self, rfl⟩

theorem nodup_insertNew {rows : List Row} (distinct : (rows.map key).Nodup) :
    ((insertNew key fresh rows).map key).Nodup := by
  unfold insertNew
  split
  · exact distinct
  · rename_i absent
    rw [List.map_append, List.nodup_append]
    refine ⟨distinct, List.nodup_cons.mpr ⟨List.not_mem_nil, List.nodup_nil⟩, ?_⟩
    intro old member new single same
    rw [List.map_singleton, List.mem_singleton] at single
    rw [same, single] at member
    exact absent member

theorem lookup_isSome_iff (wanted : Key) (rows : List Row) :
    (lookup key wanted rows).isSome = true ↔ wanted ∈ rows.map key := by
  unfold lookup
  rw [List.find?_isSome, List.mem_map]
  constructor
  · rintro ⟨row, member, same⟩
    exact ⟨row, member, of_decide_eq_true same⟩
  · rintro ⟨row, member, same⟩
    exact ⟨row, member, decide_eq_true same⟩

theorem lookup_upsert_self (keeps : ∀ row, key (update row) = key row) (rows : List Row) :
    lookup key (key fresh) (upsert key fresh update rows) =
      some (((lookup key (key fresh) rows).map update).getD fresh) := by
  unfold lookup
  induction rows with
  | nil =>
      simp only [upsert, List.find?_cons, List.find?_nil, decide_true, Option.map_none,
        Option.getD_none]
  | cons row rest ih =>
      unfold upsert
      by_cases same : key row = key fresh
      · rw [if_pos same]
        simp only [List.find?_cons, keeps, same, decide_true, Option.map_some, Option.getD_some]
      · rw [if_neg same]
        simp only [List.find?_cons, same, decide_false]
        exact ih

theorem lookup_upsert_other {wanted : Key} (keeps : ∀ row, key (update row) = key row)
    (other : wanted ≠ key fresh) (rows : List Row) :
    lookup key wanted (upsert key fresh update rows) = lookup key wanted rows := by
  unfold lookup
  induction rows with
  | nil =>
      have different : ¬ key fresh = wanted := fun same => other same.symm
      simp only [upsert, List.find?_cons, List.find?_nil, different, decide_false]
  | cons row rest ih =>
      unfold upsert
      by_cases same : key row = key fresh
      · have different : ¬ key row = wanted := fun found => other (found.symm.trans same)
        have updated : ¬ key (update row) = wanted := by
          rw [keeps]
          exact different
        rw [if_pos same]
        simp only [List.find?_cons, updated, different, decide_false]
      · rw [if_neg same]
        simp only [List.find?_cons, ih]

theorem mem_keys_upsert_iff {wanted : Key} (keeps : ∀ row, key (update row) = key row)
    (rows : List Row) :
    wanted ∈ (upsert key fresh update rows).map key ↔
      wanted = key fresh ∨ wanted ∈ rows.map key := by
  by_cases same : wanted = key fresh
  · subst same
    exact iff_of_true (mem_keys_upsert keeps rows) (.inl rfl)
  · rw [← lookup_isSome_iff, lookup_upsert_other keeps same, lookup_isSome_iff]
    exact (or_iff_right same).symm

theorem lookup_of_mem {row : Row} {rows : List Row} (distinct : (rows.map key).Nodup)
    (member : row ∈ rows) : lookup key (key row) rows = some row := by
  unfold lookup
  induction rows with
  | nil => cases member
  | cons first rest ih =>
      rw [List.map_cons, List.nodup_cons] at distinct
      rcases List.mem_cons.mp member with here | later
      · subst here
        simp only [List.find?_cons, decide_true]
      · have different : ¬ key first = key row := by
          intro same
          apply distinct.1
          rw [same]
          exact List.mem_map.mpr ⟨row, later, rfl⟩
        simp only [List.find?_cons, different, decide_false]
        exact ih distinct.2 later

theorem lookup_map {change : Row → Row} (keeps : ∀ row, key (change row) = key row)
    (wanted : Key) (rows : List Row) :
    lookup key wanted (rows.map change) = (lookup key wanted rows).map change := by
  unfold lookup
  rw [List.find?_map]
  simp only [Function.comp_def, keeps]

theorem mem_of_lookup {wanted : Key} {row : Row} {rows : List Row}
    (found : lookup key wanted rows = some row) : row ∈ rows ∧ key row = wanted := by
  unfold lookup at found
  constructor
  · exact List.mem_of_find?_eq_some found
  · have holds := List.find?_some found
    exact of_decide_eq_true holds

end Rules

end KeyedTable
