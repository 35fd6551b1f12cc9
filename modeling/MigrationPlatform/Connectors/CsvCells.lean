/-
The cells of a CSV record under the names the connector gives them.

A cell has the name of its column, and beyond the header a generated one: `col`
and the number of the column. Both share one map, and nothing keeps a header
from using a generated name itself; `cells_kept_iff` says when no cell is lost.
-/

import MigrationPlatform.Connectors.FileConnectors
import MigrationPlatform.Foundation.Decimals
import Mathlib.Data.List.Nodup
import Mathlib.Data.List.Perm.Subperm

namespace MigrationPlatform.Connectors

def itoaLoop (i : Nat) (s : String) : String :=
  if 0 < i then itoaLoop (i / 10) (String.singleton (Char.ofNat ('0'.toNat + i % 10)) ++ s) else s
termination_by i
decreasing_by omega

def itoa (i : Nat) : String := if i = 0 then "0" else itoaLoop i ""

theorem digit_singleton {digit : Nat} (small : digit < 10) :
    (String.singleton (Char.ofNat ('0'.toNat + digit))).toList = [digit.digitChar] := by
  have each : ∀ d : Fin 10, (String.singleton (Char.ofNat ('0'.toNat + d.val))).toList =
      [d.val.digitChar] := by decide
  exact each ⟨digit, small⟩

private theorem itoaLoop_toList (i : Nat) (positive : 0 < i) :
    ∀ s : String, (itoaLoop i s).toList = Nat.toDigits 10 i ++ s.toList := by
  induction i using Nat.strongRecOn with
  | ind i ih =>
      intro s
      have digit : i % 10 < 10 := Nat.mod_lt i (by omega)
      rw [itoaLoop, if_pos positive]
      by_cases single : i < 10
      · have done : i / 10 = 0 := by omega
        have whole : i % 10 = i := by omega
        rw [done, itoaLoop, if_neg (Nat.lt_irrefl 0), String.toList_append, digit_singleton digit,
          whole, Nat.toDigits_of_lt_base single]
      · have more : 0 < i / 10 := by omega
        have split : Nat.toDigits 10 i = Nat.toDigits 10 (i / 10) ++ [(i % 10).digitChar] :=
          Nat.toDigits_of_base_le (by decide) (Nat.le_of_not_lt single)
        rw [ih (i / 10) (by omega) more, String.toList_append, digit_singleton digit, split,
          List.append_assoc]

theorem itoa_eq_toString (i : Nat) : itoa i = toString i := by
  apply String.toList_inj.mp
  rw [Decimals.toList_toString]
  unfold itoa
  by_cases zero : i = 0
  · rw [if_pos zero, zero]
    rfl
  · rw [if_neg zero, itoaLoop_toList i (by omega)]
    exact List.append_nil _

def syntheticName (i : Nat) : String := "col" ++ itoa i

private theorem syntheticName_inj {i j : Nat} (same : syntheticName i = syntheticName j) :
    i = j := by
  have lists := congrArg String.toList same
  unfold syntheticName at lists
  rw [String.toList_append, String.toList_append, itoa_eq_toString, itoa_eq_toString] at lists
  exact Decimals.digits_inj (List.append_cancel_left lists)

def cellName (header : List String) (i : Nat) : String := header[i]?.getD (syntheticName i)

def cellNames (header record : List String) : List String :=
  (List.range record.length).map (cellName header)

/-- What a row says of the columns, in order, as far as it has entries. -/
def rebuild (header : List String) (fields : Data) : List (Option Value) :=
  (List.range fields.length).map (fun i => fields.lookup (cellName header i))

structure CellsKept (header record : List String) : Prop where
  distinct : ((recordToMap header record).map Prod.fst).Nodup
  entries : (recordToMap header record).length = record.length
  cells : ∀ i (inside : i < record.length),
    (recordToMap header record).lookup (cellName header i) = some (.text record[i])
  rebuilt : rebuild header (recordToMap header record) =
    record.map (fun cell => some (.text cell))

/-- No column has the generated name of a column beyond the header. -/
def NoGeneratedName (header record : List String) : Prop :=
  ∀ i, header.length ≤ i → i < record.length → syntheticName i ∉ header

def setAll (data : Data) (entries : List (String × Value)) : Data :=
  entries.foldl (fun fields entry => fields.set entry.1 entry.2) data

def cellEntries (header record : List String) : List (String × Value) :=
  record.zipIdx.map (fun entry => (cellName header entry.2, .text entry.1))

theorem recordToMap_eq (header record : List String) :
    recordToMap header record = setAll [] (cellEntries header record) := by
  unfold recordToMap setAll cellEntries cellName syntheticName
  rw [List.foldl_map]
  simp only [itoa_eq_toString]

theorem cellEntries_names (header record : List String) :
    (cellEntries header record).map Prod.fst = cellNames header record := by
  unfold cellEntries cellNames
  rw [List.map_map, List.range_eq_range', ← List.zipIdx_map_snd 0 record, List.map_map]
  rfl

theorem cellEntries_getElem? (header record : List String) (i : Nat) :
    (cellEntries header record)[i]? =
      record[i]?.map (fun cell => (cellName header i, Value.text cell)) := by
  unfold cellEntries
  rw [List.getElem?_map, List.getElem?_zipIdx, Option.map_map, Nat.zero_add]
  rfl

private theorem set_fresh {data : Data} {key : String} (fresh : key ∉ data.map Prod.fst)
    (value : Value) :
    data.set key value = data ++ [(key, value)] := by
  unfold Data.set
  rw [if_neg]
  intro present
  obtain ⟨entry, member, same⟩ := List.any_eq_true.mp present
  apply fresh
  rw [← eq_of_beq same]
  exact List.mem_map_of_mem member

private theorem setAll_distinct (entries : List (String × Value)) :
    ∀ data : Data, ((data ++ entries).map Prod.fst).Nodup → setAll data entries = data ++ entries := by
  induction entries with
  | nil =>
      intro data _distinct
      exact (List.append_nil data).symm
  | cons entry rest ih =>
      intro data distinct
      have regroup : data ++ entry :: rest = (data ++ [entry]) ++ rest :=
        (List.append_assoc data [entry] rest).symm
      have fresh : entry.1 ∉ data.map Prod.fst := by
        rw [List.map_append, List.map_cons] at distinct
        intro member
        exact (List.nodup_append.mp distinct).2.2 _ member _ List.mem_cons_self rfl
      rw [regroup] at distinct
      change setAll (data.set entry.1 entry.2) rest = _
      rw [set_fresh fresh, ih _ distinct, regroup]

theorem setAll_names (entries : List (String × Value)) :
    ∀ data : Data, (data.map Prod.fst).Nodup → ((setAll data entries).map Prod.fst).Nodup ∧
      ∀ name, name ∈ (setAll data entries).map Prod.fst ↔
        name ∈ (data ++ entries).map Prod.fst := by
  induction entries with
  | nil =>
      intro data distinct
      refine ⟨distinct, ?_⟩
      intro name
      rw [List.append_nil]
      rfl
  | cons entry rest ih =>
      intro data distinct
      have names := Data.names_set data entry.1 entry.2
      obtain ⟨nodup, known⟩ := ih (data.set entry.1 entry.2) (Data.nodup_set distinct _ _)
      refine ⟨nodup, ?_⟩
      intro name
      change name ∈ (setAll (data.set entry.1 entry.2) rest).map Prod.fst ↔ _
      rw [known name, List.map_append, List.mem_append, names, List.map_append, List.map_cons,
        List.mem_append, List.mem_cons]
      split
      · rename_i present
        constructor
        · tauto
        · rintro (inData | same | inRest)
          · exact .inl inData
          · exact .inl (same ▸ present)
          · exact .inr inRest
      · rw [List.mem_append, List.mem_singleton]
        tauto

private theorem setAll_lookup_other (entries : List (String × Value)) {name : String} :
    ∀ data : Data, name ∉ entries.map Prod.fst →
      (setAll data entries).lookup name = data.lookup name := by
  induction entries with
  | nil =>
      intro data _other
      rfl
  | cons entry rest ih =>
      intro data other
      rw [List.map_cons, List.mem_cons, not_or] at other
      change (setAll (data.set entry.1 entry.2) rest).lookup name = _
      rw [ih _ other.2, Data.lookup_set, if_neg other.1]

private theorem setAll_lookup_last (entries : List (String × Value)) {name : String}
    {value : Value} :
    ∀ (data : Data) (i : Nat), entries[i]? = some (name, value) →
      name ∉ (entries.drop (i + 1)).map Prod.fst →
      (setAll data entries).lookup name = some value := by
  induction entries with
  | nil =>
      intro data i place _last
      cases place
  | cons entry rest ih =>
      intro data i place last
      change (setAll (data.set entry.1 entry.2) rest).lookup name = _
      cases i with
      | zero =>
          cases place
          rw [setAll_lookup_other rest _ last, Data.lookup_set, if_pos rfl]
      | succ i => exact ih _ i place last

variable {header record : List String}

theorem cellsKept_of_distinct
    (distinct : (cellNames header record).Nodup) : CellsKept header record := by
  have names : ((cellEntries header record).map Prod.fst).Nodup := by
    rw [cellEntries_names]
    exact distinct
  have whole : recordToMap header record = cellEntries header record := by
    rw [recordToMap_eq]
    exact setAll_distinct _ [] names
  have length : (cellEntries header record).length = record.length := by
    unfold cellEntries
    rw [List.length_map, List.length_zipIdx]
  have found : ∀ i (inside : i < record.length),
      (cellEntries header record).lookup (cellName header i) = some (.text record[i]) := by
    intro i inside
    apply (Data.mem_iff_lookup names).mp
    apply List.mem_iff_getElem?.mpr
    refine ⟨i, ?_⟩
    rw [cellEntries_getElem?, List.getElem?_eq_getElem inside]
    rfl
  constructor
  · rw [whole]
    exact names
  · rw [whole]
    exact length
  · rw [whole]
    exact found
  · rw [whole]
    unfold rebuild
    rw [length]
    apply List.ext_getElem
    · rw [List.length_map, List.length_range, List.length_map]
    · intro i _inRange inCells
      rw [List.length_map] at inCells
      rw [List.getElem_map, List.getElem_range, List.getElem_map]
      exact found i inCells

private theorem CellsKept.names_distinct (kept : CellsKept header record) :
    (cellNames header record).Nodup := by
  obtain ⟨once, within⟩ := setAll_names (cellEntries header record) [] List.nodup_nil
  rw [← recordToMap_eq] at once within
  simp only [List.nil_append, cellEntries_names] at within
  have size : (cellNames header record).length = ((recordToMap header record).map Prod.fst).length := by
    unfold cellNames
    rw [List.length_map, List.length_map, List.length_range, kept.entries]
  exact ((once.subperm (fun name => (within name).mp)).perm_of_length_le (Nat.le_of_eq size)).nodup_iff.mp once

theorem cellName_beyond {header : List String} {i : Nat} (beyond : header.length ≤ i) :
    cellName header i = syntheticName i := by
  unfold cellName
  rw [List.getElem?_eq_none beyond]
  rfl

theorem cellName_column {header : List String} {i : Nat} (inside : i < header.length) :
    cellName header i = header[i] := by
  unfold cellName
  rw [List.getElem?_eq_getElem inside]
  rfl

theorem cellNames_of_length (same : record.length = header.length) :
    cellNames header record = header := by
  unfold cellNames
  rw [same]
  apply List.ext_getElem
  · rw [List.length_map, List.length_range]
  · intro i _inRange inside
    rw [List.getElem_map, List.getElem_range, cellName_column inside]

theorem recordToMap_lookup (same : record.length = header.length)
    {i : Nat} {name text : String} (column : header[i]? = some name)
    (held : record[i]? = some text) (last : name ∉ header.drop (i + 1)) :
    (recordToMap header record).lookup name = some (.text text) := by
  have named : cellName header i = name := by
    unfold cellName
    rw [column]
    rfl
  have place : (cellEntries header record)[i]? = some (name, .text text) := by
    rw [cellEntries_getElem?, held, named]
    rfl
  have behind : name ∉ ((cellEntries header record).drop (i + 1)).map Prod.fst := by
    rw [List.map_drop, cellEntries_names, cellNames_of_length same]
    exact last
  rw [recordToMap_eq]
  exact setAll_lookup_last _ [] i place behind

theorem recordToMap_names (same : record.length = header.length) :
    ((recordToMap header record).map Prod.fst).Nodup ∧
      ∀ name, name ∈ (recordToMap header record).map Prod.fst ↔ name ∈ header := by
  obtain ⟨once, names⟩ := setAll_names (cellEntries header record) [] List.nodup_nil
  rw [← recordToMap_eq] at once names
  simp only [List.nil_append, cellEntries_names, cellNames_of_length same] at names
  exact ⟨once, names⟩

private theorem cellNames_distinct_iff (distinct : header.Nodup) :
    (cellNames header record).Nodup ↔ NoGeneratedName header record := by
  unfold cellNames
  rw [List.nodup_map_iff_inj_on List.nodup_range]
  simp only [List.mem_range]
  constructor
  · intro injective i beyond inside member
    obtain ⟨j, within, same⟩ := List.mem_iff_getElem.mp member
    have equal := injective j (by omega) i inside
      (by rw [cellName_column within, cellName_beyond beyond, same])
    omega
  · intro apart i inside j insideJ same
    by_cases column : i < header.length
    · by_cases columnJ : j < header.length
      · rw [cellName_column column, cellName_column columnJ] at same
        exact (distinct.getElem_inj_iff).mp same
      · rw [cellName_column column, cellName_beyond (by omega)] at same
        exact absurd (same ▸ List.getElem_mem column) (apart j (by omega) insideJ)
    · by_cases columnJ : j < header.length
      · rw [cellName_beyond (by omega), cellName_column columnJ] at same
        exact absurd (same ▸ List.getElem_mem columnJ) (apart i (by omega) inside)
      · rw [cellName_beyond (by omega), cellName_beyond (by omega)] at same
        exact syntheticName_inj same

/-- A record of any length keeps its cells exactly where the header has none of
the names that are generated for the columns beyond it. -/
theorem cells_kept_iff {header : List String} (distinct : header.Nodup) (record : List String) :
    CellsKept header record ↔ NoGeneratedName header record := by
  rw [← cellNames_distinct_iff distinct]
  constructor
  · exact CellsKept.names_distinct
  · exact cellsKept_of_distinct

theorem longer_record_kept : ["id", "name"].Nodup ∧ CellsKept ["id", "name"] ["1", "Ada", "x"] := by
  have distinct : ["id", "name"].Nodup := by decide
  have apart : NoGeneratedName ["id", "name"] ["1", "Ada", "x"] := by
    intro i beyond inside
    have third : i = 2 := by
      change 2 ≤ i at beyond
      change i < 3 at inside
      omega
    rw [third, syntheticName, itoa_eq_toString]
    decide
  exact ⟨distinct, (cells_kept_iff distinct ["1", "Ada", "x"]).mpr apart⟩

/-- The second cell is stored over the first. -/
theorem second_cell_overwrites : ["col1"].Nodup ∧ ¬CellsKept ["col1"] ["a", "b"] ∧
    (recordToMap ["col1"] ["a", "b"]).length = 1 := by
  have single : (recordToMap ["col1"] ["a", "b"]).length = 1 := by decide
  refine ⟨by decide, ?_, single⟩
  intro kept
  have entries := kept.entries
  rw [single] at entries
  cases entries

end MigrationPlatform.Connectors
