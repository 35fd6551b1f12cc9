/-
Advancing the cursor of a watched connector.

`AdvanceConnectorCursor` reads the configuration under a row lock, merges what a
run has started into the map `seen`, lets the smallest keys go, and writes the
configuration back. Between the two every number of the configuration is a
`float64`. An advance is a transaction of its own, and transactions interleave.
-/

import MigrationPlatform.Connectors.DecodedValues
import MigrationPlatform.Foundation.GuardedRuns
import MigrationPlatform.Watch.WatchRuns
import Mathlib.Data.Finset.Card
import Mathlib.Data.String.Basic

namespace MigrationPlatform.Watch

open MigrationPlatform.Connectors (Value Data Meaning meaning decodeValue decodeItems decodeFields
  Survives FieldsSurvive meaning_decoded decodeFields_keys text_of_meaning)
open GuardedRuns

/-- `Seen` of the input: a map that is not empty. -/
structure SeenInput where
  entries : List (String × String)
  nonempty : entries ≠ []
  distinct : (entries.map Prod.fst).Nodup

section Activity

variable (convert : String → Option String)

def configOf : Value → Option Data
  | .object fields => some fields
  | .null => some []
  | _ => none

def objectAt (fields : Data) (key : String) : Data :=
  match fields.lookup key with
  | some (.object inner) => inner
  | _ => []

def mergeSeen (seen : Data) (entries : List (String × String)) : Data :=
  entries.foldl (fun seen entry => seen.set entry.1 (.text entry.2)) seen

def smallestKeys (seen : Data) : List String :=
  ((seen.map Prod.fst).mergeSort (fun left right => decide (left ≤ right))).take
    (seen.length - maxCursorEntries)

def trimSeen (seen : Data) : Data := seen.filter (fun entry => entry.1 ∉ smallestKeys seen)

def advanceConfig (now : String) (cfg : Data) (entries : List (String × String)) : Data :=
  let cursor := objectAt cfg "cursor"
  let seen := trimSeen (mergeSeen (objectAt cursor "seen") entries)
  cfg.set "cursor" (.object ((cursor.set "seen" (.object seen)).set "updatedAt" (.text now)))

/-- What is written over `stored`; `none` where it cannot be decoded. `convert` is
what decoding and encoding make of a number. -/
def advanceStored (now : String) (stored : Value) (entries : List (String × String)) :
    Option Value :=
  match (decodeValue convert stored).bind configOf with
  | some cfg => some (.object (advanceConfig now cfg entries))
  | none => none

end Activity

inductive AdvancePhase
  | begun
  | locked (read : Value)
  | updated (next : Value)
  | closed

structure Advance where
  input : SeenInput
  phase : AdvancePhase := .begun

/-- A committed advance with the configurations before and after it. -/
structure Committed where
  input : SeenInput
  before : Value
  after : Value

structure ConnectorRow where
  stored : Value
  holder : Option Nat := none
  advances : List Advance := []
  history : List Committed := []

inductive AdvanceAction
  | begin (input : SeenInput)
  | lock (index : Nat)
  | update (index : Nat) (now : String)
  | commit (index : Nat)
  | rollback (index : Nat)

def ConnectorRow.setPhase (row : ConnectorRow) (index : Nat) (advance : Advance)
    (phase : AdvancePhase) : List Advance :=
  row.advances.set index { advance with phase := phase }

/-- `FOR UPDATE` waits while another transaction holds the row and then reads what
is committed. A rollback may come at any time. -/
def ConnectorRow.step (convert : String → Option String) (row : ConnectorRow) :
    AdvanceAction → Option ConnectorRow
  | .begin input => some { row with advances := row.advances ++ [{ input := input }] }
  | .lock index =>
      match row.advances[index]?, row.holder with
      | some advance, none =>
          match advance.phase with
          | .begun =>
              some { row with
                holder := some index
                advances := row.setPhase index advance (.locked row.stored) }
          | _ => none
      | _, _ => none
  | .update index now =>
      match row.advances[index]? with
      | none => none
      | some advance =>
          match advance.phase with
          | .locked read =>
              match advanceStored convert now read advance.input.entries with
              | some next =>
                  some { row with advances := row.setPhase index advance (.updated next) }
              | none =>
                  some { row with holder := none, advances := row.setPhase index advance .closed }
          | _ => none
  | .commit index =>
      match row.advances[index]? with
      | none => none
      | some advance =>
          match advance.phase with
          | .updated next =>
              some
                { stored := next
                  holder := none
                  advances := row.setPhase index advance .closed
                  history := row.history ++
                    [{ input := advance.input, before := row.stored, after := next }] }
          | _ => none
  | .rollback index =>
      match row.advances[index]? with
      | none => none
      | some advance =>
          some { row with
            holder := if row.holder = some index then none else row.holder
            advances := row.setPhase index advance .closed }

def fieldsOf (stored : Value) : Data := (configOf stored).getD []

def cursorFields (stored : Value) : Data := objectAt (fieldsOf stored) "cursor"

def seenMap (stored : Value) : Data := objectAt (cursorFields stored) "seen"

def allKeys (stored : Value) (entries : List (String × String)) : Finset String :=
  ((seenMap stored).map Prod.fst).toFinset ∪ (entries.map Prod.fst).toFinset

def Outranked (stored : Value) (entries : List (String × String)) (key : String) : Prop :=
  maxCursorEntries ≤ ((allKeys stored entries).filter (fun other => key < other)).card

instance (stored : Value) (entries : List (String × String)) (key : String) :
    Decidable (Outranked stored entries key) :=
  inferInstanceAs (Decidable (maxCursorEntries ≤ _))

def SameField (before after : Data) (key : String) : Prop :=
  (after.lookup key).map meaning = (before.lookup key).map meaning

structure Remembers (before after : Value) (entries : List (String × String)) : Prop where
  given : ∀ entry ∈ entries, (seenMap after).lookup entry.1 = some (.text entry.2)
  others : ∀ key, key ∉ entries.map Prod.fst →
    SameField (seenMap before) (seenMap after) key ∨
      (Outranked before entries key ∧ (seenMap after).lookup key = none)
  cursor : ∀ key, key ≠ "seen" → key ≠ "updatedAt" → SameField (cursorFields before) (cursorFields after) key
  fields : ∀ key, key ≠ "cursor" → SameField (fieldsOf before) (fieldsOf after) key
  skipped : ∀ listed, ∀ object ∈ newObjects (seenOf ((fieldsOf after).lookup "cursor")) listed,
    (object.key, object.etag) ∉ entries

section Survival

variable (convert : String → Option String)

def FieldSurvives (fields : Data) (key : String) : Prop :=
  ∀ value, fields.lookup key = some value → Survives convert value

/-- None of the keys is outranked, and the numbers of what stays are written back
as they were. -/
structure Fits (stored : Value) (entries : List (String × String)) : Prop where
  given : ∀ entry ∈ entries, ¬Outranked stored entries entry.1
  others : ∀ key, key ∉ entries.map Prod.fst → ¬Outranked stored entries key →
    FieldSurvives convert (seenMap stored) key
  cursor : ∀ key, key ≠ "seen" → key ≠ "updatedAt" → FieldSurvives convert (cursorFields stored) key
  fields : ∀ key, key ≠ "cursor" → FieldSurvives convert (fieldsOf stored) key

end Survival

section Decoding

variable {convert : String → Option String}

theorem sameField_decoded {fields decoded : Data} (passed : decodeFields convert fields = some decoded)
    (key : String) : SameField fields decoded key ↔ FieldSurvives convert fields key := by
  unfold SameField FieldSurvives
  cases held : fields.lookup key with
  | none =>
      have absent : decoded.lookup key = none := by
        rw [Data.lookup_none_iff, decodeFields_keys passed, ← Data.lookup_none_iff]
        exact held
      rw [absent]
      refine iff_of_true rfl ?_
      intro value impossible
      cases impossible
  | some value =>
      obtain ⟨after, valuePassed, found⟩ := Connectors.decodeFields_lookup passed held
      rw [found, Option.map_some, Option.map_some, Option.some.injEq, meaning_decoded valuePassed]
      constructor
      · intro survives other same
        rw [← Option.some.inj same]
        exact survives
      · intro survives
        exact survives value rfl

theorem objectAt_decoded {fields decoded : Data} (passed : decodeFields convert fields = some decoded)
    (key : String) : decodeFields convert (objectAt fields key) = some (objectAt decoded key) := by
  unfold objectAt
  cases held : fields.lookup key with
  | none =>
      have absent : decoded.lookup key = none := by
        rw [Data.lookup_none_iff, decodeFields_keys passed, ← Data.lookup_none_iff]
        exact held
      rw [absent]
      rfl
  | some value =>
      obtain ⟨after, valuePassed, found⟩ := Connectors.decodeFields_lookup passed held
      rw [found]
      cases value with
      | object inner =>
          obtain ⟨later, innerPassed, rfl⟩ := Option.map_eq_some_iff.mp valuePassed
          exact innerPassed
      | list items =>
          obtain ⟨later, _, rfl⟩ := Option.map_eq_some_iff.mp valuePassed
          rfl
      | number literal =>
          obtain ⟨text, _, rfl⟩ := Option.map_eq_some_iff.mp valuePassed
          rfl
      | null =>
          cases valuePassed
          rfl
      | bool value =>
          cases valuePassed
          rfl
      | text value =>
          cases valuePassed
          rfl

end Decoding

/-! ### Merging and trimming -/

theorem lookup_mergeSeen_other (entries : List (String × String)) {key : String} :
    ∀ seen : Data, key ∉ entries.map Prod.fst → (mergeSeen seen entries).lookup key = seen.lookup key := by
  induction entries with
  | nil =>
      intro seen _absent
      rfl
  | cons entry rest ih =>
      intro seen absent
      rw [List.map_cons, List.mem_cons, not_or] at absent
      unfold mergeSeen at ih ⊢
      rw [List.foldl_cons, ih _ absent.2, Data.lookup_set, if_neg absent.1]

private theorem lookup_mergeSeen_given {entries : List (String × String)} :
    ∀ seen : Data, (entries.map Prod.fst).Nodup → ∀ entry ∈ entries,
      (mergeSeen seen entries).lookup entry.1 = some (.text entry.2) := by
  induction entries with
  | nil =>
      intro seen _distinct entry absent
      exact absurd absent List.not_mem_nil
  | cons first rest ih =>
      intro seen distinct entry member
      rw [List.map_cons, List.nodup_cons] at distinct
      have unfolded : mergeSeen seen (first :: rest) =
          mergeSeen (seen.set first.1 (.text first.2)) rest := rfl
      rw [unfolded]
      rcases List.mem_cons.mp member with same | later
      · rw [same, lookup_mergeSeen_other rest _ distinct.1, Data.lookup_set, if_pos rfl]
      · exact ih _ distinct.2 entry later

theorem keys_mergeSeen (entries : List (String × String)) :
    ∀ seen : Data, (seen.map Prod.fst).Nodup →
      ((mergeSeen seen entries).map Prod.fst).Nodup ∧
      ((mergeSeen seen entries).map Prod.fst).toFinset =
        (seen.map Prod.fst).toFinset ∪ (entries.map Prod.fst).toFinset := by
  induction entries with
  | nil =>
      intro seen distinct
      refine ⟨distinct, ?_⟩
      rw [List.map_nil, List.toFinset_nil, Finset.union_empty]
      rfl
  | cons first rest ih =>
      intro seen distinct
      have unfolded : mergeSeen seen (first :: rest) =
          mergeSeen (seen.set first.1 (.text first.2)) rest := rfl
      have keys := Data.names_set seen first.1 (.text first.2)
      obtain ⟨nodup, union⟩ := ih _ (Data.nodup_set distinct first.1 (.text first.2))
      refine ⟨nodup, ?_⟩
      rw [unfolded, union, keys, List.map_cons, List.toFinset_cons]
      split
      · rename_i present
        rw [Finset.union_insert, Finset.insert_eq_of_mem
          (Finset.mem_union_left _ (List.mem_toFinset.mpr present))]
      · rw [List.toFinset_append, Finset.union_assoc, List.toFinset_cons, List.toFinset_nil,
          Finset.insert_union, Finset.empty_union]

theorem mem_take_ascending {Item : Type*} [LinearOrder Item] (size : Nat) {item : Item}
    {items : List Item} (ascending : items.Pairwise (fun left right => left < right)) :
    item ∈ items.take (items.length - size) ↔
      item ∈ items ∧ size ≤ (items.filter (fun other => decide (item < other))).length := by
  induction items with
  | nil => simp
  | cons first rest ih =>
      rw [List.pairwise_cons] at ascending
      have later := ih ascending.2
      rw [List.length_cons]
      by_cases room : size ≤ rest.length
      · have count : rest.length + 1 - size = (rest.length - size) + 1 := by omega
        rw [count, List.take_succ_cons, List.mem_cons, List.mem_cons, later]
        by_cases same : item = first
        · have all : (first :: rest).filter (fun other => decide (item < other)) = rest := by
            rw [List.filter_cons_of_neg (by rw [same]; simp), List.filter_eq_self]
            intro other member
            rw [same]
            exact decide_eq_true (ascending.1 other member)
          rw [all]
          exact iff_of_true (.inl same) ⟨.inl same, room⟩
        · rw [or_iff_right same, or_iff_right same]
          by_cases member : item ∈ rest
          · rw [List.filter_cons_of_neg (by simpa using (ascending.1 item member).le)]
          · exact iff_of_false (fun both => member both.1) (fun both => member both.1)
      · have none_left : rest.length + 1 - size = 0 := by omega
        rw [none_left, List.take_zero]
        refine iff_of_false List.not_mem_nil ?_
        rintro ⟨member, many⟩
        have fewer : ((first :: rest).filter (fun other => decide (item < other))).length <
            (first :: rest).length := by
          rw [List.length_filter_lt_length_iff_exists]
          exact ⟨item, member, by simp⟩
        rw [List.length_cons] at fewer
        omega

theorem mem_smallestKeys {seen : Data} (distinct : (seen.map Prod.fst).Nodup) (key : String) :
    key ∈ smallestKeys seen ↔ key ∈ seen.map Prod.fst ∧
      maxCursorEntries ≤
        ((seen.map Prod.fst).toFinset.filter (fun other => key < other)).card := by
  have perm := List.mergeSort_perm (seen.map Prod.fst) (fun left right => decide (left ≤ right))
  have sorted : ((seen.map Prod.fst).mergeSort (fun left right => decide (left ≤ right))).Pairwise
      (fun left right => decide (left ≤ right) = true) := by
    refine List.pairwise_mergeSort ?_ ?_ _
    · intro a b c first second
      exact decide_eq_true (le_trans (of_decide_eq_true first) (of_decide_eq_true second))
    · intro a b
      simpa only [Bool.or_eq_true, decide_eq_true_eq] using le_total a b
  have ascending : ((seen.map Prod.fst).mergeSort (fun left right => decide (left ≤ right))).Pairwise
      (fun left right => left < right) := by
    refine (sorted.and (perm.nodup_iff.mpr distinct)).imp ?_
    rintro left right ⟨below, different⟩
    exact lt_of_le_of_ne (of_decide_eq_true below) different
  have size : ((seen.map Prod.fst).mergeSort (fun left right => decide (left ≤ right))).length =
      seen.length := by
    rw [perm.length_eq, List.length_map]
  have count : ((seen.map Prod.fst).toFinset.filter (fun other => key < other)).card =
      (((seen.map Prod.fst).mergeSort (fun left right => decide (left ≤ right))).filter
        (fun other => decide (key < other))).length := by
    rw [(perm.filter _).length_eq, ← List.toFinset_card_of_nodup (distinct.filter _),
      List.toFinset_filter]
    simp only [decide_eq_true_eq]
  unfold smallestKeys
  rw [← size, mem_take_ascending maxCursorEntries ascending, perm.mem_iff, count]

private theorem lookup_filter_keys {p : String → Bool} (fields : Data) (key : String) :
    (fields.filter (fun entry => p entry.1)).lookup key = if p key then fields.lookup key else none := by
  induction fields with
  | nil => simp
  | cons entry rest ih =>
      by_cases same : key = entry.1
      · rw [List.lookup_cons, same, beq_self_eq_true, List.filter_cons]
        rw [same] at ih
        split
        · rw [List.lookup_cons, beq_self_eq_true]
        · rename_i dropped
          rw [ih, if_neg dropped]
      · have other : (key == entry.1) = false := beq_eq_false_iff_ne.mpr same
        rw [List.lookup_cons, other, List.filter_cons]
        split
        · rw [List.lookup_cons, other]
          exact ih
        · exact ih

private theorem lookup_trimmed {seen : Data} (distinct : (seen.map Prod.fst).Nodup)
    (entries : List (String × String)) (key : String) :
    (trimSeen (mergeSeen seen entries)).lookup key =
      if maxCursorEntries ≤ (((seen.map Prod.fst).toFinset ∪ (entries.map Prod.fst).toFinset).filter
        (fun other => key < other)).card then none else (mergeSeen seen entries).lookup key := by
  obtain ⟨once, union⟩ := keys_mergeSeen entries seen distinct
  have small := mem_smallestKeys once key
  rw [union] at small
  have filtered := lookup_filter_keys (p := fun key => decide (key ∉ smallestKeys (mergeSeen seen entries)))
    (mergeSeen seen entries) key
  unfold trimSeen
  rw [filtered]
  by_cases present : key ∈ (mergeSeen seen entries).map Prod.fst
  · have iff : key ∈ smallestKeys (mergeSeen seen entries) ↔ _ :=
      small.trans (and_iff_right present)
    by_cases outranked : key ∈ smallestKeys (mergeSeen seen entries)
    · rw [if_neg (by simpa using outranked), if_pos (iff.mp outranked)]
    · rw [if_pos (by simpa using outranked), if_neg (fun many => outranked (iff.mpr many))]
  · rw [Data.lookup_none_iff.mpr present]
    split
    all_goals
      split
      all_goals rfl

theorem lookup_seenTexts {entries : Data} {key etag : String}
    (held : entries.lookup key = some (.text etag)) :
    (entries.filterMap (fun entry =>
      match entry.2 with
      | .text etag => some (entry.1, etag)
      | _ => none)).lookup key = some etag := by
  induction entries with
  | nil => cases held
  | cons entry rest ih =>
      obtain ⟨own, value⟩ := entry
      rw [List.lookup_cons] at held
      by_cases same : key = own
      · rw [same, beq_self_eq_true] at held
        cases held
        rw [List.filterMap_cons, List.lookup_cons, same, beq_self_eq_true]
      · have other : (key == own) = false := beq_eq_false_iff_ne.mpr same
        rw [other] at held
        rw [List.filterMap_cons]
        cases value with
        | text value =>
            dsimp only
            rw [List.lookup_cons, other]
            exact ih held
        | null => exact ih held
        | bool value => exact ih held
        | number literal => exact ih held
        | list items => exact ih held
        | object fields => exact ih held

theorem not_new_of_seen {fields : Data} {object : ListedObject}
    (held : (objectAt (objectAt fields "cursor") "seen").lookup object.key = some (.text object.etag)) :
    isNew (seenOf (fields.lookup "cursor")) object = false := by
  have found : (seenOf (fields.lookup "cursor")).lookup object.key = some object.etag := by
    unfold objectAt at held
    cases cursor : fields.lookup "cursor" with
    | none =>
        rw [cursor] at held
        cases held
    | some value =>
        rw [cursor] at held
        cases value with
        | object inner =>
            unfold seenOf
            dsimp only at held ⊢
            cases seen : inner.lookup "seen" with
            | none =>
                rw [seen] at held
                cases held
            | some map =>
                rw [seen] at held
                cases map with
                | object entries => exact lookup_seenTexts held
                | null => cases held
                | bool value => cases held
                | number literal => cases held
                | text value => cases held
                | list items => cases held
        | null => cases held
        | bool value => cases held
        | number literal => cases held
        | text value => cases held
        | list items => cases held
  unfold isNew
  rw [found, beq_self_eq_true, Bool.not_true, Bool.and_false]

section OneAdvance

variable {convert : String → Option String} {now : String} {stored after : Value}
variable {entries : List (String × String)}

theorem exists_config (advanced : advanceStored convert now stored entries = some after) :
    ∃ cfg, decodeFields convert (fieldsOf stored) = some cfg ∧
      fieldsOf after = advanceConfig now cfg entries := by
  unfold advanceStored at advanced
  split at advanced
  · rename_i cfg read
    cases advanced
    refine ⟨cfg, ?_, rfl⟩
    obtain ⟨value, passed, config⟩ := Option.bind_eq_some_iff.mp read
    cases stored with
    | object fields =>
        obtain ⟨later, fieldsPassed, rfl⟩ := Option.map_eq_some_iff.mp passed
        cases config
        exact fieldsPassed
    | null =>
        cases passed
        cases config
        rfl
    | bool value =>
        cases passed
        cases config
    | number literal =>
        obtain ⟨text, _, rfl⟩ := Option.map_eq_some_iff.mp passed
        cases config
    | text value =>
        cases passed
        cases config
    | list items =>
        obtain ⟨later, _, rfl⟩ := Option.map_eq_some_iff.mp passed
        cases config
  · cases advanced

theorem objectAt_of_lookup {fields inner : Data} {key : String}
    (found : fields.lookup key = some (.object inner)) : objectAt fields key = inner := by
  unfold objectAt
  rw [found]

private theorem lookup_advanceConfig (now : String) (cfg : Data) (entries : List (String × String))
    {key : String} (other : key ≠ "cursor") :
    (advanceConfig now cfg entries).lookup key = cfg.lookup key := by
  unfold advanceConfig
  rw [Data.lookup_set, if_neg other]

theorem cursor_advanceConfig (now : String) (cfg : Data) (entries : List (String × String)) :
    objectAt (advanceConfig now cfg entries) "cursor" =
      ((objectAt cfg "cursor").set "seen" (.object (trimSeen (mergeSeen
        (objectAt (objectAt cfg "cursor") "seen") entries)))).set "updatedAt" (.text now) := by
  apply objectAt_of_lookup
  unfold advanceConfig
  rw [Data.lookup_set, if_pos rfl]

theorem seen_advanceConfig (now : String) (cfg : Data) (entries : List (String × String)) :
    objectAt (objectAt (advanceConfig now cfg entries) "cursor") "seen" =
      trimSeen (mergeSeen (objectAt (objectAt cfg "cursor") "seen") entries) := by
  apply objectAt_of_lookup
  rw [cursor_advanceConfig, Data.lookup_set, if_neg (by decide), Data.lookup_set, if_pos rfl]

theorem exists_seen_after (advanced : advanceStored convert now stored entries = some after)
    (seenOnce : ((seenMap stored).map Prod.fst).Nodup) :
    ∃ seen, decodeFields convert (seenMap stored) = some seen ∧ ∀ key,
      (seenMap after).lookup key =
        if Outranked stored entries key then none else (mergeSeen seen entries).lookup key := by
  obtain ⟨cfg, passed, written⟩ := exists_config advanced
  have seenPassed := objectAt_decoded (objectAt_decoded passed "cursor") "seen"
  have keys := decodeFields_keys seenPassed
  have decodedOnce : ((objectAt (objectAt cfg "cursor") "seen").map Prod.fst).Nodup := by
    rw [keys]
    exact seenOnce
  refine ⟨_, seenPassed, ?_⟩
  intro key
  unfold seenMap cursorFields
  rw [written, seen_advanceConfig, lookup_trimmed decodedOnce, keys]
  rfl

theorem remembers_iff (advanced : advanceStored convert now stored entries = some after)
    (seenOnce : ((seenMap stored).map Prod.fst).Nodup) (distinct : (entries.map Prod.fst).Nodup) :
    Remembers stored after entries ↔ Fits convert stored entries := by
  obtain ⟨cfg, passed, written⟩ := exists_config advanced
  obtain ⟨seen, seenPassed, seenAfter⟩ := exists_seen_after advanced seenOnce
  have cursorPassed := objectAt_decoded passed "cursor"
  have fieldIff : ∀ key, key ≠ "cursor" → (SameField (fieldsOf stored) (fieldsOf after) key ↔
      FieldSurvives convert (fieldsOf stored) key) := by
    intro key other
    unfold SameField
    rw [written, lookup_advanceConfig now cfg entries other]
    exact sameField_decoded passed key
  have cursorIff : ∀ key, key ≠ "seen" → key ≠ "updatedAt" →
      (SameField (cursorFields stored) (cursorFields after) key ↔
        FieldSurvives convert (cursorFields stored) key) := by
    intro key notSeen notUpdated
    have lookup : (cursorFields after).lookup key = (objectAt cfg "cursor").lookup key := by
      unfold cursorFields
      rw [written, cursor_advanceConfig, Data.lookup_set, if_neg notUpdated, Data.lookup_set,
        if_neg notSeen]
    unfold SameField
    rw [lookup]
    exact sameField_decoded cursorPassed key
  have otherIff : ∀ key, key ∉ entries.map Prod.fst → ¬Outranked stored entries key →
      (SameField (seenMap stored) (seenMap after) key ↔ FieldSurvives convert (seenMap stored) key) := by
    intro key absent kept
    unfold SameField
    rw [seenAfter, if_neg kept, lookup_mergeSeen_other entries _ absent]
    exact sameField_decoded seenPassed key
  constructor
  · intro remembers
    refine ⟨?_, ?_, ?_, ?_⟩
    · intro entry member outranked
      have found := remembers.given entry member
      rw [seenAfter, if_pos outranked] at found
      cases found
    · intro key absent kept
      rcases remembers.others key absent with same | trimmed
      · exact (otherIff key absent kept).mp same
      · exact absurd trimmed.1 kept
    · intro key notSeen notUpdated
      exact (cursorIff key notSeen notUpdated).mp (remembers.cursor key notSeen notUpdated)
    · intro key other
      exact (fieldIff key other).mp (remembers.fields key other)
  · intro fits
    have given : ∀ entry ∈ entries, (seenMap after).lookup entry.1 = some (.text entry.2) := by
      intro entry member
      rw [seenAfter, if_neg (fits.given entry member)]
      exact lookup_mergeSeen_given _ distinct entry member
    refine ⟨given, ?_, ?_, ?_, ?_⟩
    · intro key absent
      by_cases outranked : Outranked stored entries key
      · refine .inr ⟨outranked, ?_⟩
        rw [seenAfter, if_pos outranked]
      · exact .inl ((otherIff key absent outranked).mpr (fits.others key absent outranked))
    · intro key notSeen notUpdated
      exact (cursorIff key notSeen notUpdated).mpr (fits.cursor key notSeen notUpdated)
    · intro key other
      exact (fieldIff key other).mpr (fits.fields key other)
    · intro listed object member recorded
      have isnew := (List.mem_filter.mp member).2
      rw [not_new_of_seen (given _ recorded)] at isnew
      cases isnew

private theorem seenMap_nodup (advanced : advanceStored convert now stored entries = some after)
    (seenOnce : ((seenMap stored).map Prod.fst).Nodup) : ((seenMap after).map Prod.fst).Nodup := by
  obtain ⟨cfg, passed, written⟩ := exists_config advanced
  have keys := decodeFields_keys (objectAt_decoded (objectAt_decoded passed "cursor") "seen")
  have decodedOnce : ((objectAt (objectAt cfg "cursor") "seen").map Prod.fst).Nodup := by
    rw [keys]
    exact seenOnce
  unfold seenMap cursorFields
  rw [written, seen_advanceConfig]
  exact ((keys_mergeSeen entries _ decodedOnce).1).sublist (List.filter_sublist.map Prod.fst)

end OneAdvance

/-! ### Runs of advances -/

section Runs

variable {convert : String → Option String}

inductive Moves (convert : String → Option String) (row : ConnectorRow) :
    AdvanceAction → ConnectorRow → Prop
  | begin (input : SeenInput) :
      Moves convert row (.begin input) { row with advances := row.advances ++ [{ input := input }] }
  | lock {index : Nat} {advance : Advance} (found : row.advances[index]? = some advance)
      (free : row.holder = none) :
      Moves convert row (.lock index)
        { row with
          holder := some index
          advances := row.setPhase index advance (.locked row.stored) }
  | update {index : Nat} {advance : Advance} {read next : Value} (now : String)
      (found : row.advances[index]? = some advance) (phase : advance.phase = .locked read)
      (advanced : advanceStored convert now read advance.input.entries = some next) :
      Moves convert row (.update index now)
        { row with advances := row.setPhase index advance (.updated next) }
  | refused {index : Nat} {advance : Advance} {read : Value} (now : String)
      (found : row.advances[index]? = some advance) (phase : advance.phase = .locked read) :
      Moves convert row (.update index now)
        { row with holder := none, advances := row.setPhase index advance .closed }
  | commit {index : Nat} {advance : Advance} {next : Value}
      (found : row.advances[index]? = some advance) (phase : advance.phase = .updated next) :
      Moves convert row (.commit index)
        { stored := next
          holder := none
          advances := row.setPhase index advance .closed
          history := row.history ++
            [{ input := advance.input, before := row.stored, after := next }] }
  | rollback {index : Nat} {advance : Advance} (found : row.advances[index]? = some advance) :
      Moves convert row (.rollback index)
        { row with
          holder := if row.holder = some index then none else row.holder
          advances := row.setPhase index advance .closed }

theorem moves_of_step {row next : ConnectorRow} {action : AdvanceAction}
    (taken : row.step convert action = some next) : Moves convert row action next := by
  cases action with
  | begin input =>
      cases taken
      exact .begin input
  | lock index =>
      unfold ConnectorRow.step at taken
      dsimp only at taken
      split at taken
      · rename_i advance found free
        split at taken
        · cases taken
          exact .lock found free
        · cases taken
      · cases taken
  | update index now =>
      unfold ConnectorRow.step at taken
      dsimp only at taken
      split at taken
      · cases taken
      · rename_i advance found
        split at taken
        · rename_i read phase
          split at taken
          · rename_i written advanced
            cases taken
            exact .update now found phase advanced
          · cases taken
            exact .refused now found phase
        · cases taken
  | commit index =>
      unfold ConnectorRow.step at taken
      dsimp only at taken
      split at taken
      · cases taken
      · rename_i advance found
        split at taken
        · rename_i written phase
          cases taken
          exact .commit found phase
        · cases taken
  | rollback index =>
      unfold ConnectorRow.step at taken
      dsimp only at taken
      split at taken
      · cases taken
      · rename_i advance found
        cases taken
        exact .rollback found

/-- Only the holder of the row has read it, and what it has read is still there. -/
structure Isolated (convert : String → Option String) (row : ConnectorRow) : Prop where
  once : ((seenMap row.stored).map Prod.fst).Nodup
  reads : ∀ (index : Nat) (advance : Advance) (read : Value), row.advances[index]? = some advance →
    advance.phase = .locked read → row.holder = some index ∧ read = row.stored
  writes : ∀ (index : Nat) (advance : Advance) (next : Value), row.advances[index]? = some advance →
    advance.phase = .updated next → row.holder = some index ∧
      ∃ now, advanceStored convert now row.stored advance.input.entries = some next

theorem found_setPhase {row : ConnectorRow} {index other : Nat} {advance held : Advance}
    {phase : AdvancePhase} (there : row.advances[index]? = some advance)
    (found : (row.setPhase index advance phase)[other]? = some held) :
    (other = index ∧ held = { advance with phase := phase }) ∨
      (other ≠ index ∧ row.advances[other]? = some held) := by
  unfold ConnectorRow.setPhase at found
  by_cases same : other = index
  · have inside := (List.getElem?_eq_some_iff.mp there).1
    rw [same, List.getElem?_set_self inside] at found
    exact .inl ⟨same, (Option.some.inj found).symm⟩
  · rw [List.getElem?_set_ne (fun equal => same equal.symm)] at found
    exact .inr ⟨same, found⟩

theorem Isolated.close {row : ConnectorRow} (isolated : Isolated convert row) {index : Nat}
    {advance : Advance} (found : row.advances[index]? = some advance) {stored : Value}
    (once : ((seenMap stored).map Prod.fst).Nodup) {holder : Option Nat}
    (others : ∀ other, other ≠ index → row.holder = some other →
      holder = some other ∧ stored = row.stored) (history : List Committed) :
    Isolated convert
      { stored := stored
        holder := holder
        advances := row.setPhase index advance .closed
        history := history } := by
  refine ⟨once, ?_, ?_⟩
  · intro other held read inside phase
    rcases found_setPhase found inside with ⟨_, shape⟩ | ⟨differs, old⟩
    · rw [shape] at phase
      cases phase
    · obtain ⟨holds, current⟩ := isolated.reads other held read old phase
      obtain ⟨still, same⟩ := others other differs holds
      exact ⟨still, current.trans same.symm⟩
  · intro other held written inside phase
    rcases found_setPhase found inside with ⟨_, shape⟩ | ⟨differs, old⟩
    · rw [shape] at phase
      cases phase
    · obtain ⟨holds, now, advanced⟩ := isolated.writes other held written old phase
      obtain ⟨still, same⟩ := others other differs holds
      refine ⟨still, now, ?_⟩
      rw [same]
      exact advanced

theorem isolated_step {row next : ConnectorRow} {action : AdvanceAction}
    (isolated : Isolated convert row) (taken : row.step convert action = some next) :
    Isolated convert next := by
  cases moves_of_step taken with
  | begin input =>
      have earlier : ∀ (index : Nat) (advance : Advance),
          (row.advances ++ [{ input := input }])[index]? = some advance →
          row.advances[index]? = some advance ∨ advance.phase = .begun := by
        intro index advance found
        rcases Nat.lt_or_ge index row.advances.length with old | new
        · rw [List.getElem?_append_left old] at found
          exact .inl found
        · rw [List.getElem?_append_right new] at found
          rw [List.mem_singleton.mp (List.mem_of_getElem? found)]
          exact .inr rfl
      refine ⟨isolated.once, ?_, ?_⟩
      · intro index advance read found phase
        rcases earlier index advance found with old | new
        · exact isolated.reads index advance read old phase
        · rw [new] at phase
          cases phase
      · intro index advance written found phase
        rcases earlier index advance found with old | new
        · exact isolated.writes index advance written old phase
        · rw [new] at phase
          cases phase
  | @lock index advance found free =>
      refine ⟨isolated.once, ?_, ?_⟩
      · intro other held read inside phase
        rcases found_setPhase found inside with ⟨same, shape⟩ | ⟨_, old⟩
        · rw [shape] at phase
          cases phase
          exact ⟨congrArg some same.symm, rfl⟩
        · have taken_ := (isolated.reads other held read old phase).1
          rw [free] at taken_
          cases taken_
      · intro other held written inside phase
        rcases found_setPhase found inside with ⟨_, shape⟩ | ⟨_, old⟩
        · rw [shape] at phase
          cases phase
        · have taken_ := (isolated.writes other held written old phase).1
          rw [free] at taken_
          cases taken_
  | @update index advance read written now found phase advanced =>
      obtain ⟨holder, current⟩ := isolated.reads index advance read found phase
      refine ⟨isolated.once, ?_, ?_⟩
      · intro other held readOther inside phaseOther
        rcases found_setPhase found inside with ⟨_, shape⟩ | ⟨_, old⟩
        · rw [shape] at phaseOther
          cases phaseOther
        · exact isolated.reads other held readOther old phaseOther
      · intro other held writtenOther inside phaseOther
        rcases found_setPhase found inside with ⟨same, shape⟩ | ⟨_, old⟩
        · rw [shape] at phaseOther ⊢
          cases phaseOther
          rw [same]
          refine ⟨holder, now, ?_⟩
          rw [← current]
          exact advanced
        · exact isolated.writes other held writtenOther old phaseOther
  | @refused index advance read now found phase =>
      have holder := (isolated.reads index advance read found phase).1
      refine isolated.close found isolated.once ?_ row.history
      intro other differs holds
      rw [holder] at holds
      exact absurd (Option.some.inj holds).symm differs
  | @commit index advance written found phase =>
      obtain ⟨holder, now, advanced⟩ := isolated.writes index advance written found phase
      refine isolated.close found (seenMap_nodup advanced isolated.once) ?_ _
      intro other differs holds
      rw [holder] at holds
      exact absurd (Option.some.inj holds).symm differs
  | @rollback index advance found =>
      refine isolated.close found isolated.once ?_ row.history
      intro other differs holds
      have kept : ¬row.holder = some index := by
        rw [holds]
        intro same
        exact differs (Option.some.inj same)
      rw [if_neg kept]
      exact ⟨holds, rfl⟩

/-- Each committed advance begins with what the one before it has written. -/
def Serial : Value → List Committed → Value → Prop
  | first, [], last => last = first
  | first, advance :: rest, last => advance.before = first ∧ Serial advance.after rest last

private theorem Serial.snoc {history : List Committed} :
    ∀ {first last : Value}, Serial first history last → ∀ (input : SeenInput) (after : Value),
      Serial first (history ++ [{ input := input, before := last, after := after }]) after := by
  induction history with
  | nil =>
      intro first last serial input after
      exact ⟨serial, rfl⟩
  | cons advance rest ih =>
      intro first last serial input after
      exact ⟨serial.1, ih serial.2 input after⟩

theorem Serial.behind {commit : Committed} {late : List Committed} :
    ∀ {early : List Committed} {first last : Value}, Serial first (early ++ commit :: late) last →
      Serial commit.after late last := by
  intro early
  induction early with
  | nil =>
      intro first last serial
      exact serial.2
  | cons advance rest ih =>
      intro first last serial
      exact ih serial.2

structure KeepsAdvances (start : Value) (row : ConnectorRow) : Prop where
  each : ∀ commit ∈ row.history, Remembers commit.before commit.after commit.input.entries
  serial : Serial start row.history row.stored
  -- what was recorded last under a key is there until the cursor is trimmed
  latest : ∀ early commit late, row.history = early ++ commit :: late →
    ∀ entry ∈ commit.input.entries, (∀ later ∈ late, entry.1 ∉ later.input.entries.map Prod.fst) →
      (seenMap row.stored).lookup entry.1 = some (.text entry.2) ∨
        ∃ later ∈ late, Outranked later.before later.input.entries entry.1

private theorem lookup_of_sameField {before after : Data} {key text : String}
    (same : SameField before after key) (held : before.lookup key = some (.text text)) :
    after.lookup key = some (.text text) := by
  unfold SameField at same
  rw [held] at same
  obtain ⟨value, found, means⟩ := Option.map_eq_some_iff.mp same
  rw [found, text_of_meaning means]

private theorem Serial.kept_or_trimmed {late : List Committed} {key text : String} :
    ∀ {first last : Value}, Serial first late last →
      (∀ commit ∈ late, Remembers commit.before commit.after commit.input.entries) →
      (∀ commit ∈ late, key ∉ commit.input.entries.map Prod.fst) →
      (seenMap first).lookup key = some (.text text) →
      (seenMap last).lookup key = some (.text text) ∨
        ∃ commit ∈ late, Outranked commit.before commit.input.entries key := by
  induction late with
  | nil =>
      intro first last serial _each _absent held
      rw [show last = first from serial]
      exact .inl held
  | cons commit rest ih =>
      intro first last serial each absent held
      rcases (each commit List.mem_cons_self).others key (absent commit List.mem_cons_self)
        with same | trimmed
      · rw [serial.1] at same
        have next := lookup_of_sameField same held
        rcases ih serial.2 (fun other member => each other (List.mem_cons_of_mem _ member))
          (fun other member => absent other (List.mem_cons_of_mem _ member)) next with kept | later
        · exact .inl kept
        · obtain ⟨other, member, outranked⟩ := later
          exact .inr ⟨other, List.mem_cons_of_mem _ member, outranked⟩
      · exact .inr ⟨commit, List.mem_cons_self, trimmed.1⟩

theorem keepsAdvances_of_each {start : Value} {row : ConnectorRow}
    (each : ∀ commit ∈ row.history, Remembers commit.before commit.after commit.input.entries)
    (serial : Serial start row.history row.stored) : KeepsAdvances start row := by
  refine ⟨each, serial, ?_⟩
  intro early commit late shape entry given absent
  rw [shape] at serial each
  have own := each commit (List.mem_append_right early List.mem_cons_self)
  exact serial.behind.kept_or_trimmed
    (fun later member => each later (List.mem_append_right early (List.mem_cons_of_mem _ member)))
    absent (own.given entry given)

def FitsCommit (convert : String → Option String) (row : ConnectorRow) : AdvanceAction → Prop
  | .commit index => ∀ advance, row.advances[index]? = some advance →
      Fits convert row.stored advance.input.entries
  | _ => True

theorem keeps_step_iff {start : Value} {row next : ConnectorRow} {action : AdvanceAction}
    (isolated : Isolated convert row) (keeps : KeepsAdvances start row)
    (taken : row.step convert action = some next) :
    KeepsAdvances start next ↔ FitsCommit convert row action := by
  cases moves_of_step taken with
  | begin input => exact iff_of_true ⟨keeps.each, keeps.serial, keeps.latest⟩ trivial
  | lock found free => exact iff_of_true ⟨keeps.each, keeps.serial, keeps.latest⟩ trivial
  | update now found phase advanced =>
      exact iff_of_true ⟨keeps.each, keeps.serial, keeps.latest⟩ trivial
  | refused now found phase => exact iff_of_true ⟨keeps.each, keeps.serial, keeps.latest⟩ trivial
  | rollback found => exact iff_of_true ⟨keeps.each, keeps.serial, keeps.latest⟩ trivial
  | @commit index advance written found phase =>
      obtain ⟨_, now, advanced⟩ := isolated.writes index advance written found phase
      have own := remembers_iff advanced isolated.once advance.input.distinct
      constructor
      · intro after other foundOther
        rw [found] at foundOther
        rw [← Option.some.inj foundOther]
        exact own.mp (after.each _ (List.mem_append_right _ (List.mem_singleton_self _)))
      · intro fits
        apply keepsAdvances_of_each
        · intro commit member
          rcases List.mem_append.mp member with old | new
          · exact keeps.each commit old
          · rw [List.mem_singleton.mp new]
            exact own.mpr (fits advance found)
        · exact keeps.serial.snoc advance.input written

theorem isolated_start {stored : Value} (once : ((seenMap stored).map Prod.fst).Nodup) :
    Isolated convert { stored := stored } := by
  refine ⟨once, ?_, ?_⟩
  · intro index advance read found
    cases found
  · intro index advance written found
    cases found

private theorem keeps_start (stored : Value) : KeepsAdvances stored { stored := stored } :=
  keepsAdvances_of_each (List.forall_mem_nil _) rfl

end Runs

/-! ### With the numbers of JSON -/

open MigrationPlatform.Connectors (convertNumber wholeOnly float64 float64Limit Exact)

/-- Throughout a run of concurrent advances each commit has done what it should
exactly where every commit fits. -/
theorem advance_runs_iff (fraction : String → Option String) {stored : Value}
    (once : ((seenMap stored).map Prod.fst).Nodup) {actions : List AdvanceAction}
    {final : ConnectorRow}
    (ran : run (ConnectorRow.step (convertNumber fraction)) { stored := stored } actions =
      some final) :
    (∀ early late reached, actions = early ++ late →
      run (ConnectorRow.step (convertNumber fraction)) { stored := stored } early = some reached →
      KeepsAdvances stored reached) ↔
    Obeys (ConnectorRow.step (convertNumber fraction)) (FitsCommit (convertNumber fraction))
      { stored := stored } actions := by
  have oneStep : ∀ (row : ConnectorRow) (action : AdvanceAction) (next : ConnectorRow),
      Isolated (convertNumber fraction) row ∧ KeepsAdvances stored row →
      row.step (convertNumber fraction) action = some next →
      (Isolated (convertNumber fraction) next ∧ KeepsAdvances stored next ↔
        FitsCommit (convertNumber fraction) row action) :=
    fun row action next holds taken =>
      (and_iff_right (isolated_step holds.1 taken)).trans (keeps_step_iff holds.1 holds.2 taken)
  have both := throughout_iff_obeys oneStep actions { stored := stored } final
    ⟨isolated_start once, keeps_start stored⟩ ran
  rw [← both]
  constructor
  · intro throughout early late reached split ranEarly
    refine ⟨?_, throughout early late reached split ranEarly⟩
    exact invariant_of_run (fun row action next isolated taken => isolated_step isolated taken)
      early { stored := stored } reached (isolated_start once) ranEarly
  · intro throughout early late reached split ranEarly
    exact (throughout early late reached split ranEarly).2

def oneObject (key : String) : SeenInput where
  entries := [(key, "e1")]
  nonempty := by simp
  distinct := by simp

def interleaved : List AdvanceAction :=
  [.begin (oneObject "in/a.csv"), .begin (oneObject "in/b.csv"), .lock 0, .update 0 "t1", .commit 0,
    .lock 1, .update 1 "t2", .commit 1]

private theorem not_outranked {stored : Value} {entries : List (String × String)}
    (few : (allKeys stored entries).card < maxCursorEntries) (key : String) :
    ¬Outranked stored entries key := by
  intro outranked
  have bound := Finset.card_filter_le (allKeys stored entries) (fun other => key < other)
  unfold Outranked at outranked
  omega

theorem fieldSurvives_of_all {convert : String → Option String} {fields : Data} (key : String)
    (all : FieldsSurvive convert fields) : FieldSurvives convert fields key := by
  induction fields with
  | nil =>
      intro value impossible
      cases impossible
  | cons field rest ih =>
      obtain ⟨own, held⟩ := field
      intro value found
      rw [List.lookup_cons] at found
      split at found
      · rw [← Option.some.inj found]
        exact all.1
      · exact ih all.2 value found

theorem objectAt_survives {convert : String → Option String} {fields : Data} (key : String)
    (all : FieldsSurvive convert fields) : FieldsSurvive convert (objectAt fields key) := by
  unfold objectAt
  split
  · rename_i inner found
    exact fieldSurvives_of_all key all (.object inner) found
  · trivial

theorem fits_of_small {convert : String → Option String} {stored : Value}
    {entries : List (String × String)} (few : (allKeys stored entries).card < maxCursorEntries)
    (all : FieldsSurvive convert (fieldsOf stored)) : Fits convert stored entries := by
  have cursor : FieldsSurvive convert (cursorFields stored) := objectAt_survives "cursor" all
  have seen : FieldsSurvive convert (seenMap stored) := objectAt_survives "seen" cursor
  refine ⟨?_, ?_, ?_, ?_⟩
  · intro entry _member
    exact not_outranked few entry.1
  · intro key _absent _kept
    exact fieldSurvives_of_all key seen
  · intro key _notSeen _notUpdated
    exact fieldSurvives_of_all key cursor
  · intro key _other
    exact fieldSurvives_of_all key all

private theorem interleaved_fits :
    Obeys (ConnectorRow.step (convertNumber wholeOnly)) (FitsCommit (convertNumber wholeOnly))
      { stored := .null } interleaved := by
  refine ⟨trivial, trivial, trivial, trivial, ?_, trivial, trivial, ?_, trivial⟩
  · intro advance found
    cases found
    exact fits_of_small (by decide) trivial
  · intro advance found
    cases found
    exact fits_of_small (by decide) ⟨⟨⟨trivial, trivial⟩, trivial, trivial⟩, trivial⟩

theorem small_cursor_keeps :
    ∃ final, run (ConnectorRow.step (convertNumber wholeOnly)) { stored := .null } interleaved =
        some final ∧
      (seenMap final.stored).map Prod.fst = ["in/a.csv", "in/b.csv"] ∧
      ∀ early late reached, interleaved = early ++ late →
        run (ConnectorRow.step (convertNumber wholeOnly)) { stored := .null } early = some reached →
        KeepsAdvances .null reached := by
  have once : ((seenMap .null).map Prod.fst).Nodup := List.nodup_nil
  exact ⟨_, rfl, rfl, (advance_runs_iff wholeOnly once rfl).mpr interleaved_fits⟩

def laterKey (n : Nat) : String := String.ofList (List.replicate (n + 1) 'b')

def fullSeen : Data := (List.range maxCursorEntries).map (fun n => (laterKey n, .text "e0"))

/-- A cursor of as many entries as there may be, all behind the key `a`. -/
def fullCursor : Value := .object [("cursor", .object [("seen", .object fullSeen)])]

def singleAdvance : List AdvanceAction :=
  [.begin (oneObject "a"), .lock 0, .update 0 "t1", .commit 0]

theorem laterKey_inj {left right : Nat} (same : laterKey left = laterKey right) : left = right := by
  have lists := String.ofList_injective same
  have lengths := congrArg List.length lists
  rw [List.length_replicate, List.length_replicate] at lengths
  omega

private theorem lt_laterKey (n : Nat) : "a" < laterKey n := by
  have first : 'a' < 'b' := by decide
  have letters : (laterKey n).toList = 'b' :: List.replicate n 'b' := by
    rw [laterKey, String.toList_ofList, List.replicate_succ]
  rw [String.lt_iff_toList_lt, letters]
  exact List.Lex.rel first

theorem fullSeen_keys : fullSeen.map Prod.fst = (List.range maxCursorEntries).map laterKey := by
  unfold fullSeen
  rw [List.map_map]
  rfl

private theorem fullCursor_once : ((seenMap fullCursor).map Prod.fst).Nodup := by
  change (fullSeen.map Prod.fst).Nodup
  rw [fullSeen_keys]
  exact List.nodup_range.map (fun left right => laterKey_inj)

private theorem outranked_a : Outranked fullCursor (oneObject "a").entries "a" := by
  have later : ((List.range maxCursorEntries).map laterKey).toFinset ⊆
      (allKeys fullCursor (oneObject "a").entries).filter (fun other => "a" < other) := by
    intro key member
    obtain ⟨n, _, rfl⟩ := List.mem_map.mp (List.mem_toFinset.mp member)
    rw [Finset.mem_filter]
    refine ⟨Finset.mem_union_left _ ?_, lt_laterKey n⟩
    change laterKey n ∈ (fullSeen.map Prod.fst).toFinset
    rw [fullSeen_keys]
    exact member
  have bound := Finset.card_le_card later
  rw [List.toFinset_card_of_nodup (List.nodup_range.map (fun left right => laterKey_inj)),
    List.length_map, List.length_range] at bound
  exact bound

private theorem decodeFields_texts (convert : String → Option String) {fields : Data}
    (texts : ∀ field ∈ fields, ∃ text, field.2 = .text text) :
    decodeFields convert fields = some fields := by
  induction fields with
  | nil => rfl
  | cons field rest ih =>
      obtain ⟨key, value⟩ := field
      obtain ⟨text, shape⟩ := texts (key, value) List.mem_cons_self
      dsimp only at shape
      unfold decodeFields
      rw [ih (fun other member => texts other (List.mem_cons_of_mem _ member)), shape]
      rfl

private theorem exists_advanced {convert : String → Option String} {seen : Data}
    (texts : ∀ field ∈ seen, ∃ text, field.2 = .text text) (now : String)
    (entries : List (String × String)) :
    ∃ after, advanceStored convert now (.object [("cursor", .object [("seen", .object seen)])])
      entries = some after := by
  have decoded : decodeValue convert (.object [("cursor", .object [("seen", .object seen)])]) =
      some (.object [("cursor", .object [("seen", .object seen)])]) := by
    simp only [decodeValue, decodeFields, decodeFields_texts convert texts, Option.map_some]
  unfold advanceStored
  rw [decoded]
  exact ⟨_, rfl⟩

private theorem fullSeen_texts : ∀ field ∈ fullSeen, ∃ text, field.2 = .text text := by
  intro field member
  obtain ⟨n, _, rfl⟩ := List.mem_map.mp member
  exact ⟨"e0", rfl⟩

private theorem run_singleAdvance {convert : String → Option String} {stored after : Value}
    (advanced : advanceStored convert "t1" stored (oneObject "a").entries = some after) :
    run (ConnectorRow.step convert) { stored := stored } singleAdvance =
      some
        { stored := after
          holder := none
          advances := [{ input := oneObject "a", phase := .closed }]
          history := [{ input := oneObject "a", before := stored, after := after }] } := by
  simp [run, singleAdvance, ConnectorRow.step, ConnectorRow.setPhase, advanced]

/-- The object that was just started is not in the cursor that was written for it. -/
theorem full_cursor_forgets :
    ∃ final, run (ConnectorRow.step (convertNumber wholeOnly)) { stored := fullCursor }
        singleAdvance = some final ∧
      (seenMap final.stored).lookup "a" = none ∧ ¬KeepsAdvances fullCursor final := by
  obtain ⟨after, advanced⟩ : ∃ after, advanceStored (convertNumber wholeOnly) "t1" fullCursor
      (oneObject "a").entries = some after := exists_advanced fullSeen_texts "t1" _
  have forgotten : (seenMap after).lookup "a" = none := by
    obtain ⟨seen, _, seenAfter⟩ := exists_seen_after advanced fullCursor_once
    rw [seenAfter, if_pos outranked_a]
  refine ⟨_, run_singleAdvance advanced, forgotten, ?_⟩
  intro keeps
  have remembered := (keeps.each _ (List.mem_singleton_self _)).given ("a", "e1")
    (List.mem_singleton_self _)
  dsimp only at remembered
  rw [forgotten] at remembered
  cases remembered

end MigrationPlatform.Watch
