/-
JSON texts and the values they stand for.

The writer makes the same text of two documents only where they are the same
document, provided that their strings are whole characters. A value is a document
without the order of its fields. A writer that puts the fields of every object in
the order of their names therefore has one text for each value.
-/

import Mathlib
import MigrationPlatform.Foundation.JsonText

namespace JsonText

open Utf8

mutual

/-- The strings are whole characters, the numbers are numbers of JSON and no
object has two fields of one name. -/
def Doc.Proper : Doc → Prop
  | .null => True
  | .bool _ => True
  | .number text => isNumber text = true
  | .text bytes => valid bytes = true
  | .list items => ProperItems items
  | .object fields => (fields.map Prod.fst).Nodup ∧ ProperFields fields

def ProperItems : List Doc → Prop
  | [] => True
  | item :: rest => item.Proper ∧ ProperItems rest

def ProperFields : List (Bytes × Doc) → Prop
  | [] => True
  | (key, value) :: rest => valid key = true ∧ value.Proper ∧ ProperFields rest

end

theorem properFields_iff (fields : List (Bytes × Doc)) :
    ProperFields fields ↔ ∀ entry ∈ fields, valid entry.1 = true ∧ entry.2.Proper := by
  induction fields with
  | nil => simp [ProperFields]
  | cons entry rest ih => simp [ProperFields, ih, and_assoc]

mutual

theorem Doc.Proper.numbered : ∀ {doc : Doc}, doc.Proper → doc.numbered = true
  | .null, _ => by rw [Doc.numbered]
  | .bool _, _ => by rw [Doc.numbered]
  | .number text, proper => by
      rw [Doc.numbered]
      exact proper
  | .text _, _ => by rw [Doc.numbered]
  | .list items, proper => by
      rw [Doc.numbered]
      exact numberedItems_of_proper proper
  | .object fields, proper => by
      rw [Doc.numbered]
      exact numberedFields_of_proper proper.2

theorem numberedItems_of_proper : ∀ {items : List Doc}, ProperItems items →
    numberedItems items = true
  | [], _ => by rw [numberedItems]
  | item :: rest, proper => by
      rw [numberedItems, proper.1.numbered, numberedItems_of_proper proper.2]
      rfl

theorem numberedFields_of_proper : ∀ {fields : List (Bytes × Doc)}, ProperFields fields →
    numberedFields fields = true
  | [], _ => by rw [numberedFields]
  | (key, value) :: rest, proper => by
      rw [numberedFields, proper.2.1.numbered, numberedFields_of_proper proper.2.2]
      rfl

end

def letterCode (letter : UInt8) : Option Nat :=
  if letter = 34 then some 34
  else if letter = 92 then some 92
  else if letter = 98 then some 8
  else if letter = 102 then some 12
  else if letter = 110 then some 10
  else if letter = 114 then some 13
  else if letter = 116 then some 9
  else none

def unitOf (bytes : Bytes) : Option Nat :=
  match bytes with
  | first :: second :: third :: fourth :: _ =>
      (hexValue? first).bind (fun a => (hexValue? second).bind (fun b =>
        (hexValue? third).bind (fun c => (hexValue? fourth).map (fun d =>
          ((a * 16 + b) * 16 + c) * 16 + d))))
  | _ => none

def quotedCode (bytes : Bytes) : Option Nat :=
  match bytes with
  | 92 :: letter :: rest => if letter = 117 then unitOf rest else letterCode letter
  | _ => (front bytes).map Char.toNat

theorem letterCode_short {code : Nat} {letter : UInt8} (short : shortEscape? code = some letter) :
    letterCode letter = some code := by
  unfold shortEscape? at short
  repeat' split at short
  all_goals first
    | cases short
      subst_vars
      rfl
    | cases short

theorem unitOf_unitEscape {unit : Nat} (small : unit < 65536) (rest : Bytes) :
    quotedCode (unitEscape unit ++ rest) = some unit := by
  have read : quotedCode (unitEscape unit ++ rest) =
      unitOf (hexDigit (unit / 4096) :: hexDigit (unit / 256 % 16) :: hexDigit (unit / 16 % 16) ::
        hexDigit (unit % 16) :: rest) := rfl
  rw [read, unitOf, hexValue_hexDigit (by omega), hexValue_hexDigit (by omega),
    hexValue_hexDigit (by omega), hexValue_hexDigit (by omega)]
  simp only [Option.bind_some, Option.map_some, Option.some.injEq]
  omega

theorem quotedCode_other {first : UInt8} (rest : Bytes) (other : first ≠ 92) :
    quotedCode (first :: rest) = (front (first :: rest)).map Char.toNat := by
  unfold quotedCode
  split
  · rename_i same
    exact absurd (List.cons.inj same).1 other
  · rfl

theorem quotedCode_quoteRune (char : Char) (rest : Bytes) :
    quotedCode (quoteRune (.scalar char) ++ rest) = some char.toNat ∧
      ∀ others, quoteRune (.scalar char) ++ rest ≠ 34 :: others := by
  cases short : shortEscape? char.toNat with
  | some letter =>
      have written : quoteRune (.scalar char) = [92, letter] := by simp only [quoteRune, short]
      have other := (shortEscape_mark short).2.1
      rw [written]
      constructor
      · change (if letter = 117 then unitOf rest else letterCode letter) = some char.toNat
        rw [if_neg other, letterCode_short short]
      · intro others same
        exact absurd (List.cons.inj same).1 (by decide)
  | none =>
      by_cases unit : char.toNat < 32 ∨ char.toNat = 60 ∨ char.toNat = 62 ∨ char.toNat = 38 ∨
          char.toNat = 0x2028 ∨ char.toNat = 0x2029
      · have written : quoteRune (.scalar char) = unitEscape char.toNat := by
          simp only [quoteRune, short, if_pos unit]
        rw [written]
        constructor
        · exact unitOf_unitEscape (by omega) rest
        · intro others same
          exact absurd (List.cons.inj same).1 (by decide)
      · have written : quoteRune (.scalar char) = String.utf8EncodeChar char := by
          simp only [quoteRune, short, if_neg unit]
        have quote : char.toNat ≠ 34 := by
          intro same
          simp [same, shortEscape?] at short
        have slash : char.toNat ≠ 92 := by
          intro same
          simp [same, shortEscape?] at short
        rw [written]
        have decoded := front_encode_append char rest
        cases encoded : String.utf8EncodeChar char with
        | nil => exact absurd encoded (encodeChar_ne_nil char)
        | cons first tail =>
            have member : first ∈ String.utf8EncodeChar char := by
              rw [encoded]
              exact List.mem_cons_self
            rw [encoded] at decoded
            constructor
            · rw [List.cons_append, quotedCode_other _ (encodeChar_ne (by decide) slash member),
                ← List.cons_append, decoded]
              rfl
            · intro others same
              exact encodeChar_ne (by decide) quote member (List.cons.inj same).1

theorem quoteRune_inj {left right : Char} {l r : Bytes}
    (same : quoteRune (.scalar left) ++ l = quoteRune (.scalar right) ++ r) :
    left = right ∧ l = r := by
  have codes := congrArg quotedCode same
  rw [(quotedCode_quoteRune left l).1, (quotedCode_quoteRune right r).1] at codes
  have char := Char.toNat_inj.mp (Option.some.inj codes)
  rw [char] at same
  exact ⟨char, List.append_cancel_left same⟩

theorem quoteRunes_inj (lefts : List Char) :
    ∀ (rights : List Char) (l r : Bytes),
      (lefts.map Rune.scalar).flatMap quoteRune ++ 34 :: l =
        (rights.map Rune.scalar).flatMap quoteRune ++ 34 :: r → lefts = rights ∧ l = r := by
  induction lefts with
  | nil =>
      intro rights l r same
      cases rights with
      | nil => exact ⟨rfl, (List.cons.inj same).2⟩
      | cons right rights =>
          rw [List.map_cons, List.flatMap_cons, List.append_assoc] at same
          exact absurd same.symm ((quotedCode_quoteRune right _).2 _)
  | cons left lefts ih =>
      intro rights l r same
      cases rights with
      | nil =>
          rw [List.map_cons, List.flatMap_cons, List.append_assoc] at same
          exact absurd same ((quotedCode_quoteRune left _).2 _)
      | cons right rights =>
          rw [List.map_cons, List.flatMap_cons, List.append_assoc, List.map_cons,
            List.flatMap_cons, List.append_assoc] at same
          obtain ⟨head, tails⟩ := quoteRune_inj same
          obtain ⟨tail, rest⟩ := ih rights l r tails
          rw [head, tail]
          exact ⟨rfl, rest⟩

theorem quoted_inj {left right l r : Bytes} (wholeLeft : valid left = true)
    (wholeRight : valid right = true) (same : quoted left ++ l = quoted right ++ r) :
    left = right ∧ l = r := by
  obtain ⟨lefts, rfl⟩ := (valid_iff left).mp wholeLeft
  obtain ⟨rights, rfl⟩ := (valid_iff right).mp wholeRight
  rw [quoted, quoted, runes_encode, runes_encode, List.cons_append, List.cons_append,
    List.append_assoc, List.append_assoc] at same
  obtain ⟨chars, rest⟩ := quoteRunes_inj lefts rights l r (List.cons.inj same).2
  rw [chars]
  exact ⟨rfl, rest⟩

inductive Kind
  | null
  | bool
  | number
  | text
  | list
  | object
deriving DecidableEq, Repr

def Doc.kind : Doc → Kind
  | .null => .null
  | .bool _ => .bool
  | .number _ => .number
  | .text _ => .text
  | .list _ => .list
  | .object _ => .object

def kindOf (byte : UInt8) : Kind :=
  if byte = 110 then .null
  else if byte = 116 ∨ byte = 102 then .bool
  else if byte = 34 then .text
  else if byte = 91 then .list
  else if byte = 123 then .object
  else .number

theorem marshal_kind (doc : Doc) (proper : doc.Proper) :
    ∃ byte rest, doc.marshal = byte :: rest ∧ kindOf byte = doc.kind := by
  cases doc with
  | null => exact ⟨110, _, by rw [Doc.marshal, nullText], rfl⟩
  | bool value =>
      cases value with
      | false => exact ⟨102, _, by rw [Doc.marshal], rfl⟩
      | true => exact ⟨116, _, by rw [Doc.marshal], rfl⟩
  | text bytes => exact ⟨34, _, by rw [Doc.marshal, quoted], rfl⟩
  | list items =>
      cases items with
      | nil => exact ⟨91, _, by rw [Doc.marshal], rfl⟩
      | cons item rest => exact ⟨91, _, by rw [Doc.marshal], rfl⟩
  | object fields =>
      cases fields with
      | nil => exact ⟨123, _, by rw [Doc.marshal], rfl⟩
      | cons field rest => exact ⟨123, _, by rw [Doc.marshal], rfl⟩
  | number text =>
      obtain ⟨state, ends, _⟩ := (Option.any_eq_true _ _).mp proper
      cases text with
      | nil => cases ends
      | cons first rest =>
          have others := (numberByte_plain (numberEnd_bytes ends first List.mem_cons_self)).2.2
          simp only [List.mem_cons, List.not_mem_nil, or_false, not_or] at others
          obtain ⟨_, _, brace, bracket, quote, t, f, n⟩ := others
          refine ⟨first, rest, by rw [Doc.marshal], ?_⟩
          simp only [kindOf, if_neg n, if_neg (not_or.mpr ⟨t, f⟩), if_neg quote, if_neg bracket,
            if_neg brace]
          rfl

theorem kind_of_marshal {left right : Doc} {l r : Bytes} (properLeft : left.Proper)
    (properRight : right.Proper) (same : left.marshal ++ l = right.marshal ++ r) :
    left.kind = right.kind := by
  obtain ⟨first, _, begins, kind⟩ := marshal_kind left properLeft
  obtain ⟨other, _, otherBegins, otherKind⟩ := marshal_kind right properRight
  rw [begins, otherBegins] at same
  rw [← kind, ← otherKind, (List.cons.inj same).1]

def Stops (rest : Bytes) : Prop := ∀ byte ∈ rest.head?, isNumberByte byte = false

theorem number_of_append {text rest : Bytes} (number : isNumber text = true) (stops : Stops rest) :
    (text ++ rest).takeWhile isNumberByte = text := by
  obtain ⟨state, ends, _⟩ := (Option.any_eq_true _ _).mp number
  rw [List.takeWhile_append_of_pos (numberEnd_bytes ends)]
  cases rest with
  | nil => rw [List.takeWhile_nil, List.append_nil]
  | cons byte rest =>
      have other := stops byte rfl
      rw [List.takeWhile_cons, if_neg (by rw [other]; exact Bool.false_ne_true), List.append_nil]

theorem stops_items (items : List Doc) (rest : Bytes) : Stops (marshalItems items ++ 93 :: rest) := by
  intro byte first
  cases items with
  | nil =>
      rw [marshalItems] at first
      cases first
      rfl
  | cons item items =>
      rw [marshalItems] at first
      cases first
      rfl

theorem stops_fields (fields : List (Bytes × Doc)) (rest : Bytes) :
    Stops (marshalFields fields ++ 125 :: rest) := by
  intro byte first
  cases fields with
  | nil =>
      rw [marshalFields] at first
      cases first
      rfl
  | cons field fields =>
      obtain ⟨key, value⟩ := field
      rw [marshalFields] at first
      cases first
      rfl

theorem marshal_item (item : Doc) (rest : List Doc) (tail : Bytes) :
    (Doc.list (item :: rest)).marshal ++ tail =
      91 :: (item.marshal ++ (marshalItems rest ++ 93 :: tail)) := by
  rw [Doc.marshal, List.cons_append, List.append_assoc, List.append_assoc]
  rfl

theorem marshal_field (key : Bytes) (value : Doc) (rest : List (Bytes × Doc)) (tail : Bytes) :
    (Doc.object ((key, value) :: rest)).marshal ++ tail =
      123 :: (quoted key ++ 58 :: (value.marshal ++ (marshalFields rest ++ 125 :: tail))) := by
  rw [Doc.marshal, List.cons_append, List.append_assoc, List.cons_append, List.append_assoc,
    List.append_assoc]
  rfl

mutual

theorem marshal_inj : ∀ (left right : Doc) (l r : Bytes), left.Proper → right.Proper →
    Stops l → Stops r → left.marshal ++ l = right.marshal ++ r → left = right ∧ l = r
  | .null, right, l, r, properLeft, properRight, _, _, same => by
      have kind := kind_of_marshal properLeft properRight same
      cases right with
      | null => exact ⟨rfl, List.append_cancel_left same⟩
      | _ => cases kind
  | .bool value, right, l, r, properLeft, properRight, _, _, same => by
      have kind := kind_of_marshal properLeft properRight same
      cases right with
      | bool other =>
          cases value with
          | false =>
              cases other with
              | false => exact ⟨rfl, List.append_cancel_left same⟩
              | true =>
                  rw [Doc.marshal, Doc.marshal] at same
                  exact absurd (List.cons.inj same).1 (by decide)
          | true =>
              cases other with
              | true => exact ⟨rfl, List.append_cancel_left same⟩
              | false =>
                  rw [Doc.marshal, Doc.marshal] at same
                  exact absurd (List.cons.inj same).1 (by decide)
      | _ => cases kind
  | .number text, right, l, r, properLeft, properRight, stopsLeft, stopsRight, same => by
      have kind := kind_of_marshal properLeft properRight same
      cases right with
      | number other =>
          rw [Doc.marshal, Doc.marshal] at same
          have texts := congrArg (List.takeWhile isNumberByte) same
          rw [number_of_append properLeft stopsLeft, number_of_append properRight stopsRight]
            at texts
          rw [texts] at same ⊢
          exact ⟨rfl, List.append_cancel_left same⟩
      | _ => cases kind
  | .text bytes, right, l, r, properLeft, properRight, _, _, same => by
      have kind := kind_of_marshal properLeft properRight same
      cases right with
      | text other =>
          rw [Doc.marshal, Doc.marshal] at same
          obtain ⟨texts, rest⟩ := quoted_inj properLeft properRight same
          rw [texts]
          exact ⟨rfl, rest⟩
      | _ => cases kind
  | .list [], right, l, r, properLeft, properRight, _, _, same => by
      have kind := kind_of_marshal properLeft properRight same
      cases right with
      | list items =>
          cases items with
          | nil => exact ⟨rfl, List.append_cancel_left same⟩
          | cons item rest =>
              rw [marshal_item, Doc.marshal] at same
              obtain ⟨byte, tail, begins, _, open_⟩ := marshal_begins item
                properRight.1.numbered
              rw [begins] at same
              exact absurd (List.cons.inj (List.cons.inj same).2).1.symm open_
      | _ => cases kind
  | .list (item :: rest), right, l, r, properLeft, properRight, stopsLeft, stopsRight, same => by
      have kind := kind_of_marshal properLeft properRight same
      cases right with
      | list items =>
          cases items with
          | nil =>
              rw [marshal_item, Doc.marshal] at same
              obtain ⟨byte, tail, begins, _, open_⟩ := marshal_begins item properLeft.1.numbered
              rw [begins] at same
              exact absurd (List.cons.inj (List.cons.inj same).2).1 open_
          | cons other others =>
              rw [marshal_item, marshal_item] at same
              obtain ⟨first, behind⟩ := marshal_inj item other _ _ properLeft.1 properRight.1
                (stops_items rest l) (stops_items others r) (List.cons.inj same).2
              obtain ⟨later, tail⟩ := items_inj rest others l r properLeft.2 properRight.2 behind
              rw [first, later]
              exact ⟨rfl, tail⟩
      | _ => cases kind
  | .object [], right, l, r, properLeft, properRight, _, _, same => by
      have kind := kind_of_marshal properLeft properRight same
      cases right with
      | object fields =>
          cases fields with
          | nil => exact ⟨rfl, List.append_cancel_left same⟩
          | cons field rest =>
              obtain ⟨key, value⟩ := field
              rw [marshal_field, Doc.marshal, quoted] at same
              exact absurd (List.cons.inj (List.cons.inj same).2).1 (by decide)
      | _ => cases kind
  | .object ((key, value) :: rest), right, l, r, properLeft, properRight, stopsLeft, stopsRight,
      same => by
      have kind := kind_of_marshal properLeft properRight same
      cases right with
      | object fields =>
          cases fields with
          | nil =>
              rw [marshal_field, Doc.marshal, quoted] at same
              exact absurd (List.cons.inj (List.cons.inj same).2).1 (by decide)
          | cons field others =>
              obtain ⟨otherKey, other⟩ := field
              rw [marshal_field, marshal_field] at same
              obtain ⟨keys, values⟩ := quoted_inj properLeft.2.1 properRight.2.1
                (List.cons.inj same).2
              obtain ⟨first, behind⟩ := marshal_inj value other _ _ properLeft.2.2.1
                properRight.2.2.1 (stops_fields rest l) (stops_fields others r)
                (List.cons.inj values).2
              obtain ⟨later, tail⟩ := fields_inj rest others l r properLeft.2.2.2
                properRight.2.2.2 behind
              rw [keys, first, later]
              exact ⟨rfl, tail⟩
      | _ => cases kind

theorem items_inj : ∀ (lefts rights : List Doc) (l r : Bytes), ProperItems lefts →
    ProperItems rights → marshalItems lefts ++ 93 :: l = marshalItems rights ++ 93 :: r →
    lefts = rights ∧ l = r
  | [], [], l, r, _, _, same => ⟨rfl, (List.cons.inj (List.append_cancel_left same)).2⟩
  | [], right :: rights, l, r, _, _, same => by
      rw [marshalItems, marshalItems] at same
      exact absurd (List.cons.inj same).1 (by decide)
  | left :: lefts, [], l, r, _, _, same => by
      rw [marshalItems, marshalItems] at same
      exact absurd (List.cons.inj same).1 (by decide)
  | left :: lefts, right :: rights, l, r, properLeft, properRight, same => by
      rw [marshalItems, marshalItems, List.cons_append, List.cons_append, List.append_assoc,
        List.append_assoc] at same
      obtain ⟨first, behind⟩ := marshal_inj left right _ _ properLeft.1 properRight.1
        (stops_items lefts l) (stops_items rights r) (List.cons.inj same).2
      obtain ⟨later, tail⟩ := items_inj lefts rights l r properLeft.2 properRight.2 behind
      rw [first, later]
      exact ⟨rfl, tail⟩

theorem fields_inj : ∀ (lefts rights : List (Bytes × Doc)) (l r : Bytes), ProperFields lefts →
    ProperFields rights → marshalFields lefts ++ 125 :: l = marshalFields rights ++ 125 :: r →
    lefts = rights ∧ l = r
  | [], [], l, r, _, _, same => ⟨rfl, (List.cons.inj (List.append_cancel_left same)).2⟩
  | [], (key, value) :: rights, l, r, _, _, same => by
      rw [marshalFields, marshalFields] at same
      exact absurd (List.cons.inj same).1 (by decide)
  | (key, value) :: lefts, [], l, r, _, _, same => by
      rw [marshalFields, marshalFields] at same
      exact absurd (List.cons.inj same).1 (by decide)
  | (key, value) :: lefts, (otherKey, other) :: rights, l, r, properLeft, properRight, same => by
      rw [marshalFields, marshalFields, List.cons_append, List.cons_append, List.append_assoc,
        List.append_assoc, List.cons_append, List.cons_append, List.append_assoc,
        List.append_assoc] at same
      obtain ⟨keys, values⟩ := quoted_inj properLeft.1 properRight.1 (List.cons.inj same).2
      obtain ⟨first, behind⟩ := marshal_inj value other _ _ properLeft.2.1 properRight.2.1
        (stops_fields lefts l) (stops_fields rights r) (List.cons.inj values).2
      obtain ⟨later, tail⟩ := fields_inj lefts rights l r properLeft.2.2 properRight.2.2 behind
      rw [keys, first, later]
      exact ⟨rfl, tail⟩

end

/-! ### Values -/

/-- What a text stands for: the fields of an object are found by their names. -/
inductive JsonValue
  | null
  | bool (value : Bool)
  | number (text : Bytes)
  | text (bytes : Bytes)
  | list (items : List JsonValue)
  | object (fields : Bytes → Option JsonValue)

mutual

def Doc.value : Doc → JsonValue
  | .null => .null
  | .bool value => .bool value
  | .number text => .number text
  | .text bytes => .text bytes
  | .list items => .list (itemValues items)
  | .object fields => .object (fieldValues fields)

def itemValues : List Doc → List JsonValue
  | [] => []
  | item :: rest => item.value :: itemValues rest

def fieldValues : List (Bytes × Doc) → Bytes → Option JsonValue
  | [], _ => none
  | (key, value) :: rest, wanted =>
      if key = wanted then some value.value else fieldValues rest wanted

end

theorem fieldValues_of_mem {key : Bytes} {value : Doc} {fields : List (Bytes × Doc)}
    (distinct : (fields.map Prod.fst).Nodup) (member : (key, value) ∈ fields) :
    fieldValues fields key = some value.value := by
  induction fields with
  | nil => cases member
  | cons field rest ih =>
      obtain ⟨other, held⟩ := field
      rw [List.map_cons, List.nodup_cons] at distinct
      rw [fieldValues]
      rcases List.mem_cons.mp member with same | later
      · cases same
        rw [if_pos rfl]
      · have apart : other ≠ key := by
          intro same
          apply distinct.1
          rw [same]
          exact List.mem_map.mpr ⟨(key, value), later, rfl⟩
        rw [if_neg apart]
        exact ih distinct.2 later

theorem exists_of_fieldValues {key : Bytes} {found : JsonValue} {fields : List (Bytes × Doc)}
    (present : fieldValues fields key = some found) :
    ∃ value, (key, value) ∈ fields ∧ value.value = found := by
  induction fields with
  | nil =>
      rw [fieldValues] at present
      cases present
  | cons field rest ih =>
      obtain ⟨other, held⟩ := field
      rw [fieldValues] at present
      split at present
      · rename_i same
        subst same
        exact ⟨held, List.mem_cons_self, Option.some.inj present⟩
      · obtain ⟨value, member, same⟩ := ih present
        exact ⟨value, List.mem_cons_of_mem _ member, same⟩

theorem fieldValues_perm {fields others : List (Bytes × Doc)} (same : fields.Perm others)
    (distinct : (fields.map Prod.fst).Nodup) : fieldValues fields = fieldValues others := by
  have distinctOthers : (others.map Prod.fst).Nodup := (same.map Prod.fst).nodup_iff.mp distinct
  funext key
  cases found : fieldValues others key with
  | some value =>
      obtain ⟨held, member, here⟩ := exists_of_fieldValues found
      rw [fieldValues_of_mem distinct (same.mem_iff.mpr member), here]
  | none =>
      cases other : fieldValues fields key with
      | none => rfl
      | some value =>
          obtain ⟨held, member, _⟩ := exists_of_fieldValues other
          rw [fieldValues_of_mem distinctOthers (same.mem_iff.mp member)] at found
          cases found

def byName (fields : List (Bytes × Doc)) : List (Bytes × Doc) :=
  fields.mergeSort (fun left right => decide (left.1 ≤ right.1))

mutual

def Doc.sorted : Doc → Doc
  | .null => .null
  | .bool value => .bool value
  | .number text => .number text
  | .text bytes => .text bytes
  | .list items => .list (sortedItems items)
  | .object fields => .object (byName (sortedFields fields))

def sortedItems : List Doc → List Doc
  | [] => []
  | item :: rest => item.sorted :: sortedItems rest

def sortedFields : List (Bytes × Doc) → List (Bytes × Doc)
  | [] => []
  | (key, value) :: rest => (key, value.sorted) :: sortedFields rest

end

theorem byName_perm (fields : List (Bytes × Doc)) : (byName fields).Perm fields :=
  List.mergeSort_perm fields _

theorem sortedFields_eq (fields : List (Bytes × Doc)) :
    sortedFields fields = fields.map (fun field => (field.1, field.2.sorted)) := by
  induction fields with
  | nil => rw [sortedFields, List.map_nil]
  | cons field rest ih => rw [sortedFields, ih, List.map_cons]

theorem sortedFields_names (fields : List (Bytes × Doc)) :
    (sortedFields fields).map Prod.fst = fields.map Prod.fst := by
  rw [sortedFields_eq, List.map_map]
  rfl

mutual

theorem Doc.Proper.sorted : ∀ {doc : Doc}, doc.Proper → doc.sorted.Proper
  | .null, proper => proper
  | .bool _, proper => proper
  | .number _, proper => proper
  | .text _, proper => proper
  | .list items, proper => by
      rw [Doc.sorted]
      exact properItems_sorted proper
  | .object fields, proper => by
      rw [Doc.sorted]
      have fine := (properFields_iff _).mp (properFields_sorted proper.2)
      have order := byName_perm (sortedFields fields)
      refine ⟨?_, (properFields_iff _).mpr (fun entry member => fine entry (order.mem_iff.mp member))⟩
      rw [(order.map Prod.fst).nodup_iff, sortedFields_names]
      exact proper.1

theorem properItems_sorted : ∀ {items : List Doc}, ProperItems items →
    ProperItems (sortedItems items)
  | [], _ => by
      rw [sortedItems]
      trivial
  | item :: rest, proper => by
      rw [sortedItems]
      exact ⟨proper.1.sorted, properItems_sorted proper.2⟩

theorem properFields_sorted : ∀ {fields : List (Bytes × Doc)}, ProperFields fields →
    ProperFields (sortedFields fields)
  | [], _ => by
      rw [sortedFields]
      trivial
  | (key, value) :: rest, proper => by
      rw [sortedFields]
      exact ⟨proper.1, proper.2.1.sorted, properFields_sorted proper.2.2⟩

end

mutual

theorem value_sorted : ∀ {doc : Doc}, doc.Proper → doc.sorted.value = doc.value
  | .null, _ => by rw [Doc.sorted]
  | .bool _, _ => by rw [Doc.sorted]
  | .number _, _ => by rw [Doc.sorted]
  | .text _, _ => by rw [Doc.sorted]
  | .list items, proper => by
      rw [Doc.sorted, Doc.value, Doc.value, itemValues_sorted proper]
  | .object fields, proper => by
      have distinct : ((sortedFields fields).map Prod.fst).Nodup := by
        rw [sortedFields_names]
        exact proper.1
      rw [Doc.sorted, Doc.value, Doc.value, ← fieldValues_perm (byName_perm _).symm distinct,
        fieldValues_sorted proper.2]

theorem itemValues_sorted : ∀ {items : List Doc}, ProperItems items →
    itemValues (sortedItems items) = itemValues items
  | [], _ => by rw [sortedItems]
  | item :: rest, proper => by
      rw [sortedItems, itemValues, itemValues, value_sorted proper.1, itemValues_sorted proper.2]

theorem fieldValues_sorted : ∀ {fields : List (Bytes × Doc)}, ProperFields fields →
    fieldValues (sortedFields fields) = fieldValues fields
  | [], _ => by rw [sortedFields]
  | (key, value) :: rest, proper => by
      funext wanted
      rw [sortedFields, fieldValues, fieldValues, value_sorted proper.2.1,
        fieldValues_sorted proper.2.2]

end

theorem byName_congr {fields others : List (Bytes × Doc)}
    (distinct : (fields.map Prod.fst).Nodup) (distinctOthers : (others.map Prod.fst).Nodup)
    (same : ∀ entry, entry ∈ fields ↔ entry ∈ others) : byName fields = byName others := by
  have perm : fields.Perm others :=
    (List.perm_ext_iff_of_nodup distinct.of_map distinctOthers.of_map).mpr same
  have ordered : ∀ list : List (Bytes × Doc),
      (byName list).Pairwise (fun left right => decide (left.1 ≤ right.1) = true) := by
    intro list
    apply List.pairwise_mergeSort
    · intro first second third below further
      exact decide_eq_true (List.le_trans (of_decide_eq_true below) (of_decide_eq_true further))
    · intro first second
      rw [Bool.or_eq_true, decide_eq_true_iff, decide_eq_true_iff]
      exact List.le_total first.1 second.1
  refine List.Perm.eq_of_pairwise ?_ (ordered fields) (ordered others)
    (((byName_perm fields).trans perm).trans (byName_perm others).symm)
  -- two entries of one name are one entry
  intro left right inLeft inRight below above
  have name : left.1 = right.1 :=
    List.le_antisymm (of_decide_eq_true below) (of_decide_eq_true above)
  have leftMember := (byName_perm fields).mem_iff.mp inLeft
  have rightMember := perm.mem_iff.mpr ((byName_perm others).mem_iff.mp inRight)
  exact List.inj_on_of_nodup_map distinct leftMember rightMember name

mutual

theorem sorted_of_value : ∀ {left right : Doc}, left.Proper → right.Proper →
    left.value = right.value → left.sorted = right.sorted
  | .null, right, _, _, same => by
      cases right with
      | null => rfl
      | _ => simp [Doc.value] at same
  | .bool value, right, _, _, same => by
      cases right with
      | bool other =>
          simp only [Doc.value, JsonValue.bool.injEq] at same
          rw [same]
      | _ => simp [Doc.value] at same
  | .number text, right, _, _, same => by
      cases right with
      | number other =>
          simp only [Doc.value, JsonValue.number.injEq] at same
          rw [same]
      | _ => simp [Doc.value] at same
  | .text bytes, right, _, _, same => by
      cases right with
      | text other =>
          simp only [Doc.value, JsonValue.text.injEq] at same
          rw [same]
      | _ => simp [Doc.value] at same
  | .list items, right, properLeft, properRight, same => by
      cases right with
      | list others =>
          simp only [Doc.value, JsonValue.list.injEq] at same
          rw [Doc.sorted, Doc.sorted, sortedItems_of_values properLeft properRight same]
      | _ => simp [Doc.value] at same
  | .object fields, right, properLeft, properRight, same => by
      cases right with
      | object others =>
          simp only [Doc.value, JsonValue.object.injEq] at same
          rw [Doc.sorted, Doc.sorted]
          apply congrArg
          apply byName_congr
          · rw [sortedFields_names]
            exact properLeft.1
          · rw [sortedFields_names]
            exact properRight.1
          · have agree := sortedFields_agree properLeft.2
            intro entry
            rw [sortedFields_eq, sortedFields_eq, List.mem_map, List.mem_map]
            constructor
            · intro ⟨⟨key, value⟩, member, here⟩
              have found := fieldValues_of_mem properLeft.1 member
              rw [same] at found
              obtain ⟨other, among, sameValue⟩ := exists_of_fieldValues found
              have proper := ((properFields_iff _).mp properRight.2 _ among).2
              refine ⟨(key, other), among, ?_⟩
              rw [← here, agree key value member other proper sameValue.symm]
            · intro ⟨⟨key, other⟩, member, here⟩
              have found := fieldValues_of_mem properRight.1 member
              rw [← same] at found
              obtain ⟨value, among, sameValue⟩ := exists_of_fieldValues found
              have proper := ((properFields_iff _).mp properRight.2 _ member).2
              refine ⟨(key, value), among, ?_⟩
              rw [← here, agree key value among other proper sameValue]
      | _ => simp [Doc.value] at same

theorem sortedItems_of_values : ∀ {lefts rights : List Doc}, ProperItems lefts →
    ProperItems rights → itemValues lefts = itemValues rights →
    sortedItems lefts = sortedItems rights
  | [], [], _, _, _ => rfl
  | [], right :: rights, _, _, same => by simp [itemValues] at same
  | left :: lefts, [], _, _, same => by simp [itemValues] at same
  | left :: lefts, right :: rights, properLeft, properRight, same => by
      rw [itemValues, itemValues, List.cons.injEq] at same
      rw [sortedItems, sortedItems, sorted_of_value properLeft.1 properRight.1 same.1,
        sortedItems_of_values properLeft.2 properRight.2 same.2]

theorem sortedFields_agree : ∀ {fields : List (Bytes × Doc)}, ProperFields fields →
    ∀ key value, (key, value) ∈ fields → ∀ other : Doc, other.Proper →
      value.value = other.value → value.sorted = other.sorted
  | [], _, _, _, member, _, _, _ => nomatch member
  | (first, held) :: rest, proper, key, value, member, other, properOther, same => by
      rcases List.mem_cons.mp member with here | later
      · cases here
        exact sorted_of_value proper.2.1 properOther same
      · exact sortedFields_agree proper.2.2 key value later other properOther same

end

theorem marshal_sorted_iff {left right : Doc} (properLeft : left.Proper)
    (properRight : right.Proper) :
    left.sorted.marshal = right.sorted.marshal ↔ left.value = right.value := by
  constructor
  · intro same
    have stops : Stops [] := fun _ impossible => nomatch impossible
    have texts : left.sorted.marshal ++ [] = right.sorted.marshal ++ [] := by rw [same]
    have docs := (marshal_inj _ _ [] [] properLeft.sorted properRight.sorted stops stops texts).1
    rw [← value_sorted properLeft, docs, value_sorted properRight]
  · intro same
    rw [sorted_of_value properLeft properRight same]

end JsonText
