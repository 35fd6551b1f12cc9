/-
Path parameters in a URL.

The renderer replaces one parameter after the other in a text that already holds
the values of the earlier ones. Escaped values have no braces, so the result is
the simultaneous substitution, and a placeholder is new only where braces of the
template stand around a name that appears with the values. `url.PathEscape`
leaves `&` as it is, which separates parameters behind the question mark.
-/

import Mathlib
import MigrationPlatform.Template.Render
import MigrationPlatform.Foundation.HoleTemplates
import MigrationPlatform.Foundation.Utf8

namespace MigrationPlatform.Template

open MigrationPlatform.Connectors HoleTemplates ReplaceAll

def escapeByte (b : UInt8) : List Char :=
  if isPathSafe b then [Char.ofNat b.toNat]
  else ['%', hexDigit (b.toNat / 16), hexDigit (b.toNat % 16)]

theorem toList_pathEscape (value : String) :
    (pathEscape value).toList = (value.toList.flatMap String.utf8EncodeChar).flatMap escapeByte := by
  rw [pathEscape, String.toList_ofList, Utf8.toList_toUTF8]
  rfl

def isEscaped (c : Char) : Bool := c.isAlphanum || "-_.~$&+:=@%".toList.contains c

theorem isEscaped_hexDigit {n : Nat} (small : n < 16) : isEscaped (hexDigit n) = true := by
  have all : ∀ n < 16, isEscaped (hexDigit n) = true := by decide
  exact all n small

private theorem isEscaped_escapeByte (b : UInt8) : ∀ c ∈ escapeByte b, isEscaped c = true := by
  intro c member
  unfold escapeByte at member
  split at member
  · rename_i safe
    rw [List.mem_singleton.mp member]
    unfold isPathSafe at safe
    unfold isEscaped
    simp only [Bool.and_eq_true, Bool.or_eq_true, List.contains_iff_mem] at safe ⊢
    refine safe.2.imp_right ?_
    intro other
    have longer : "-_.~$&+:=@%".toList = "-_.~$&+:=@".toList ++ ['%'] := by decide
    rw [longer]
    exact List.mem_append_left _ other
  · simp only [List.mem_cons, List.not_mem_nil, or_false] at member
    have below := b.toNat_lt
    rcases member with rfl | rfl | rfl
    · decide
    · exact isEscaped_hexDigit (by omega)
    · exact isEscaped_hexDigit (by omega)

private theorem isEscaped_pathEscape (value : String) :
    ∀ c ∈ (pathEscape value).toList, isEscaped c = true := by
  intro c member
  rw [toList_pathEscape] at member
  obtain ⟨b, _, inside⟩ := List.mem_flatMap.mp member
  exact isEscaped_escapeByte b c inside

theorem hexDigit_ne_ampersand {n : Nat} (small : n < 16) : hexDigit n ≠ '&' := by
  have all : ∀ n < 16, hexDigit n ≠ '&' := by decide
  exact all n small

private theorem ampersand_mem_escapeByte {b : UInt8} : '&' ∈ escapeByte b ↔ b = 38 := by
  have below := b.toNat_lt
  constructor
  · intro member
    unfold escapeByte at member
    split at member
    · rename_i safe
      have small : b.toNat < 128 := by
        unfold isPathSafe at safe
        exact of_decide_eq_true (Bool.and_eq_true_iff.mp safe).1
      have all : ∀ n < 128, '&' = Char.ofNat n → n = 38 := by decide
      exact UInt8.toNat_inj.mp (all _ small (List.mem_singleton.mp member))
    · simp only [List.mem_cons, List.not_mem_nil, or_false] at member
      rcases member with percent | high | low
      · exact absurd percent (by decide)
      · exact absurd high.symm (hexDigit_ne_ampersand (by omega))
      · exact absurd low.symm (hexDigit_ne_ampersand (by omega))
  · rintro rfl
    decide

private theorem ampersand_mem_pathEscape {value : String} :
    '&' ∈ (pathEscape value).toList ↔ '&' ∈ value.toList := by
  have byte (c : Char) : 38 ∈ String.utf8EncodeChar c ↔ c = '&' := by
    rw [Utf8.mem_encode_iff (by decide)]
    exact Char.toNat_inj (d := '&')
  rw [toList_pathEscape]
  simp only [List.mem_flatMap, ampersand_mem_escapeByte]
  constructor
  · rintro ⟨_, ⟨c, member, inside⟩, rfl⟩
    exact (byte c).mp inside ▸ member
  · intro member
    exact ⟨38, ⟨'&', member, (byte '&').mpr rfl⟩, rfl⟩

def Unescaped (c : Char) : Prop := c.toNat < 128 ∧ isPathSafe (UInt8.ofNat c.toNat) = true

private theorem escape_unescaped {c : Char} (own : Unescaped c) :
    (String.utf8EncodeChar c).flatMap escapeByte = [c] := by
  rw [Utf8.encode_small own.1, List.flatMap_singleton, escapeByte, if_pos own.2, UInt8.toNat_ofNat',
    Nat.mod_eq_of_lt (Nat.lt_trans own.1 (by decide)), Char.ofNat_toNat]

theorem pathEscape_of_unescaped {value : String} (own : ∀ c ∈ value.toList, Unescaped c) :
    (pathEscape value).toList = value.toList := by
  rw [toList_pathEscape]
  generalize value.toList = text at own
  induction text with
  | nil => rfl
  | cons c rest ih =>
      have later := ih (fun other member => own other (List.mem_cons_of_mem _ member))
      rw [List.flatMap_cons, List.flatMap_append, later, escape_unescaped (own c List.mem_cons_self)]
      rfl

private theorem percent_mem_escapeByte {b : UInt8} (escaped : ¬isPathSafe b = true) :
    '%' ∈ escapeByte b := by
  rw [escapeByte, if_neg escaped]
  exact List.mem_cons_self

theorem unescaped_of_percent {value : String} (free : '%' ∉ (pathEscape value).toList) :
    ∀ c ∈ value.toList, Unescaped c := by
  intro c member
  have safe : ∀ b ∈ String.utf8EncodeChar c, isPathSafe b = true := by
    intro b inside
    by_contra escaped
    apply free
    rw [toList_pathEscape]
    exact List.mem_flatMap.mpr ⟨b, List.mem_flatMap.mpr ⟨c, member, inside⟩, percent_mem_escapeByte escaped⟩
  have small : c.toNat < 128 := by
    by_contra large
    have nonempty : String.utf8EncodeChar c ≠ [] := by
      apply List.ne_nil_of_length_pos
      rw [String.length_utf8EncodeChar]
      exact c.utf8Size_pos
    obtain ⟨b, inside⟩ := List.exists_mem_of_ne_nil _ nonempty
    have below : b.toNat < 128 := by
      have own := safe b inside
      unfold isPathSafe at own
      exact of_decide_eq_true (Bool.and_eq_true_iff.mp own).1
    have above := Utf8.encode_large (Nat.not_lt.mp large) b inside
    omega
  rw [Utf8.encode_small small] at safe
  exact ⟨small, safe _ List.mem_cons_self⟩

def unhex? (c : Char) : Option Nat :=
  if c.isDigit then some (c.toNat - 48)
  else if 'A' ≤ c ∧ c ≤ 'F' then some (c.toNat - 55)
  else if 'a' ≤ c ∧ c ≤ 'f' then some (c.toNat - 87)
  else none

def percentDecode : List Char → Option (List UInt8)
  | [] => some []
  | c :: rest =>
      if c = '%' then
        match rest with
        | high :: low :: rest =>
            match unhex? high, unhex? low, percentDecode rest with
            | some high, some low, some bytes => some (UInt8.ofNat (high * 16 + low) :: bytes)
            | _, _, _ => none
        | _ => none
      else (percentDecode rest).map (String.utf8EncodeChar c ++ ·)

theorem unhex_hexDigit {n : Nat} (small : n < 16) : unhex? (hexDigit n) = some n := by
  have all : ∀ n < 16, unhex? (hexDigit n) = some n := by decide
  exact all n small

private theorem percentDecode_plain {c : Char} (plain : c ≠ '%') (rest : List Char) :
    percentDecode (c :: rest) = (percentDecode rest).map (String.utf8EncodeChar c ++ ·) := by
  rw [percentDecode.eq_def]
  exact if_neg plain

theorem percentDecode_escapeByte (b : UInt8) {rest : List Char} {bytes : List UInt8}
    (later : percentDecode rest = some bytes) :
    percentDecode (escapeByte b ++ rest) = some (b :: bytes) := by
  have below := b.toNat_lt
  unfold escapeByte
  split
  · rename_i safe
    have small : b.toNat < 128 := by
      unfold isPathSafe at safe
      exact of_decide_eq_true (Bool.and_eq_true_iff.mp safe).1
    have number : (Char.ofNat b.toNat).toNat = b.toNat := by
      have all : ∀ n < 128, (Char.ofNat n).toNat = n := by decide
      exact all _ small
    have plain : Char.ofNat b.toNat ≠ '%' := by
      intro same
      have percent : b = 37 := by
        rw [← UInt8.toNat_inj, ← number, same]
        rfl
      rw [percent] at safe
      exact absurd safe (by decide)
    have encoded : String.utf8EncodeChar (Char.ofNat b.toNat) = [b] := by
      rw [Utf8.encode_small (number.symm ▸ small), number, UInt8.ofNat_toNat]
    rw [List.singleton_append, percentDecode_plain plain, later, encoded]
    rfl
  · change percentDecode ('%' :: _ :: _ :: rest) = _
    rw [percentDecode, if_pos rfl]
    simp only [unhex_hexDigit (show b.toNat / 16 < 16 by omega),
      unhex_hexDigit (show b.toNat % 16 < 16 by omega), later]
    rw [Nat.div_add_mod', UInt8.ofNat_toNat]

private theorem percentDecode_pathEscape (value : String) :
    percentDecode (pathEscape value).toList = some value.toUTF8.toList := by
  rw [toList_pathEscape, Utf8.toList_toUTF8]
  generalize value.toList.flatMap String.utf8EncodeChar = bytes
  induction bytes with
  | nil => rfl
  | cons b bytes ih => exact percentDecode_escapeByte b ih

inductive UrlPart
  | path
  | query
  | fragment
deriving DecidableEq, Repr

def UrlPart.delimits : UrlPart → Char → Bool
  | .path, c => c == '/' || c == '?' || c == '#'
  | .query, c => c == '&' || c == ';' || c == '#'
  | .fragment, _ => false

def UrlPart.after : UrlPart → Char → UrlPart
  | .path, c => if c = '?' then .query else if c = '#' then .fragment else .path
  | .query, c => if c = '#' then .fragment else .query
  | .fragment, _ => .fragment

/-- What separates the segments of the path, the query, its parameters and the fragment. -/
def delimiters : UrlPart → List Char → List Char
  | _, [] => []
  | part, c :: rest => (if part.delimits c then [c] else []) ++ delimiters (part.after c) rest

def queryHoles : UrlPart → List (Piece Char) → List (List Char)
  | _, [] => []
  | part, .item c :: rest => queryHoles (part.after c) rest
  | part, .hole name :: rest => (if part = .query then [name] else []) ++ queryHoles part rest

def UrlPart.added (part : UrlPart) (text : List Char) : List Char :=
  if part = .query then text.filter (· == '&') else []

private theorem UrlPart.after_escaped {c : Char} (escaped : isEscaped c = true) (part : UrlPart) :
    part.after c = part := by
  have question : c ≠ '?' := by rintro rfl; cases escaped
  have hash : c ≠ '#' := by rintro rfl; cases escaped
  cases part with
  | path => exact (if_neg question).trans (if_neg hash)
  | query => exact if_neg hash
  | fragment => rfl

private theorem UrlPart.delimits_escaped {c : Char} (escaped : isEscaped c = true)
    (part : UrlPart) :
    part.delimits c = (part == .query && c == '&') := by
  have slash : (c == '/') = false := beq_false_of_ne (by rintro rfl; cases escaped)
  have question : (c == '?') = false := beq_false_of_ne (by rintro rfl; cases escaped)
  have hash : (c == '#') = false := beq_false_of_ne (by rintro rfl; cases escaped)
  have semicolon : (c == ';') = false := beq_false_of_ne (by rintro rfl; cases escaped)
  cases part with
  | path =>
      rw [UrlPart.delimits, slash, question, hash]
      rfl
  | query =>
      rw [UrlPart.delimits, semicolon, hash, Bool.or_false, Bool.or_false]
      rfl
  | fragment => rfl

theorem delimiters_escaped {text : List Char} (escaped : ∀ c ∈ text, isEscaped c = true)
    (part : UrlPart) (rest : List Char) :
    delimiters part (text ++ rest) = part.added text ++ delimiters part rest := by
  induction text with
  | nil =>
      unfold UrlPart.added
      split <;> rfl
  | cons c text ih =>
      have first := escaped c List.mem_cons_self
      have later := ih (fun other member => escaped other (List.mem_cons_of_mem _ member))
      rw [List.cons_append, delimiters, UrlPart.after_escaped first, later,
        UrlPart.delimits_escaped first, ← List.append_assoc]
      congr 1
      unfold UrlPart.added
      by_cases query : part = .query
      · by_cases same : c = '&'
        · simp [query, same]
        · simp [query, same]
      · simp [query]

theorem length_delimiters_fill {values : List Char → List Char} {ps : List (Piece Char)}
    (escaped : ∀ name ∈ holes ps, ∀ c ∈ values name, isEscaped c = true) (part : UrlPart) :
    (delimiters part (fill values ps)).length =
      (delimiters part (fill (fun _ => []) ps)).length +
        ((queryHoles part ps).map (fun name => (values name).count '&')).sum := by
  induction ps generalizing part with
  | nil => rfl
  | cons piece rest ih =>
      cases piece with
      | item c =>
          change (delimiters part (c :: fill values rest)).length =
            (delimiters part (c :: fill (fun _ => []) rest)).length + _
          have later := ih escaped (part.after c)
          rw [delimiters, delimiters, List.length_append, List.length_append, later, queryHoles]
          omega
      | hole name =>
          change (delimiters part (values name ++ fill values rest)).length =
            (delimiters part (fill (fun _ => []) rest)).length + _
          have later := ih (fun other member => escaped other (List.mem_cons_of_mem _ member)) part
          rw [delimiters_escaped (escaped name List.mem_cons_self), List.length_append, later,
            queryHoles, List.map_append, List.sum_append]
          unfold UrlPart.added
          split
          · rw [← List.countP_eq_length_filter, ← List.count]
            simp only [List.map_cons, List.map_nil, List.sum_cons, List.sum_nil]
            omega
          · simp

theorem delimiters_fill_iff {values : List Char → List Char} {ps : List (Piece Char)}
    (escaped : ∀ name ∈ holes ps, ∀ c ∈ values name, isEscaped c = true) (part : UrlPart) :
    delimiters part (fill values ps) = delimiters part (fill (fun _ => []) ps) ↔
      ∀ name ∈ queryHoles part ps, '&' ∉ values name := by
  constructor
  · intro same name member inside
    have total := length_delimiters_fill escaped part
    rw [same] at total
    have none := List.sum_eq_zero_iff_forall_eq_nat.mp (Nat.left_eq_add.mp total)
    have zero := none _ (List.mem_map_of_mem member)
    exact (List.count_eq_zero.mp zero) inside
  · induction ps generalizing part with
    | nil => exact fun _ => rfl
    | cons piece rest ih =>
        intro free
        cases piece with
        | item c =>
            change delimiters part (c :: fill values rest) = delimiters part (c :: fill _ rest)
            rw [delimiters, delimiters, ih escaped (part.after c) free]
        | hole name =>
            change delimiters part (values name ++ fill values rest) = delimiters part (fill _ rest)
            have later := ih (fun other member => escaped other (List.mem_cons_of_mem _ member)) part
              (fun other member => free other (List.mem_append_right _ member))
            have nothing : part.added (values name) = [] := by
              unfold UrlPart.added
              split
              · rename_i query
                have outside := free name (List.mem_append_left _ (by simp [query]))
                rw [List.filter_eq_nil_iff]
                intro c member same
                exact outside (eq_of_beq same ▸ member)
              · rfl
            rw [delimiters_escaped (escaped name List.mem_cons_self), nothing, later]
            rfl

/-! ### Placeholders -/

/-- The expression `placeholderRe`. -/
def placeholderGrammar : Grammar Char where
  opening := '\x7b'
  closing := '\x7d'
  starts := isNameStart
  continues c := isNameStart c || c.isDigit
  starts_continues _ starts := Bool.or_eq_true_iff.mpr (Or.inl starts)
  opening_outside := by decide
  closing_outside := by decide
  distinct := by decide

def urlPieces (url : String) : List (Piece Char) := placeholderGrammar.pieces none url.toList

theorem placeholders_eq (started : Option (List Char)) (text : List Char) :
    placeholders started text = (holes (placeholderGrammar.pieces started text)).map String.ofList := by
  induction text generalizing started with
  | nil =>
      change [] = (holes ((placeholderGrammar.opened started).map .item)).map String.ofList
      rw [Grammar.holes_items]
      rfl
  | cons c rest ih =>
      have again : placeholders (if c = '\x7b' then some [] else none) rest =
          (holes (placeholderGrammar.restart c rest)).map String.ofList := by
        rw [ih, Grammar.restart]
        by_cases same : c = '\x7b'
        · have opens : c = placeholderGrammar.opening := same
          rw [if_pos same, if_pos opens]
        · have other : c ≠ placeholderGrammar.opening := same
          rw [if_neg same, if_neg other]
          rfl
      cases started with
      | none => exact again
      | some name =>
          rw [placeholders, Grammar.pieces_some_cons]
          have goes : (isNameStart c = true ∨ (name ≠ [] ∧ c.isDigit = true)) ↔
              placeholderGrammar.goesOn name c = true := by
            cases name with
            | nil => simp [Grammar.goesOn, placeholderGrammar]
            | cons _ _ => simp [Grammar.goesOn, placeholderGrammar]
          have closes : (c = '\x7d' ∧ name ≠ []) ↔ (c = placeholderGrammar.closing ∧ name ≠ []) := Iff.rfl
          by_cases closed : c = '\x7d' ∧ name ≠ []
          · rw [if_pos closed, if_pos (closes.mp closed), ih]
            rfl
          · rw [if_neg closed, if_neg (fun own => closed (closes.mpr own))]
            by_cases further : placeholderGrammar.goesOn name c = true
            · rw [if_pos (goes.mpr further), if_pos further, ih]
            · rw [if_neg (fun own => further (goes.mp own)), if_neg further, again]
              have none : holes ((placeholderGrammar.opened (some name)).map .item ++
                  placeholderGrammar.restart c rest) = holes (placeholderGrammar.restart c rest) := by
                simp [holes]
              rw [none]

theorem mem_placeholders {name : String} {url : String} :
    name ∈ placeholders none url.toList ↔ name.toList ∈ holes (urlPieces url) := by
  rw [placeholders_eq, List.mem_map]
  constructor
  · rintro ⟨own, member, rfl⟩
    rw [String.toList_ofList]
    exact member
  · intro member
    exact ⟨_, member, String.ofList_toList⟩

theorem placeholders_eq_nil_iff {text : List Char} :
    placeholders none text = [] ↔ placeholderGrammar.Plain (text.map .item) := by
  rw [placeholders_eq, List.map_eq_nil_iff]
  exact Grammar.holes_pieces_eq_nil_iff text

private theorem escaped_braces {text : List Char} (escaped : ∀ c ∈ text, isEscaped c = true) :
    placeholderGrammar.opening ∉ text ∧ placeholderGrammar.closing ∉ text := by
  constructor
  · intro member
    exact absurd (escaped _ member) (by decide)
  · intro member
    exact absurd (escaped _ member) (by decide)

structure PathParams where
  entries : Data
  distinct : (entries.map Prod.fst).Nodup
  named : ∀ entry ∈ entries, placeholderGrammar.isName entry.1.toList = true

section Rendering

variable (env : RenderEnv) (ctx : Context)

def paramValue (entries : Data) (name : String) : Option String :=
  match entries.lookup name with
  | none => none
  | some expr =>
      match resolveValueExpr env ctx expr with
      | .ok value => value
      | .error _ => none

def escapedParam (entries : Data) (name : List Char) : Option (List Char) :=
  (paramValue env ctx entries (String.ofList name)).map (fun value => (pathEscape value).toList)

def inserted (entries : Data) (name : List Char) : List Char := (escapedParam env ctx entries name).getD []

def simultaneous (url : String) (entries : Data) : String :=
  String.ofList (fill (inserted env ctx entries) (urlPieces url))

/-- Every parameter has a value, and every placeholder a parameter. -/
structure Complete (url : String) (entries : Data) : Prop where
  resolved : ∀ entry ∈ entries, ∃ value, resolveValueExpr env ctx entry.2 = .ok (some value)
  covered : ∀ name ∈ placeholders none url.toList, name ∈ entries.map Prod.fst

variable {env ctx}

theorem isEscaped_inserted (entries : Data) (name : List Char) :
    ∀ c ∈ inserted env ctx entries name, isEscaped c = true := by
  intro c member
  unfold inserted escapedParam at member
  cases found : paramValue env ctx entries (String.ofList name) with
  | none =>
      rw [found] at member
      cases member
  | some value =>
      rw [found] at member
      exact isEscaped_pathEscape value c member

theorem sortedEntries_perm (entries : Data) : (sortedEntries entries).Perm entries :=
  List.mergeSort_perm _ _

private theorem lookup_sortedEntries {entries : Data} (distinct : (entries.map Prod.fst).Nodup)
    (name : String) : (sortedEntries entries).lookup name = entries.lookup name := by
  have own := sortedEntries_perm entries
  have sorted : ((sortedEntries entries).map Prod.fst).Nodup := (own.map Prod.fst).nodup_iff.mpr distinct
  apply Option.ext
  intro expr
  rw [← Data.mem_iff_lookup distinct, ← Data.mem_iff_lookup sorted, own.mem_iff]

theorem replace_placeholder (key value url : String) :
    Replaced (placeholderGrammar.braced key.toList) value.toList url.toList
      (url.replace ("\x7b" ++ key ++ "\x7d") value).toList := by
  have braces : placeholderGrammar.braced key.toList = ("\x7b" ++ key ++ "\x7d").toList := by
    simp [Grammar.braced, placeholderGrammar]
  rw [braces]
  apply replaced_replace
  intro empty
  have size := congrArg String.length empty
  simp at size

private theorem replace_spell {key : String} (named : placeholderGrammar.isName key.toList = true)
    (value : String) {ps : List (Piece Char)}
    (names : ∀ name ∈ holes ps, placeholderGrammar.isName name = true)
    (plain : placeholderGrammar.Plain ps) :
    (String.ofList (placeholderGrammar.spell ps)).replace ("\x7b" ++ key ++ "\x7d") value =
      String.ofList (placeholderGrammar.spell (fillSome (single key.toList value.toList) ps)) := by
  have computed := replace_placeholder key value (String.ofList (placeholderGrammar.spell ps))
  have filled := Grammar.replaced_pieces named value.toList Grammar.reading_none
    (placeholderGrammar.spell ps)
  rw [Grammar.pieces_spell names plain] at filled
  rw [String.toList_ofList] at computed
  rw [← String.toList_inj, String.toList_ofList]
  exact Replaced.unique (List.cons_ne_nil _ _) computed filled

private theorem single_or_escapedParam {key value : String} {expr : Value} {rest : Data}
    (resolved : resolveValueExpr env ctx expr = .ok (some value)) (name : List Char) :
    (single key.toList (pathEscape value).toList name).or (escapedParam env ctx rest name) =
      escapedParam env ctx ((key, expr) :: rest) name := by
  unfold single escapedParam paramValue
  rw [List.lookup_cons]
  by_cases same : name = key.toList
  · subst same
    simp [resolved]
  · have other : String.ofList name ≠ key := by
      rintro rfl
      exact same String.toList_ofList.symm
    rw [if_neg same, beq_false_of_ne other, Option.none_or]

theorem substitutePathParams_spell {entries : Data}
    (named : ∀ entry ∈ entries, placeholderGrammar.isName entry.1.toList = true)
    (resolved : ∀ entry ∈ entries, ∃ value, resolveValueExpr env ctx entry.2 = .ok (some value))
    {ps : List (Piece Char)} (names : ∀ name ∈ holes ps, placeholderGrammar.isName name = true)
    (plain : placeholderGrammar.Plain (fillSome (escapedParam env ctx entries) ps)) :
    substitutePathParams env ctx (String.ofList (placeholderGrammar.spell ps)) entries =
      .ok (String.ofList (placeholderGrammar.spell (fillSome (escapedParam env ctx entries) ps))) := by
  induction entries generalizing ps with
  | nil =>
      have nothing : escapedParam env ctx [] = fun _ => none := rfl
      rw [nothing, fillSome_none]
      rfl
  | cons entry rest ih =>
      obtain ⟨key, expr⟩ := entry
      obtain ⟨value, own⟩ := resolved _ List.mem_cons_self
      have whole : fillSome (escapedParam env ctx rest)
          (fillSome (single key.toList (pathEscape value).toList) ps) =
          fillSome (escapedParam env ctx ((key, expr) :: rest)) ps := by
        rw [fillSome_fillSome]
        exact congrArg (fillSome · ps) (funext (single_or_escapedParam own))
      have namedKey := named _ List.mem_cons_self
      have left : ∀ name ∈ holes (fillSome (single key.toList (pathEscape value).toList) ps),
          placeholderGrammar.isName name = true :=
        fun name member => names name (mem_holes_fillSome.mp member).1
      have later := ih (fun other member => named other (List.mem_cons_of_mem _ member))
        (fun other member => resolved other (List.mem_cons_of_mem _ member)) left (whole ▸ plain)
      rw [substitutePathParams, own]
      change substitutePathParams env ctx (String.replace _ _ _) rest = _
      rw [replace_spell namedKey _ names plain.of_fillSome, later, whole]

private theorem substitutePathParams_unresolved {entries : Data} {entry : String × Value}
    (member : entry ∈ entries)
    (unresolved : ¬∃ value, resolveValueExpr env ctx entry.2 = .ok (some value)) (url : String) :
    ∃ problem, substitutePathParams env ctx url entries = .error problem := by
  induction entries generalizing url with
  | nil => cases member
  | cons first rest ih =>
      obtain ⟨key, expr⟩ := first
      rw [substitutePathParams]
      cases own : resolveValueExpr env ctx expr with
      | error problem => exact ⟨_, rfl⟩
      | ok result =>
          cases result with
          | none => exact ⟨_, rfl⟩
          | some value =>
              rcases List.mem_cons.mp member with rfl | later
              · exact absurd ⟨value, own⟩ unresolved
              · exact ih later _

theorem substitutePathParams_kept {entries : Data}
    (named : ∀ entry ∈ entries, placeholderGrammar.isName entry.1.toList = true)
    {name : String} (outside : name ∉ entries.map Prod.fst) {url out : String}
    (member : name ∈ placeholders none url.toList)
    (substituted : substitutePathParams env ctx url entries = .ok out) :
    name ∈ placeholders none out.toList := by
  induction entries generalizing url with
  | nil =>
      cases substituted
      exact member
  | cons entry rest ih =>
      obtain ⟨key, expr⟩ := entry
      rw [substitutePathParams] at substituted
      rw [List.map_cons, List.mem_cons, not_or] at outside
      cases own : resolveValueExpr env ctx expr with
      | error problem =>
          rw [own] at substituted
          cases substituted
      | ok result =>
          rw [own] at substituted
          cases result with
          | none => cases substituted
          | some value =>
              have namedKey := named _ List.mem_cons_self
              refine ih (fun other inside => named other (List.mem_cons_of_mem _ inside)) outside.2 ?_
                substituted
              rw [mem_placeholders] at member ⊢
              refine Grammar.hole_kept namedKey member ?_ (replace_placeholder key _ _)
              intro same
              exact outside.1 (String.toList_inj.mp same)

/-! ### The law of the substitution -/

variable (env ctx)

def rawValue (entries : Data) (name : List Char) : List Char :=
  ((paramValue env ctx entries (String.ofList name)).getD "").toList

def Destination.withParams (d : Destination) (params : PathParams) : Destination :=
  { d with pathParams := some params.entries, queryParams := none }

structure Templated (d : Destination) (params : PathParams) : Prop where
  substitutes : Complete env ctx d.url params.entries →
    renderDestination env (d.withParams params) ctx =
      (renderHeaders env ctx (d.headers.getD [])).map
        (fun headers => { url := simultaneous env ctx d.url params.entries, headers := headers })
  fails : (∃ problem, renderDestination env (d.withParams params) ctx = .error problem) ↔
    (∃ entry ∈ params.entries, ¬∃ value, resolveValueExpr env ctx entry.2 = .ok (some value)) ∨
      (∃ name ∈ placeholders none d.url.toList, name ∉ params.entries.map Prod.fst) ∨
      ∃ problem, renderHeaders env ctx (d.headers.getD []) = .error problem
  delimits : Complete env ctx d.url params.entries →
    delimiters .path (simultaneous env ctx d.url params.entries).toList =
      delimiters .path (fill (fun _ => []) (urlPieces d.url))
  closed : Complete env ctx d.url params.entries →
    placeholders none (simultaneous env ctx d.url params.entries).toList = []
  decodes : ∀ name value, paramValue env ctx params.entries name = some value →
    percentDecode (inserted env ctx params.entries name.toList) = some value.toUTF8.toList

/-- With the values no braces of the template stand around a name, and no value in
the query has an ampersand. -/
structure Harmless (url : String) (entries : Data) : Prop where
  apart : ¬placeholderGrammar.Encloses (rawValue env ctx entries) (urlPieces url)
  joined : ∀ name ∈ queryHoles .path (urlPieces url), '&' ∉ rawValue env ctx entries name

variable {env ctx}

theorem inserted_eq (entries : Data) (name : List Char) :
    inserted env ctx entries name =
      (pathEscape ((paramValue env ctx entries (String.ofList name)).getD "")).toList := by
  unfold inserted escapedParam
  cases paramValue env ctx entries (String.ofList name) with
  | none =>
      change [] = (pathEscape "").toList
      rw [toList_pathEscape]
      rfl
  | some value => rfl

theorem unescaped_of_continues {c : Char} (inside : placeholderGrammar.continues c = true) :
    Unescaped c := by
  change (isNameStart c || c.isDigit) = true at inside
  unfold isNameStart at inside
  have small : c.toNat < 128 := by
    simp only [Bool.or_eq_true, Char.isAlpha, Char.isUpper, Char.isLower, Char.isDigit, beq_iff_eq,
      Bool.and_eq_true, decide_eq_true_eq, ge_iff_le, UInt32.le_iff_toNat_le] at inside
    rcases inside with ((⟨_, upper⟩ | ⟨_, lower⟩) | rfl) | ⟨_, digit⟩
    · exact Nat.lt_of_le_of_lt upper (by decide)
    · exact Nat.lt_of_le_of_lt lower (by decide)
    · decide
    · exact Nat.lt_of_le_of_lt digit (by decide)
  have all : ∀ n < 128, ((Char.ofNat n).isAlpha || Char.ofNat n == '_' || (Char.ofNat n).isDigit) = true →
      isPathSafe (UInt8.ofNat n) = true := by decide
  refine ⟨small, all c.toNat small ?_⟩
  rw [Char.ofNat_toNat]
  exact inside

theorem isName_fill_iff (entries : Data) (ps : List (Piece Char)) :
    placeholderGrammar.isName (fill (inserted env ctx entries) ps) = true ↔
      placeholderGrammar.isName (fill (rawValue env ctx entries) ps) = true := by
  have same (name : List Char)
      (own : (∀ c ∈ inserted env ctx entries name, placeholderGrammar.continues c = true) ∨
        ∀ c ∈ rawValue env ctx entries name, placeholderGrammar.continues c = true) :
      inserted env ctx entries name = rawValue env ctx entries name := by
    rw [inserted_eq, rawValue] at *
    rcases own with escaped | raw
    · apply pathEscape_of_unescaped
      apply unescaped_of_percent
      intro member
      exact absurd (escaped _ member) (by decide)
    · apply pathEscape_of_unescaped
      intro c member
      exact unescaped_of_continues (raw c member)
  have part {values : List Char → List Char} {name c : _} (member : .hole name ∈ ps)
      (inside : c ∈ values name) : c ∈ fill values ps := by
    exact List.mem_flatMap.mpr ⟨_, member, inside⟩
  have whole (own : ∀ name, .hole name ∈ ps →
      inserted env ctx entries name = rawValue env ctx entries name) :
      fill (inserted env ctx entries) ps = fill (rawValue env ctx entries) ps := by
    unfold fill
    apply List.flatMap_congr
    intro piece member
    cases piece with
    | item c => rfl
    | hole name => exact own name member
  constructor
  · intro named
    rw [whole] at named
    · exact named
    · intro name member
      refine same name (Or.inl ?_)
      intro c inside
      exact Grammar.continues_of_isName named c (part member inside)
  · intro named
    rw [whole]
    · exact named
    · intro name member
      refine same name (Or.inr ?_)
      intro c inside
      exact Grammar.continues_of_isName named c (part member inside)

private theorem encloses_iff (entries : Data) (ps : List (Piece Char)) :
    placeholderGrammar.Encloses (inserted env ctx entries) ps ↔
      placeholderGrammar.Encloses (rawValue env ctx entries) ps := by
  unfold Grammar.Encloses
  simp only [isName_fill_iff]

theorem closed_iff (url : String) (entries : Data) :
    placeholders none (simultaneous env ctx url entries).toList = [] ↔
      ¬placeholderGrammar.Encloses (rawValue env ctx entries) (urlPieces url) := by
  rw [simultaneous, String.toList_ofList, placeholders_eq_nil_iff, ← encloses_iff]
  apply Grammar.plain_fill_iff
  intro name _
  exact escaped_braces (isEscaped_inserted entries name)

theorem delimits_iff (url : String) (entries : Data) :
    delimiters .path (simultaneous env ctx url entries).toList =
        delimiters .path (fill (fun _ => []) (urlPieces url)) ↔
      ∀ name ∈ queryHoles .path (urlPieces url), '&' ∉ rawValue env ctx entries name := by
  rw [simultaneous, String.toList_ofList,
    delimiters_fill_iff (fun name _ => isEscaped_inserted entries name)]
  simp only [inserted_eq, ampersand_mem_pathEscape, rawValue]

theorem Complete.value {url : String} {params : PathParams} (complete : Complete env ctx url params.entries)
    {name : List Char} (member : name ∈ holes (urlPieces url)) :
    (escapedParam env ctx params.entries name).isSome = true := by
  have covered := complete.covered (String.ofList name) (by
    rw [mem_placeholders, String.toList_ofList]
    exact member)
  obtain ⟨⟨key, expr⟩, inside, same⟩ := List.mem_map.mp covered
  obtain ⟨value, own⟩ := complete.resolved _ inside
  change key = String.ofList name at same
  subst same
  unfold escapedParam paramValue
  rw [(Data.mem_iff_lookup params.distinct).mp inside]
  simp [own]

theorem substitutePathParams_simultaneous {url : String} {params : PathParams}
    (complete : Complete env ctx url params.entries)
    (closed : placeholders none (simultaneous env ctx url params.entries).toList = []) :
    substitutePathParams env ctx url (sortedEntries params.entries) =
      .ok (simultaneous env ctx url params.entries) := by
  have own := sortedEntries_perm params.entries
  have values : escapedParam env ctx (sortedEntries params.entries) =
      escapedParam env ctx params.entries := by
    funext name
    unfold escapedParam paramValue
    rw [lookup_sortedEntries params.distinct]
  have text : fillSome (escapedParam env ctx params.entries) (urlPieces url) =
      (fill (inserted env ctx params.entries) (urlPieces url)).map .item :=
    fillSome_of_total (fun name member => complete.value member)
  have plain : placeholderGrammar.Plain
      (fillSome (escapedParam env ctx (sortedEntries params.entries)) (urlPieces url)) := by
    rw [values, text, ← placeholders_eq_nil_iff]
    rw [simultaneous, String.toList_ofList] at closed
    exact closed
  have names : ∀ name ∈ holes (urlPieces url), placeholderGrammar.isName name = true := by
    intro name member
    exact Grammar.isName_of_mem_pieces Grammar.reading_none _ (Grammar.mem_holes.mp member)
  have named : ∀ entry ∈ sortedEntries params.entries, placeholderGrammar.isName entry.1.toList = true :=
    fun entry member => params.named entry (own.mem_iff.mp member)
  have resolved : ∀ entry ∈ sortedEntries params.entries,
      ∃ value, resolveValueExpr env ctx entry.2 = .ok (some value) :=
    fun entry member => complete.resolved entry (own.mem_iff.mp member)
  have run := substitutePathParams_spell named resolved names plain
  have read : String.ofList (placeholderGrammar.spell (urlPieces url)) = url := by
    rw [urlPieces, Grammar.spell_pieces]
    exact String.ofList_toList
  rw [read, values, text, Grammar.spell_items] at run
  exact run

theorem renderDestination_withParams (d : Destination) (params : PathParams) :
    renderDestination env (d.withParams params) ctx =
      renderRequest env ctx d.url params.entries [] (d.headers.getD []) := rfl

private theorem renderRequest_substituted {url out : String} {entries headers : Data}
    (substituted : substitutePathParams env ctx url (sortedEntries entries) = .ok out)
    (closed : placeholders none out.toList = []) :
    renderRequest env ctx url entries [] headers =
      (renderHeaders env ctx headers).map (fun headers => { url := out, headers := headers }) := by
  unfold renderRequest
  rw [substituted]
  simp only [closed, ne_eq, not_true_eq_false, if_false]
  cases renderHeaders env ctx headers with
  | error problem => rfl
  | ok rendered => rfl

theorem renderRequest_unresolved {url : String} {entries headers : Data} {entry : String × Value}
    (member : entry ∈ entries)
    (unresolved : ¬∃ value, resolveValueExpr env ctx entry.2 = .ok (some value)) :
    ∃ problem, renderRequest env ctx url entries [] headers = .error problem := by
  obtain ⟨problem, stopped⟩ := substitutePathParams_unresolved
    ((sortedEntries_perm entries).mem_iff.mpr member) unresolved url
  unfold renderRequest
  rw [stopped]
  exact ⟨problem, rfl⟩

theorem renderRequest_leftover {url : String} {params : PathParams} {headers : Data} {name : String}
    (member : name ∈ placeholders none url.toList) (outside : name ∉ params.entries.map Prod.fst) :
    ∃ problem, renderRequest env ctx url params.entries [] headers = .error problem := by
  have own := sortedEntries_perm params.entries
  unfold renderRequest
  cases substituted : substitutePathParams env ctx url (sortedEntries params.entries) with
  | error problem => exact ⟨problem, rfl⟩
  | ok out =>
      have kept := substitutePathParams_kept
        (fun entry inside => params.named entry (own.mem_iff.mp inside))
        (fun inside => outside ((own.map Prod.fst).mem_iff.mp inside)) member substituted
      have left : placeholders none out.toList ≠ [] := List.ne_nil_of_mem kept
      exact ⟨_, if_pos left⟩

theorem templated_of_harmless {d : Destination} {params : PathParams}
    (harmless : Complete env ctx d.url params.entries → Harmless env ctx d.url params.entries) :
    Templated env ctx d params := by
  have rendered (complete : Complete env ctx d.url params.entries) :
      renderDestination env (d.withParams params) ctx =
        (renderHeaders env ctx (d.headers.getD [])).map
          (fun headers => { url := simultaneous env ctx d.url params.entries, headers := headers }) := by
    have closed := (closed_iff d.url params.entries).mpr (harmless complete).apart
    rw [renderDestination_withParams]
    exact renderRequest_substituted (substitutePathParams_simultaneous complete closed) closed
  refine ⟨rendered, ?_, ?_, ?_, ?_⟩
  · constructor
    · rintro ⟨problem, failed⟩
      by_contra whole
      have resolved : ∀ entry ∈ params.entries,
          ∃ value, resolveValueExpr env ctx entry.2 = .ok (some value) := by
        intro entry member
        by_contra unresolved
        exact whole (Or.inl ⟨entry, member, unresolved⟩)
      have covered : ∀ name ∈ placeholders none d.url.toList, name ∈ params.entries.map Prod.fst := by
        intro name member
        by_contra outside
        exact whole (Or.inr (Or.inl ⟨name, member, outside⟩))
      rw [rendered ⟨resolved, covered⟩] at failed
      cases own : renderHeaders env ctx (d.headers.getD []) with
      | error cause => exact whole (Or.inr (Or.inr ⟨cause, own⟩))
      | ok lines =>
          rw [own] at failed
          cases failed
    · rw [renderDestination_withParams]
      rintro (⟨entry, member, unresolved⟩ | ⟨name, member, outside⟩ | ⟨cause, headers⟩)
      · exact renderRequest_unresolved member unresolved
      · exact renderRequest_leftover member outside
      · by_cases complete : Complete env ctx d.url params.entries
        · refine ⟨cause, ?_⟩
          rw [← renderDestination_withParams, rendered complete, headers]
          rfl
        · by_cases resolved : ∀ entry ∈ params.entries,
              ∃ value, resolveValueExpr env ctx entry.2 = .ok (some value)
          · have uncovered : ¬∀ name ∈ placeholders none d.url.toList,
                name ∈ params.entries.map Prod.fst := fun covered => complete ⟨resolved, covered⟩
            obtain ⟨name, rest⟩ := not_forall.mp uncovered
            obtain ⟨member, outside⟩ := Classical.not_imp.mp rest
            exact renderRequest_leftover member outside
          · obtain ⟨entry, rest⟩ := not_forall.mp resolved
            obtain ⟨member, unresolved⟩ := Classical.not_imp.mp rest
            exact renderRequest_unresolved member unresolved
  · intro complete
    exact (delimits_iff d.url params.entries).mpr (harmless complete).joined
  · intro complete
    exact (closed_iff d.url params.entries).mpr (harmless complete).apart
  · intro name value found
    rw [inserted_eq, String.ofList_toList, found]
    exact percentDecode_pathEscape value

theorem harmless_of_templated {d : Destination} {params : PathParams} (law : Templated env ctx d params)
    (complete : Complete env ctx d.url params.entries) : Harmless env ctx d.url params.entries where
  apart := (closed_iff d.url params.entries).mp (law.closed complete)
  joined := (delimits_iff d.url params.entries).mp (law.delimits complete)

end Rendering

theorem templated_iff (env : RenderEnv) (ctx : Context) (d : Destination) (params : PathParams) :
    Templated env ctx d params ↔
      (Complete env ctx d.url params.entries → Harmless env ctx d.url params.entries) :=
  ⟨harmless_of_templated, templated_of_harmless⟩

def searchByName : Destination where
  type := "http"
  method := "GET"
  url := "https://crm.example.com/users?name=\x7bname\x7d"

def nameParam : PathParams where
  entries := [("name", .object [("$from", .text "name")])]
  distinct := by decide
  named := by decide

theorem ampersand_adds_parameter :
    ¬Templated bareEnv { row := [("name", .text "Ann&admin=true")], responses := [] }
      searchByName nameParam := by
  intro law
  have complete : Complete bareEnv { row := [("name", .text "Ann&admin=true")], responses := [] }
      searchByName.url nameParam.entries := by
    refine ⟨?_, by decide⟩
    intro entry member
    rw [List.mem_singleton.mp member]
    exact ⟨"Ann&admin=true", rfl⟩
  have free := (harmless_of_templated law complete).joined "name".toList (by decide)
  exact absurd free (by decide)

end MigrationPlatform.Template
