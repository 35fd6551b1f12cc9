/-
Numbers of rows and responses in URLs and headers.

The renderer prints what is no string with `fmt.Sprint`, the results export with a
formatter of its own. A number of a row is a `float64`; a response body is parsed so
that an integer of 64 bits stays one.
-/

import MigrationPlatform.Connectors.JsonNumbers
import MigrationPlatform.Template.UrlTemplate

namespace MigrationPlatform.Template

open MigrationPlatform.Connectors NumberText Decimals ReplaceAll

/-- A number with a whole value, as `any` holds it. -/
inductive GoNumber
  | float64 (negative : Bool) (magnitude : Nat)
  | int64 (value : Int)
deriving DecidableEq, Repr

def GoNumber.value : GoNumber → Int
  | .float64 negative magnitude => signedInteger negative magnitude
  | .int64 value => value

/-- `fmt.Sprint`: the shortest decimal in the format `g`, which is positional for
exponents below six. -/
def GoNumber.sprint : GoNumber → String
  | .float64 negative magnitude =>
      let decimal := shortestDigits magnitude
      String.ofList (signed negative
        (if decimal < 10 ^ 6 then positional decimal else scientific decimal))
  | .int64 value => toString value

/-- The export formats a `float64` with `f`. -/
def stringify : GoNumber → String
  | .float64 negative magnitude => integerLiteral negative (shortestDigits magnitude)
  | .int64 value => toString value

/-- An `int64`, or a `float64` below a million that is no negative zero. -/
def GoNumber.Plain : GoNumber → Prop
  | .float64 negative magnitude => magnitude < 10 ^ 6 ∧ ¬(negative = true ∧ magnitude = 0)
  | .int64 _ => True

theorem integerLiteral_eq_iff (negative : Bool) (magnitude : Nat) :
    integerLiteral negative magnitude = toString (signedInteger negative magnitude) ↔
      ¬(negative = true ∧ magnitude = 0) := by
  rw [← String.toList_inj, integerLiteral, String.toList_ofList, positional, ← toList_toString]
  unfold signed signedInteger
  cases negative with
  | false =>
      simp only [Bool.false_eq_true, if_false, false_and, not_false_eq_true, iff_true]
      rfl
  | true =>
      simp only [if_true, true_and]
      cases magnitude with
      | zero =>
          constructor
          · intro same
            exact absurd same (by decide)
          · intro nonzero
            exact absurd rfl nonzero
      | succ number =>
          constructor
          · intro _same
            exact Nat.succ_ne_zero number
          · intro _nonzero
            exact (toList_toString_neg number).symm

private theorem mem_signed {c : Char} {text : List Char} (negative : Bool) (member : c ∈ text) :
    c ∈ signed negative text := by
  cases negative with
  | false => exact member
  | true => exact List.mem_cons_of_mem _ member

private theorem shortestDigits_of_small {negative : Bool} {magnitude : Nat}
    (small : (signedInteger negative magnitude).natAbs < 2 ^ significandBits) :
    shortestDigits magnitude = magnitude := by
  have bound : magnitude < 2 ^ significandBits := by
    unfold signedInteger at small
    cases negative with
    | false => exact small
    | true =>
        rw [if_pos rfl, Int.natAbs_neg] at small
        exact small
  exact ShortestDecimal.shortest_of_lt significandBits_pos bound

theorem plain_iff {number : GoNumber} (small : number.value.natAbs < 2 ^ significandBits) :
    number.sprint = toString number.value ∧ stringify number = toString number.value ↔
      number.Plain := by
  cases number with
  | int64 value => exact ⟨fun _both => trivial, fun _plain => ⟨rfl, rfl⟩⟩
  | float64 negative magnitude =>
      have own := shortestDigits_of_small small
      unfold GoNumber.sprint stringify GoNumber.value GoNumber.Plain
      simp only
      rw [own]
      by_cases short : magnitude < 10 ^ 6
      · rw [if_pos short]
        constructor
        · intro both
          exact ⟨short, (integerLiteral_eq_iff negative magnitude).mp both.2⟩
        · intro plain
          have literal := (integerLiteral_eq_iff negative magnitude).mpr plain.2
          exact ⟨literal, literal⟩
      · rw [if_neg short]
        constructor
        · intro both
          have mark : 'e' ∈ (toString (signedInteger negative magnitude)).toList := by
            rw [← both.1, String.toList_ofList]
            exact mem_signed negative (scientific_mark magnitude)
          exact absurd mark (not_mem_toString rfl (by decide) _)
        · intro plain
          exact absurd plain.1 short

variable {env : RenderEnv} {ctx : Context}

inductive Refers (env : RenderEnv) (ctx : Context) (value : Value) : Value → Prop
  | row {fields : Data} {field : String} (reference : fields.lookup "$from" = some (.text field))
      (held : ctx.row.lookup field = some value) : Refers env ctx value (.object fields)
  | response {fields : Data} {step : String}
      (noField : ∀ field, fields.lookup "$from" ≠ some (.text field))
      (noLiteral : ∀ text, fields.lookup "$literal" ≠ some (.text text))
      (reference : fields.lookup "$fromResponse" = some (.text step))
      (resolved : ctx.resolveResponsePath env step (referencePath fields) = .ok value) :
      Refers env ctx value (.object fields)

theorem Refers.resolved {value expr : Value} (refers : Refers env ctx value expr)
    (present : value ≠ .null) :
    resolveValueExpr env ctx expr = .ok (some (coerceToString env value)) := by
  cases refers with
  | row reference held =>
      unfold resolveValueExpr
      simp only [reference, held]
  | response noField noLiteral reference resolved =>
      unfold resolveValueExpr
      simp only [reference, resolved]

theorem Refers.isObject {value expr : Value} (refers : Refers env ctx value expr) :
    ∃ fields, expr = .object fields := by
  cases refers with
  | row => exact ⟨_, rfl⟩
  | response => exact ⟨_, rfl⟩

inductive Place
  | path
  | query
  | repeatedQuery
  | header
deriving DecidableEq, Repr

def Place.Renders (env : RenderEnv) (ctx : Context) (expr : Value) (text : String) : Place → Prop
  | .path => ∀ url key rest, substitutePathParams env ctx url ((key, expr) :: rest) =
      substitutePathParams env ctx (url.replace ("\x7b" ++ key ++ "\x7d") text) rest
  | .query => ∀ key, queryParam env ctx key expr = .ok [.set key text]
  | .repeatedQuery => ∀ key rest later, queryItems env ctx key rest = .ok later →
      queryItems env ctx key (expr :: rest) = .ok (.add key text :: later)
  | .header => ∀ key rest later, renderHeaders env ctx rest = .ok later →
      renderHeaders env ctx ((key, expr) :: rest) = .ok ((key, text) :: later)

def Place.escape : Place → String → String
  | .path => pathEscape
  | _ => id

theorem renders_iff {expr : Value} {own text : String} (place : Place)
    (object : ∃ fields, expr = .object fields)
    (resolved : resolveValueExpr env ctx expr = .ok (some own)) :
    place.Renders env ctx expr text ↔ text = place.escape own := by
  obtain ⟨fields, rfl⟩ := object
  cases place with
  | path =>
      unfold Place.Renders Place.escape
      constructor
      · intro renders
        have braces : "\x7b" ++ "k" ++ "\x7d" ≠ "" := by decide
        have single := renders ("\x7b" ++ "k" ++ "\x7d") "k" []
        simp only [substitutePathParams, resolved] at single
        rw [replace_self _ _ braces, replace_self _ _ braces] at single
        cases single
        rfl
      · intro same url key rest
        rw [same, substitutePathParams]
        simp only [resolved]
  | query =>
      unfold Place.Renders Place.escape
      simp only [queryParam, resolved]
      constructor
      · intro renders
        have single := renders "k"
        cases single
        rfl
      · intro same key
        rw [same]
        rfl
  | repeatedQuery =>
      unfold Place.Renders Place.escape
      simp only [queryItems, resolved]
      constructor
      · intro renders
        have single := renders "k" [] [] rfl
        cases single
        rfl
      · intro same key rest later passed
        rw [same, passed]
        rfl
  | header =>
      unfold Place.Renders Place.escape
      simp only [renderHeaders, resolved]
      constructor
      · intro renders
        have single := renders "k" [] [] rfl
        cases single
        rfl
      · intro same key rest later passed
        rw [same, passed]
        rfl

private theorem unescaped_of_toString {c : Char} {value : Int}
    (member : c ∈ (toString value).toList) :
    Unescaped c := by
  by_cases digit : c.isDigit = true
  · apply unescaped_of_continues
    change (isNameStart c || c.isDigit) = true
    rw [digit, Bool.or_true]
  · by_cases dash : c = '-'
    · rw [dash]
      exact ⟨by decide, by decide⟩
    · exact absurd member (not_mem_toString (Bool.eq_false_of_not_eq_true digit) dash value)

theorem escape_eq_iff (place : Place) {own : String} {value : Int} :
    toString value = place.escape own ↔ own = toString value := by
  have decimal : pathEscape (toString value) = toString value :=
    String.toList_inj.mp (pathEscape_of_unescaped (fun _c member => unescaped_of_toString member))
  cases place with
  | path =>
      change toString value = pathEscape own ↔ own = toString value
      constructor
      · intro same
        have free : '%' ∉ (pathEscape own).toList := by
          rw [← same]
          exact not_mem_toString rfl (by decide) value
        have kept := pathEscape_of_unescaped (unescaped_of_percent free)
        rw [← same] at kept
        exact (String.toList_inj.mp kept).symm
      · intro same
        rw [same, decimal]
  | query => exact ⟨Eq.symm, Eq.symm⟩
  | repeatedQuery => exact ⟨Eq.symm, Eq.symm⟩
  | header => exact ⟨Eq.symm, Eq.symm⟩

/-- `held` is how numbers of both types stand in values; `fmt.Sprint` prints each as
its type is printed. -/
structure Numbers (env : RenderEnv) (held : GoNumber → Value) : Prop where
  isNumber : ∀ number, ∃ text, held number = .number text
  sprint : ∀ number, env.sprint (held number) = number.sprint

theorem Numbers.coerced {held : GoNumber → Value} (numbers : Numbers env held) (number : GoNumber) :
    held number ≠ .null ∧ coerceToString env (held number) = number.sprint := by
  obtain ⟨text, same⟩ := numbers.isNumber number
  have printed := numbers.sprint number
  rw [same] at printed ⊢
  exact ⟨Value.noConfusion, printed⟩

/-- An integer of fewer than 54 bits that an expression refers to is, wherever it
becomes a text of the request, its plain decimal and the text of the export exactly
when it is plain. -/
theorem number_text_iff {held : GoNumber → Value} {expr : Value} {number : GoNumber} (place : Place)
    (numbers : Numbers env held) (refers : Refers env ctx (held number) expr)
    (small : number.value.natAbs < 2 ^ significandBits) :
    place.Renders env ctx expr (toString number.value) ∧ stringify number = toString number.value ↔
      number.Plain := by
  obtain ⟨present, coerced⟩ := numbers.coerced number
  have resolved := refers.resolved present
  rw [coerced] at resolved
  rw [renders_iff place refers.isObject resolved, escape_eq_iff place]
  exact plain_iff small

/-! ### Identifiers -/

def printed (number : GoNumber) : Value := .number number.sprint

def printedText : Value → String
  | .number text => text
  | _ => ""

def printingEnv : RenderEnv :=
  { fraction := fun _ => none
    parseJSONPath := fun _ => .error "no path"
    parseBody := fun _ => none
    sprint := printedText
    parseURL := .ok
    withQuery := fun url _ => url }

theorem printingNumbers : Numbers printingEnv printed where
  isNumber number := ⟨number.sprint, rfl⟩
  sprint _ := rfl

def idReference : Value := .object [("$from", .text "id")]

def idContext (number : GoNumber) : Context := { row := [("id", printed number)], responses := [] }

theorem idRefers (number : GoNumber) :
    Refers printingEnv (idContext number) (printed number) idReference := .row rfl rfl

theorem small_id_plain :
    Place.path.Renders printingEnv (idContext (.float64 false 42)) idReference "42" ∧
      stringify (.float64 false 42) = "42" :=
  (number_text_iff .path printingNumbers (idRefers (.float64 false 42)) (by decide)).mpr
    ⟨by decide, by decide⟩

theorem million_not_plain :
    stringify (.float64 false 1000000) = "1000000" ∧
      ¬Place.path.Renders printingEnv (idContext (.float64 false 1000000)) idReference "1000000" := by
  obtain ⟨present, coerced⟩ := printingNumbers.coerced (.float64 false 1000000)
  have resolved := (idRefers (.float64 false 1000000)).resolved present
  rw [coerced] at resolved
  constructor
  · decide +kernel
  · intro renders
    have million : "1000000" = toString (1000000 : Int) := rfl
    have escaped := (renders_iff .path ⟨_, rfl⟩ resolved).mp renders
    rw [million] at escaped
    have same := (escape_eq_iff .path).mp escaped
    exact absurd same (by decide +kernel)

end MigrationPlatform.Template
