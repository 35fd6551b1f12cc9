/-
The incremental cursor in the query of a Salesforce source.

The connector appends a condition to the text of the query. What a query is, is
documented by the service: clauses in a fixed order, keywords in any letter case, and
conditions in which AND, OR and NOT are not mixed without parentheses. What a single
comparison means, and which fields, objects and literals there are, is left open.
-/

import MigrationPlatform.Connectors.Salesforce
import MigrationPlatform.Foundation.ClauseText

namespace MigrationPlatform.Connectors

open ClauseText

inductive SoqlClause
  | selectFields
  | fromObjects
  | usingScope
  | whereFilter
  | withFilter
  | groupBy
  | having
  | orderBy
  | limit
  | offset
  | allRows
  | forView
  | updateTracking
deriving DecidableEq, Repr

def SoqlClause.rank : SoqlClause → Nat
  | .selectFields => 0
  | .fromObjects => 1
  | .usingScope => 2
  | .whereFilter => 3
  | .withFilter => 4
  | .groupBy => 5
  | .having => 6
  | .orderBy => 7
  | .limit => 8
  | .offset => 9
  | .allRows => 10
  | .forView => 11
  | .updateTracking => 12

def isWord (keyword : String) : Part → Bool
  | .word text => decide (text.map Char.toLower = keyword.toList)
  | _ => false

def isSecond (part : Part) : Bool :=
  isWord "scope" part || isWord "by" part || isWord "rows" part

/-- `Group` and `Order` are also names of objects. -/
def soqlHeader (part : Part) (next : Option Part) : Option SoqlClause :=
  if isWord "select" part = true then some .selectFields
  else if isWord "from" part = true then some .fromObjects
  else if isWord "using" part = true ∧ next.any (isWord "scope") = true then some .usingScope
  else if isWord "where" part = true then some .whereFilter
  else if isWord "with" part = true then some .withFilter
  else if isWord "group" part = true ∧ next.any (isWord "by") = true then some .groupBy
  else if isWord "having" part = true then some .having
  else if isWord "order" part = true ∧ next.any (isWord "by") = true then some .orderBy
  else if isWord "limit" part = true then some .limit
  else if isWord "offset" part = true then some .offset
  else if isWord "all" part = true ∧ next.any (isWord "rows") = true then some .allRows
  else if isWord "for" part = true then some .forView
  else if isWord "update" part = true then some .updateTracking
  else none

inductive Connective
  | conj
  | disj
deriving DecidableEq, Repr

def soqlConnective (part : Part) (_next : Option Part) : Option Connective :=
  if isWord "and" part = true then some .conj
  else if isWord "or" part = true then some .disj
  else none

/-- What is left to the service: the meaning of a comparison or of a condition in
parentheses, `none` where it is none, and which other clauses are well formed. -/
structure Dialect (Record : Type) where
  operand : List Part → Option (Record → Bool)
  body : SoqlClause → List Part → Bool

structure SoqlQuery (Record : Type) where
  clauses : List (SoqlClause × List Part)
  filter : Record → Bool

section Soql

variable {Record : Type} (d : Dialect Record)

def startsWithNot (parts : List Part) : Bool := parts.head?.any (isWord "not")

def Dialect.term (parts : List Part) : Option (Record → Bool) :=
  if startsWithNot parts = true then none else d.operand parts

def Dialect.all : List (List Part) → Option (Record → Bool)
  | [] => some (fun _ => true)
  | first :: rest =>
      (d.term first).bind (fun g => (all rest).map (fun h record => g record && h record))

def Dialect.any : List (List Part) → Option (Record → Bool)
  | [] => some (fun _ => false)
  | first :: rest =>
      (d.term first).bind (fun g => (any rest).map (fun h record => g record || h record))

/-- Operands that are joined by one connective, or one operand that may be negated. -/
def Dialect.condition (parts : List Part) : Option (Record → Bool) :=
  let (first, others) := clausesOf soqlConnective parts
  if others.isEmpty = true ∧ startsWithNot first = true then
    (d.operand first.tail).map (fun g record => !g record)
  else if others.all (fun other => decide (other.1 = .conj)) = true then
    d.all (first :: others.map Prod.snd)
  else if others.all (fun other => decide (other.1 = .disj)) = true then
    d.any (first :: others.map Prod.snd)
  else none

def Dialect.filter (clauses : List (SoqlClause × List Part)) : Option (Record → Bool) :=
  match clauses.find? (fun clause => decide (clause.1 = .whereFilter)) with
  | none => some (fun _ => true)
  | some clause => d.condition clause.2

/-- Each clause at most once and in its place; HAVING needs groups. -/
def wellOrdered (clauses : List SoqlClause) : Bool :=
  decide ((clauses.map SoqlClause.rank).Pairwise (· < ·)) &&
    decide (clauses.take 2 = [.selectFields, .fromObjects]) &&
    (!decide (.having ∈ clauses) || decide (.groupBy ∈ clauses))

def Dialect.wellFormed (clauses : List (SoqlClause × List Part)) : Bool :=
  wellOrdered (clauses.map Prod.fst) &&
    clauses.all (fun clause => decide (clause.1 = .whereFilter) || d.body clause.1 clause.2)

def parseSoql (text : String) : Option (SoqlQuery Record) :=
  (read text.toList).bind (fun parts =>
    let (before, clauses) := clausesOf soqlHeader parts
    if before.isEmpty = true ∧ d.wellFormed clauses = true then
      (d.filter clauses).map (fun filter => { clauses := clauses, filter := filter })
    else none)

def SoqlQuery.others (q : SoqlQuery Record) : List (SoqlClause × List Part) :=
  q.clauses.filter (fun clause => decide (clause.1 ≠ .whereFilter))

def isReserved (part : Part) : Bool :=
  ["select", "from", "where", "with", "having", "limit", "offset", "for", "update", "and", "or",
    "not"].any (fun keyword => isWord keyword part)

/-- The field and the value of a configured cursor, which can be compared. -/
structure CursorTerm (cfg : SfConfig) where
  field : List Char
  value : Part
  fieldRead : read cfg.cursorField.toList = some [.word field]
  valueRead : read cfg.cursor.toList = some [value]
  fieldName : isReserved (.word field) = false
  valueTerm : isReserved value = false
  holds : Record → Bool
  compares : d.operand [.word field, .symbol ['>', '='], value] = some holds

/-- The text is a query like the original one, whose filter also asks for the cursor. -/
def Narrows (original : SoqlQuery Record) (holds : Record → Bool) (sent : String) : Prop :=
  ∃ q, parseSoql d sent = some q ∧ q.others = original.others ∧
    ∀ record, q.filter record = (original.filter record && holds record)

def Conjunctive (parts : List Part) : Prop :=
  (∀ other ∈ (clausesOf soqlConnective parts).2, other.1 = .conj) ∧
    startsWithNot (clausesOf soqlConnective parts).1 = false

instance (parts : List Part) : Decidable (Conjunctive parts) :=
  inferInstanceAs (Decidable ((∀ other ∈ (clausesOf soqlConnective parts).2, other.1 = .conj) ∧ _))

/-- The filter is the last clause, has no OR and no NOT outside of parentheses, and the
text has WHERE in capitals somewhere; or no clause of the query has its place behind
FROM and USING SCOPE, and the text has WHERE nowhere. -/
def Appendable (text : String) (q : SoqlQuery Record) : Prop :=
  ("WHERE".toList <:+: text.toList ∧ ∃ front body, q.clauses = front ++ [(.whereFilter, body)] ∧
      Conjunctive body) ∨
    (¬"WHERE".toList <:+: text.toList ∧
      ∀ clause ∈ q.clauses, clause.1.rank < SoqlClause.whereFilter.rank)

end Soql

theorem isWord_of_notReserved {part : Part} (free : isReserved part = false) {keyword : String}
    (listed : keyword ∈ ["select", "from", "where", "with", "having", "limit", "offset", "for",
      "update", "and", "or", "not"]) : isWord keyword part = false := by
  cases found : isWord keyword part with
  | false => rfl
  | true =>
      have reserved : isReserved part = true := List.any_eq_true.mpr ⟨keyword, listed, found⟩
      rw [free] at reserved
      cases reserved

theorem soqlHeader_of_notReserved {part : Part} (free : isReserved part = false)
    {next : Option Part} (alone : next.any isSecond = false) : soqlHeader part next = none := by
  have no : ∀ keyword ∈ ["select", "from", "where", "with", "having", "limit", "offset", "for",
      "update", "and", "or", "not"], isWord keyword part = false :=
    fun keyword listed => isWord_of_notReserved free listed
  have second : ∀ keyword ∈ ["scope", "by", "rows"], next.any (isWord keyword) = false := by
    intro keyword listed
    cases next with
    | none => rfl
    | some following =>
        simp only [Option.any_some, isSecond, Bool.or_eq_false_iff] at alone ⊢
        simp only [List.mem_cons, List.not_mem_nil, or_false] at listed
        rcases listed with rfl | rfl | rfl
        · exact alone.1.1
        · exact alone.1.2
        · exact alone.2
  unfold soqlHeader
  simp [no, second]

private theorem soqlHeader_next (part : Part) {next : Part} (alone : isSecond next = false) :
    soqlHeader part (some next) = soqlHeader part none := by
  simp only [isSecond, Bool.or_eq_false_iff] at alone
  unfold soqlHeader
  simp only [Option.any_some, Option.any_none, alone.1.1, alone.1.2, alone.2]

theorem soqlConnective_of_notReserved {part : Part} (free : isReserved part = false)
    (next : Option Part) : soqlConnective part next = none := by
  have conj : isWord "and" part = false := isWord_of_notReserved free (by simp)
  have disj : isWord "or" part = false := isWord_of_notReserved free (by simp)
  unfold soqlConnective
  rw [conj, disj]
  rfl

variable {parts : List Part}

private theorem closed_header {next : Part} {rest : List Part}
    (alone : isSecond next = false) : Closed soqlHeader parts (next :: rest) :=
  fun last _member => soqlHeader_next last alone

private theorem closed_connective (parts extra : List Part) : Closed soqlConnective parts extra :=
  fun _last _member => rfl

section Sent

variable {Record : Type} {d : Dialect Record} {cfg : SfConfig}

def CursorTerm.comparison (term : CursorTerm d cfg) : List Part :=
  [.word term.field, .symbol ['>', '='], term.value]

theorem CursorTerm.header_comparison (term : CursorTerm d cfg) :
    clausesOf soqlHeader term.comparison = (term.comparison, []) := by
  have field : soqlHeader (.word term.field) (some (.symbol ['>', '='])) = none :=
    soqlHeader_of_notReserved term.fieldName rfl
  have value : soqlHeader term.value none = none := soqlHeader_of_notReserved term.valueTerm rfl
  have symbol : soqlHeader (.symbol ['>', '=']) (some term.value) = none := rfl
  unfold CursorTerm.comparison
  simp only [clausesOf, List.head?_cons, List.head?_nil, field, symbol, value]

theorem CursorTerm.connective_comparison (term : CursorTerm d cfg) :
    clausesOf soqlConnective term.comparison = (term.comparison, []) := by
  have field := soqlConnective_of_notReserved term.fieldName
  have value := soqlConnective_of_notReserved term.valueTerm
  have symbol : ∀ next, soqlConnective (.symbol ['>', '=']) next = none := fun _next => rfl
  unfold CursorTerm.comparison
  simp only [clausesOf, field, symbol, value]

theorem CursorTerm.startsWithNot_comparison (term : CursorTerm d cfg) :
    startsWithNot term.comparison = false :=
  isWord_of_notReserved term.fieldName (by simp)

theorem CursorTerm.term_comparison (term : CursorTerm d cfg) :
    d.term term.comparison = some term.holds := by
  unfold Dialect.term
  rw [term.startsWithNot_comparison, if_neg Bool.false_ne_true]
  exact term.compares

def SfConfig.suffix (cfg : SfConfig) (keyword : String) : List Char :=
  keyword.toList ++ ' ' ::
    (cfg.cursorField.toList ++ ' ' :: (">=".toList ++ ' ' :: cfg.cursor.toList))

theorem CursorTerm.read_suffix (term : CursorTerm d cfg) {keyword : String}
    (single : read keyword.toList = some [.word keyword.toList]) :
    read (cfg.suffix keyword) = some (.word keyword.toList :: term.comparison) := by
  have operator : read ">=".toList = some [.symbol ['>', '=']] := rfl
  unfold SfConfig.suffix
  rw [read_append_space single, read_append_space term.fieldRead, read_append_space operator,
    term.valueRead]
  rfl

theorem CursorTerm.query_eq (term : CursorTerm d cfg) :
    cfg.query.toList = cfg.soql.toList ++
      ' ' :: cfg.suffix (if "WHERE".toList <:+: cfg.soql.toList then "AND" else "WHERE") := by
  have field : cfg.cursorField ≠ "" := by
    intro empty
    have unread := term.fieldRead
    rw [empty] at unread
    cases unread
  have cursor : cfg.cursor ≠ "" := by
    intro empty
    have unread := term.valueRead
    rw [empty] at unread
    cases unread
  unfold SfConfig.query
  rw [if_pos ⟨field, cursor⟩]
  by_cases filtered : "WHERE".toList <:+: cfg.soql.toList
  · rw [if_pos filtered, if_pos filtered]
    simp [SfConfig.suffix, String.toList_append]
  · rw [if_neg filtered, if_neg filtered]
    simp [SfConfig.suffix, String.toList_append]

private theorem created_eq_query {service : SfService} {offset : Offset} {soql : String}
    (created : .create soql ∈ (sfOpen cfg service offset).2) : soql = cfg.query := by
  unfold sfOpen at created
  split at created
  · cases created
  split at created
  · cases created
  split at created
  · simp at created
  split at created
  · split at created
    · simp at created
    · split at created
      · simpa using created
      · simpa using created
  · simp at created

/-! ### The condition behind AND -/

theorem Dialect.all_append (d : Dialect Record) (parts : List (List Part)) (last : List Part) :
    d.all (parts ++ [last]) =
      (d.all parts).bind (fun g => (d.term last).map (fun h record => g record && h record)) := by
  induction parts with
  | nil =>
      cases found : d.term last with
      | none => simp [Dialect.all, found]
      | some h => simp [Dialect.all, found]
  | cons first rest ih =>
      rw [List.cons_append, Dialect.all, Dialect.all, ih]
      cases d.term first with
      | none => rfl
      | some g =>
          cases d.all rest with
          | none => rfl
          | some h =>
              cases d.term last with
              | none => rfl
              | some k => simp [Bool.and_assoc]

theorem CursorTerm.connectives_extended (term : CursorTerm d cfg) (body : List Part) :
    clausesOf soqlConnective (body ++ .word "AND".toList :: term.comparison) =
      ((clausesOf soqlConnective body).1,
        (clausesOf soqlConnective body).2 ++ [(.conj, term.comparison)]) := by
  have added : clausesOf soqlConnective (.word "AND".toList :: term.comparison) =
      ([], [(.conj, term.comparison)]) := by
    have conj : ∀ next, soqlConnective (.word "AND".toList) next = some .conj := fun _next => rfl
    rw [clausesOf, term.connective_comparison, conj]
  rw [clausesOf_append soqlConnective (closed_connective _ _), added]
  by_cases single : (clausesOf soqlConnective body).2 = []
  · rw [if_pos single, single, List.append_nil]
    rfl
  · rw [if_neg single, extend_nil]

theorem CursorTerm.condition_extended (term : CursorTerm d cfg) {body : List Part}
    (conjunctive : Conjunctive body) :
    d.condition (body ++ .word "AND".toList :: term.comparison) =
      (d.condition body).map (fun filter record => filter record && term.holds record) := by
  obtain ⟨joined, positive⟩ := conjunctive
  have whole : ∀ others : List (Connective × List Part), (∀ other ∈ others, other.1 = .conj) →
      others.all (fun other => decide (other.1 = .conj)) = true := by
    intro others all
    exact List.all_eq_true.mpr (fun other member => decide_eq_true (all other member))
  have extended : ∀ other ∈ (clausesOf soqlConnective body).2 ++ [(.conj, term.comparison)],
      other.1 = .conj := by
    intro other member
    rcases List.mem_append.mp member with old | new
    · exact joined other old
    · rw [List.mem_singleton.mp new]
  unfold Dialect.condition
  rw [term.connectives_extended]
  dsimp only
  rw [positive, if_neg (fun both => Bool.false_ne_true both.2), if_pos (whole _ extended),
    if_neg (fun both => Bool.false_ne_true both.2), if_pos (whole _ joined), List.map_append,
    ← List.cons_append]
  change d.all (_ ++ [term.comparison]) = _
  rw [Dialect.all_append, term.term_comparison]
  cases d.all (_ :: (clausesOf soqlConnective body).2.map Prod.snd) with
  | none => rfl
  | some filter => rfl

theorem CursorTerm.condition_refused (term : CursorTerm d cfg) {body : List Part}
    (mixed : ¬Conjunctive body) :
    d.condition (body ++ .word "AND".toList :: term.comparison) = none := by
  have several : ((clausesOf soqlConnective body).2 ++
      [(Connective.conj, term.comparison)]).isEmpty = false := by simp
  have notDisjunctive : ((clausesOf soqlConnective body).2 ++
      [(Connective.conj, term.comparison)]).all (fun other => decide (other.1 = .disj)) = false := by
    simp
  unfold Dialect.condition
  rw [term.connectives_extended]
  dsimp only
  rw [if_neg (fun both => Bool.false_ne_true (several.symm.trans both.1))]
  by_cases joined : ∀ other ∈ (clausesOf soqlConnective body).2, other.1 = .conj
  · -- A negation stands alone before the AND.
    have negated : startsWithNot (clausesOf soqlConnective body).1 = true := by
      cases found : startsWithNot (clausesOf soqlConnective body).1 with
      | true => rfl
      | false => exact absurd ⟨joined, found⟩ mixed
    have noOperand : d.term (clausesOf soqlConnective body).1 = none := by
      unfold Dialect.term
      rw [if_pos negated]
    rw [notDisjunctive, if_neg Bool.false_ne_true, Dialect.all, noOperand]
    exact ite_self none
  · have notConjunctive : ((clausesOf soqlConnective body).2 ++
        [(Connective.conj, term.comparison)]).all (fun other => decide (other.1 = .conj)) = false := by
      rw [List.all_eq_false]
      push Not at joined
      obtain ⟨other, member, different⟩ := joined
      exact ⟨other, List.mem_append_left _ member, by simpa using different⟩
    rw [notConjunctive, notDisjunctive, if_neg Bool.false_ne_true, if_neg Bool.false_ne_true]

theorem not_where_of_rank {clause : SoqlClause}
    (before : clause.rank < SoqlClause.whereFilter.rank) : clause ≠ .whereFilter := by
  intro same
  rw [same] at before
  exact absurd before (Nat.lt_irrefl _)

theorem filter_last (d : Dialect Record) {front : List (SoqlClause × List Part)}
    (unfiltered : ∀ clause ∈ front, clause.1 ≠ .whereFilter) (body : List Part) :
    d.filter (front ++ [(.whereFilter, body)]) = d.condition body := by
  have none_ : front.find? (fun clause => decide (clause.1 = .whereFilter)) = none :=
    List.find?_eq_none.mpr (fun clause member found =>
      unfiltered clause member (of_decide_eq_true found))
  unfold Dialect.filter
  rw [List.find?_append, none_]
  rfl

private theorem filter_none (d : Dialect Record) {clauses : List (SoqlClause × List Part)}
    (unfiltered : ∀ clause ∈ clauses, clause.1 ≠ .whereFilter) :
    d.filter clauses = some (fun _ => true) := by
  have none_ : clauses.find? (fun clause => decide (clause.1 = .whereFilter)) = none :=
    List.find?_eq_none.mpr (fun clause member found =>
      unfiltered clause member (of_decide_eq_true found))
  unfold Dialect.filter
  rw [none_]

private theorem ranks_of_wellOrdered {clauses : List SoqlClause}
    (ordered : wellOrdered clauses = true) :
    (clauses.map SoqlClause.rank).Pairwise (· < ·) := by
  unfold wellOrdered at ordered
  simp only [Bool.and_eq_true, decide_eq_true_eq] at ordered
  exact ordered.1.1

theorem rank_mem {clauses : List (SoqlClause × List Part)} {clause : SoqlClause × List Part}
    (member : clause ∈ clauses) : clause.1.rank ∈ (clauses.map Prod.fst).map SoqlClause.rank :=
  List.mem_map_of_mem (List.mem_map_of_mem member)

theorem unfiltered_of_wellOrdered {front : List (SoqlClause × List Part)} {body : List Part}
    (ordered : wellOrdered ((front ++ [(SoqlClause.whereFilter, body)]).map Prod.fst) = true) :
    ∀ clause ∈ front, clause.1 ≠ .whereFilter := by
  have ranks := ranks_of_wellOrdered ordered
  rw [List.map_append, List.map_append, List.pairwise_append] at ranks
  intro clause member
  exact not_where_of_rank (ranks.2.2 _ (rank_mem member) _ (List.mem_singleton.mpr rfl))

theorem wellFormed_filtered (d : Dialect Record) {clauses : List (SoqlClause × List Part)}
    (well : d.wellFormed clauses = true) (body : List Part) :
    d.wellFormed (clauses ++ [(.whereFilter, body)]) = true ↔
      ∀ clause ∈ clauses, clause.1.rank < SoqlClause.whereFilter.rank := by
  unfold Dialect.wellFormed wellOrdered at well ⊢
  simp only [Bool.and_eq_true, Bool.or_eq_true, Bool.not_eq_true', decide_eq_true_eq,
    decide_eq_false_iff_not] at well ⊢
  obtain ⟨⟨⟨ranks, start⟩, groups⟩, bodies⟩ := well
  have long : 2 ≤ (clauses.map Prod.fst).length := by
    have both := congrArg List.length start
    rw [List.length_take] at both
    simp only [List.length_cons, List.length_nil] at both
    omega
  rw [List.map_append, List.map_append, List.pairwise_append, List.take_append_of_le_length long,
    List.all_append]
  constructor
  · intro both clause member
    exact both.1.1.1.2.2 _ (rank_mem member) _ (List.mem_singleton.mpr rfl)
  · intro early
    refine ⟨⟨⟨⟨ranks, List.pairwise_singleton _ _, ?_⟩, start⟩, ?_⟩, ?_⟩
    · intro rank member other last
      rw [List.mem_singleton.mp last]
      obtain ⟨clause, listed, named⟩ := List.mem_map.mp member
      obtain ⟨whole, within, same⟩ := List.mem_map.mp listed
      rw [← named, ← same]
      exact early whole within
    · rcases groups with none_ | grouped
      · exact .inl (by simpa using none_)
      · exact .inr (List.mem_append_left _ grouped)
    · rw [bodies]
      rfl

private theorem wellFormed_extended (d : Dialect Record) (front : List (SoqlClause × List Part))
    (body more : List Part) :
    d.wellFormed (front ++ [(SoqlClause.whereFilter, body ++ more)]) =
      d.wellFormed (front ++ [(SoqlClause.whereFilter, body)]) := by
  unfold Dialect.wellFormed
  rw [List.map_append, List.map_append, List.all_append, List.all_append]
  rfl

/-- The clauses that a text has, and that it is a query with them. -/
structure SoqlReading (d : Dialect Record) (parts : List Part) (q : SoqlQuery Record) : Prop where
  clauses : clausesOf soqlHeader parts = ([], q.clauses)
  well : d.wellFormed q.clauses = true
  filter : d.filter q.clauses = some q.filter

theorem parseSoql_iff (d : Dialect Record) {text : String}
    (whole : read text.toList = some parts) (q : SoqlQuery Record) :
    parseSoql d text = some q ↔ SoqlReading d parts q := by
  unfold parseSoql
  rw [whole, Option.bind_some]
  dsimp only
  constructor
  · intro parsed
    split at parsed
    · rename_i shape
      obtain ⟨filter, filtered, same⟩ := Option.map_eq_some_iff.mp parsed
      cases same
      have before : (clausesOf soqlHeader parts).1 = [] := List.isEmpty_iff.mp shape.1
      exact ⟨Prod.ext before rfl, shape.2, filtered⟩
    · cases parsed
  · intro reading
    rw [reading.clauses]
    dsimp only
    rw [if_pos ⟨rfl, reading.well⟩, reading.filter]
    rfl

private theorem exists_reading {text : String} {q : SoqlQuery Record}
    (parsed : parseSoql d text = some q) :
    ∃ parts, read text.toList = some parts ∧ SoqlReading d parts q := by
  obtain ⟨parts, whole, _read⟩ := Option.bind_eq_some_iff.mp parsed
  exact ⟨parts, whole, (parseSoql_iff d whole q).mp parsed⟩

theorem SoqlReading.ordered {q : SoqlQuery Record}
    (reading : SoqlReading d parts q) : wellOrdered (q.clauses.map Prod.fst) = true := by
  have well := reading.well
  unfold Dialect.wellFormed at well
  exact (Bool.and_eq_true_iff.mp well).1

theorem SoqlReading.clauses_ne_nil {q : SoqlQuery Record}
    (reading : SoqlReading d parts q) : q.clauses ≠ [] := by
  intro empty
  have ordered := reading.ordered
  rw [empty] at ordered
  cases ordered

theorem SoqlReading.extended {q : SoqlQuery Record}
    (reading : SoqlReading d parts q) {next : Part} {rest : List Part} (alone : isSecond next = false) :
    clausesOf soqlHeader (parts ++ next :: rest) =
      ([], extend (clausesOf soqlHeader (next :: rest)).1 q.clauses ++
        (clausesOf soqlHeader (next :: rest)).2) := by
  rw [clausesOf_append soqlHeader (closed_header alone), reading.clauses,
    if_neg reading.clauses_ne_nil]

/-! ### The two ways to append -/

theorem narrows_iff {sent : String} (whole : read sent.toList = some parts)
    (original : SoqlQuery Record) (holds : Record → Bool) :
    Narrows d original holds sent ↔ ∃ q, SoqlReading d parts q ∧ q.others = original.others ∧
      ∀ record, q.filter record = (original.filter record && holds record) := by
  unfold Narrows
  simp only [parseSoql_iff d whole]

private theorem CursorTerm.header_and (term : CursorTerm d cfg) :
    clausesOf soqlHeader (.word "AND".toList :: term.comparison) =
      (.word "AND".toList :: term.comparison, []) := by
  have conj : ∀ next, soqlHeader (.word "AND".toList) next = none := fun _next => rfl
  rw [clausesOf, term.header_comparison, conj]

private theorem CursorTerm.header_where (term : CursorTerm d cfg) :
    clausesOf soqlHeader (.word "WHERE".toList :: term.comparison) =
      ([], [(.whereFilter, term.comparison)]) := by
  have filters : ∀ next, soqlHeader (.word "WHERE".toList) next = some .whereFilter :=
    fun _next => rfl
  rw [clausesOf, term.header_comparison, filters]

private theorem CursorTerm.condition_comparison (term : CursorTerm d cfg) :
    d.condition term.comparison = some term.holds := by
  unfold Dialect.condition
  rw [term.connective_comparison]
  dsimp only
  rw [term.startsWithNot_comparison, if_neg (fun both => Bool.false_ne_true both.2),
    if_pos List.all_nil]
  change d.all [term.comparison] = some term.holds
  rw [Dialect.all, Dialect.all, term.term_comparison]
  simp

theorem others_append (q : SoqlQuery Record) {front : List (SoqlClause × List Part)}
    {body : List Part} (shape : q.clauses = front ++ [(.whereFilter, body)]) :
    q.others = front.filter (fun clause => decide (clause.1 ≠ .whereFilter)) := by
  unfold SoqlQuery.others
  rw [shape, List.filter_append]
  exact List.append_nil _

theorem CursorTerm.narrows_and_iff (term : CursorTerm d cfg) {original : SoqlQuery Record}
    (reading : SoqlReading d parts original) {sent : String}
    (whole : read sent.toList = some (parts ++ .word "AND".toList :: term.comparison)) :
    Narrows d original term.holds sent ↔
      ∃ front body, original.clauses = front ++ [(.whereFilter, body)] ∧ Conjunctive body := by
  rw [narrows_iff whole]
  have alone : isSecond (.word "AND".toList) = false := rfl
  have clauses : clausesOf soqlHeader (parts ++ .word "AND".toList :: term.comparison) = _ :=
    reading.extended alone
  rw [term.header_and, List.append_nil] at clauses
  constructor
  · rintro ⟨q, sentReading, others, _filter⟩
    have sentClauses := congrArg Prod.snd (sentReading.clauses.symm.trans clauses)
    rcases List.eq_nil_or_concat original.clauses with none_ | ⟨front, ⟨last, body⟩, shape⟩
    · exact absurd none_ reading.clauses_ne_nil
    rw [List.concat_eq_append] at shape
    rw [shape, extend_append] at sentClauses
    by_cases filtered : last = .whereFilter
    · subst filtered
      refine ⟨front, body, shape, ?_⟩
      by_contra mixed
      have ordered := reading.ordered
      rw [shape] at ordered
      have found := sentReading.filter
      dsimp only at sentClauses
      rw [sentClauses, filter_last d (unfiltered_of_wellOrdered ordered),
        term.condition_refused mixed] at found
      cases found
    · -- The comparison is in another clause, which is no longer the original one.
      unfold SoqlQuery.others at others
      dsimp only at sentClauses
      have kept : ∀ parts : List Part, [(last, parts)].filter (fun clause =>
          decide (clause.1 ≠ .whereFilter)) = [(last, parts)] := by
        intro parts
        exact List.filter_eq_self.mpr (fun clause member => by
          rw [List.mem_singleton.mp member]
          exact decide_eq_true filtered)
      rw [sentClauses, shape, List.filter_append, List.filter_append, kept, kept] at others
      have same := List.append_cancel_left others
      simp at same
  · rintro ⟨front, body, shape, conjunctive⟩
    have ordered := reading.ordered
    have well := reading.well
    have filtered := reading.filter
    rw [shape] at ordered well filtered
    rw [filter_last d (unfiltered_of_wellOrdered ordered)] at filtered
    refine ⟨{ clauses := front ++ [(.whereFilter, body ++ .word "AND".toList :: term.comparison)]
              filter := fun record => original.filter record && term.holds record }, ⟨?_, ?_, ?_⟩,
      ?_, fun _record => rfl⟩
    · rw [clauses, shape, extend_append]
    · exact (wellFormed_extended d front body _).trans well
    · rw [filter_last d (unfiltered_of_wellOrdered ordered), term.condition_extended conjunctive,
        filtered]
      rfl
    · rw [others_append original shape]
      exact others_append _ rfl

theorem CursorTerm.narrows_where_iff (term : CursorTerm d cfg) {original : SoqlQuery Record}
    (reading : SoqlReading d parts original) {sent : String}
    (whole : read sent.toList = some (parts ++ .word "WHERE".toList :: term.comparison)) :
    Narrows d original term.holds sent ↔
      ∀ clause ∈ original.clauses, clause.1.rank < SoqlClause.whereFilter.rank := by
  rw [narrows_iff whole]
  have alone : isSecond (.word "WHERE".toList) = false := rfl
  have clauses : clausesOf soqlHeader (parts ++ .word "WHERE".toList :: term.comparison) = _ :=
    reading.extended alone
  rw [term.header_where, extend_nil] at clauses
  constructor
  · rintro ⟨q, sentReading, _others, _filter⟩
    have sentClauses := congrArg Prod.snd (sentReading.clauses.symm.trans clauses)
    have well := sentReading.well
    dsimp only at sentClauses
    rw [sentClauses] at well
    exact (wellFormed_filtered d reading.well _).mp well
  · intro early
    have unfiltered : ∀ clause ∈ original.clauses, clause.1 ≠ .whereFilter :=
      fun clause member => not_where_of_rank (early clause member)
    have everything := reading.filter
    rw [filter_none d unfiltered] at everything
    refine ⟨{ clauses := original.clauses ++ [(.whereFilter, term.comparison)]
              filter := term.holds }, ⟨clauses, ?_, ?_⟩, ?_, ?_⟩
    · exact (wellFormed_filtered d reading.well _).mpr early
    · rw [filter_last d unfiltered, term.condition_comparison]
    · rw [others_append _ rfl]
      rfl
    · intro record
      rw [← Option.some.inj everything, Bool.true_and]

theorem open_narrows_iff {original : SoqlQuery Record}
    (parsed : parseSoql d cfg.soql = some original) (term : CursorTerm d cfg)
    (service : SfService) (offset : Offset) (soql : String)
    (created : .create soql ∈ (sfOpen cfg service offset).2) :
    Narrows d original term.holds soql ↔ Appendable cfg.soql original := by
  obtain ⟨parts, whole, reading⟩ := exists_reading parsed
  rw [created_eq_query created]
  by_cases filtered : "WHERE".toList <:+: cfg.soql.toList
  · have sent : read cfg.query.toList = some (parts ++ .word "AND".toList :: term.comparison) := by
      rw [term.query_eq, if_pos filtered, read_append_space whole, term.read_suffix rfl]
      rfl
    rw [term.narrows_and_iff reading sent]
    constructor
    · intro last
      exact .inl ⟨filtered, last⟩
    · rintro (⟨_found, last⟩ | ⟨missing, _early⟩)
      · exact last
      · exact absurd filtered missing
  · have sent : read cfg.query.toList = some (parts ++ .word "WHERE".toList :: term.comparison) := by
      rw [term.query_eq, if_neg filtered, read_append_space whole, term.read_suffix rfl]
      rfl
    rw [term.narrows_where_iff reading sent]
    constructor
    · intro early
      exact .inr ⟨filtered, early⟩
    · rintro (⟨found, _last⟩ | ⟨_missing, early⟩)
      · exact absurd found filtered
      · exact early

end Sent

def amountOf (digits : List Char) : Option Nat :=
  if digits ≠ [] ∧ digits.all Char.isDigit = true then
    some (digits.foldl (fun value c => 10 * value + (c.toNat - '0'.toNat)) 0)
  else none

def amountOperand : List Part → Option (Nat → Bool)
  | [.word field, .symbol operator, .word digits] =>
      if field ≠ "Amount".toList then none
      else if operator = ['>', '='] then
        (amountOf digits).map (fun bound amount => decide (bound ≤ amount))
      else if operator = ['<'] then
        (amountOf digits).map (fun bound amount => decide (amount < bound))
      else none
  | _ => none

def accountBody : SoqlClause → List Part → Bool
  | .selectFields, [.word field] => decide (field = "Id".toList ∨ field = "Amount".toList)
  | .fromObjects, [.word object] => decide (object = "Account".toList)
  | .orderBy, [.word _by, .word field] => decide (field = "Id".toList ∨ field = "Amount".toList)
  | .limit, [.word digits] => (amountOf digits).isSome
  | _, _ => false

/-- A part of the language, for one object of which only the amount is compared. -/
def accountDialect : Dialect Nat := { operand := amountOperand, body := accountBody }

def accountConfig (soql : String) : SfConfig :=
  { soql := soql
    tokenUrl := "https://login.example/token"
    cursorField := "Amount"
    cursor := "5" }

def accountTerm (soql : String) : CursorTerm accountDialect (accountConfig soql) where
  field := "Amount".toList
  value := .word "5".toList
  fieldRead := show read "Amount".toList = _ from rfl
  valueRead := show read "5".toList = _ from rfl
  fieldName := rfl
  valueTerm := rfl
  holds := fun amount => decide (5 ≤ amount)
  compares := rfl

def accountService : SfService where
  oAuthToken := .ok "token"
  createQueryJob := fun _soql => .ok "750"
  jobState := fun _job => .ok "JobComplete"
  results := fun _job _locator => .ok ([], "null")

theorem boundedAccounts_narrowed :
    ∃ original, parseSoql accountDialect "SELECT Id FROM Account WHERE Amount < 9" = some original ∧
      Narrows accountDialect original (fun amount => decide (5 ≤ amount))
        "SELECT Id FROM Account WHERE Amount < 9 AND Amount >= 5" := by
  let cfg := accountConfig "SELECT Id FROM Account WHERE Amount < 9"
  obtain ⟨original, parsed⟩ : ∃ original, parseSoql accountDialect cfg.soql = some original :=
    Option.isSome_iff_exists.mp (by decide +kernel)
  have created : .create "SELECT Id FROM Account WHERE Amount < 9 AND Amount >= 5" ∈
      (sfOpen cfg accountService {}).2 := by decide +kernel
  have whole : read "SELECT Id FROM Account WHERE Amount < 9".toList = some
      [.word "SELECT".toList, .word "Id".toList, .word "FROM".toList, .word "Account".toList,
        .word "WHERE".toList, .word "Amount".toList, .symbol ['<'], .word "9".toList] := rfl
  have reading := (parseSoql_iff accountDialect whole original).mp parsed
  have appendable : Appendable cfg.soql original :=
    .inl ⟨by decide +kernel, [(.selectFields, [.word "Id".toList]),
      (.fromObjects, [.word "Account".toList])],
      [.word "Amount".toList, .symbol ['<'], .word "9".toList],
      (congrArg Prod.snd reading.clauses).symm, by decide +kernel⟩
  exact ⟨original, parsed,
    (open_narrows_iff parsed (accountTerm _) accountService {} _ created).mpr appendable⟩

theorem orderedAccounts_not_narrowed :
    ¬∀ (Record : Type) (d : Dialect Record) (cfg : SfConfig) (original : SoqlQuery Record),
      parseSoql d cfg.soql = some original → ∀ (term : CursorTerm d cfg) (service : SfService)
        (offset : Offset) (soql : String), .create soql ∈ (sfOpen cfg service offset).2 →
          Narrows d original term.holds soql := by
  intro always
  let cfg := accountConfig "SELECT Id FROM Account ORDER BY Id"
  obtain ⟨original, parsed⟩ : ∃ original, parseSoql accountDialect cfg.soql = some original :=
    Option.isSome_iff_exists.mp (by decide +kernel)
  have created : .create "SELECT Id FROM Account ORDER BY Id WHERE Amount >= 5" ∈
      (sfOpen cfg accountService {}).2 := by decide +kernel
  have refused : (parseSoql accountDialect
      "SELECT Id FROM Account ORDER BY Id WHERE Amount >= 5").isNone = true := rfl
  obtain ⟨q, sent, _others, _filter⟩ :=
    always Nat accountDialect cfg original parsed (accountTerm _) accountService {} _ created
  rw [sent] at refused
  cases refused

end MigrationPlatform.Connectors
