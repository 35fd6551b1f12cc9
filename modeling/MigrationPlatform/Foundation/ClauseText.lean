/-
Texts of words, quoted literals and parentheses, cut into clauses.

A reader turns a text into parts: a group is what stands in a pair of parentheses.
What follows a space is read as if it stood alone. Some parts of a list begin
clauses; which they are may depend on the part that follows. Lists that are put
together have the clauses of both, where what follows the first decides nothing.
-/

import Mathlib.Data.List.Basic

namespace ClauseText

inductive Part
  | word (text : List Char)
  | literal (text : List Char)
  | symbol (text : List Char)
  | group (parts : List Part)

inductive Pending
  | nothing
  | word (read : List Char)
  | symbol (read : List Char)
  | literal (read : List Char) (escape : Bool)

/-- `outer` holds what has been read before each open parenthesis, the innermost first. -/
structure Reader where
  outer : List (List Part) := []
  current : List Part := []
  pending : Pending := .nothing

def quoteMark : Char := Char.ofNat 39

def isOperator (c : Char) : Bool := ['=', '<', '>', '!'].contains c

def Reader.settle (r : Reader) : Reader :=
  match r.pending with
  | .word read => { r with current := r.current ++ [.word read], pending := .nothing }
  | .symbol read => { r with current := r.current ++ [.symbol read], pending := .nothing }
  | _ => r

def Reader.plainStep (r : Reader) (c : Char) : Option Reader :=
  if c.isWhitespace = true then some r.settle
  else if c = quoteMark then some { r.settle with pending := .literal [] false }
  else if c = '(' then some { outer := r.settle.current :: r.outer }
  else if c = ')' then
    match r.outer with
    | [] => none
    | around :: outer => some { outer := outer, current := around ++ [.group r.settle.current] }
  else if c = ',' then some { r.settle with current := r.settle.current ++ [.symbol [',']] }
  else if isOperator c = true then
    match r.pending with
    | .symbol read => some { r with pending := .symbol (read ++ [c]) }
    | _ => some { r.settle with pending := .symbol [c] }
  else
    match r.pending with
    | .word read => some { r with pending := .word (read ++ [c]) }
    | _ => some { r.settle with pending := .word [c] }

def Reader.step (r : Reader) (c : Char) : Option Reader :=
  match r.pending with
  | .literal read escape =>
      if escape = true then some { r with pending := .literal (read ++ [c]) false }
      else if c = '\\' then some { r with pending := .literal (read ++ [c]) true }
      else if c = quoteMark then
        some { r with current := r.current ++ [.literal read], pending := .nothing }
      else some { r with pending := .literal (read ++ [c]) false }
  | _ => r.plainStep c

def Reader.run (r : Reader) (text : List Char) : Option Reader := text.foldlM Reader.step r

def Reader.finish (r : Reader) : Option (List Part) :=
  match r.pending, r.outer with
  | .literal _ _, _ => none
  | _, [] => some r.settle.current
  | _, _ :: _ => none

/-- The parts of a text, unless a literal or a group is open at its end. -/
def read (text : List Char) : Option (List Part) :=
  (Reader.run {} text).bind Reader.finish

theorem run_append (r : Reader) (first second : List Char) :
    r.run (first ++ second) = (r.run first).bind (fun later => later.run second) :=
  List.foldlM_append

def deepen (front : List Part) : List (List Part) → List (List Part)
  | [] => []
  | [base] => [front ++ base]
  | inner :: rest => inner :: deepen front rest

def Reader.behind (front : List Part) (r : Reader) : Reader :=
  match r.outer with
  | [] => { r with current := front ++ r.current }
  | _ :: _ => { r with outer := deepen front r.outer }

section Behind

variable (front : List Part)

theorem deepen_ne_nil {outer : List (List Part)} (more : outer ≠ []) : deepen front outer ≠ [] := by
  cases outer with
  | nil => exact absurd rfl more
  | cons inner rest =>
      cases rest with
      | nil => exact List.cons_ne_nil _ _
      | cons next others => exact List.cons_ne_nil _ _

theorem behind_nested (inner : List Part) (rest : List (List Part)) (current : List Part)
    (pending : Pending) :
    ({ outer := inner :: rest, current := current, pending := pending } : Reader).behind front =
      { outer := deepen front (inner :: rest), current := current, pending := pending } := rfl

theorem settle_behind (r : Reader) : (r.behind front).settle = r.settle.behind front := by
  obtain ⟨outer, current, pending⟩ := r
  cases outer with
  | nil =>
      cases pending with
      | nothing => rfl
      | word read => exact congrArg (fun parts => (⟨[], parts, .nothing⟩ : Reader)) (List.append_assoc ..)
      | symbol read => exact congrArg (fun parts => (⟨[], parts, .nothing⟩ : Reader)) (List.append_assoc ..)
      | literal read escape => rfl
  | cons inner rest =>
      cases pending with
      | nothing => rfl
      | word read => rfl
      | symbol read => rfl
      | literal read escape => rfl

theorem pending_behind (r : Reader) : (r.behind front).pending = r.pending := by
  obtain ⟨outer, current, pending⟩ := r
  cases outer with
  | nil => rfl
  | cons inner rest => rfl

theorem withPending_behind (r : Reader) (pending : Pending) :
    ({ r with pending := pending } : Reader).behind front =
      { r.behind front with pending := pending } := by
  obtain ⟨outer, current, old⟩ := r
  cases outer with
  | nil => rfl
  | cons inner rest => rfl

theorem push_behind (r : Reader) (part : Part) :
    ({ r with current := r.current ++ [part] } : Reader).behind front =
      { r.behind front with current := (r.behind front).current ++ [part] } := by
  obtain ⟨outer, current, old⟩ := r
  cases outer with
  | nil => exact congrArg (fun parts => (⟨[], parts, old⟩ : Reader)) (List.append_assoc ..).symm
  | cons inner rest => rfl

theorem settle_outer (r : Reader) : r.settle.outer = r.outer := by
  obtain ⟨outer, current, pending⟩ := r
  cases pending with
  | nothing => rfl
  | word read => rfl
  | symbol read => rfl
  | literal read escape => rfl

theorem open_behind (r : Reader) :
    ({ outer := r.settle.current :: r.outer } : Reader).behind front =
      { outer := (r.settle.behind front).current :: (r.behind front).outer } := by
  have same := settle_outer r
  obtain ⟨outer, current, pending⟩ := r
  generalize ({ outer := outer, current := current, pending := pending } : Reader).settle =
    settled at same
  obtain ⟨outer_, current_, pending_⟩ := settled
  cases same
  cases outer with
  | nil => rfl
  | cons inner rest => rfl

theorem current_behind (r : Reader) (nested : r.outer ≠ []) : (r.behind front).current = r.current := by
  obtain ⟨outer, current, pending⟩ := r
  cases outer with
  | nil => exact absurd rfl nested
  | cons inner rest => rfl

theorem plainStep_behind (r : Reader) (c : Char) :
    (r.behind front).plainStep c = (r.plainStep c).map (Reader.behind front) := by
  unfold Reader.plainStep
  rw [settle_behind, pending_behind]
  by_cases space : c.isWhitespace = true
  · rw [if_pos space, if_pos space]
    rfl
  rw [if_neg space, if_neg space]
  by_cases quote : c = quoteMark
  · rw [if_pos quote, if_pos quote]
    exact congrArg some (withPending_behind front r.settle _).symm
  rw [if_neg quote, if_neg quote]
  by_cases opens : c = '('
  · rw [if_pos opens, if_pos opens, Option.map_some, open_behind]
  rw [if_neg opens, if_neg opens]
  by_cases closes : c = ')'
  · rw [if_pos closes, if_pos closes]
    have same := settle_outer r
    cases outer : r.outer with
    | nil =>
        have flat : (r.behind front).outer = [] := by
          unfold Reader.behind
          rw [outer]
        rw [flat]
        rfl
    | cons around rest =>
        have nested : (r.behind front).outer = deepen front (around :: rest) := by
          unfold Reader.behind
          rw [outer]
        have inner := current_behind front r.settle (by
          rw [same, outer]
          exact List.cons_ne_nil _ _)
        rw [nested, inner]
        cases rest with
        | nil => exact congrArg (fun parts => some (⟨[], parts, .nothing⟩ : Reader)) (List.append_assoc ..)
        | cons next others => rfl
  rw [if_neg closes, if_neg closes]
  by_cases comma : c = ','
  · rw [if_pos comma, if_pos comma]
    exact congrArg some (push_behind front r.settle _).symm
  rw [if_neg comma, if_neg comma]
  by_cases operator : isOperator c = true
  · rw [if_pos operator, if_pos operator]
    cases r.pending with
    | symbol read => exact congrArg some (withPending_behind front r _).symm
    | nothing => exact congrArg some (withPending_behind front r.settle _).symm
    | word read => exact congrArg some (withPending_behind front r.settle _).symm
    | literal read escape => exact congrArg some (withPending_behind front r.settle _).symm
  · rw [if_neg operator, if_neg operator]
    cases r.pending with
    | word read => exact congrArg some (withPending_behind front r _).symm
    | nothing => exact congrArg some (withPending_behind front r.settle _).symm
    | symbol read => exact congrArg some (withPending_behind front r.settle _).symm
    | literal read escape => exact congrArg some (withPending_behind front r.settle _).symm

theorem step_behind (r : Reader) (c : Char) :
    (r.behind front).step c = (r.step c).map (Reader.behind front) := by
  unfold Reader.step
  rw [pending_behind]
  cases r.pending with
  | nothing => exact plainStep_behind front r c
  | word read => exact plainStep_behind front r c
  | symbol read => exact plainStep_behind front r c
  | literal read escape =>
      dsimp only
      by_cases escaped : escape = true
      · rw [if_pos escaped, if_pos escaped]
        exact congrArg some (withPending_behind front r _).symm
      rw [if_neg escaped, if_neg escaped]
      by_cases slash : c = '\\'
      · rw [if_pos slash, if_pos slash]
        exact congrArg some (withPending_behind front r _).symm
      rw [if_neg slash, if_neg slash]
      by_cases quote : c = quoteMark
      · rw [if_pos quote, if_pos quote]
        have pushed := push_behind front r (.literal read)
        have settled := withPending_behind front { r with current := r.current ++ [.literal read] }
          .nothing
        rw [pushed] at settled
        exact congrArg some settled.symm
      · rw [if_neg quote, if_neg quote]
        exact congrArg some (withPending_behind front r _).symm

theorem run_behind (text : List Char) :
    ∀ r : Reader, (r.behind front).run text = (r.run text).map (Reader.behind front) := by
  induction text with
  | nil =>
      intro r
      rfl
  | cons c rest ih =>
      intro r
      have stepped := step_behind front r c
      have left : ∀ reader : Reader, reader.run (c :: rest) =
          (reader.step c).bind (fun later => later.run rest) := fun reader => rfl
      rw [left, left, stepped]
      cases r.step c with
      | none => rfl
      | some later => exact ih later

theorem finish_behind (r : Reader) :
    (r.behind front).finish = r.finish.map (fun parts => front ++ parts) := by
  have settled := settle_behind front r
  obtain ⟨outer, current, pending⟩ := r
  cases outer with
  | nil =>
      cases pending with
      | literal read escape => rfl
      | nothing => rfl
      | word read => exact congrArg (fun reader => some reader.current) settled
      | symbol read => exact congrArg (fun reader => some reader.current) settled
  | cons inner rest =>
      have more := deepen_ne_nil front (List.cons_ne_nil inner rest)
      unfold Reader.finish
      rw [behind_nested]
      cases nested : deepen front (inner :: rest) with
      | nil => exact absurd nested more
      | cons base others =>
          cases pending with
          | nothing => rfl
          | word read => rfl
          | symbol read => rfl
          | literal read escape => rfl

end Behind

theorem read_append_space {first : List Char} {parts : List Part} (whole : read first = some parts)
    (second : List Char) :
    read (first ++ ' ' :: second) = (read second).map (fun later => parts ++ later) := by
  obtain ⟨r, ran, finished⟩ := Option.bind_eq_some_iff.mp whole
  have spaced : r.step ' ' = some (({} : Reader).behind parts) := by
    obtain ⟨outer, current, pending⟩ := r
    cases outer with
    | nil =>
        cases pending with
        | literal read escape => cases finished
        | nothing =>
            cases finished
            exact congrArg (fun all => some (⟨[], all, .nothing⟩ : Reader)) (List.append_nil _).symm
        | word read =>
            cases finished
            exact congrArg (fun all => some (⟨[], all, .nothing⟩ : Reader)) (List.append_nil _).symm
        | symbol read =>
            cases finished
            exact congrArg (fun all => some (⟨[], all, .nothing⟩ : Reader)) (List.append_nil _).symm
    | cons inner rest =>
        cases pending with
        | nothing => cases finished
        | word read => cases finished
        | symbol read => cases finished
        | literal read escape => cases finished
  have resumed : Reader.run {} (first ++ ' ' :: second) =
      (Reader.run {} second).map (Reader.behind parts) := by
    rw [run_append, ran, Option.bind_some]
    have next : r.run (' ' :: second) = (r.step ' ').bind (fun later => later.run second) := rfl
    rw [next, spaced, Option.bind_some, run_behind]
  unfold read
  rw [resumed]
  cases Reader.run {} second with
  | none => rfl
  | some last => exact finish_behind parts last

/-! ### Clauses -/

section Clauses

variable {Clause : Type} (header : Part → Option Part → Option Clause)

def clausesOf : List Part → List Part × List (Clause × List Part)
  | [] => ([], [])
  | part :: rest =>
      let (body, clauses) := clausesOf rest
      match header part rest.head? with
      | some clause => ([], (clause, body) :: clauses)
      | none => (part :: body, clauses)

def extend (more : List Part) : List (Clause × List Part) → List (Clause × List Part)
  | [] => []
  | [(clause, body)] => [(clause, body ++ more)]
  | first :: next :: rest => first :: extend more (next :: rest)

theorem extend_append (more : List Part) (front : List (Clause × List Part)) (clause : Clause)
    (body : List Part) :
    extend more (front ++ [(clause, body)]) = front ++ [(clause, body ++ more)] := by
  induction front with
  | nil => rfl
  | cons first rest ih =>
      cases rest with
      | nil => rfl
      | cons next others => exact congrArg (List.cons first) ih

theorem extend_nil (clauses : List (Clause × List Part)) : extend [] clauses = clauses := by
  rcases List.eq_nil_or_concat clauses with none_ | ⟨front, ⟨clause, body⟩, shape⟩
  · rw [none_]
    rfl
  · rw [shape, List.concat_eq_append, extend_append, List.append_nil]

def Closed (parts extra : List Part) : Prop :=
  ∀ last ∈ parts.getLast?, header last extra.head? = header last none

theorem clausesOf_append {parts extra : List Part} (closed : Closed header parts extra) :
    clausesOf header (parts ++ extra) =
      if (clausesOf header parts).2 = [] then
        ((clausesOf header parts).1 ++ (clausesOf header extra).1, (clausesOf header extra).2)
      else
        ((clausesOf header parts).1,
          extend (clausesOf header extra).1 (clausesOf header parts).2 ++ (clausesOf header extra).2) := by
  induction parts with
  | nil => rfl
  | cons part rest ih =>
      have later : Closed header rest extra := by
        intro last member
        apply closed last
        rw [List.getLast?_cons, Option.mem_def.mp member]
        rfl
      have seen : header part (rest ++ extra).head? = header part rest.head? := by
        cases rest with
        | nil => exact closed part rfl
        | cons next others => rfl
      rw [List.cons_append, clausesOf, clausesOf, ih later, seen]
      cases found : header part rest.head? with
      | some clause =>
          dsimp only
          rw [if_neg (List.cons_ne_nil _ _)]
          by_cases empty : (clausesOf header rest).2 = []
          · rw [if_pos empty, empty]
            rfl
          · rw [if_neg empty]
            cases shape : (clausesOf header rest).2 with
            | nil => exact absurd shape empty
            | cons next others => rfl
      | none =>
          dsimp only
          by_cases empty : (clausesOf header rest).2 = []
          · rw [if_pos empty, if_pos empty]
            rfl
          · rw [if_neg empty, if_neg empty]

end Clauses

end ClauseText
