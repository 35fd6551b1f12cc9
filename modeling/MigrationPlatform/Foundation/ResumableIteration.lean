/-
Iteration over a deterministic source that may be cut and resumed.

A source is a step function on reader states: it yields a row and the state
behind it, or reports the end, or fails. Reading is cut after a number of rows.
To resume, a fresh reader skips the rows that were read before, with a skip
function of its own; the one thing asked of it is that it steps over a row
where the source yields one.
-/

import Mathlib.Logic.Basic

namespace ResumableIteration

variable {State Row Error : Type*}

inductive Step (State Row Error : Type*)
  | row (row : Row) (next : State)
  | done
  | failed (err : Error)

inductive Ending (State Error : Type*)
  | cut (state : State)
  | done
  | failed (err : Error)

def take (next : State → Step State Row Error) : Nat → State → List Row × Ending State Error
  | 0, state => ([], .cut state)
  | count + 1, state =>
      match next state with
      | .done => ([], .done)
      | .failed err => ([], .failed err)
      | .row row later => (row :: (take next count later).1, (take next count later).2)

inductive Skip (State Error : Type*)
  | advanced (next : State)
  | stopped (state : State)
  | failed (err : Error)

def skipMany (skip : State → Skip State Error) : Nat → State → Except Error State
  | 0, state => .ok state
  | count + 1, state =>
      match skip state with
      | .advanced later => skipMany skip count later
      | .stopped last => .ok last
      | .failed err => .error err

section Rules

variable {next : State → Step State Row Error} {count : Nat} {state last : State}
variable {rows : List Row}

theorem take_row {row : Row} {later : State} (count : Nat)
    (yielded : next state = .row row later) :
    take next (count + 1) state =
      (row :: (take next count later).1, (take next count later).2) := by
  rw [take, yielded]

theorem take_done (count : Nat) (ended : next state = .done) :
    take next (count + 1) state = ([], .done) := by
  rw [take, ended]

theorem take_failed {err : Error} (count : Nat) (broke : next state = .failed err) :
    take next (count + 1) state = ([], .failed err) := by
  rw [take, broke]

theorem take_succ_eq_cut (taken : take next (count + 1) state = (rows, .cut last)) :
    ∃ row later rest, next state = .row row later ∧ rows = row :: rest ∧
      take next count later = (rest, .cut last) := by
  cases stepped : next state with
  | done =>
      rw [take_done count stepped] at taken
      cases taken
  | failed err =>
      rw [take_failed count stepped] at taken
      cases taken
  | row row later =>
      rw [take_row count stepped] at taken
      injection taken with sameRows sameEnding
      exact ⟨row, later, _, rfl, sameRows.symm, Prod.ext rfl sameEnding⟩

theorem take_length_of_cut (taken : take next count state = (rows, .cut last)) :
    rows.length = count := by
  induction count generalizing state rows with
  | zero =>
      cases taken
      rfl
  | succ count ih =>
      obtain ⟨row, later, rest, _, rfl, tail⟩ := take_succ_eq_cut taken
      rw [List.length_cons, ih tail]

theorem take_add (more : Nat) (taken : take next count state = (rows, .cut last)) :
    take next (count + more) state =
      (rows ++ (take next more last).1, (take next more last).2) := by
  induction count generalizing state rows with
  | zero =>
      cases taken
      rw [Nat.zero_add]
      rfl
  | succ count ih =>
      obtain ⟨row, later, rest, yielded, rfl, tail⟩ := take_succ_eq_cut taken
      rw [Nat.succ_add, take_row (count + more) yielded, ih tail]
      rfl

theorem take_add_of_ended {ending : Ending State Error} (more : Nat)
    (taken : take next count state = (rows, ending)) (ended : ∀ last, ending ≠ .cut last) :
    take next (count + more) state = (rows, ending) := by
  induction count generalizing state rows with
  | zero =>
      cases taken
      exact absurd rfl (ended state)
  | succ count ih =>
      rw [Nat.succ_add]
      cases stepped : next state with
      | done =>
          rw [take_done _ stepped] at taken ⊢
          exact taken
      | failed err =>
          rw [take_failed _ stepped] at taken ⊢
          exact taken
      | row row later =>
          rw [take_row _ stepped] at taken ⊢
          injection taken with sameRows sameEnding
          rw [ih (Prod.ext rfl sameEnding), sameRows]

theorem take_isPrefix_of_ended {ending : Ending State Error} (other : Nat)
    (taken : take next count state = (rows, ending)) (ended : ∀ last, ending ≠ .cut last) :
    (take next other state).1 <+: rows := by
  have whole := take_add_of_ended other taken ended
  rw [Nat.add_comm] at whole
  obtain ⟨part, stop, read⟩ : ∃ part stop, take next other state = (part, stop) := ⟨_, _, rfl⟩
  rw [read]
  cases stop with
  | cut last =>
      rw [take_add count read] at whole
      exact ⟨_, congrArg Prod.fst whole⟩
  | done =>
      rw [take_add_of_ended count read nofun] at whole
      exact ⟨[], (List.append_nil _).trans (congrArg Prod.fst whole)⟩
  | failed err =>
      rw [take_add_of_ended count read nofun] at whole
      exact ⟨[], (List.append_nil _).trans (congrArg Prod.fst whole)⟩

theorem take_eq_of_ended {ending stop : Ending State Error} {other : Nat} {part : List Row}
    (taken : take next count state = (rows, ending)) (ended : ∀ last, ending ≠ .cut last)
    (read : take next other state = (part, stop)) (stopped : ∀ last, stop ≠ .cut last) :
    part = rows ∧ stop = ending := by
  have whole := take_add_of_ended other taken ended
  rw [Nat.add_comm, take_add_of_ended count read stopped] at whole
  exact ⟨congrArg Prod.fst whole, congrArg Prod.snd whole⟩

theorem take_cut_of_le {ending : Ending State Error} {less : Nat} (within : less ≤ rows.length)
    (taken : take next count state = (rows, ending)) :
    ∃ part last, take next less state = (part, .cut last) := by
  induction less generalizing count state rows with
  | zero => exact ⟨[], state, rfl⟩
  | succ less ih =>
      cases count with
      | zero =>
          cases taken
          cases within
      | succ count =>
          cases stepped : next state with
          | done =>
              rw [take_done count stepped] at taken
              cases taken
              cases within
          | failed err =>
              rw [take_failed count stepped] at taken
              cases taken
              cases within
          | row row later =>
              rw [take_row count stepped] at taken
              cases taken
              obtain ⟨part, last, tail⟩ := ih (Nat.le_of_succ_le_succ within) rfl
              rw [take_row less stepped, tail]
              exact ⟨row :: part, last, rfl⟩

theorem skipMany_of_take {SkipError : Type*} {skip : State → Skip State SkipError}
    (agrees : ∀ state row later, next state = .row row later → skip state = .advanced later)
    (taken : take next count state = (rows, .cut last)) :
    skipMany skip count state = .ok last := by
  induction count generalizing state rows with
  | zero =>
      cases taken
      rfl
  | succ count ih =>
      obtain ⟨row, later, rest, yielded, _, tail⟩ := take_succ_eq_cut taken
      unfold skipMany
      rw [agrees state row later yielded]
      exact ih tail

end Rules

end ResumableIteration
