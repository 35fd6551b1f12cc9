/-
Delimited text: a scanner for its records, and tables that are written in it.

Readers of such text differ in what ends a line and in whether they put up with
stray quotes; both are rules of the scanner. A table says how each cell and each
line end is written. The scanner reads the cells of a table back under any
rules, and on a beginning of a text it finds no more records than on the whole.
-/

import MigrationPlatform.Foundation.Splitting
import MigrationPlatform.Foundation.Utf8

namespace DelimitedText

open Utf8 (Bytes)

def quote : UInt8 := 34

def lineFeed : UInt8 := 10

def carriageReturn : UInt8 := 13

structure Rules where
  delimiter : UInt8
  /-- A carriage return ends a line on its own. -/
  crEndsLine : Bool
  /-- Quotes may stand where they have no meaning, and may be left open. -/
  lenient : Bool

inductive Position
  | startRecord
  | startField
  | inField
  | inQuoted
  | afterQuote
deriving DecidableEq, Repr

inductive Stray
  | bareQuote
  | quotedField
deriving DecidableEq, Repr

structure Scan where
  position : Position := .startRecord
  field : Bytes := []
  record : List Bytes := []
  records : List (List Bytes) := []
  problem : Option Stray := none
deriving DecidableEq, Repr

def Scan.put (s : Scan) (b : UInt8) (position : Position) : Scan :=
  { s with position := position, field := s.field ++ [b] }

def Scan.endField (s : Scan) : Scan :=
  { s with position := .startField, field := [], record := s.record ++ [s.field] }

def Scan.endRecord (s : Scan) : Scan :=
  { s with
    position := .startRecord
    field := []
    record := []
    records := s.records ++ [s.record ++ [s.field]] }

def Rules.endsLine (rules : Rules) (b : UInt8) : Bool :=
  b == lineFeed || (rules.crEndsLine && b == carriageReturn)

def beginField (rules : Rules) (s : Scan) (b : UInt8) : Scan :=
  if b = quote then { s with position := .inQuoted }
  else if b = rules.delimiter then s.endField
  else if rules.endsLine b = true then s.endRecord
  else s.put b .inField

def step (rules : Rules) (s : Scan) (b : UInt8) : Scan :=
  if s.problem.isSome = true then s
  else
    match s.position with
    | .startRecord => if rules.endsLine b = true then s else beginField rules s b
    | .startField => beginField rules s b
    | .inField =>
        if b = rules.delimiter then s.endField
        else if rules.endsLine b = true then s.endRecord
        else if b = quote ∧ rules.lenient = false then { s with problem := some .bareQuote }
        else s.put b .inField
    | .inQuoted => if b = quote then { s with position := .afterQuote } else s.put b .inQuoted
    | .afterQuote =>
        if b = quote then s.put b .inQuoted
        else if b = rules.delimiter then s.endField
        else if rules.endsLine b = true then s.endRecord
        else if rules.lenient = true then s.put b .inField
        else { s with problem := some .quotedField }

def finish (rules : Rules) (s : Scan) : Scan :=
  if s.problem.isSome = true then s
  else
    match s.position with
    | .startRecord => s
    | .inQuoted =>
        if rules.lenient = true then s.endRecord else { s with problem := some .quotedField }
    | _ => s.endRecord

def scan (rules : Rules) (bytes : Bytes) : Scan := finish rules (bytes.foldl (step rules) {})

/-- A cell without quotes has none of the bytes that mean something under all rules. -/
inductive Cell (delimiter : UInt8)
  | plain (bytes : Bytes) (bare : ∀ b ∈ bytes, b ≠ delimiter ∧ b ≠ quote ∧ b ≠ lineFeed)
  | quoted (bytes : Bytes)

def escape : Bytes → Bytes
  | [] => []
  | b :: rest => if b = quote then quote :: quote :: escape rest else b :: escape rest

section Writing

variable {delimiter : UInt8}

def Cell.content : Cell delimiter → Bytes
  | .plain bytes _ => bytes
  | .quoted bytes => bytes

def Cell.render : Cell delimiter → Bytes
  | .plain bytes _ => bytes
  | .quoted bytes => quote :: (escape bytes ++ [quote])

def Cell.NoReturn : Cell delimiter → Prop
  | .plain bytes _ => ∀ b ∈ bytes, b ≠ carriageReturn
  | .quoted _ => True

def renderOthers : List (Cell delimiter) → Bytes
  | [] => []
  | cell :: rest => delimiter :: (cell.render ++ renderOthers rest)

end Writing

structure TableRow (delimiter : UInt8) where
  first : Cell delimiter
  others : List (Cell delimiter)
  written : others = [] → first.render ≠ []

inductive LineEnd
  | feed
  | returnFeed
deriving DecidableEq, Repr

def LineEnd.render : LineEnd → Bytes
  | .feed => [lineFeed]
  | .returnFeed => [carriageReturn, lineFeed]

inductive Line (delimiter : UInt8)
  | row (row : TableRow delimiter) (ending : LineEnd)
  | blank (ending : LineEnd)

structure Table (delimiter : UInt8) where
  lines : List (Line delimiter)
  last : Option (TableRow delimiter) := none

section Writing

variable {delimiter : UInt8}

def TableRow.contents (row : TableRow delimiter) : List Bytes :=
  row.first.content :: row.others.map Cell.content

def TableRow.render (row : TableRow delimiter) : Bytes :=
  row.first.render ++ renderOthers row.others

def TableRow.NoReturn (row : TableRow delimiter) : Prop :=
  row.first.NoReturn ∧ ∀ cell ∈ row.others, cell.NoReturn

def Line.render : Line delimiter → Bytes
  | .row cells ending => cells.render ++ ending.render
  | .blank ending => ending.render

def Line.contents : Line delimiter → List (List Bytes)
  | .row cells _ => [cells.contents]
  | .blank _ => []

def Line.NoReturn : Line delimiter → Prop
  | .row cells _ => cells.NoReturn
  | .blank _ => True

def lastRender : Option (TableRow delimiter) → Bytes
  | none => []
  | some row => row.render

def lastContents : Option (TableRow delimiter) → List (List Bytes)
  | none => []
  | some row => [row.contents]

def Table.render (table : Table delimiter) : Bytes :=
  table.lines.flatMap Line.render ++ lastRender table.last

def Table.contents (table : Table delimiter) : List (List Bytes) :=
  table.lines.flatMap Line.contents ++ lastContents table.last

structure Table.NoReturn (table : Table delimiter) : Prop where
  lines : ∀ line ∈ table.lines, line.NoReturn
  last : ∀ row ∈ table.last, row.NoReturn

end Writing

/-- The delimiter is none of the bytes with a meaning of their own. -/
structure Rules.Proper (rules : Rules) : Prop where
  notQuote : rules.delimiter ≠ quote
  notFeed : rules.delimiter ≠ lineFeed
  notReturn : rules.delimiter ≠ carriageReturn

section Reading

variable {rules : Rules}

theorem not_endsLine {b : UInt8} (notFeed : b ≠ lineFeed) (notReturn : b ≠ carriageReturn) :
    rules.endsLine b = false := by
  unfold Rules.endsLine
  rw [beq_false_of_ne notFeed, beq_false_of_ne notReturn, Bool.and_false]
  rfl

theorem special_of_endsLine {b : UInt8} (ends : rules.endsLine b = true) :
    b = lineFeed ∨ b = carriageReturn := by
  unfold Rules.endsLine at ends
  rw [Bool.or_eq_true, Bool.and_eq_true] at ends
  rcases ends with feed | ⟨_, carriage⟩
  · exact .inl (eq_of_beq feed)
  · exact .inr (eq_of_beq carriage)

theorem ne_quote_of_endsLine {b : UInt8} (ends : rules.endsLine b = true) : b ≠ quote := by
  rcases special_of_endsLine ends with feed | carriage
  · rw [feed]
    decide
  · rw [carriage]
    decide

theorem ne_delimiter_of_endsLine (proper : rules.Proper) {b : UInt8}
    (ends : rules.endsLine b = true) : b ≠ rules.delimiter := by
  rcases special_of_endsLine ends with feed | carriage
  · rw [feed]
    exact fun same => proper.notFeed same.symm
  · rw [carriage]
    exact fun same => proper.notReturn same.symm

structure Scan.Fresh (s : Scan) : Prop where
  starts : s.position = .startRecord ∨ s.position = .startField
  empty : s.field = []
  fine : s.problem = none

variable {s : Scan}

theorem step_fresh (fresh : s.Fresh) {b : UInt8} (inLine : rules.endsLine b = false) :
    step rules s b = beginField rules s b := by
  unfold step
  rw [fresh.fine]
  rcases fresh.starts with record | field
  · rw [record]
    simp only [Option.isSome_none, Bool.false_eq_true, if_false, inLine]
  · rw [field]
    simp only [Option.isSome_none, Bool.false_eq_true, if_false]

theorem foldl_inField (inside : s.position = .inField) (fine : s.problem = none) :
    ∀ bytes : Bytes, (∀ b ∈ bytes, b ≠ rules.delimiter ∧ b ≠ quote ∧ rules.endsLine b = false) →
      bytes.foldl (step rules) s = { s with field := s.field ++ bytes } := by
  intro bytes bare
  induction bytes generalizing s with
  | nil => rw [List.foldl_nil, List.append_nil]
  | cons b rest ih =>
      obtain ⟨notDelimiter, notQuote, inLine⟩ := bare b List.mem_cons_self
      have stepped : step rules s b = s.put b .inField := by
        unfold step
        rw [fine, inside]
        simp only [Option.isSome_none, Bool.false_eq_true, if_false, if_neg notDelimiter, inLine,
          notQuote, false_and]
      have later : ∀ c ∈ rest, _ := fun c member => bare c (List.mem_cons_of_mem b member)
      rw [List.foldl_cons, stepped, @ih (s.put b .inField) rfl fine later]
      unfold Scan.put
      rw [inside]
      simp only [List.append_assoc, List.singleton_append]

theorem foldl_inQuoted (inside : s.position = .inQuoted) (fine : s.problem = none) :
    ∀ bytes : Bytes, (escape bytes).foldl (step rules) s = { s with field := s.field ++ bytes } := by
  intro bytes
  induction bytes generalizing s with
  | nil => rw [escape, List.foldl_nil, List.append_nil]
  | cons b rest ih =>
      unfold escape
      split
      · rename_i quoted
        have first : step rules s quote = { s with position := .afterQuote } := by
          unfold step
          rw [fine, inside]
          rfl
        have second : step rules { s with position := .afterQuote } quote = s.put b .inQuoted := by
          simp only [step, fine, quoted, Option.isSome_none, Bool.false_eq_true, if_false, if_true,
            Scan.put]
        rw [List.foldl_cons, List.foldl_cons, first, second, @ih (s.put b .inQuoted) rfl fine]
        unfold Scan.put
        rw [inside]
        simp only [List.append_assoc, List.singleton_append]
      · rename_i other
        have stepped : step rules s b = s.put b .inQuoted := by
          unfold step
          rw [fine, inside]
          simp only [Option.isSome_none, Bool.false_eq_true, if_false, if_neg other]
        rw [List.foldl_cons, stepped, @ih (s.put b .inQuoted) rfl fine]
        unfold Scan.put
        rw [inside]
        simp only [List.append_assoc, List.singleton_append]

/-- Where a carriage return ends a line, a cell with one is written in quotes. -/
def Cell.Allowed (rules : Rules) (cell : Cell rules.delimiter) : Prop :=
  rules.crEndsLine = true → cell.NoReturn

theorem inLine_of_allowed {bytes : Bytes}
    {bare : ∀ b ∈ bytes, b ≠ rules.delimiter ∧ b ≠ quote ∧ b ≠ lineFeed}
    (allowed : Cell.Allowed rules (.plain bytes bare)) :
    ∀ b ∈ bytes, b ≠ rules.delimiter ∧ b ≠ quote ∧ rules.endsLine b = false := by
  intro b member
  obtain ⟨notDelimiter, notQuote, notFeed⟩ := bare b member
  refine ⟨notDelimiter, notQuote, ?_⟩
  unfold Rules.endsLine
  rw [beq_false_of_ne notFeed, Bool.false_or, Bool.and_eq_false_iff]
  cases returns : rules.crEndsLine with
  | false => exact .inl rfl
  | true => exact .inr (beq_false_of_ne (allowed returns b member))

structure CellRead (s t : Scan) (cell : Cell rules.delimiter) : Prop where
  field : t.field = cell.content
  record : t.record = s.record
  records : t.records = s.records
  fine : t.problem = none
  unwritten : cell.render = [] → t = s
  position : cell.render ≠ [] → t.position = .inField ∨ t.position = .afterQuote

theorem foldl_cell (fresh : s.Fresh) {cell : Cell rules.delimiter}
    (allowed : cell.Allowed rules) : CellRead s (cell.render.foldl (step rules) s) cell := by
  cases cell with
  | plain bytes bare =>
      have inLine := inLine_of_allowed allowed
      cases bytes with
      | nil =>
          exact ⟨fresh.empty, rfl, rfl, fresh.fine, fun _ => rfl, fun written => absurd rfl written⟩
      | cons b rest =>
          obtain ⟨notDelimiter, notQuote, goesOn⟩ := inLine b List.mem_cons_self
          have stepped : step rules s b = s.put b .inField := by
            rw [step_fresh fresh goesOn]
            unfold beginField
            rw [if_neg notQuote, if_neg notDelimiter, goesOn]
            rfl
          have later : ∀ c ∈ rest, _ := fun c member => inLine c (List.mem_cons_of_mem b member)
          have read : (b :: rest).foldl (step rules) s =
              { s with position := .inField, field := s.field ++ [b] ++ rest } := by
            rw [List.foldl_cons, stepped,
              @foldl_inField rules (s.put b .inField) rfl fresh.fine rest later]
            rfl
          change CellRead s ((b :: rest).foldl (step rules) s) _
          rw [read]
          refine ⟨?_, rfl, rfl, fresh.fine, fun empty => absurd empty (List.cons_ne_nil b rest),
            fun _ => .inl rfl⟩
          change s.field ++ [b] ++ rest = b :: rest
          rw [fresh.empty]
          rfl
  | quoted bytes =>
      have first : step rules s quote = { s with position := .inQuoted } := by
        rw [step_fresh fresh (not_endsLine (by decide) (by decide))]
        rfl
      have read : (quote :: (escape bytes ++ [quote])).foldl (step rules) s =
          { s with position := .afterQuote, field := s.field ++ bytes } := by
        rw [List.foldl_cons, first, List.foldl_append,
          @foldl_inQuoted rules { s with position := .inQuoted } rfl fresh.fine bytes,
          List.foldl_cons, List.foldl_nil]
        simp only [step, fresh.fine, Option.isSome_none, Bool.false_eq_true, if_false, if_true]
      change CellRead s ((quote :: (escape bytes ++ [quote])).foldl (step rules) s) _
      rw [read]
      refine ⟨?_, rfl, rfl, fresh.fine, fun empty => absurd empty (List.cons_ne_nil _ _),
        fun _ => .inr rfl⟩
      change s.field ++ bytes = bytes
      rw [fresh.empty]
      rfl

theorem step_delimiter (proper : rules.Proper) {s t : Scan} (fresh : s.Fresh)
    {cell : Cell rules.delimiter} (read : CellRead s t cell) :
    step rules t rules.delimiter = t.endField := by
  have inLine : rules.endsLine rules.delimiter = false := not_endsLine proper.notFeed proper.notReturn
  by_cases written : cell.render = []
  · rw [read.unwritten written, step_fresh fresh inLine]
    unfold beginField
    rw [if_neg proper.notQuote, if_pos rfl]
  · unfold step
    rw [read.fine]
    rcases read.position written with inside | after
    · rw [inside]
      simp only [Option.isSome_none, Bool.false_eq_true, if_false, if_true]
    · rw [after]
      simp only [Option.isSome_none, Bool.false_eq_true, if_false, if_true, if_neg proper.notQuote]

theorem fresh_endField {s t : Scan} {cell : Cell rules.delimiter} (read : CellRead s t cell) :
    t.endField.Fresh := ⟨.inr rfl, rfl, read.fine⟩

inductive Closes (rules : Rules) : (Scan → Scan) → Prop
  | line {b : UInt8} (ends : rules.endsLine b = true) : Closes rules (fun s => step rules s b)
  | text : Closes rules (finish rules)

theorem Closes.endRecord {close : Scan → Scan} (closes : Closes rules close)
    (proper : rules.Proper) (fine : s.problem = none)
    (open_record : s.position = .startField ∨ s.position = .inField ∨ s.position = .afterQuote) :
    close s = s.endRecord := by
  cases closes with
  | line ends =>
      have notQuote := ne_quote_of_endsLine ends
      have notDelimiter := ne_delimiter_of_endsLine proper ends
      dsimp only
      unfold step
      rw [fine]
      rcases open_record with starts | inside | after
      · rw [starts]
        simp only [Option.isSome_none, Bool.false_eq_true, if_false, beginField, if_neg notQuote,
          if_neg notDelimiter, ends, if_true]
      · rw [inside]
        simp only [Option.isSome_none, Bool.false_eq_true, if_false, if_neg notDelimiter, ends,
          if_true]
      · rw [after]
        simp only [Option.isSome_none, Bool.false_eq_true, if_false, if_neg notQuote,
          if_neg notDelimiter, ends, if_true]
  | text =>
      unfold finish
      rw [fine]
      rcases open_record with starts | inside | after
      · rw [starts]
        rfl
      · rw [inside]
        rfl
      · rw [after]
        rfl

theorem close_cell {close : Scan → Scan} (closes : Closes rules close) (proper : rules.Proper)
    {s t : Scan} {cell : Cell rules.delimiter} (read : CellRead s t cell)
    (inRow : s.position = .startField ∨ cell.render ≠ []) : close t = t.endRecord := by
  apply closes.endRecord proper read.fine
  by_cases written : cell.render = []
  · rw [read.unwritten written]
    exact .inl (inRow.resolve_right (fun other => other written))
  · exact .inr (read.position written)

/-! ### Reading rows and tables -/

def between (records : List (List Bytes)) : Scan := { records := records }

theorem fresh_between (records : List (List Bytes)) : (between records).Fresh :=
  ⟨.inl rfl, rfl, rfl⟩

theorem close_cells {close : Scan → Scan} (closes : Closes rules close) (proper : rules.Proper)
    (others : List (Cell rules.delimiter)) :
    ∀ (s : Scan) (cell : Cell rules.delimiter), s.Fresh → cell.Allowed rules →
      (∀ other ∈ others, other.Allowed rules) →
      (s.position = .startField ∨ others ≠ [] ∨ cell.render ≠ []) →
      close ((cell.render ++ renderOthers others).foldl (step rules) s) =
        between (s.records ++ [s.record ++ cell.content :: others.map Cell.content]) := by
  induction others with
  | nil =>
      intro s cell fresh allowed _others inRow
      have read := foldl_cell fresh allowed
      rw [renderOthers, List.append_nil,
        close_cell closes proper read (inRow.imp_right (fun other => other.resolve_left
          (fun some_left => some_left rfl)))]
      unfold Scan.endRecord between
      rw [read.records, read.record, read.field, read.fine, List.map_nil]
  | cons next rest ih =>
      intro s cell fresh allowed others _inRow
      have read := foldl_cell fresh allowed
      obtain ⟨nextAllowed, restAllowed⟩ := List.forall_mem_cons.mp others
      have later := ih (cell.render.foldl (step rules) s).endField next (fresh_endField read)
        nextAllowed restAllowed (.inl rfl)
      rw [renderOthers, List.foldl_append, List.foldl_cons, step_delimiter proper fresh read, later]
      unfold Scan.endField
      rw [read.records, read.record, read.field]
      simp only [List.map_cons, List.append_assoc, List.singleton_append]

def TableRow.Allowed (rules : Rules) (row : TableRow rules.delimiter) : Prop :=
  rules.crEndsLine = true → row.NoReturn

theorem close_row {close : Scan → Scan} (closes : Closes rules close) (proper : rules.Proper)
    {row : TableRow rules.delimiter} (allowed : row.Allowed rules) (records : List (List Bytes)) :
    close (row.render.foldl (step rules) (between records)) =
      between (records ++ [row.contents]) := by
  have inRow : row.others ≠ [] ∨ row.first.render ≠ [] := by
    by_cases alone : row.others = []
    · exact .inr (row.written alone)
    · exact .inl alone
  exact close_cells closes proper row.others (between records) row.first (fresh_between records)
    (fun returns => (allowed returns).1) (fun other member returns => (allowed returns).2 other member)
    (.inr inRow)

theorem endsLine_feed (rules : Rules) : rules.endsLine lineFeed = true := rfl

theorem step_between {b : UInt8} (ends : rules.endsLine b = true) (records : List (List Bytes)) :
    step rules (between records) b = between records := by
  unfold step between
  simp only [Option.isSome_none, Bool.false_eq_true, if_false, ends, if_true]

def LineEnd.Allowed (rules : Rules) : LineEnd → Prop
  | .feed => True
  | .returnFeed => rules.crEndsLine = true

def Line.Allowed (rules : Rules) : Line rules.delimiter → Prop
  | .row cells ending => cells.Allowed rules ∧ ending.Allowed rules
  | .blank ending => ending.Allowed rules

structure Table.Allowed (rules : Rules) (table : Table rules.delimiter) : Prop where
  lines : ∀ line ∈ table.lines, line.Allowed rules
  last : ∀ row ∈ table.last, row.Allowed rules

theorem foldl_line (proper : rules.Proper) {line : Line rules.delimiter}
    (allowed : line.Allowed rules) (records : List (List Bytes)) :
    line.render.foldl (step rules) (between records) = between (records ++ line.contents) := by
  have returns : ∀ ending : LineEnd, ending.Allowed rules → ending = .returnFeed →
      rules.endsLine carriageReturn = true := by
    intro ending ok same
    rw [same] at ok
    unfold Rules.endsLine
    rw [show rules.crEndsLine = true from ok]
    rfl
  cases line with
  | row row ending =>
      simp only [Line.render, Line.contents]
      rw [List.foldl_append]
      cases ending with
      | feed =>
          exact close_row (.line (endsLine_feed rules)) proper allowed.1 records
      | returnFeed =>
          have carriage := returns .returnFeed allowed.2 rfl
          have closed := close_row (.line carriage) proper allowed.1 records
          simp only [LineEnd.render, List.foldl_cons, List.foldl_nil]
          rw [closed, step_between (endsLine_feed rules)]
  | blank ending =>
      simp only [Line.render, Line.contents, List.append_nil]
      cases ending with
      | feed => exact step_between (endsLine_feed rules) records
      | returnFeed =>
          have carriage := returns .returnFeed allowed rfl
          simp only [LineEnd.render, List.foldl_cons, List.foldl_nil]
          rw [step_between carriage, step_between (endsLine_feed rules)]

theorem foldl_lines (proper : rules.Proper) (lines : List (Line rules.delimiter)) :
    ∀ records : List (List Bytes), (∀ line ∈ lines, line.Allowed rules) →
      (lines.flatMap Line.render).foldl (step rules) (between records) =
        between (records ++ lines.flatMap Line.contents) := by
  induction lines with
  | nil =>
      intro records _allowed
      rw [List.flatMap_nil, List.flatMap_nil, List.foldl_nil, List.append_nil]
  | cons line rest ih =>
      intro records allowed
      rw [List.flatMap_cons, List.flatMap_cons, List.foldl_append,
        foldl_line proper (allowed line List.mem_cons_self),
        ih _ (fun other member => allowed other (List.mem_cons_of_mem line member)),
        List.append_assoc]

theorem scan_table (proper : rules.Proper) {table : Table rules.delimiter}
    (allowed : table.Allowed rules) : scan rules table.render = between table.contents := by
  unfold scan Table.render Table.contents
  rw [List.foldl_append]
  have lines := foldl_lines proper table.lines [] allowed.lines
  rw [List.nil_append] at lines
  change finish rules (List.foldl (step rules)
    (List.foldl (step rules) (between []) (table.lines.flatMap Line.render)) _) = _
  rw [lines]
  cases last : table.last with
  | none =>
      rw [lastRender, lastContents, List.foldl_nil, List.append_nil]
      rfl
  | some row => exact close_row .text proper (allowed.last row last) _

def Unquoted (line : Bytes) : Prop :=
  ∀ b ∈ line, b ≠ quote ∧ b ≠ lineFeed ∧ b ≠ carriageReturn

theorem exists_splitCells (delimiter : UInt8) {line : Bytes} (unquoted : Unquoted line) :
    ∃ (first : Bytes) (others : List (Cell delimiter)),
      (∀ b ∈ first, b ≠ delimiter ∧ b ≠ quote ∧ b ≠ lineFeed) ∧
        (∀ b ∈ first, b ≠ carriageReturn) ∧ (∀ cell ∈ others, cell.NoReturn) ∧
        first ++ renderOthers others = line ∧
        first :: others.map Cell.content = line.splitOn delimiter := by
  induction line with
  | nil =>
      exact ⟨[], [], List.forall_mem_nil _, List.forall_mem_nil _, List.forall_mem_nil _, rfl, rfl⟩
  | cons b rest ih =>
      obtain ⟨notQuote, notFeed, notReturn⟩ := unquoted b List.mem_cons_self
      obtain ⟨first, others, bare, noReturn, later, shown, pieces⟩ :=
        ih (fun c member => unquoted c (List.mem_cons_of_mem b member))
      obtain ⟨head, tail, rest_split, split_cons⟩ := @Splitting.splitOn_cons _ _ delimiter b rest
      rw [rest_split] at pieces
      obtain ⟨sameHead, sameTail⟩ := List.cons.inj pieces
      rw [split_cons]
      by_cases delimits : b = delimiter
      · refine ⟨[], .plain first bare :: others, List.forall_mem_nil _, List.forall_mem_nil _,
          List.forall_mem_cons.mpr ⟨noReturn, later⟩, ?_, ?_⟩
        · rw [delimits]
          exact congrArg (List.cons delimiter) shown
        · rw [if_pos (beq_iff_eq.mpr delimits), List.map_cons, sameTail, ← sameHead]
          rfl
      · refine ⟨b :: first, others, ?_, ?_, later, congrArg (List.cons b) shown, ?_⟩
        · exact List.forall_mem_cons.mpr ⟨⟨delimits, notQuote, notFeed⟩, bare⟩
        · exact List.forall_mem_cons.mpr ⟨notReturn, noReturn⟩
        · rw [if_neg (fun same => delimits (beq_iff_eq.mp same)), sameTail, sameHead]

theorem exists_splitRow (delimiter : UInt8) {line : Bytes} (written : line ≠ [])
    (unquoted : Unquoted line) :
    ∃ row : TableRow delimiter, row.NoReturn ∧ row.render = line ∧
      row.contents = line.splitOn delimiter := by
  obtain ⟨first, others, bare, noReturn, later, shown, pieces⟩ :=
    exists_splitCells delimiter unquoted
  refine ⟨⟨.plain first bare, others, ?_⟩, ⟨noReturn, later⟩, shown, pieces⟩
  intro alone
  rw [alone, renderOthers, List.append_nil] at shown
  change first ≠ []
  rw [shown]
  exact written

theorem foldl_blanks {blanks : Bytes} (feeds : ∀ b ∈ blanks, b = lineFeed)
    (records : List (List Bytes)) :
    blanks.foldl (step rules) (between records) = between records := by
  induction blanks with
  | nil => rfl
  | cons b rest ih =>
      rw [List.foldl_cons, feeds b List.mem_cons_self, step_between (endsLine_feed rules),
        ih (fun c member => feeds c (List.mem_cons_of_mem b member))]

theorem foldl_firstLine (proper : rules.Proper) {blanks line : Bytes} (written : line ≠ [])
    (unquoted : Unquoted line) (feeds : ∀ b ∈ blanks, b = lineFeed) :
    (blanks ++ (line ++ [lineFeed])).foldl (step rules) {} =
      between [line.splitOn rules.delimiter] := by
  obtain ⟨row, noReturn, shown, pieces⟩ := exists_splitRow rules.delimiter written unquoted
  change (blanks ++ (line ++ [lineFeed])).foldl (step rules) (between []) = _
  rw [List.foldl_append, foldl_blanks feeds, List.foldl_append, ← shown]
  have closed := close_row (.line (endsLine_feed rules)) proper (fun _ => noReturn) []
  rw [pieces] at closed
  rw [shown] at closed ⊢
  exact closed

theorem scan_onlyLine (proper : rules.Proper) {blanks line : Bytes} (written : line ≠ [])
    (unquoted : Unquoted line) (feeds : ∀ b ∈ blanks, b = lineFeed) :
    scan rules (blanks ++ line) = between [line.splitOn rules.delimiter] := by
  obtain ⟨row, noReturn, shown, pieces⟩ := exists_splitRow rules.delimiter written unquoted
  unfold scan
  change finish rules ((blanks ++ line).foldl (step rules) (between [])) = _
  rw [List.foldl_append, foldl_blanks feeds, ← shown]
  have closed := close_row .text proper (fun _ => noReturn) []
  rw [pieces] at closed
  rw [shown] at closed ⊢
  exact closed

inductive Moves (s : Scan) : Scan → Prop
  | still : Moves s s
  | within {t : Scan} (records : t.records = s.records) (begun : t.position ≠ .startRecord) :
      Moves s t
  | ended : Moves s s.endRecord

theorem beginField_moves (rules : Rules) (s : Scan) (b : UInt8) :
    Moves s (beginField rules s b) := by
  unfold beginField
  split
  · exact .within rfl Position.noConfusion
  · split
    · exact .within rfl Position.noConfusion
    · split
      · exact .ended
      · exact .within rfl Position.noConfusion

theorem step_moves (rules : Rules) (s : Scan) (b : UInt8) : Moves s (step rules s b) := by
  unfold step
  split
  · exact .still
  · split
    · split
      · exact .still
      · exact beginField_moves rules s b
    · exact beginField_moves rules s b
    · rename_i inside
      split
      · exact .within rfl Position.noConfusion
      · split
        · exact .ended
        · split
          · exact .within rfl (fun same => Position.noConfusion (inside.symm.trans same))
          · exact .within rfl Position.noConfusion
    · split
      · exact .within rfl Position.noConfusion
      · exact .within rfl Position.noConfusion
    · rename_i after
      split
      · exact .within rfl Position.noConfusion
      · split
        · exact .within rfl Position.noConfusion
        · split
          · exact .ended
          · split
            · exact .within rfl Position.noConfusion
            · exact .within rfl (fun same => Position.noConfusion (after.symm.trans same))

def Scan.count (s : Scan) : Nat := s.records.length + if s.position = .startRecord then 0 else 1

theorem count_le (s : Scan) : s.count ≤ s.records.length + 1 := by
  unfold Scan.count
  split
  · omega
  · omega

theorem Moves.count {s t : Scan} (moves : Moves s t) : s.count ≤ t.count := by
  have most := count_le s
  cases moves with
  | still => exact Nat.le_refl _
  | within records begun =>
      unfold Scan.count at most ⊢
      rw [records, if_neg begun]
      exact most
  | ended =>
      have one : s.endRecord.count = s.records.length + 1 := by
        unfold Scan.count Scan.endRecord
        rw [if_pos rfl, List.length_append]
        rfl
      rw [one]
      exact most

theorem Moves.records {s t : Scan} (moves : Moves s t) : s.records <+: t.records := by
  cases moves with
  | still => exact List.prefix_refl _
  | within records _ => exact records ▸ List.prefix_refl _
  | ended => exact List.prefix_append _ _

theorem count_foldl (rules : Rules) (bytes : Bytes) (s : Scan) :
    s.count ≤ (bytes.foldl (step rules) s).count := by
  induction bytes generalizing s with
  | nil => exact Nat.le_refl _
  | cons b rest ih => exact Nat.le_trans (step_moves rules s b).count (ih (step rules s b))

theorem records_foldl (rules : Rules) (bytes : Bytes) (s : Scan) :
    s.records <+: (bytes.foldl (step rules) s).records := by
  induction bytes generalizing s with
  | nil => exact List.prefix_refl _
  | cons b rest ih => exact (step_moves rules s b).records.trans (ih (step rules s b))

theorem finish_moves (rules : Rules) (s : Scan) : s.records <+: (finish rules s).records := by
  unfold finish
  split
  · exact List.prefix_refl _
  · split
    · exact List.prefix_refl _
    · split
      · exact List.prefix_append _ _
      · exact List.prefix_refl _
    · exact List.prefix_append _ _

theorem fine_beginField (rules : Rules) (fine : s.problem = none) (b : UInt8) :
    (beginField rules s b).problem = none := by
  unfold beginField
  split
  · exact fine
  · split
    · exact fine
    · split
      · exact fine
      · exact fine

theorem fine_step (lenient : rules.lenient = true) (fine : s.problem = none)
    (b : UInt8) : (step rules s b).problem = none := by
  unfold step
  split
  · exact fine
  · split
    · split
      · exact fine
      · exact fine_beginField rules fine b
    · exact fine_beginField rules fine b
    · split
      · exact fine
      · split
        · exact fine
        · split
          · rename_i strict
            rw [lenient] at strict
            cases strict.2
          · exact fine
    · split
      · exact fine
      · exact fine
    · split
      · exact fine
      · split
        · exact fine
        · split
          · exact fine
          · exact fine

theorem fine_foldl (lenient : rules.lenient = true) (bytes : Bytes)
    (fine : s.problem = none) : (bytes.foldl (step rules) s).problem = none := by
  induction bytes generalizing s with
  | nil => exact fine
  | cons b rest ih => exact ih (fine_step lenient fine b)

theorem finish_count (lenient : rules.lenient = true) (fine : s.problem = none) :
    (finish rules s).records.length = s.count := by
  have ended : s.endRecord.records.length = s.records.length + 1 := by
    unfold Scan.endRecord
    rw [List.length_append]
    rfl
  unfold finish Scan.count
  rw [fine]
  cases position : s.position with
  | startRecord => rfl
  | startField => exact ended
  | inField => exact ended
  | inQuoted =>
      dsimp only
      rw [if_pos lenient]
      exact ended
  | afterQuote => exact ended

theorem scan_take_length (lenient : rules.lenient = true) (bytes : Bytes) (length : Nat) :
    (scan rules (bytes.take length)).records.length ≤ (scan rules bytes).records.length := by
  unfold scan
  rw [finish_count lenient (fine_foldl lenient _ rfl), finish_count lenient (fine_foldl lenient _ rfl)]
  have whole := count_foldl rules (bytes.drop length) ((bytes.take length).foldl (step rules) {})
  rw [← List.foldl_append, List.take_append_drop] at whole
  exact whole

theorem scan_begins {start : Bytes} {records : List (List Bytes)}
    (read : start.foldl (step rules) {} = between records) (rest : Bytes) :
    records <+: (scan rules (start ++ rest)).records := by
  unfold scan
  rw [List.foldl_append, read]
  exact (records_foldl rules rest (between records)).trans (finish_moves rules _)

/-! ### What a strict scanner accepts -/

def renderBefore {delimiter : UInt8} (cells : List (Cell delimiter)) : Bytes :=
  cells.flatMap (fun cell => cell.render ++ [delimiter])

/-- How much of a cell may have been written at a position of the scanner. -/
inductive Begun (rules : Rules) : Position → List (Cell rules.delimiter) → Bytes → Prop
  | startRecord : Begun rules .startRecord [] []
  | startField {before : List (Cell rules.delimiter)} (some_before : before ≠ []) :
      Begun rules .startField before []
  | inField {before : List (Cell rules.delimiter)} {bytes : Bytes} (written : bytes ≠ [])
      (bare : ∀ b ∈ bytes, b ≠ rules.delimiter ∧ b ≠ quote ∧ b ≠ lineFeed) :
      Begun rules .inField before bytes
  | inQuoted {before : List (Cell rules.delimiter)} (bytes : Bytes) :
      Begun rules .inQuoted before (quote :: escape bytes)
  | afterQuote {before : List (Cell rules.delimiter)} (bytes : Bytes) :
      Begun rules .afterQuote before (quote :: (escape bytes ++ [quote]))

/-- The bytes read so far are lines, cells of the next line, and part of a cell. -/
def Written (rules : Rules) (position : Position) (bytes : Bytes) : Prop :=
  ∃ (lines : List (Line rules.delimiter)) (before : List (Cell rules.delimiter)) (tail : Bytes),
    (∀ line ∈ lines, line.Allowed rules) ∧ Begun rules position before tail ∧
      bytes = lines.flatMap Line.render ++ (renderBefore before ++ tail)

theorem exists_row {delimiter : UInt8} (before : List (Cell delimiter)) (cell : Cell delimiter)
    (written : before ≠ [] ∨ cell.render ≠ []) :
    ∃ row : TableRow delimiter, row.render = renderBefore before ++ cell.render := by
  have others : ∀ rest : List (Cell delimiter), delimiter :: renderBefore rest ++ cell.render =
      renderOthers (rest ++ [cell]) := by
    intro rest
    induction rest with
    | nil => simp only [renderBefore, renderOthers, List.flatMap_nil, List.nil_append,
        List.singleton_append, List.append_nil]
    | cons next rest ih =>
        simp only [renderBefore, renderOthers, List.flatMap_cons, List.cons_append,
          List.append_assoc, List.nil_append] at ih ⊢
        rw [ih]
  cases before with
  | nil =>
      have shown : cell.render ≠ [] := written.resolve_left (fun some_before => some_before rfl)
      refine ⟨⟨cell, [], fun _ => shown⟩, ?_⟩
      simp only [TableRow.render, renderOthers, renderBefore, List.append_nil, List.flatMap_nil,
        List.nil_append]
  | cons first rest =>
      have more : rest ++ [cell] ≠ [] := by
        simp
      refine ⟨⟨first, rest ++ [cell], fun none_left => absurd none_left more⟩, ?_⟩
      simp only [TableRow.render]
      rw [← others rest]
      simp only [renderBefore, List.flatMap_cons, List.append_assoc, List.cons_append,
        List.nil_append]

theorem Begun.cell {position : Position} {before : List (Cell rules.delimiter)} {tail : Bytes}
    (begun : Begun rules position before tail) (closed : position ≠ .inQuoted) :
    ∃ cell : Cell rules.delimiter, cell.render = tail := by
  cases begun with
  | startRecord => exact ⟨.plain [] (fun _ absent => by cases absent), rfl⟩
  | startField some_before => exact ⟨.plain [] (fun _ absent => by cases absent), rfl⟩
  | inField written bare => exact ⟨.plain tail bare, rfl⟩
  | inQuoted bytes => exact absurd rfl closed
  | afterQuote bytes => exact ⟨.quoted bytes, rfl⟩

theorem Begun.row {position : Position} {before : List (Cell rules.delimiter)} {tail : Bytes}
    (begun : Begun rules position before tail) (closed : position ≠ .inQuoted)
    (started : position ≠ .startRecord) :
    ∃ row : TableRow rules.delimiter, row.render = renderBefore before ++ tail := by
  obtain ⟨cell, shown⟩ := begun.cell closed
  have written : before ≠ [] ∨ cell.render ≠ [] := by
    rw [shown]
    cases begun with
    | startRecord => exact absurd rfl started
    | startField some_before => exact .inl some_before
    | inField written bare => exact .inr written
    | inQuoted bytes => exact absurd rfl closed
    | afterQuote bytes => exact .inr (List.cons_ne_nil _ _)
  obtain ⟨row, rendered⟩ := exists_row before cell written
  exact ⟨row, by rw [rendered, shown]⟩

theorem escape_append (first second : Bytes) : escape (first ++ second) = escape first ++ escape second := by
  induction first with
  | nil => rfl
  | cons b rest ih =>
      rw [List.cons_append, escape, escape, ih]
      split
      · rfl
      · rfl

section Steps

variable {position later : Position} {bytes : Bytes} {b : UInt8}

theorem Written.grow (written : Written rules position bytes)
    (grows : ∀ before tail, Begun rules position before tail →
      Begun rules later before (tail ++ [b])) : Written rules later (bytes ++ [b]) := by
  obtain ⟨lines, before, tail, allowed, begun, rfl⟩ := written
  refine ⟨lines, before, tail ++ [b], allowed, grows before tail begun, ?_⟩
  simp only [List.append_assoc]

theorem Written.endField (written : Written rules position bytes) (closed : position ≠ .inQuoted) :
    Written rules .startField (bytes ++ [rules.delimiter]) := by
  obtain ⟨lines, before, tail, allowed, begun, rfl⟩ := written
  obtain ⟨cell, shown⟩ := begun.cell closed
  refine ⟨lines, before ++ [cell], [], allowed, .startField (by simp), ?_⟩
  simp only [renderBefore, List.flatMap_append, List.flatMap_cons, List.flatMap_nil, shown,
    List.append_assoc, List.append_nil]

theorem allowed_feed (feeds : rules.crEndsLine = false) (row : TableRow rules.delimiter) :
    row.Allowed rules := by
  intro returns
  rw [feeds] at returns
  cases returns

theorem allowed_append {lines : List (Line rules.delimiter)} {line : Line rules.delimiter}
    (before : ∀ other ∈ lines, other.Allowed rules) (allowed : line.Allowed rules) :
    ∀ other ∈ lines ++ [line], other.Allowed rules := by
  intro other member
  rcases List.mem_append.mp member with early | last
  · exact before other early
  · rw [List.mem_singleton.mp last]
    exact allowed

theorem Written.endRecord (feeds : rules.crEndsLine = false)
    (written : Written rules position bytes) (closed : position ≠ .inQuoted)
    (started : position ≠ .startRecord) : Written rules .startRecord (bytes ++ [lineFeed]) := by
  obtain ⟨lines, before, tail, allowed, begun, rfl⟩ := written
  obtain ⟨row, shown⟩ := begun.row closed started
  have ended : Line.Allowed rules (.row row .feed) := ⟨allowed_feed feeds row, trivial⟩
  refine ⟨lines ++ [.row row .feed], [], [], allowed_append allowed ended, .startRecord, ?_⟩
  simp only [renderBefore, List.flatMap_append, List.flatMap_cons, List.flatMap_nil, Line.render,
    LineEnd.render, shown, List.append_assoc, List.append_nil]

theorem eq_feed (feeds : rules.crEndsLine = false) (ends : rules.endsLine b = true) :
    b = lineFeed := by
  unfold Rules.endsLine at ends
  rw [feeds, Bool.false_and, Bool.or_false] at ends
  exact eq_of_beq ends

theorem written_beginField (feeds : rules.crEndsLine = false)
    (written : Written rules s.position bytes) (starts : s.position = .startField ∨
      (s.position = .startRecord ∧ rules.endsLine b = false)) :
    Written rules (beginField rules s b).position (bytes ++ [b]) := by
  have closed : s.position ≠ .inQuoted := by
    rcases starts with field | ⟨record, _⟩
    · rw [field]
      exact Position.noConfusion
    · rw [record]
      exact Position.noConfusion
  have unwritten : ∀ before tail, Begun rules s.position before tail → tail = [] := by
    intro before tail begun
    rcases starts with field | ⟨record, _⟩
    · rw [field] at begun
      cases begun
      rfl
    · rw [record] at begun
      cases begun
      rfl
  unfold beginField
  split
  · rename_i quoted
    apply written.grow
    intro before tail begun
    rw [unwritten before tail begun, quoted]
    exact .inQuoted []
  · split
    · rename_i delimits
      rw [delimits]
      exact written.endField closed
    · split
      · rename_i ends
        rw [eq_feed feeds ends]
        apply written.endRecord feeds closed
        rcases starts with field | ⟨_, inLine⟩
        · rw [field]
          exact Position.noConfusion
        · rw [inLine] at ends
          cases ends
      · rename_i notQuote notDelimiter inLine
        apply written.grow
        intro before tail begun
        rw [unwritten before tail begun]
        apply Begun.inField (List.cons_ne_nil _ _)
        intro c member
        rw [List.mem_singleton.mp member]
        refine ⟨notDelimiter, notQuote, ?_⟩
        intro feed
        rw [feed] at inLine
        exact inLine (endsLine_feed rules)

theorem written_step (strict : rules.lenient = false)
    (feeds : rules.crEndsLine = false) (fine : s.problem = none) (written : Written rules s.position bytes)
    (stillFine : (step rules s b).problem = none) :
    Written rules (step rules s b).position (bytes ++ [b]) := by
  unfold step at stillFine ⊢
  rw [fine] at stillFine ⊢
  simp only [Option.isSome_none, Bool.false_eq_true, if_false] at stillFine ⊢
  cases position : s.position with
  | startRecord =>
      dsimp only
      split
      · rename_i ends
        rw [eq_feed feeds ends, position]
        rw [position] at written
        obtain ⟨lines, before, tail, allowed, begun, rfl⟩ := written
        cases begun
        have blank : Line.Allowed rules (.blank .feed) := trivial
        refine ⟨lines ++ [.blank .feed], [], [], allowed_append allowed blank, .startRecord, ?_⟩
        simp only [renderBefore, List.flatMap_append, List.flatMap_cons, List.flatMap_nil,
          Line.render, LineEnd.render, List.append_nil]
      · rename_i inLine
        exact written_beginField feeds written
          (.inr ⟨position, Bool.eq_false_iff.mpr inLine⟩)
  | startField => exact written_beginField feeds written (.inl position)
  | inField =>
      rw [position] at written stillFine
      dsimp only at stillFine ⊢
      split
      · rename_i delimits
        rw [delimits]
        exact written.endField Position.noConfusion
      · rename_i notDelimiter
        split
        · rename_i ends
          rw [eq_feed feeds ends]
          exact written.endRecord feeds Position.noConfusion Position.noConfusion
        · rename_i inLine
          simp only [if_neg notDelimiter, if_neg inLine] at stillFine
          split
          · rename_i stray
            rw [if_pos stray] at stillFine
            cases stillFine
          · rename_i noStray
            apply written.grow
            intro before tail begun
            cases begun with
            | inField some_written bare =>
                apply Begun.inField (by simp)
                intro c member
                rcases List.mem_append.mp member with early | last
                · exact bare c early
                · rw [List.mem_singleton.mp last]
                  refine ⟨notDelimiter, fun quoted => noStray ⟨quoted, strict⟩, ?_⟩
                  intro feed
                  rw [feed] at inLine
                  exact inLine (endsLine_feed rules)
  | inQuoted =>
      rw [position] at written
      dsimp only
      split
      · rename_i quoted
        apply written.grow
        intro before tail begun
        cases begun with
        | inQuoted content =>
            rw [quoted]
            exact .afterQuote content
      · rename_i other
        apply written.grow
        intro before tail begun
        cases begun with
        | inQuoted content =>
            have longer : escape (content ++ [b]) = escape content ++ [b] := by
              rw [escape_append, escape, if_neg other]
              rfl
            rw [List.cons_append, ← longer]
            exact .inQuoted (content ++ [b])
  | afterQuote =>
      rw [position] at written stillFine
      dsimp only at stillFine ⊢
      split
      · rename_i quoted
        apply written.grow
        intro before tail begun
        cases begun with
        | afterQuote content =>
            have longer : escape (content ++ [b]) = escape content ++ [quote] ++ [b] := by
              rw [escape_append, escape, if_pos quoted, quoted, List.append_assoc]
              rfl
            rw [List.cons_append, ← longer]
            exact .inQuoted (content ++ [b])
      · rename_i notQuote
        split
        · rename_i delimits
          rw [delimits]
          exact written.endField Position.noConfusion
        · rename_i notDelimiter
          split
          · rename_i ends
            rw [eq_feed feeds ends]
            exact written.endRecord feeds Position.noConfusion Position.noConfusion
          · rename_i inLine
            simp only [if_neg notQuote, if_neg notDelimiter, if_neg inLine, strict,
              Bool.false_eq_true, if_false] at stillFine
            cases stillFine

end Steps

theorem step_problem (problem : s.problem ≠ none) (b : UInt8) : step rules s b = s := by
  unfold step
  rw [if_pos (Option.isSome_iff_ne_none.mpr problem)]

theorem foldl_problem (problem : s.problem ≠ none) (bytes : Bytes) :
    bytes.foldl (step rules) s = s := by
  induction bytes with
  | nil => rfl
  | cons b rest ih => rw [List.foldl_cons, step_problem problem, ih]

theorem written_foldl (strict : rules.lenient = false) (feeds : rules.crEndsLine = false)
    (bytes : Bytes) :
    ∀ (s : Scan) (before : Bytes), s.problem = none → Written rules s.position before →
      (bytes.foldl (step rules) s).problem = none →
      Written rules (bytes.foldl (step rules) s).position (before ++ bytes) := by
  induction bytes with
  | nil =>
      intro s before _fine written _stillFine
      rw [List.append_nil]
      exact written
  | cons b rest ih =>
      intro s before fine written stillFine
      rw [List.foldl_cons] at stillFine ⊢
      have stepFine : (step rules s b).problem = none := by
        apply Classical.byContradiction
        intro problem
        rw [foldl_problem problem] at stillFine
        exact problem stillFine
      have stepped := written_step strict feeds fine written stepFine
      have whole := ih (step rules s b) (before ++ [b]) stepFine stepped stillFine
      rw [List.append_assoc] at whole
      exact whole

theorem exists_table (strict : rules.lenient = false) (feeds : rules.crEndsLine = false)
    {bytes : Bytes} (accepted : (scan rules bytes).problem = none) :
    ∃ table : Table rules.delimiter, table.Allowed rules ∧ table.render = bytes := by
  have fine : (bytes.foldl (step rules) {}).problem = none := by
    apply Classical.byContradiction
    intro problem
    unfold scan finish at accepted
    rw [if_pos (Option.isSome_iff_ne_none.mpr problem)] at accepted
    exact problem accepted
  have written := written_foldl strict feeds bytes {} [] rfl
    ⟨[], [], [], List.forall_mem_nil _, .startRecord, rfl⟩ fine
  obtain ⟨lines, before, tail, allowed, begun, whole⟩ := written
  rw [List.nil_append] at whole
  have closed : (bytes.foldl (step rules) {}).position ≠ .inQuoted := by
    intro quoted
    unfold scan finish at accepted
    simp only [fine, quoted, strict, Option.isSome_none, Bool.false_eq_true, if_false] at accepted
    cases accepted
  by_cases ended : (bytes.foldl (step rules) {}).position = .startRecord
  · rw [ended] at begun
    cases begun
    exact ⟨⟨lines, none⟩, ⟨allowed, fun row absent => by cases absent⟩, whole.symm⟩
  · obtain ⟨row, shown⟩ := begun.row closed ended
    refine ⟨⟨lines, some row⟩, ⟨allowed, fun other _last => allowed_feed feeds other⟩, ?_⟩
    rw [Table.render, lastRender, shown, whole]

end Reading

/-! ### Line ends made alike -/

/-- Without the carriage returns that stand before a line feed. -/
def feedOnly : Bytes → Bytes
  | [] => []
  | b :: rest =>
      if b = carriageReturn ∧ rest.head? = some lineFeed then feedOnly rest else b :: feedOnly rest

/-- The same for a whole text, where a carriage return at the end goes too. -/
def normalizeLines : Bytes → Bytes
  | [] => []
  | b :: rest =>
      if b = carriageReturn ∧ (rest = [] ∨ rest.head? = some lineFeed) then normalizeLines rest
      else b :: normalizeLines rest

section Alike

variable {delimiter : UInt8}

def Cell.normalized : Cell delimiter → Cell delimiter
  | .plain bytes bare => .plain bytes bare
  | .quoted bytes => .quoted (feedOnly bytes)

theorem Cell.normalized_written {cell : Cell delimiter} (written : cell.render ≠ []) :
    cell.normalized.render ≠ [] := by
  cases cell with
  | plain bytes bare => exact written
  | quoted bytes => exact List.cons_ne_nil _ _

def TableRow.normalized (row : TableRow delimiter) : TableRow delimiter where
  first := row.first.normalized
  others := row.others.map Cell.normalized
  written := fun alone =>
    Cell.normalized_written (row.written (List.map_eq_nil_iff.mp alone))

def Line.normalized : Line delimiter → Line delimiter
  | .row cells _ => .row cells.normalized .feed
  | .blank _ => .blank .feed

def Table.normalized (table : Table delimiter) : Table delimiter where
  lines := table.lines.map Line.normalized
  last := table.last.map TableRow.normalized

/-! Without carriage returns at all there are none outside quotes. -/

theorem Cell.noReturn_of_render {cell : Cell delimiter}
    (bare : ∀ b ∈ cell.render, b ≠ carriageReturn) : cell.NoReturn := by
  cases cell with
  | plain bytes _ => exact bare
  | quoted bytes => trivial

theorem noReturn_of_renderOthers {others : List (Cell delimiter)}
    (bare : ∀ b ∈ renderOthers others, b ≠ carriageReturn) : ∀ cell ∈ others, cell.NoReturn := by
  induction others with
  | nil => exact List.forall_mem_nil _
  | cons cell rest ih =>
      rw [renderOthers] at bare
      have behind := (List.forall_mem_cons.mp bare).2
      obtain ⟨first, later⟩ := List.forall_mem_append.mp behind
      exact List.forall_mem_cons.mpr ⟨Cell.noReturn_of_render first, ih later⟩

theorem TableRow.noReturn_of_render {row : TableRow delimiter}
    (bare : ∀ b ∈ row.render, b ≠ carriageReturn) : row.NoReturn := by
  obtain ⟨first, others⟩ := List.forall_mem_append.mp bare
  exact ⟨Cell.noReturn_of_render first, noReturn_of_renderOthers others⟩

theorem Table.noReturn_of_render {table : Table delimiter}
    (bare : ∀ b ∈ table.render, b ≠ carriageReturn) : table.NoReturn := by
  obtain ⟨inLines, inLast⟩ := List.forall_mem_append.mp bare
  constructor
  · intro line member
    have inLine : ∀ b ∈ line.render, b ≠ carriageReturn :=
      fun b inside => inLines b (List.mem_flatMap.mpr ⟨line, member, inside⟩)
    cases line with
    | row cells ending =>
        exact TableRow.noReturn_of_render (List.forall_mem_append.mp inLine).1
    | blank ending => trivial
  · intro row last
    rw [Option.mem_def.mp last] at inLast
    exact TableRow.noReturn_of_render inLast

theorem normalizeLines_cons {b : UInt8} (other : b ≠ carriageReturn) (rest : Bytes) :
    normalizeLines (b :: rest) = b :: normalizeLines rest := by
  rw [normalizeLines, if_neg (fun both => other both.1)]

theorem normalizeLines_plain {bytes : Bytes} (bare : ∀ b ∈ bytes, b ≠ carriageReturn)
    (tail : Bytes) : normalizeLines (bytes ++ tail) = bytes ++ normalizeLines tail := by
  induction bytes with
  | nil => rfl
  | cons b rest ih =>
      rw [List.cons_append, normalizeLines_cons (bare b List.mem_cons_self),
        ih (fun c member => bare c (List.mem_cons_of_mem b member)), List.cons_append]

theorem head_escape (bytes tail : Bytes) :
    (escape bytes ++ quote :: tail).head? = some lineFeed ↔ bytes.head? = some lineFeed := by
  cases bytes with
  | nil =>
      constructor
      · intro impossible
        cases impossible
      · intro impossible
        cases impossible
  | cons b rest =>
      rw [escape]
      split
      · rename_i quoted
        rw [quoted]
        rfl
      · rfl

theorem normalizeLines_escape (bytes tail : Bytes) :
    normalizeLines (escape bytes ++ quote :: tail) =
      escape (feedOnly bytes) ++ quote :: normalizeLines tail := by
  have plainQuote : quote ≠ carriageReturn := by
    decide
  induction bytes with
  | nil => exact normalizeLines_cons plainQuote tail
  | cons b rest ih =>
      by_cases quoted : b = quote
      · have kept : feedOnly (b :: rest) = b :: feedOnly rest := by
          rw [feedOnly, if_neg (fun both => plainQuote (quoted.symm.trans both.1))]
        rw [kept, escape, escape, if_pos quoted, if_pos quoted, List.cons_append, List.cons_append,
          normalizeLines_cons plainQuote, normalizeLines_cons plainQuote, ih]
        rfl
      · have more : escape rest ++ quote :: tail ≠ [] := by
          simp
        rw [escape, if_neg quoted, List.cons_append, normalizeLines, feedOnly]
        simp only [more, false_or, head_escape]
        split
        · exact ih
        · rw [ih, escape, if_neg quoted, List.cons_append]

theorem normalizeLines_cell {cell : Cell delimiter} (noReturn : cell.NoReturn) (tail : Bytes) :
    normalizeLines (cell.render ++ tail) = cell.normalized.render ++ normalizeLines tail := by
  cases cell with
  | plain bytes bare => exact normalizeLines_plain noReturn tail
  | quoted bytes =>
      simp only [Cell.render, Cell.normalized, List.cons_append, List.append_assoc,
        List.nil_append]
      rw [normalizeLines_cons (by decide), normalizeLines_escape]

theorem normalizeLines_others (proper : delimiter ≠ carriageReturn) {others : List (Cell delimiter)}
    (noReturn : ∀ cell ∈ others, cell.NoReturn) (tail : Bytes) :
    normalizeLines (renderOthers others ++ tail) =
      renderOthers (others.map Cell.normalized) ++ normalizeLines tail := by
  induction others with
  | nil => rfl
  | cons cell rest ih =>
      obtain ⟨first, later⟩ := List.forall_mem_cons.mp noReturn
      simp only [renderOthers, List.map_cons, List.cons_append, List.append_assoc]
      rw [normalizeLines_cons proper, normalizeLines_cell first, ih later]

theorem normalizeLines_row (proper : delimiter ≠ carriageReturn) {row : TableRow delimiter}
    (noReturn : row.NoReturn) (tail : Bytes) :
    normalizeLines (row.render ++ tail) = row.normalized.render ++ normalizeLines tail := by
  unfold TableRow.render
  rw [List.append_assoc, normalizeLines_cell noReturn.1,
    normalizeLines_others proper noReturn.2, List.append_assoc]
  rfl

theorem normalizeLines_ending (ending : LineEnd) (tail : Bytes) :
    normalizeLines (ending.render ++ tail) = lineFeed :: normalizeLines tail := by
  have plainFeed : lineFeed ≠ carriageReturn := by
    decide
  cases ending with
  | feed => exact normalizeLines_cons plainFeed tail
  | returnFeed =>
      change normalizeLines (carriageReturn :: lineFeed :: tail) = _
      rw [normalizeLines, if_pos ⟨rfl, .inr rfl⟩, normalizeLines_cons plainFeed]

theorem normalizeLines_line (proper : delimiter ≠ carriageReturn) {line : Line delimiter}
    (noReturn : line.NoReturn) (tail : Bytes) :
    normalizeLines (line.render ++ tail) = line.normalized.render ++ normalizeLines tail := by
  cases line with
  | row row ending =>
      simp only [Line.render, Line.normalized, List.append_assoc]
      rw [normalizeLines_row proper noReturn, normalizeLines_ending]
      rfl
  | blank ending => exact normalizeLines_ending ending tail

theorem normalizeLines_table (proper : delimiter ≠ carriageReturn) {table : Table delimiter}
    (noReturn : table.NoReturn) : normalizeLines table.render = table.normalized.render := by
  unfold Table.render Table.normalized
  have lines : ∀ (lines : List (Line delimiter)) (tail : Bytes), (∀ line ∈ lines, line.NoReturn) →
      normalizeLines (lines.flatMap Line.render ++ tail) =
        (lines.map Line.normalized).flatMap Line.render ++ normalizeLines tail := by
    intro lines tail each
    induction lines with
    | nil => rfl
    | cons line rest ih =>
        obtain ⟨first, later⟩ := List.forall_mem_cons.mp each
        rw [List.flatMap_cons, List.map_cons, List.flatMap_cons, List.append_assoc,
          normalizeLines_line proper first, ih later, List.append_assoc]
  rw [lines _ _ noReturn.lines]
  cases last : table.last with
  | none => rfl
  | some row =>
      have final := normalizeLines_row proper (noReturn.last row last) []
      rw [List.append_nil, normalizeLines, List.append_nil] at final
      change _ ++ normalizeLines row.render = _ ++ row.normalized.render
      rw [final]

theorem feedOnly_bare {bytes : Bytes} (bare : ∀ b ∈ bytes, b ≠ carriageReturn) :
    feedOnly bytes = bytes := by
  induction bytes with
  | nil => rfl
  | cons b rest ih =>
      rw [feedOnly, if_neg (fun both => bare b List.mem_cons_self both.1),
        ih (fun c member => bare c (List.mem_cons_of_mem b member))]

theorem normalized_content {cell : Cell delimiter} (noReturn : cell.NoReturn) :
    cell.normalized.content = feedOnly cell.content := by
  cases cell with
  | plain bytes bare => exact (feedOnly_bare noReturn).symm
  | quoted bytes => rfl

theorem TableRow.normalized_contents {row : TableRow delimiter} (noReturn : row.NoReturn) :
    row.normalized.contents = row.contents.map feedOnly := by
  unfold TableRow.contents TableRow.normalized
  rw [List.map_cons, List.map_map, List.map_map, normalized_content noReturn.1]
  congr 1
  apply List.map_congr_left
  intro cell member
  exact normalized_content (noReturn.2 cell member)

theorem Table.normalized_contents {table : Table delimiter} (noReturn : table.NoReturn) :
    table.normalized.contents = table.contents.map (List.map feedOnly) := by
  have lines : ∀ lines : List (Line delimiter), (∀ line ∈ lines, line.NoReturn) →
      (lines.map Line.normalized).flatMap Line.contents =
        (lines.flatMap Line.contents).map (List.map feedOnly) := by
    intro lines each
    induction lines with
    | nil => rfl
    | cons line rest ih =>
        obtain ⟨first, later⟩ := List.forall_mem_cons.mp each
        rw [List.map_cons, List.flatMap_cons, List.flatMap_cons, List.map_append, ih later]
        cases line with
        | row row ending =>
            simp only [Line.normalized, Line.contents, List.map_cons, List.map_nil]
            rw [TableRow.normalized_contents first]
        | blank ending => rfl
  unfold Table.contents Table.normalized
  rw [lines _ noReturn.lines, List.map_append]
  cases last : table.last with
  | none => rfl
  | some row =>
      change _ ++ [row.normalized.contents] = _ ++ [row.contents.map feedOnly]
      rw [TableRow.normalized_contents (noReturn.last row last)]

end Alike

end DelimitedText
