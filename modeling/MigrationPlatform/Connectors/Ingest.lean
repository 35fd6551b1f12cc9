/-
The `Ingest` activity over a source connector, and what a connector must do
for repeated calls to add up to one pass over the source.

A call opens the connector at the offset of the call before and reads one
batch. Authorizing the source and comparing its version come before and are
left out: the calls considered here all read the same content.
-/

import MigrationPlatform.Foundation.ResumableIteration

namespace MigrationPlatform.Connectors

open ResumableIteration

/-- A decoded value, as in `any`. -/
inductive Value
  | null
  | bool (value : Bool)
  | number (text : String)
  | text (value : String)
  | list (items : List Value)
  | object (fields : List (String × Value))

/-- A `map[string]any`, as its entries. -/
abbrev Data := List (String × Value)

def getKey (value : Value) (key : String) : Option Value :=
  match value with
  | .object fields => fields.lookup key
  | _ => none

def asStr : Value → Option String
  | .text text => some text
  | _ => none

def asObject : Value → Option Data
  | .object fields => some fields
  | _ => none

def mapFields : Value → Data
  | .object fields => fields
  | _ => []

def Data.set (data : Data) (key : String) (value : Value) : Data :=
  if data.any (fun entry => entry.1 == key) then
    data.map (fun entry => if entry.1 = key then (key, value) else entry)
  else data ++ [(key, value)]

theorem Data.lookup_none_iff {data : Data} {key : String} :
    data.lookup key = none ↔ key ∉ data.map Prod.fst := by
  rw [List.lookup_eq_none_iff, List.mem_map]
  constructor
  · rintro none_of ⟨entry, member, same⟩
    have differs := none_of entry member
    rw [same, bne_self_eq_false] at differs
    cases differs
  · intro absent entry member
    rw [bne_iff_ne]
    intro same
    exact absent ⟨entry, member, same.symm⟩

theorem Data.mem_iff_lookup {data : Data} (distinct : (data.map Prod.fst).Nodup) {name : String}
    {value : Value} : (name, value) ∈ data ↔ data.lookup name = some value := by
  induction data with
  | nil => simp
  | cons entry rest ih =>
      obtain ⟨key, held⟩ := entry
      have apart := List.nodup_cons.mp distinct
      rw [List.lookup_cons, List.mem_cons]
      by_cases same : name = key
      · subst same
        have outside : (name, value) ∉ rest := by
          intro member
          exact apart.1 (List.mem_map.mpr ⟨_, member, rfl⟩)
        simp [outside, eq_comm]
      · rw [beq_false_of_ne same]
        simp [same, ih apart.2]

theorem Data.names_set (data : Data) (key : String) (value : Value) :
    (data.set key value).map Prod.fst =
      if key ∈ data.map Prod.fst then data.map Prod.fst else data.map Prod.fst ++ [key] := by
  have found : data.any (fun entry => entry.1 == key) = true ↔ key ∈ data.map Prod.fst := by
    simp [List.any_eq_true, List.mem_map]
  unfold Data.set
  by_cases present : key ∈ data.map Prod.fst
  · rw [if_pos (found.mpr present), if_pos present, List.map_map]
    apply List.map_congr_left
    intro entry _member
    by_cases same : entry.1 = key
    · rw [Function.comp_apply, if_pos same, same]
    · rw [Function.comp_apply, if_neg same]
  · rw [if_neg (fun any => present (found.mp any)), if_neg present, List.map_append]
    rfl

theorem Data.nodup_set {data : Data} (distinct : (data.map Prod.fst).Nodup) (key : String)
    (value : Value) : ((data.set key value).map Prod.fst).Nodup := by
  rw [Data.names_set]
  by_cases present : key ∈ data.map Prod.fst
  · rw [if_pos present]
    exact distinct
  · rw [if_neg present]
    exact List.nodup_append.mpr ⟨distinct, List.pairwise_singleton _ key,
      fun name member other single same => present (List.mem_singleton.mp single ▸ same ▸ member)⟩

private theorem Data.lookup_map_set (data : Data) (key name : String) (value : Value) :
    (data.map (fun entry => if entry.1 = key then (key, value) else entry)).lookup name =
      if name = key then (data.lookup key).map (fun _ => value) else data.lookup name := by
  induction data with
  | nil => simp
  | cons entry rest ih =>
      obtain ⟨own, held⟩ := entry
      by_cases same : own = key
      · subst same
        by_cases asked : name = own
        · subst asked
          simp
        · have other : (name == own) = false := by simpa using asked
          simpa [List.lookup_cons, asked, other] using ih
      · by_cases asked : name = key
        · subst asked
          have other : (name == own) = false := by simpa using fun h => same h.symm
          simpa [same, List.lookup_cons, other] using ih
        · by_cases found : name = own
          · subst found
            simp [same]
          · have other : (name == own) = false := by simpa using found
            simpa [same, asked, List.lookup_cons, other] using ih

theorem Data.lookup_set (data : Data) (key name : String) (value : Value) :
    (data.set key value).lookup name = if name = key then some value else data.lookup name := by
  unfold Data.set
  split
  · rename_i present
    rw [Data.lookup_map_set]
    split
    · obtain ⟨entry, member, same⟩ := List.any_eq_true.mp present
      cases found : data.lookup key with
      | none =>
          have named := List.mem_map_of_mem (f := Prod.fst) member
          rw [eq_of_beq same] at named
          exact absurd named (Data.lookup_none_iff.mp found)
      | some old => rfl
    · rfl
  · rename_i absent
    have missing : data.lookup key = none := by
      rw [Data.lookup_none_iff]
      intro named
      obtain ⟨entry, member, same⟩ := List.mem_map.mp named
      exact absent (List.any_eq_true.mpr ⟨entry, member, beq_iff_eq.mpr same⟩)
    rw [List.lookup_append]
    split
    · rename_i same
      rw [same, missing]
      simp
    · rename_i other
      have apart : (name == key) = false := by simpa using other
      simp [List.lookup_cons, apart]

structure Row where
  index : Int
  data : Data

/-- `items` is the number of rows delivered and the index of the next one. -/
structure Offset where
  bytes : Int := 0
  items : Int := 0
  salesforceJobID : String := ""
  salesforceLocator : String := ""
  salesforceSkip : Int := 0
  s3Continuation : String := ""
deriving DecidableEq, Repr

inductive SourceError
  | notReady
  | invalidOffset (message : String)
  | other (message : String)
deriving DecidableEq, Repr

/-- What `Next` returns; its flag `more` is the first constructor. -/
inductive NextResult (Iter : Type)
  | row (row : Row) (offset : Offset) (iter : Iter)
  | done (offset : Offset)
  | failed (offset : Offset) (err : SourceError)

structure Connector (Iter : Type) where
  openAt : Offset → Except SourceError Iter
  next : Iter → NextResult Iter
  version : String := ""

structure IngestOutput where
  rows : List Row := []
  newOffset : Offset := {}
  done : Bool := false
  pending : Bool := false
  sourceVersion : String := ""

inductive IngestError
  | invalidCheckpoint (message : String)
  | plain (message : String)
deriving DecidableEq, Repr

def SourceError.ingestError : SourceError → IngestError
  | .notReady => .plain "source not ready"
  | .invalidOffset message => .invalidCheckpoint message
  | .other message => .plain message

def batchLimit (batchSize : Int) : Nat := if batchSize ≤ 0 then 500 else batchSize.toNat

def rowLimit : List Int → Nat
  | [] => 0
  | size :: rest => batchLimit size + rowLimit rest

section Ingest

variable {Iter : Type}

/-- The loop of `Ingest`; the first argument is what is left of the batch. -/
def ingestLoop (next : Iter → NextResult Iter) :
    Nat → Iter → IngestOutput → IngestOutput × Option IngestError
  | 0, _, out => (out, none)
  | left + 1, iter, out =>
      match next iter with
      | .failed offset err =>
          if err = .notReady ∧ out.rows.isEmpty = true then
            ({ out with newOffset := offset, pending := true }, none)
          else (out, some err.ingestError)
      | .done offset => ({ out with newOffset := offset, done := true }, none)
      | .row row offset later =>
          ingestLoop next left later { out with rows := out.rows ++ [row], newOffset := offset }

def ingest (connector : Connector Iter) (offset : Offset) (batchSize : Int) :
    IngestOutput × Option IngestError :=
  match connector.openAt offset with
  | .error err => ({}, some err.ingestError)
  | .ok iter =>
      ingestLoop connector.next (batchLimit batchSize) iter
        { newOffset := offset, sourceVersion := connector.version }

/-- Calls with the given batch sizes, each at the offset of the call before,
until one is done or fails. -/
def ingestCalls (connector : Connector Iter) :
    Offset → List Int → List (IngestOutput × Option IngestError)
  | _, [] => []
  | offset, size :: rest =>
      if (ingest connector offset size).2.isSome ∨ (ingest connector offset size).1.done = true then
        [ingest connector offset size]
      else
        ingest connector offset size ::
          ingestCalls connector (ingest connector offset size).1.newOffset rest

def Connector.step (connector : Connector Iter) (iter : Iter) : Step Iter Row IngestError :=
  match connector.next iter with
  | .row row _ later => .row row later
  | .done _ => .done
  | .failed _ err => .failed err.ingestError

def iterate (connector : Connector Iter) (count : Nat) : List Row × Ending Iter IngestError :=
  match connector.openAt {} with
  | .error err => ([], .failed err.ingestError)
  | .ok iter => take connector.step count iter

end Ingest

/-! ### File connectors -/

/-- A connector over fixed content. `start` reads what comes before the rows,
`skip` is one turn of the loop that looks for the resume position, and `idx`
counts the rows behind an iterator. -/
structure FileConnector (Iter : Type) extends Connector Iter where
  start : Except SourceError Iter
  skip : Iter → Skip Iter SourceError
  idx : Iter → Int
  opens : ∀ offset, openAt offset = start.bind (skipMany skip offset.items.toNat)
  skips : ∀ iter row offset later, next iter = .row row offset later → skip iter = .advanced later
  startIdx : ∀ iter, start = .ok iter → idx iter = 0
  rowIdx : ∀ iter row offset later, next iter = .row row offset later →
    row.index = idx iter ∧ offset.items = idx iter + 1 ∧ idx later = idx iter + 1
  doneIdx : ∀ iter offset, next iter = .done offset → offset.items = idx iter
  alwaysReady : ∀ iter offset err, next iter = .failed offset err → err ≠ .notReady

inductive Ended
  | unfinished
  | done
  | failed (err : IngestError)
deriving DecidableEq, Repr

def endedAs {Iter : Type} : Ending Iter IngestError → Ended
  | .cut _ => .unfinished
  | .done => .done
  | .failed err => .failed err

def callEnded (call : IngestOutput × Option IngestError) : Ended :=
  match call.2 with
  | some err => .failed err
  | none => if call.1.done = true then .done else .unfinished

def callsEnded : List (IngestOutput × Option IngestError) → Ended
  | [] => .unfinished
  | call :: rest =>
      match callEnded call with
      | .unfinished => callsEnded rest
      | ended => ended

def ItemsMatch : Nat → List (IngestOutput × Option IngestError) → Prop
  | _, [] => True
  | delivered, call :: rest =>
      call.1.newOffset.items = (delivered + call.1.rows.length : Nat) ∧
        ItemsMatch (delivered + call.1.rows.length) rest

/-- Calls deliver the rows of one reading, in its order and with its end. -/
structure ReadsAs {Iter : Type} (taken : List Row × Ending Iter IngestError) (delivered : Nat)
    (calls : List (IngestOutput × Option IngestError)) : Prop where
  rows : calls.flatMap (fun call => call.1.rows) = taken.1
  ended : callsEnded calls = endedAs taken.2
  items : ItemsMatch delivered calls

def OnePass {Iter : Type} (connector : Connector Iter) (sizes : List Int) : Prop :=
  ReadsAs (iterate connector (rowLimit sizes)) 0 (ingestCalls connector {} sizes)

section Resume

variable {Iter : Type} {connector : FileConnector Iter}

theorem step_row {iter : Iter} {row : Row} {later : Iter}
    (stepped : connector.step iter = .row row later) :
    ∃ offset, connector.next iter = .row row offset later := by
  unfold Connector.step at stepped
  split at stepped
  · rename_i found offset after yielded
    cases stepped
    exact ⟨offset, yielded⟩
  · cases stepped
  · cases stepped

theorem idx_of_take {count : Nat} {iter last : Iter} {rows : List Row}
    (taken : take connector.step count iter = (rows, .cut last)) :
    connector.idx last = connector.idx iter + count := by
  induction count generalizing iter rows with
  | zero =>
      cases taken
      exact (Int.add_zero _).symm
  | succ count ih =>
      obtain ⟨row, later, rest, stepped, _, tail⟩ := take_succ_eq_cut taken
      obtain ⟨offset, yielded⟩ := step_row stepped
      have counted := (connector.rowIdx iter row offset later yielded).2.2
      rw [ih tail, counted]
      omega

theorem openAt_of_take {start last : Iter} {count : Nat} {rows : List Row}
    (started : connector.start = .ok start)
    (taken : take connector.step count start = (rows, .cut last)) {offset : Offset}
    (items : offset.items = count) : connector.openAt offset = .ok last := by
  have agrees : ∀ iter row later, connector.step iter = .row row later →
      connector.skip iter = .advanced later := by
    intro iter row later stepped
    obtain ⟨next, yielded⟩ := step_row stepped
    exact connector.skips iter row next later yielded
  rw [connector.opens, started, items]
  exact skipMany_of_take agrees taken

/-- One call after another: what a batch adds to the output it starts from. -/
structure ReadBatch (before : IngestOutput) (taken : List Row × Ending Iter IngestError)
    (result : IngestOutput × Option IngestError) : Prop where
  rows : result.1.rows = before.rows ++ taken.1
  items : result.1.newOffset.items = before.newOffset.items + taken.1.length
  ended : callEnded result = endedAs taken.2

theorem ingestLoop_reads (left : Nat) (iter : Iter) (out : IngestOutput)
    (counted : out.newOffset.items = connector.idx iter) (unfinished : out.done = false) :
    ReadBatch out (take connector.step left iter) (ingestLoop connector.next left iter out) := by
  induction left generalizing iter out with
  | zero =>
      refine ⟨(List.append_nil _).symm, (Int.add_zero _).symm, ?_⟩
      simp [ingestLoop, callEnded, unfinished, take, endedAs]
  | succ left ih =>
      unfold ingestLoop
      cases yielded : connector.next iter with
      | failed offset err =>
          have stepped : connector.step iter = .failed err.ingestError := by
            simp [Connector.step, yielded]
          have ready := connector.alwaysReady iter offset err yielded
          rw [take_failed left stepped]
          simp only [ready, false_and, if_false]
          exact ⟨(List.append_nil _).symm, (Int.add_zero _).symm, rfl⟩
      | done offset =>
          have stepped : connector.step iter = .done := by simp [Connector.step, yielded]
          rw [take_done left stepped]
          refine ⟨(List.append_nil _).symm, ?_, rfl⟩
          change offset.items = _
          rw [connector.doneIdx iter offset yielded, counted]
          exact (Int.add_zero _).symm
      | row row offset later =>
          have stepped : connector.step iter = .row row later := by
            simp [Connector.step, yielded]
          obtain ⟨_, position, advanced⟩ := connector.rowIdx iter row offset later yielded
          have tail := ih later { out with rows := out.rows ++ [row], newOffset := offset }
            (position.trans advanced.symm) unfinished
          rw [take_row left stepped]
          refine ⟨?_, ?_, tail.ended⟩
          · rw [tail.rows]
            exact List.append_assoc _ _ _
          · rw [tail.items, List.length_cons]
            change offset.items + _ = _
            rw [position, counted]
            omega

theorem ingest_reads {offset : Offset} {iter : Iter} (size : Int)
    (opened : connector.openAt offset = .ok iter) (counted : offset.items = connector.idx iter) :
    ReadBatch { newOffset := offset } (take connector.step (batchLimit size) iter)
      (ingest connector.toConnector offset size) := by
  unfold ingest
  rw [opened]
  have reads := @ingestLoop_reads Iter connector (batchLimit size) iter
    { newOffset := offset, sourceVersion := connector.version } counted rfl
  exact ⟨reads.rows, reads.items, reads.ended⟩

private theorem ingestLoop_ready (left : Nat) (iter : Iter) (out : IngestOutput) :
    (ingestLoop connector.next left iter out).1.pending = out.pending := by
  induction left generalizing iter out with
  | zero => rfl
  | succ left ih =>
      unfold ingestLoop
      cases yielded : connector.next iter with
      | failed offset err =>
          have ready := connector.alwaysReady iter offset err yielded
          simp only [ready, false_and, if_false]
      | done offset => rfl
      | row row offset later => exact ih later _

theorem ingest_ready {offset : Offset} {iter : Iter} (size : Int)
    (opened : connector.openAt offset = .ok iter) :
    (ingest connector.toConnector offset size).1.pending = false := by
  unfold ingest
  rw [opened]
  exact ingestLoop_ready _ iter _

theorem callEnded_eq_unfinished {call : IngestOutput × Option IngestError} :
    callEnded call = .unfinished ↔ ¬(call.2.isSome ∨ call.1.done = true) := by
  unfold callEnded
  cases call.2 with
  | some err => simp
  | none => cases call.1.done <;> simp

theorem endedAs_eq_unfinished {ending : Ending Iter IngestError} :
    endedAs ending = .unfinished ↔ ∃ last, ending = .cut last := by
  cases ending <;> simp [endedAs]

private theorem callsEnded_single (call : IngestOutput × Option IngestError) :
    callsEnded [call] = callEnded call := by
  unfold callsEnded
  cases ended : callEnded call <;> rfl

theorem ingestCalls_reads {start : Iter} (started : connector.start = .ok start)
    (sizes : List Int) (offset : Offset) (count : Nat) (iter : Iter) (before : List Row)
    (taken : take connector.step count start = (before, .cut iter))
    (items : offset.items = count) :
    ReadsAs (take connector.step (rowLimit sizes) iter) count
      (ingestCalls connector.toConnector offset sizes) := by
  induction sizes generalizing offset count iter before with
  | nil => exact ⟨rfl, rfl, trivial⟩
  | cons size rest ih =>
      have opened := openAt_of_take started taken items
      have counted : offset.items = connector.idx iter := by
        rw [idx_of_take taken, connector.startIdx start started, items, Int.zero_add]
      obtain ⟨rows, ending, read⟩ :
          ∃ rows ending, take connector.step (batchLimit size) iter = (rows, ending) := ⟨_, _, rfl⟩
      have reads := ingest_reads size opened counted
      rw [read] at reads
      have delivered : (ingest connector.toConnector offset size).1.rows = rows := reads.rows
      have position : (ingest connector.toConnector offset size).1.newOffset.items =
          (count + rows.length : Nat) := by
        rw [reads.items]
        change offset.items + _ = _
        rw [items]
        exact (Int.natCast_add _ _).symm
      unfold ingestCalls rowLimit
      split
      · rename_i stops
        have ended : ∀ last, ending ≠ .cut last := by
          intro last same
          have unfinished := reads.ended.trans (endedAs_eq_unfinished.mpr ⟨last, same⟩)
          exact callEnded_eq_unfinished.mp unfinished stops
        rw [take_add_of_ended _ read ended]
        refine ⟨?_, ?_, ?_, trivial⟩
        · rw [List.flatMap_cons, List.flatMap_nil, List.append_nil, delivered]
        · rw [callsEnded_single, reads.ended]
        · rw [delivered, position]
      · rename_i goes
        have unfinished := callEnded_eq_unfinished.mpr goes
        obtain ⟨last, rfl⟩ := endedAs_eq_unfinished.mp (reads.ended.symm.trans unfinished)
        -- The batch was full, so the next call resumes exactly where it was cut.
        have full := take_add (batchLimit size) taken
        rw [read] at full
        have length := take_length_of_cut read
        have tail := ih _ _ _ _ full (by rw [position, length])
        rw [take_add _ read]
        refine ⟨?_, ?_, ?_, ?_⟩
        · rw [List.flatMap_cons, delivered, tail.rows]
        · rw [callsEnded, unfinished]
          exact tail.ended
        · rw [delivered, position]
        · rw [delivered, length]
          exact tail.items

theorem FileConnector.onePass (connector : FileConnector Iter) (first : Int) (rest : List Int) :
    OnePass connector.toConnector (first :: rest) := by
  have opens : connector.openAt {} = connector.start := by
    rw [connector.opens]
    cases connector.start <;> rfl
  unfold OnePass iterate
  rw [opens]
  cases started : connector.start with
  | error err =>
      have refused : ingest connector.toConnector {} first = ({}, some err.ingestError) := by
        unfold ingest
        rw [opens, started]
      have calls : ingestCalls connector.toConnector {} (first :: rest) =
          [({}, some err.ingestError)] := by
        unfold ingestCalls
        rw [refused]
        rfl
      rw [calls]
      exact ⟨rfl, rfl, rfl, trivial⟩
  | ok start => exact ingestCalls_reads started (first :: rest) {} 0 start [] rfl rfl

end Resume

end MigrationPlatform.Connectors
