/-
The row data that `PersistOutcome` keeps for a retry.

A call writes its row as JSON unless that is null or an empty object, and a call
without a row keeps what is there. A row without fields is therefore the same as
none: it does not replace an earlier row, and a row that was only ever recorded
without fields has no data when it is retried. The statement of a call that holds
a NUL character anywhere fails and leaves the table as it was.
-/

import MigrationPlatform.Delivery.StoredAnswers
import MigrationPlatform.Workflow.RowRuns

namespace MigrationPlatform.Workflow

open MigrationPlatform.Connectors MigrationPlatform.Delivery KeyedTable

def plainText (text : String) : Bool := !text.toList.contains (Char.ofNat 0)

mutual

/-- No text and no name in the value has a NUL character, which JSONB has no place for. -/
def plainValue : Value → Bool
  | .text value => plainText value
  | .list items => plainItems items
  | .object fields => plainFields fields
  | _ => true

def plainItems : List Value → Bool
  | [] => true
  | item :: rest => plainValue item && plainItems rest

def plainFields : List (String × Value) → Bool
  | [] => true
  | (key, value) :: rest => plainText key && plainValue value && plainFields rest

end

def PersistOutcomeInput.storable (outcome : PersistOutcomeInput) : Bool :=
  plainText outcome.lastError && plainText outcome.attemptID &&
    plainFields (outcome.row.getD []) &&
    jsonbStorable (utf8 (storedPayload outcome.payload)) &&
    jsonbStorable (utf8 (storedResponse outcome.response))

/-- The table after a call; a statement that fails changes nothing. -/
def persistCall (rows : List StoredRow) (call : PersistOutcomeInput) : List StoredRow :=
  if call.storable = true then persistOutcome rows call else rows

/-- The row that a call writes, if its statement is taken and the row has fields. -/
def PersistOutcomeInput.written (call : PersistOutcomeInput) : Option Data :=
  if call.storable = true then storedRowJSON call.row else none

def keptRow (calls : List PersistOutcomeInput) : Option Data :=
  calls.foldl (fun kept call => call.written.or kept) none

def lastPassed (calls : List PersistOutcomeInput) : Option Data :=
  (calls.filterMap PersistOutcomeInput.row).getLast?

theorem keptRow_append (calls : List PersistOutcomeInput) (call : PersistOutcomeInput) :
    keptRow (calls ++ [call]) = call.written.or (keptRow calls) := by
  unfold keptRow
  rw [List.foldl_append]
  rfl

theorem written_some {call : PersistOutcomeInput} {data : Data} :
    call.written = some data ↔ call.storable = true ∧ call.row = some data ∧ data ≠ [] := by
  unfold PersistOutcomeInput.written
  by_cases stored : call.storable = true
  · rw [if_pos stored, storedRowJSON_some]
    exact ⟨fun both => ⟨stored, both⟩, fun all => all.2⟩
  · rw [if_neg stored]
    constructor
    · intro impossible
      cases impossible
    · intro all
      exact absurd all.1 stored

/-- The row has fields, some call whose statement is taken carries it, and no such
call carries another row with fields later. -/
structure KeepsRow (data : Data) (calls : List PersistOutcomeInput) : Prop where
  fields : data ≠ []
  carried : ∃ before call after, calls = before ++ call :: after ∧ call.row = some data ∧
    call.storable = true ∧
    ∀ later ∈ after, later.storable = true →
      later.row = none ∨ later.row = some [] ∨ later.row = some data

private theorem keepsRow_of_written {data : Data} {calls : List PersistOutcomeInput}
    {call : PersistOutcomeInput} (written : call.written = some data) :
    KeepsRow data (calls ++ [call]) := by
  obtain ⟨stored, row, fields⟩ := written_some.mp written
  refine ⟨fields, calls, call, [], rfl, row, stored, ?_⟩
  intro other impossible
  cases impossible

theorem KeepsRow.append {data : Data} {calls : List PersistOutcomeInput}
    {call : PersistOutcomeInput} (keeps : KeepsRow data calls) (written : call.written = none) :
    KeepsRow data (calls ++ [call]) := by
  obtain ⟨fields, before, carrier, after, shape, row, stored, later⟩ := keeps
  refine ⟨fields, before, carrier, after ++ [call], ?_, row, stored, ?_⟩
  · rw [shape, List.append_assoc, List.cons_append]
  · intro other member storable
    rcases List.mem_append.mp member with inside | last
    · exact later other inside storable
    · rw [List.mem_singleton.mp last] at storable ⊢
      unfold PersistOutcomeInput.written at written
      rw [if_pos storable] at written
      unfold storedRowJSON at written
      split at written
      · rename_i missing
        exact .inl missing
      · rename_i empty
        exact .inr (.inl empty)
      · cases written

theorem KeepsRow.before {data : Data} {calls : List PersistOutcomeInput}
    {call : PersistOutcomeInput} (keeps : KeepsRow data (calls ++ [call])) :
    call.written = some data ∨ call.written = none ∧ KeepsRow data calls := by
  obtain ⟨fields, before, carrier, after, shape, row, stored, later⟩ := keeps
  rcases List.eq_nil_or_concat after with nothing | ⟨front, last, concat⟩
  · rw [nothing] at shape
    obtain ⟨_, same⟩ := List.append_inj' shape rfl
    cases same
    exact .inl (written_some.mpr ⟨stored, row, fields⟩)
  · rw [List.concat_eq_append] at concat
    rw [concat, ← List.cons_append, ← List.append_assoc] at shape
    obtain ⟨earlier, same⟩ := List.append_inj' shape rfl
    cases same
    cases written : call.written with
    | some own =>
        obtain ⟨storedHere, rowHere, fieldsHere⟩ := written_some.mp written
        have allowed := later call (by rw [concat]; exact List.mem_append_right _ List.mem_cons_self)
          storedHere
        rw [rowHere] at allowed
        left
        rcases allowed with impossible | empty | same
        · cases impossible
        · exact absurd (Option.some.inj empty) fieldsHere
        · exact same
    | none =>
        right
        refine ⟨rfl, fields, before, carrier, front, earlier, row, stored, ?_⟩
        intro other member
        exact later other (by rw [concat]; exact List.mem_append_left _ member)

theorem keptRow_iff {data : Data} (calls : List PersistOutcomeInput) :
    keptRow calls = some data ↔ KeepsRow data calls := by
  induction calls using List.reverseRecOn with
  | nil =>
      constructor
      · intro impossible
        cases impossible
      · intro keeps
        obtain ⟨_, before, carrier, after, shape, _⟩ := keeps
        have empty := congrArg List.length shape
        simp at empty
  | append_singleton calls call ih =>
      rw [keptRow_append]
      constructor
      · intro kept
        cases written : call.written with
        | none =>
            rw [written, Option.none_or] at kept
            exact (ih.mp kept).append written
        | some own =>
            rw [written, Option.some_or] at kept
            cases kept
            exact keepsRow_of_written written
      · intro keeps
        rcases keeps.before with written | ⟨written, earlier⟩
        · rw [written]
          rfl
        · rw [written, Option.none_or]
          exact ih.mpr earlier

theorem lookup_persistCalls {index : Int} {rows : List StoredRow}
    (absent : lookup StoredRow.index index rows = none) (calls : List PersistOutcomeInput) :
    (∀ call ∈ calls, call.rowIndex = index) →
      ((lookup StoredRow.index index (calls.foldl persistCall rows)).bind StoredRow.rowJSON) =
        keptRow calls := by
  induction calls using List.reverseRecOn with
  | nil =>
      intro _own
      rw [List.foldl_nil, absent]
      rfl
  | append_singleton calls call ih =>
      intro own
      have before := ih (fun other member => own other (List.mem_append_left _ member))
      have here : call.rowIndex = index := own call (List.mem_append_right _ List.mem_cons_self)
      rw [List.foldl_append, keptRow_append, ← before]
      generalize calls.foldl persistCall rows = table
      change (lookup StoredRow.index index (persistCall table call)).bind StoredRow.rowJSON = _
      unfold persistCall PersistOutcomeInput.written
      split
      · subst here
        rw [lookup_persistOutcome]
        cases lookup StoredRow.index call.rowIndex table with
        | none =>
            change storedRowJSON call.row = (storedRowJSON call.row).or none
            rw [Option.or_none]
        | some old => rfl
      · rw [Option.none_or]

private theorem found_of_row {store : RowStore} {index : Int} {data : Data}
    (loaded : (loadRowState store index).row = some data) :
    (loadRowState store index).found = true := by
  unfold loadRowState at loaded ⊢
  cases found : lookup StoredRow.index index store.rows with
  | none =>
      rw [found] at loaded
      cases loaded
  | some row => rfl

structure Retriable (sha256Hex : String → String) (describe : ActivityError → String)
    (jobID : Int) (template : LoadTemplateOutput) (store : RowStore) (index : Int) (data : Data) :
    Prop where
  found : (loadRowState store index).found = true
  row : (loadRowState store index).row = some data
  processed : ∀ (runID : String) (fromStart confirmNotApplied : Bool) (env : RetryRowEnv)
    (result : MigrationWorkflowResult) (retried : RowRetry), env.load = none →
    retryPersistedRow sha256Hex describe jobID runID template store index fromStart
      confirmNotApplied env result = some retried →
    ∃ processed, processOneRow sha256Hex describe template.maxAttempts jobID
        { index := index, data := data } template.steps
        (retryRun (loadRowState store index) fromStart confirmNotApplied) env.row.steps
        env.row.persist result = some processed ∧
      retried.executed = processed.executed ∧ retried.error = processed.error

private theorem retriable_of_row {sha256Hex : String → String} {describe : ActivityError → String}
    {jobID : Int} {template : LoadTemplateOutput} {store : RowStore} {index : Int} {data : Data}
    (loaded : (loadRowState store index).row = some data) :
    Retriable sha256Hex describe jobID template store index data := by
  refine ⟨found_of_row loaded, loaded, ?_⟩
  intro runID fromStart confirmNotApplied env result retried loads ran
  rcases retryPersistedRow_cases ran with ⟨message, failed, _⟩ | ⟨_, missing, _⟩ |
    ⟨_, own, processed, row, processing, executed, error, _⟩
  · rw [loads] at failed
    cases failed
  · rw [loaded] at missing
    cases missing
  · rw [loaded] at row
    cases row
    exact ⟨processed, processing, executed, error⟩

/-- A row can be retried with the data it was last recorded with exactly when that
data has fields and is the last with fields that was stored. -/
theorem persisted_row_retriable_iff (sha256Hex : String → String)
    (describe : ActivityError → String) (jobID : Int) (template : LoadTemplateOutput)
    (rows : List StoredRow) (steps : List StoredStep) (index : Int)
    (calls : List PersistOutcomeInput) (data : Data)
    (absent : lookup StoredRow.index index rows = none)
    (own : ∀ call ∈ calls, call.rowIndex = index) (_passed : lastPassed calls = some data) :
    Retriable sha256Hex describe jobID template
        { rows := calls.foldl persistCall rows, steps := steps } index data ↔
      KeepsRow data calls := by
  have loaded : (loadRowState { rows := calls.foldl persistCall rows, steps := steps } index).row =
      keptRow calls := by
    rw [loadRowState_row]
    exact lookup_persistCalls absent calls own
  rw [← keptRow_iff]
  constructor
  · intro retriable
    rw [← loaded]
    exact retriable.row
  · intro kept
    exact retriable_of_row (loaded.trans kept)

/-! ### Rows with and without fields -/

def failedWith (row : Option Data) : PersistOutcomeInput :=
  { rowIndex := 0, status := .failed, lastError := "status 500", attemptID := "run:0", row := row }

def contactRow : Data := [("id", .text "1")]

def storedRowTemplate : LoadTemplateOutput := { version := 1, steps := [createStep] }

/-- A row stays with a call that carries none. -/
theorem named_row_retriable :
    Retriable createSha256 describeError 7 storedRowTemplate
      { rows := [failedWith (some contactRow), failedWith none].foldl persistCall [] } 0 contactRow := by
  apply (persisted_row_retriable_iff createSha256 describeError 7 storedRowTemplate [] [] 0
    [failedWith (some contactRow), failedWith none] contactRow rfl (by decide) rfl).mpr
  refine ⟨by decide, [], failedWith (some contactRow), [failedWith none], rfl, rfl, by decide, ?_⟩
  intro later member _stored
  rw [List.mem_singleton.mp member]
  exact .inl rfl

/-- A row that is the empty object, and one whose text has a NUL character: the
retry of the first finds no data, and nothing at all is recorded of the second. -/
theorem empty_row_not_retriable :
    (∃ retried, retryPersistedRow createSha256 describeError 7 "run" storedRowTemplate
        { rows := [failedWith (some [])].foldl persistCall [] } 0 true false
        { row := { steps := [] } } {} = some retried ∧
      retried.executed = [] ∧
      (lookup StoredRow.index 0 retried.store.rows).bind StoredRow.lastError =
        some "cannot retry row 0: no persisted row data found") ∧
    lastPassed [failedWith (some [])] = some [] ∧
    ¬Retriable createSha256 describeError 7 storedRowTemplate
        { rows := [failedWith (some [])].foldl persistCall [] } 0 [] ∧
    [failedWith (some [("id", .text "\x00")])].foldl persistCall [] = [] := by
  refine ⟨⟨_, rfl, rfl, by decide⟩, rfl, ?_, rfl⟩
  intro retriable
  have loaded := retriable.row
  cases loaded

end MigrationPlatform.Workflow
