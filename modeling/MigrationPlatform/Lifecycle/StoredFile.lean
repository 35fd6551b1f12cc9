/-
A migration of a file, from the connector up to the rows of its job.

The chain of runs reads the file batch by batch, prepares each batch and stores a
row for each record. Whatever the outcomes, and wherever runs hand over or end in
an error, what is stored are the first records of the file, each stored once; a
chain that completes has stored all of them and counts them as they are stored.
-/

import MigrationPlatform.Lifecycle.StoredChain
import MigrationPlatform.Workflow.ResultsText

namespace MigrationPlatform.Lifecycle

open GuardedRuns KeyedTable
open MigrationPlatform.Connectors MigrationPlatform.Delivery MigrationPlatform.Workflow

def prepared (prepare : Data → Data) (row : Row) : Row := { row with data := prepare row.data }

/-- What `job_rows` has of a record that was processed once. Data without a field are NULL. -/
structure StoredOnce (prepare : Data → Data) (record : Row) (stored : StoredRow) : Prop where
  index : stored.index = record.index
  attempts : stored.attempts = 1
  data : prepare record.data ≠ [] → stored.rowJSON = some (prepare record.data)
  noData : prepare record.data = [] → stored.rowJSON = none

/-- What is stored are the first records of the file, as often as they are. -/
def StoredInOrder (prepare : Data → Data) (all : List Row) (rows : List StoredRow) : Prop :=
  ∃ stored, stored <+: all ∧ List.Forall₂ (StoredOnce prepare) stored rows

/-- Every batch is what `Ingest` returns over the file at the run's checkpoint, and
the preprocessing activity, where it succeeds, prepares each of its rows. -/
def ReadsFile {Iter : Type} (connector : FileConnector Iter) (prepare : Data → Data)
    (s : StoredChain) : StoredAction → Prop
  | .round env _ => ∀ run out, s.chain.phase = .looping run → env.ingest = .ok out →
      out = (ingest connector.toConnector run.cp.offset 500).1 ∧
        ∀ rows, preprocessRows run.template.hasPreprocess out.rows env.preprocess = .ok rows →
          rows = out.rows.map (prepared prepare)
  | _ => True

section Batch

variable {sha256Hex : String → String} {describe : ActivityError → String}
variable {prepare : Data → Data}

theorem mem_indexesFrom {next index : Int} {count : Nat} (member : index ∈ indexesFrom next count) :
    next ≤ index ∧ index < next + count := by
  induction count generalizing next with
  | zero => cases member
  | succ count ih =>
      rcases List.mem_cons.mp member with rfl | later
      · omega
      · have bounds := ih later
        omega

theorem map_index_of_forall₂ {records : List Row} {stored : List StoredRow}
    (once : List.Forall₂ (StoredOnce prepare) records stored) :
    stored.map StoredRow.index = records.map Row.index := by
  induction once with
  | nil => rfl
  | cons first _ ih => rw [List.map_cons, List.map_cons, first.index, ih]

private theorem persist_once {done : List Row} {rows : List StoredRow}
    (once : List.Forall₂ (StoredOnce prepare) done rows)
    (numbered : done.map Row.index = indexesFrom 0 done.length) {record : Row}
    (next : record.index = done.length) (runID : String) (multiStep : Bool)
    (executed : List StepExecution) (status : StepStatus) :
    List.Forall₂ (StoredOnce prepare) (done ++ [record])
      (persistOutcome rows
        (rowOutcome runID (prepared prepare record) multiStep executed status)) := by
  have absent : record.index ∉ rows.map StoredRow.index := by
    intro member
    rw [map_index_of_forall₂ once, numbered] at member
    have bounds := mem_indexesFrom member
    omega
  rw [persistOutcome, upsert_of_not_mem rows absent]
  refine List.rel_append once (.cons ⟨rfl, rfl, ?_, ?_⟩ .nil)
  · exact fun filled => storedRowJSON_some.mpr ⟨rfl, filled⟩
  · intro empty
    change storedRowJSON (some (prepare record.data)) = none
    rw [empty]
    rfl

private theorem afterRow_once {done : List Row} {store : RowStore}
    (once : List.Forall₂ (StoredOnce prepare) done store.rows)
    (numbered : done.map Row.index = indexesFrom 0 done.length) {record : Row}
    (next : record.index = done.length) (runID : String) (steps : List Step)
    (processed : RowExecution) (executed : Bool) :
    List.Forall₂ (StoredOnce prepare) done
        (store.afterRow runID (prepared prepare record) steps processed executed).rows ∧
        (processed.status = none ∨ processed.error ≠ none) ∨
      List.Forall₂ (StoredOnce prepare) (done ++ [record])
        (store.afterRow runID (prepared prepare record) steps processed executed).rows := by
  unfold RowStore.afterRow
  cases recorded : processed.status with
  | none => exact Or.inl ⟨once, Or.inl rfl⟩
  | some status =>
      by_cases writes : processed.error.isNone = true ∨ executed = true
      · simp only [if_pos writes]
        exact Or.inr (persist_once once numbered next runID _ processed.executed status)
      · simp only [if_neg writes]
        refine Or.inl ⟨once, Or.inr ?_⟩
        intro went
        exact writes (Or.inl (by rw [went]; rfl))

theorem storeRows_once {template : LoadTemplateOutput} {jobID : Int} {runID : String}
    {executed : Bool} (raw : List Row) :
    ∀ (done : List Row) (envs : List RowEnv) (result : MigrationWorkflowResult) (store : RowStore),
      (done ++ raw).map Row.index = indexesFrom 0 (done ++ raw).length →
      List.Forall₂ (StoredOnce prepare) done store.rows →
      StoredInOrder prepare (done ++ raw)
        (storeRows sha256Hex describe template jobID runID executed (raw.map (prepared prepare))
          envs result store).rows := by
  induction raw with
  | nil =>
      intro done envs result store _ once
      rw [List.append_nil]
      cases envs <;> exact ⟨done, List.prefix_rfl, once⟩
  | cons record rest ih =>
      intro done envs result store numbered once
      have before : done.map Row.index = indexesFrom 0 done.length := by
        have part : done.map Row.index <+: (done ++ record :: rest).map Row.index := by
          rw [List.map_append]
          exact List.prefix_append _ _
        rw [numbered] at part
        have same := indexesFrom_of_isPrefix part
        rwa [List.length_map] at same
      have next : record.index = done.length := by
        rw [List.map_append, List.length_append, ← indexesFrom_append, ← before, Int.zero_add]
          at numbered
        exact (List.cons.inj (List.append_cancel_left numbered)).1
      have split : done ++ record :: rest = done ++ [record] ++ rest := by
        rw [List.append_assoc]
        rfl
      have kept : done <+: done ++ record :: rest := List.prefix_append _ _
      rw [List.map_cons]
      cases envs with
      | nil => exact ⟨done, kept, once⟩
      | cons env later =>
          unfold storeRows
          cases processing : processOneRow sha256Hex describe template.maxAttempts jobID
              (prepared prepare record) template.steps {} env.steps env.persist result with
          | none => exact ⟨done, kept, once⟩
          | some processed =>
              have stored :=
                afterRow_once once before next runID template.steps processed executed
              cases error : processed.error with
              | some message =>
                  simp only [error]
                  rcases stored with ⟨unchanged, _⟩ | added
                  · exact ⟨done, kept, unchanged⟩
                  · exact ⟨done ++ [record], by rw [split]; exact List.prefix_append _ _, added⟩
              | none =>
                  simp only [error]
                  obtain ⟨status, recorded, _⟩ := processOneRow_stored processing error
                  have added := stored.resolve_left (by simp [recorded, error])
                  rw [split] at numbered ⊢
                  exact ih (done ++ [record]) later processed.result _ numbered added

theorem roundRows_cases (run : MigrationRun) (env : RoundEnv) :
    roundRows true run env = [] ∨ ∃ out, env.ingest = .ok out ∧
      preprocessRows run.template.hasPreprocess out.rows env.preprocess =
        .ok (roundRows true run env) := by
  unfold roundRows
  split
  · rename_i out _ ingested
    split
    · exact Or.inl rfl
    · split
      · exact Or.inl rfl
      · split
        · exact Or.inl rfl
        · rename_i rows preprocessed
          exact Or.inr ⟨out, ingested, preprocessed⟩
  · exact Or.inl rfl

theorem CountsStored.length {next : Int} {result : MigrationWorkflowResult} {rows : List StoredRow}
    (counts : CountsStored next result rows) : (rows.length : Int) = result.total := by
  have all := rowsWith_total rows
  unfold MigrationWorkflowResult.total
  rw [counts.processed, counts.failed, counts.unresolved]
  omega

end Batch

/-! ### The invariant -/

section Invariant

variable {Iter : Type} {connector : FileConnector Iter} {first : Iter} {all : List Row}
variable {prepare : Data → Data} {sha256Hex : String → String} {describe : ActivityError → String}
variable {s next : StoredChain}

structure FileSound (prepare : Data → Data) (all : List Row) (s : StoredChain) : Prop where
  sound : s.Sound
  within : s.chain.Within all.length
  inOrder : StoredInOrder prepare all s.store.rows

theorem stored_count (sound : s.Sound) {run : MigrationRun}
    (phase : s.chain.phase = .looping run ∨ s.chain.phase = .completed run) :
    CountsStored run.cp.nextRowIndex run.result s.store.rows ∧
      (s.store.rows.length : Int) = run.cp.nextRowIndex := by
  have stands := sound.ingest.run_stands phase
  have counted : CountsStored run.cp.nextRowIndex run.result s.store.rows := by
    have counted := sound.counted
    unfold StoredChain.Counted at counted
    rw [stands.result]
    rcases phase with looping | completed
    · rw [looping] at counted
      exact counted
    · rw [completed] at counted
      exact counted
  refine ⟨counted, ?_⟩
  rw [CountsStored.length counted, stands.result, stands.cp.total, stands.cp.next]

theorem inOrder_after (file : Parses connector first all) {env : RoundEnv} {executed : Bool}
    (reads : ReadsFile connector prepare s (.round env executed)) (sound : FileSound prepare all s)
    {run : MigrationRun} (looping : s.chain.phase = .looping run) :
    StoredInOrder prepare all
      (storeRows sha256Hex describe run.template s.chain.input.jobID s.runID executed
        (roundRows true run env) env.rows run.result s.store).rows := by
  rcases roundRows_cases run env with noRows | ⟨out, ingested, preprocessed⟩
  · rw [noRows]
    cases env.rows <;> exact sound.inOrder
  · obtain ⟨read, prepares⟩ := reads run out looping ingested
    obtain ⟨done, begun, once⟩ := sound.inOrder
    obtain ⟨_, length⟩ := stored_count sound.sound (Or.inl looping)
    rw [← once.length_eq] at length
    have within := sound.within
    unfold ChainState.Within at within
    rw [looping] at within
    obtain ⟨position, limit⟩ := within
    have nonneg : 0 ≤ run.cp.offset.items := by omega
    obtain ⟨_, follows⟩ := file.sourceResult 500 nonneg (by omega)
    rw [← read, position, ← length, Int.toNat_natCast, ← List.prefix_iff_eq_take.mp begun]
      at follows
    have numbered := follows.map Row.index
    rw [file.indexes] at numbered
    have consecutive := indexesFrom_of_isPrefix numbered
    rw [List.length_map] at consecutive
    rw [prepares _ preprocessed]
    obtain ⟨stored, part, table⟩ :=
      @storeRows_once sha256Hex describe prepare run.template s.chain.input.jobID s.runID executed
        out.rows done env.rows run.result s.store consecutive once
    exact ⟨stored, part.trans follows, table⟩

theorem fileSound_step (file : Parses connector first all) {action : StoredAction}
    (reads : ReadsFile connector prepare s action) (named : SleepsNamed action)
    (sound : FileSound prepare all s)
    (taken : s.step sha256Hex describe true action = some next) : FileSound prepare all next := by
  have counted := stored_step named sound.sound taken
  cases action with
  | start runID licensed loaded =>
      obtain ⟨chain, moved, rfl⟩ := Option.map_eq_some_iff.mp taken
      have source : FromSource all.length s.chain (.start licensed loaded) := trivial
      exact ⟨counted, within_step source sound.sound.ingest sound.within moved, sound.inOrder⟩
  | round env executed =>
      unfold StoredChain.step at taken
      simp only at taken
      split at taken
      · rename_i run looping
        obtain ⟨chain, moved, rfl⟩ := Option.map_eq_some_iff.mp taken
        have source : FromSource all.length s.chain (.round env) := by
          intro looped out again ingested nonneg within
          rw [(reads looped out again ingested).1]
          exact (file.sourceResult 500 nonneg within).1
        exact ⟨counted, within_step source sound.sound.ingest sound.within moved,
          inOrder_after file reads sound looping⟩
      · cases taken
  | write statement =>
      unfold StoredChain.step at taken
      simp only at taken
      split at taken
      · cases taken
        exact ⟨counted, sound.within, sound.inOrder⟩
      · cases taken

/-- A run of a new job, with the retries of its activities as they are named. -/
structure Migrates {Iter : Type} (sha256Hex : String → String) (describe : ActivityError → String)
    (connector : FileConnector Iter) (prepare : Data → Data) (jobID templateVersion : Int)
    (actions : List StoredAction) (s : StoredChain) : Prop where
  named : ∀ action ∈ actions, SleepsNamed action
  reads : Obeys (StoredChain.step sha256Hex describe true) (ReadsFile connector prepare)
    (.fresh jobID templateVersion) actions
  ran : run (StoredChain.step sha256Hex describe true) (.fresh jobID templateVersion) actions =
    some s

variable {jobID templateVersion : Int} {actions : List StoredAction}

theorem fileSound_of_run (file : Parses connector first all)
    (migrated : Migrates sha256Hex describe connector prepare jobID templateVersion actions s) :
    FileSound prepare all s := by
  have fresh : FileSound prepare all (.fresh jobID templateVersion) :=
    ⟨StoredChain.fresh_sound jobID templateVersion, ⟨rfl, Int.natCast_nonneg _⟩, [],
      List.nil_prefix, .nil⟩
  have both : Obeys (StoredChain.step sha256Hex describe true)
      (fun s action => ReadsFile connector prepare s action ∧ SleepsNamed action)
      (.fresh jobID templateVersion) actions := by
    have reads := migrated.reads
    rw [obeys_iff_forall] at reads ⊢
    intro early action late reached split ranEarly
    refine ⟨reads early action late reached split ranEarly, migrated.named action ?_⟩
    rw [split]
    exact List.mem_append_right _ List.mem_cons_self
  exact invariant_of_obeys
    (fun _ _ _ allowed holds taken => fileSound_step file allowed.1 allowed.2 holds taken)
    actions _ s fresh both migrated.ran

theorem FileSound.whole (sound : FileSound prepare all s) {last : MigrationRun}
    (completed : s.chain.phase = .completed last) :
    List.Forall₂ (StoredOnce prepare) all s.store.rows := by
  obtain ⟨_, length⟩ := stored_count sound.sound (Or.inr completed)
  obtain ⟨stored, part, once⟩ := sound.inOrder
  have within := sound.within
  unfold ChainState.Within at within
  rw [completed] at within
  simp only at within
  have whole : stored = all := by
    apply part.eq_of_length
    have same := once.length_eq
    omega
  rw [whole] at once
  exact once

/-- Over every run of a job that reads a file: what `job_rows` holds are the first
records of the file, each with its prepared data, processed once; and when the
chain completes it holds all of them, and the chain counted what it holds. -/
theorem file_stored_exactly_once (file : Parses connector first all)
    (migrated : Migrates sha256Hex describe connector prepare jobID templateVersion actions s) :
    StoredInOrder prepare all s.store.rows ∧
      ∀ last, s.chain.phase = .completed last →
        List.Forall₂ (StoredOnce prepare) all s.store.rows ∧
          last.result.processed = rowsWith .succeeded s.store.rows ∧
          last.result.failed = rowsWith .failed s.store.rows ∧
          last.result.unresolved = rowsWith .unresolved s.store.rows := by
  have sound := fileSound_of_run file migrated
  refine ⟨sound.inOrder, ?_⟩
  intro last completed
  obtain ⟨counted, _⟩ := stored_count sound.sound (Or.inr completed)
  exact ⟨sound.whole completed, counted.processed, counted.failed, counted.unresolved⟩

def ExportedAs {Float Other Doc Expr : Type} (prepare : Data → Data)
    (lib : ExportLibrary Float Other Doc Expr) (results : JobResults) (cols : List ExportColumn)
    (record row : Row) : Prop :=
  ∃ stored, StoredOnce prepare record stored ∧ ReadsBack lib results cols stored row

private theorem exportedAs_of_once {Float Other Doc Expr : Type}
    {lib : ExportLibrary Float Other Doc Expr}
    {results : JobResults} {cols : List ExportColumn} {records : List Row} {stored : List StoredRow}
    (once : List.Forall₂ (StoredOnce prepare) records stored) :
    ∀ rows, List.Forall₂ (ReadsBack lib results cols) stored rows →
      List.Forall₂ (ExportedAs prepare lib results cols) records rows := by
  induction once with
  | nil =>
      intro rows same
      cases same
      exact .nil
  | cons first _ ih =>
      intro rows same
      cases same with
      | cons shown rest => exact .cons ⟨_, first, shown⟩ (ih _ rest)

/-- When a chain over a file completes and its results are written, the connector
reads them as one row for each record of the file, in its order. -/
theorem file_exported_exactly_once {Float Other Doc Expr : Type}
    {lib : ExportLibrary Float Other Doc Expr} (file : Parses connector first all)
    (migrated : Migrates sha256Hex describe connector prepare jobID templateVersion actions s)
    {last : MigrationRun} (completed : s.chain.phase = .completed last)
    {results : JobResults} (stored : results.rows = s.store.rows) {env : ExportEnv}
    {cols : List ExportColumn} {written : CsvFile} {count : Nat}
    (wrote : writeResultsCSV lib env results cols false (results.rows.length + 1) =
      some (.ok (written, count))) :
    count = all.length ∧ ∃ start rows,
      Parses (csvConnector Sampling.CsvContent.read (some true)
        (Sampling.goCsv comma written.text)) start rows ∧
      List.Forall₂ (ExportedAs prepare lib results cols) all rows := by
  have once := (fileSound_of_run file migrated).whole completed
  rw [← stored] at once
  have nonneg : ∀ row ∈ results.rows, 0 ≤ row.index := by
    intro row member
    have index := List.mem_map_of_mem (f := StoredRow.index) member
    rw [map_index_of_forall₂ once, file.indexes] at index
    exact (mem_indexesFrom index).1
  have whole := (fileRows_of_indexes nonneg).1
  obtain ⟨start, rows, parses, same⟩ := @csvFile_parses Float Other Doc Expr lib results cols false
  rw [whole] at same
  rcases @writeResultsCSV_spec Float Other Doc Expr lib env results cols false with
    ⟨message, failed, _⟩ | wroteAll
  · rw [wrote] at failed
    cases failed
  · rw [wrote] at wroteAll
    cases wroteAll
    refine ⟨?_, start, rows, parses, exportedAs_of_once once rows same⟩
    rw [whole, once.length_eq]

end Invariant

def twoRecords : List (List String) := [["id"], ["a"], ["b"]]

def twoRows : List Row :=
  [{ index := 0, data := [("id", .text "a")] }, { index := 1, data := [("id", .text "b")] }]

theorem twoRecords_parse :
    Parses (csvConnector records none twoRecords)
      { reader := [["a"], ["b"]], header := ["id"] } twoRows :=
  ⟨rfl, rfl⟩

def recordsSha256 (text : String) : String :=
  if text = "7-0-main-\x7b\"n\":1\x7d" then
    "6384ac3a58f1b4dbe0625b31da76138ab69a60c7bca633e62118b6b060b13637"
  else if text = "7-1-main-\x7b\"n\":1\x7d" then
    "84f1fb87fcedc06f287b67b453c21fb266a4135ea9c83a69d0cbd1c422c46e17"
  else createSha256 text

def twoRecordsJob : List StoredAction :=
  [.start "run-1" none (.ok createTemplate), .write .markJobRunning,
    .round (ingestRound
      (ingest (csvConnector records none twoRecords).toConnector {} 500).1 calm [201, 404]) false]

theorem twoRecordsJob_reads :
    Obeys (StoredChain.step recordsSha256 describeError true)
      (ReadsFile (csvConnector records none twoRecords) id) (.fresh 7 0) twoRecordsJob := by
  refine ⟨trivial, trivial, ?_, trivial⟩
  intro run out looping ingested
  cases looping
  cases ingested
  refine ⟨rfl, ?_⟩
  intro rows preprocessed
  cases preprocessed
  rfl

theorem two_records_stored :
    ∃ s last, run (StoredChain.step recordsSha256 describeError true) (.fresh 7 0) twoRecordsJob =
        some s ∧
      s.chain.phase = .completed last ∧
      List.Forall₂ (StoredOnce id) twoRows s.store.rows ∧ last.result.processed = 1 ∧
      rowsWith .failed s.store.rows = 1 := by
  refine ⟨_, _, rfl, rfl, ?_, rfl, rfl⟩
  exact ((file_stored_exactly_once twoRecords_parse
    ⟨by decide, twoRecordsJob_reads, rfl⟩).2 _ rfl).1

def textLibrary : ExportLibrary Unit Unit String Unit :=
  { stringLibrary with
    unmarshal := fun data => some (data.map (fun entry =>
      (entry.1, match entry.2 with
        | .text value => .text value
        | _ => .nil))) }

def idColumn : List ExportColumn := [{ name := "id", source := "id" }]

theorem two_records_exported :
    ∃ s results written, run (StoredChain.step recordsSha256 describeError true) (.fresh 7 0)
        twoRecordsJob = some s ∧
      results.rows = s.store.rows ∧
      writeResultsCSV textLibrary {} results idColumn false (results.rows.length + 1) =
        some (.ok (written, 2)) ∧
      results.rows.map (fun stored =>
        cell textLibrary (results.exportRow textLibrary stored) { name := "id", source := "id" }) =
          ["a", "b"] ∧
      ∃ start rows, Parses (csvConnector Sampling.CsvContent.read (some true)
          (Sampling.goCsv comma written.text)) start rows ∧
        List.Forall₂ (ExportedAs id textLibrary results idColumn) twoRows rows := by
  obtain ⟨s, last, ran, completed, indexes, shown⟩ :
      ∃ s last, run (StoredChain.step recordsSha256 describeError true) (.fresh 7 0)
          twoRecordsJob = some s ∧ s.chain.phase = .completed last ∧
        s.store.rows.map StoredRow.index = [0, 1] ∧
        s.store.rows.map (fun stored => sourceCell textLibrary
          (stored.rowJSON.bind textLibrary.unmarshal) "id") = ["a", "b"] := ⟨_, _, rfl, rfl, rfl, rfl⟩
  have ascending : (s.store.rows.map StoredRow.index).Pairwise (· < ·) := by
    rw [indexes]
    decide
  let results : JobResults := { rows := s.store.rows, ascending := ascending, steps := [] }
  have cells : results.rows.map (fun stored =>
      cell textLibrary (results.exportRow textLibrary stored) { name := "id", source := "id" }) =
        ["a", "b"] := by
    rw [← shown]
    apply List.map_congr_left
    intro stored _member
    exact cell_of_source (by decide) results stored
  rcases @writeResultsCSV_spec _ _ _ _ textLibrary {} results idColumn false with
    ⟨_, _, ⟨_, impossible⟩ | impossible⟩ | wrote
  · cases impossible
  · cases impossible
  · obtain ⟨count, exported⟩ := file_exported_exactly_once twoRecords_parse
      ⟨by decide, twoRecordsJob_reads, ran⟩ completed (rfl : results.rows = s.store.rows) wrote
    rw [count] at wrote
    exact ⟨s, results, _, ran, rfl, wrote, cells, exported⟩

end MigrationPlatform.Lifecycle
