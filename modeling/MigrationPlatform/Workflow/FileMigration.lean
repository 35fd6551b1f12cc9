/-
A file as a source of the chain of runs.

The file connectors read a file as one source with a fixed number of rows.
Wherever in the file `Ingest` is called, it returns the rows that follow.
-/

import MigrationPlatform.Connectors.FileConnectors
import MigrationPlatform.Workflow.IngestOnce

namespace MigrationPlatform.Workflow

open MigrationPlatform.Connectors MigrationPlatform.Delivery ResumableIteration

section File

variable {Iter : Type} {connector : FileConnector Iter} {start : Iter} {all : List Row}

/-- The connector parses its file to the end, into the rows `all`. -/
structure Parses (connector : FileConnector Iter) (start : Iter) (all : List Row) : Prop where
  started : connector.start = .ok start
  ends : take connector.step (all.length + 1) start = (all, .done)

theorem index_of_take (count : Nat) (iter : Iter) :
    (take connector.step count iter).1.map Row.index =
      indexesFrom (connector.idx iter) (take connector.step count iter).1.length := by
  induction count generalizing iter with
  | zero => rfl
  | succ count ih =>
      cases stepped : connector.step iter with
      | done =>
          rw [take_done count stepped]
          rfl
      | failed err =>
          rw [take_failed count stepped]
          rfl
      | row row later =>
          obtain ⟨offset, yielded⟩ := step_row stepped
          obtain ⟨index, _, advanced⟩ := connector.rowIdx iter row offset later yielded
          rw [take_row count stepped]
          change row.index :: _ = connector.idx iter :: indexesFrom (connector.idx iter + 1) _
          rw [index, ← advanced, ih later]

theorem Parses.indexes (file : Parses connector start all) :
    all.map Row.index = indexesFrom 0 all.length := by
  have numbered := @index_of_take Iter connector (all.length + 1) start
  rw [file.ends, connector.startIdx start file.started] at numbered
  exact numbered

theorem Parses.sourceResult (file : Parses connector start all) {offset : Offset} (size : Int)
    (nonneg : 0 ≤ offset.items) (within : offset.items ≤ all.length) :
    SourceResult all.length offset (ingest connector.toConnector offset size).1 ∧
      all.take offset.items.toNat ++ (ingest connector.toConnector offset size).1.rows <+: all := by
  obtain ⟨before, items⟩ := Int.eq_ofNat_of_zero_le nonneg
  have inside : before ≤ all.length := by omega
  obtain ⟨earlier, iter, taken⟩ := take_cut_of_le inside file.ends
  have opened := openAt_of_take file.started taken items
  have counted : offset.items = connector.idx iter := by
    rw [idx_of_take taken, connector.startIdx start file.started, items, Int.zero_add]
  have reads := ingest_reads size opened counted
  have ready := ingest_ready size opened
  have length := take_length_of_cut taken
  obtain ⟨rows, ending, read⟩ :
      ∃ rows ending, take connector.step (batchLimit size) iter = (rows, ending) := ⟨_, _, rfl⟩
  have indexes := @index_of_take Iter connector (batchLimit size) iter
  have whole := take_add (batchLimit size) taken
  rw [read] at reads indexes whole
  have delivered : (ingest connector.toConnector offset size).1.rows = rows := reads.rows
  have position : (ingest connector.toConnector offset size).1.newOffset.items =
      offset.items + rows.length := reads.items
  -- what the calls have read so far is a part of the file
  have part := take_isPrefix_of_ended (before + batchLimit size) file.ends nofun
  rw [whole] at part
  have begun : all.take before = earlier := by
    rw [← length]
    exact (List.prefix_iff_eq_take.mp ((List.prefix_append earlier rows).trans part)).symm
  have follows : all.take offset.items.toNat ++
      (ingest connector.toConnector offset size).1.rows <+: all := by
    rw [delivered, items, Int.toNat_natCast, begun]
    exact part
  refine ⟨?_, follows⟩
  constructor
  · rw [delivered, counted]
    exact indexes
  · rw [delivered, position]
  · have shorter : before + rows.length ≤ all.length := by
      rw [← length, ← List.length_append]
      exact part.length_le
    rw [position, items]
    omega
  · intro pending
    rw [ready] at pending
    cases pending
  · intro done
    have ended : endedAs ending ≠ .unfinished := by
      rw [← reads.ended]
      intro unfinished
      exact callEnded_eq_unfinished.mp unfinished (Or.inr done)
    have stopped : ∀ last, ending ≠ .cut last := by
      intro last same
      exact ended (endedAs_eq_unfinished.mpr ⟨last, same⟩)
    obtain ⟨same, _⟩ := take_eq_of_ended file.ends nofun whole stopped
    rw [position, items, ← same, List.length_append, length]
    exact (Int.natCast_add _ _).symm

end File

example :
    Parses (csvConnector records none [["id"], ["a"], ["b"]])
      { reader := [["a"], ["b"]], header := ["id"] }
      [{ index := 0, data := [("id", .text "a")] }, { index := 1, data := [("id", .text "b")] }] :=
  ⟨rfl, rfl⟩

end MigrationPlatform.Workflow
