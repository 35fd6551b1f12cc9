/-
What holds of one sandbox call in every interleaving of parent and child.

The pipes carry their own facts. The invariant says of the parent's buffers what
they hold of the pipes, and of its phase how the exchange can have come there.
-/

import MigrationPlatform.Transform.Exchange

namespace MigrationPlatform.Transform

open MigrationPlatform.Connectors
open BoundedPipes
open Utf8 (Bytes)

variable {python : Interpreter} {budget : Budget} {request : Bytes} {w next : World}

/-- The parent has closed the input where nothing is pending, or at its end. -/
structure InputSound (request : Bytes) (w : World) : Prop where
  early : w.input.written <+: request
  rest : w.input.readerOpen = true → w.input.written ++ w.pending = request
  closed : w.input.writerOpen = false → w.pending = [] ∨ w.child ≠ .running

structure BuffersSound (budget : Budget) (request : Bytes) (w : World) : Prop where
  input : InputSound request w
  bounded : w.output.read.length ≤ budget.maxOutputBytes + readChunkSize
  kept : w.stderr = w.errors.read.take stderrCap

def Drained (pipe : Pipe UInt8) : Prop := pipe.readerOpen = false → pipe.read = pipe.written

theorem drained_of_open {pipe : Pipe UInt8} (isOpen : pipe.readerOpen = true) : Drained pipe := by
  intro closed
  rw [isOpen] at closed
  cases closed

inductive Stopped (budget : Budget) (w : World) : SandboxError → Prop
  | cancelled : Stopped budget w .cancelled
  | timeout : Stopped budget w .timeout
  | outputTooLarge (more : budget.maxOutputBytes < w.output.written.length) :
      Stopped budget w (.outputTooLarge budget.maxOutputBytes)

/-- The exchange ended by itself: the child exited and its outputs are complete. -/
structure Ended (budget : Budget) (w : World) (status : Int) : Prop where
  exited : w.child = .exited status
  outputClosed : w.output.readerOpen = false
  errorsClosed : w.errors.readerOpen = false
  output : w.output.read = w.output.written
  errors : w.stderr = w.errors.written.take stderrCap
  fits : w.output.written.length ≤ budget.maxOutputBytes

/-- The child is gone, or was killed and did not end in time; the parent has
closed its ends of the pipes. -/
structure Reaped (w : World) : Prop where
  gone : w.child ≠ .running
  inputClosed : w.input.writerOpen = false
  outputClosed : w.output.readerOpen = false
  errorsClosed : w.errors.readerOpen = false

inductive Reported (python : Interpreter) (budget : Budget) (w : World) :
    Except SandboxError Value → Prop
  | answered (status : Int) (ended : Ended budget w status) :
      Reported python budget w
        (judge python status w.output.written (w.errors.written.take stderrCap))
  | stopped (problem : SandboxError) (reason : Stopped budget w problem) :
      Reported python budget w (.error problem)

structure Working (budget : Budget) (w : World) : Prop where
  acts : w.child.acts = true
  small : w.output.read.length ≤ budget.maxOutputBytes
  output : Drained w.output
  errors : Drained w.errors

def PhaseSound (python : Interpreter) (budget : Budget) (w : World) : ParentPhase → Prop
  | .polling => Working budget w
  | .handling stream rest =>
      Working budget w ∧ (stream :: rest).Nodup ∧
        ∀ other ∈ stream :: rest, w.registered other = true
  | .waiting =>
      Working budget w ∧ w.output.readerOpen = false ∧ w.errors.readerOpen = false
  | .leaving (.ok output) =>
      output = (w.output.read, w.stderr) ∧ ∃ status, Ended budget w status
  | .leaving (.error problem) => Stopped budget w problem
  | .finished result => Reaped w ∧ Reported python budget w result

structure Sound (python : Interpreter) (budget : Budget) (request : Bytes) (w : World) : Prop where
  buffers : BuffersSound budget request w
  phase : PhaseSound python budget w w.phase

theorem Sound.start (python : Interpreter) (budget : Budget) (request : Bytes) :
    Sound python budget request (.start request) := by
  refine ⟨⟨⟨List.nil_prefix, fun _ => rfl, nofun⟩, Nat.zero_le _, rfl⟩, ?_⟩
  exact ⟨rfl, Nat.zero_le _, drained_of_open rfl, drained_of_open rfl⟩

theorem BuffersSound.enter (sound : BuffersSound budget request w) (phase : ParentPhase) :
    BuffersSound budget request { w with phase := phase } :=
  ⟨⟨sound.input.early, sound.input.rest, sound.input.closed⟩, sound.bounded, sound.kept⟩

theorem Working.enter (working : Working budget w) (phase : ParentPhase) :
    Working budget { w with phase := phase } :=
  ⟨working.acts, working.small, working.output, working.errors⟩

theorem stopped_of_checkBudget {now : Nat} {cancelled : Bool} {problem : SandboxError}
    (stops : checkBudget budget.deadline now cancelled = some problem) :
    Stopped budget w problem := by
  unfold checkBudget at stops
  split at stops
  · cases stops
    exact .cancelled
  · split at stops
    · cases stops
      exact .timeout
    · cases stops

/-- One read of a pipe: the chunk continues what was read, and the end is closed
only where nothing is left. -/
structure ChunkRead (pipe after : Pipe UInt8) (chunk : Bytes) : Prop where
  read : after.read = pipe.read ++ chunk
  short : chunk.length ≤ readChunkSize
  drained : pipe.readerOpen = true → Drained after

theorem readChunk_read {pipe after : Pipe UInt8} {chunk : Bytes} {moved : Nat}
    (taken : readChunk pipe moved = some (after, chunk)) : ChunkRead pipe after chunk := by
  unfold readChunk at taken
  split at taken
  · rename_i empty
    split at taken
    · cases taken
      refine ⟨(List.append_nil _).symm, Nat.zero_le _, ?_⟩
      intro isOpen _closed
      exact pipe.read_eq_written isOpen empty
    · cases taken
  · split at taken
    · rename_i fits
      cases taken
      refine ⟨rfl, ?_, fun isOpen => drained_of_open isOpen⟩
      rw [List.length_take]
      omega
    · cases taken

theorem writeChunk_sound {capacity moved : Nat} (sound : InputSound request w)
    (registered : w.input.writerOpen = true) (taken : w.writeChunk capacity moved = some next) :
    InputSound request next ∧
      ∃ pending input, next = { w with pending := pending, input := input } := by
  unfold World.writeChunk at taken
  split at taken
  · rename_i isOpen
    have whole : (w.input.written ++ w.pending.take moved) ++ w.pending.drop moved = request := by
      rw [List.append_assoc, List.take_append_drop]
      exact sound.rest isOpen
    split at taken
    · by_cases done : w.pending.drop moved = []
      · simp only [done, if_true] at taken
        cases taken
        have all : (w.input.written ++ w.pending.take moved) ++ [] = request := by
          rw [← done]
          exact whole
        exact ⟨⟨⟨_, all⟩, fun _ => all, fun _ => Or.inl rfl⟩, _, _, rfl⟩
      · simp only [done, if_false] at taken
        cases taken
        refine ⟨⟨⟨_, whole⟩, fun _ => whole, ?_⟩, _, _, rfl⟩
        intro closed
        change w.input.writerOpen = false at closed
        rw [registered] at closed
        cases closed
    · cases taken
  · rename_i isClosed
    cases taken
    exact ⟨⟨sound.early, fun isOpen => absurd isOpen isClosed, fun _ => Or.inl rfl⟩, _, _, rfl⟩

private theorem take_append_take {Item : Type*} (read chunk : List Item) (cap : Nat) :
    read.take cap ++ chunk.take (cap - (read.take cap).length) = (read ++ chunk).take cap := by
  rw [List.take_append, List.length_take]
  congr 2
  omega

/-- Behind a stream that was handled. The output may now be past the cap. -/
structure Handled (budget : Budget) (request : Bytes) (w : World) (stream : Stream)
    (next : World) : Prop where
  buffers : BuffersSound budget request next
  acts : next.child.acts = true
  output : Drained next.output
  errors : Drained next.errors
  small : stream = .stdin → next.output.read.length ≤ budget.maxOutputBytes
  others : ∀ other, other ≠ stream → next.registered other = w.registered other

theorem handle_handled {stream : Stream} {moved : Nat} (sound : BuffersSound budget request w)
    (working : Working budget w) (registered : w.registered stream = true)
    (taken : w.handle budget.capacity stream moved = some next) :
    Handled budget request w stream next := by
  obtain ⟨⟨early, rest, closed⟩, bounded, kept⟩ := sound
  obtain ⟨acts, small, output, errors⟩ := working
  cases stream with
  | stdin =>
      obtain ⟨input, pending, pipe, rfl⟩ :=
        writeChunk_sound ⟨early, rest, closed⟩ registered taken
      refine ⟨⟨input, bounded, kept⟩, acts, output, errors, fun _ => small, ?_⟩
      intro other different
      cases other <;> first | rfl | exact absurd rfl different
  | stdout =>
      obtain ⟨⟨after, chunk⟩, reading, rfl⟩ := Option.map_eq_some_iff.mp taken
      have read := readChunk_read reading
      refine ⟨⟨⟨early, rest, closed⟩, ?_, kept⟩, acts, read.drained registered, errors,
        nofun, ?_⟩
      · change after.read.length ≤ _
        rw [read.read, List.length_append]
        have short := read.short
        omega
      · intro other different
        cases other <;> first | rfl | exact absurd rfl different
  | stderr =>
      obtain ⟨⟨after, chunk⟩, reading, rfl⟩ := Option.map_eq_some_iff.mp taken
      have read := readChunk_read reading
      refine ⟨⟨⟨early, rest, closed⟩, bounded, ?_⟩, acts, output, read.drained registered,
        nofun, ?_⟩
      · change w.stderr ++ _ = after.read.take stderrCap
        rw [kept, read.read]
        exact take_append_take w.errors.read chunk stderrCap
      · intro other different
        cases other <;> first | rfl | exact absurd rfl different

theorem phaseSound_handlingOf {streams : List Stream} (working : Working budget w)
    (distinct : streams.Nodup) (each : ∀ stream ∈ streams, w.registered stream = true) :
    PhaseSound python budget w (handlingOf streams) := by
  cases streams with
  | nil => exact working
  | cons stream rest => exact ⟨working, distinct, each⟩

theorem Sound.of_served {stream : Stream} {rest : List Stream} {moved : Nat}
    (sound : Sound python budget request w) (handling : w.phase = .handling stream rest)
    (taken : w.handle budget.capacity stream moved = some next) :
    Sound python budget request (next.afterHandling budget.maxOutputBytes stream rest) := by
  have phase := sound.phase
  rw [handling] at phase
  obtain ⟨working, distinct, each⟩ := phase
  have handled := handle_handled sound.buffers working (each stream List.mem_cons_self) taken
  obtain ⟨unlisted, apart⟩ := List.nodup_cons.mp distinct
  unfold World.afterHandling
  split
  · rename_i more
    refine ⟨handled.buffers.enter _, .outputTooLarge ?_⟩
    exact lt_of_lt_of_le more.2 next.output.read_isPrefix.length_le
  · rename_i within
    have small : next.output.read.length ≤ budget.maxOutputBytes := by
      by_cases input : stream = .stdin
      · exact handled.small input
      · exact Nat.le_of_not_lt (fun more => within ⟨input, more⟩)
    have later : Working budget next := ⟨handled.acts, small, handled.output, handled.errors⟩
    refine ⟨handled.buffers.enter _, phaseSound_handlingOf (later.enter _) apart ?_⟩
    intro other member
    have different : other ≠ stream := fun same => unlisted (same ▸ member)
    change next.registered other = true
    rw [handled.others other different]
    exact each other (List.mem_cons_of_mem _ member)

/-! ### The end of a call -/

theorem acts_cases (acts : w.child.acts = true) (ended : w.child ≠ .running) :
    ∃ status, w.child = .exited status := by
  cases child : w.child with
  | running => exact absurd child ended
  | exited status => exact ⟨status, rfl⟩
  | killed =>
      rw [child] at acts
      cases acts
  | stuck =>
      rw [child] at acts
      cases acts

private theorem Sound.of_left (sound : Sound python budget request w) (waiting : w.phase = .waiting)
    (ended : w.child ≠ .running) :
    Sound python budget request
      { w with phase := .leaving (.ok (w.output.read, w.stderr)) } := by
  have phase := sound.phase
  rw [waiting] at phase
  obtain ⟨working, outputClosed, errorsClosed⟩ := phase
  obtain ⟨status, exited⟩ := acts_cases working.acts ended
  have output := working.output outputClosed
  refine ⟨sound.buffers.enter _, rfl, status, exited, outputClosed, errorsClosed, output, ?_, ?_⟩
  · change w.stderr = w.errors.written.take stderrCap
    rw [← working.errors errorsClosed]
    exact sound.buffers.kept
  · change w.output.written.length ≤ _
    rw [← output]
    exact working.small

theorem Sound.of_reaped {outcome : Except SandboxError (Bytes × Bytes)} (died : Bool)
    (sound : Sound python budget request w) (leaving : w.phase = .leaving outcome) :
    Sound python budget request (w.reap python outcome died) := by
  have phase := sound.phase
  rw [leaving] at phase
  have gone : w.child.reaped died ≠ .running := by
    cases child : w.child <;> cases died <;> simp [ChildProcess.reaped]
  refine ⟨⟨⟨sound.buffers.input.early, sound.buffers.input.rest, fun _ => Or.inr gone⟩,
    sound.buffers.bounded, sound.buffers.kept⟩, ⟨gone, rfl, rfl, rfl⟩, ?_⟩
  cases outcome with
  | error problem =>
      refine .stopped problem ?_
      cases phase with
      | cancelled => exact .cancelled
      | timeout => exact .timeout
      | outputTooLarge more => exact .outputTooLarge more
  | ok output =>
      obtain ⟨rfl, status, ended⟩ := phase
      have exited : w.child.reaped died = .exited status := by
        rw [ended.exited]
        rfl
      have judged : judge python (w.child.reaped died).exitStatus w.output.read w.stderr =
          judge python status w.output.written (w.errors.written.take stderrCap) := by
        rw [exited, ended.output, ended.errors]
        rfl
      change Reported python budget _ (judge python (w.child.reaped died).exitStatus _ _)
      rw [judged]
      exact .answered status ⟨exited, rfl, rfl, ended.output, ended.errors, ended.fits⟩

theorem Sound.of_parent {step : ParentStep} (sound : Sound python budget request w)
    (taken : w.parent python budget step = some next) : Sound python budget request next := by
  have phase := sound.phase
  cases step with
  | poll now cancelled ready =>
      simp only [World.parent] at taken
      split at taken
      · rename_i polling
        rw [polling] at phase
        split at taken
        · rename_i closed
          cases taken
          exact ⟨sound.buffers.enter _, Working.enter phase _, closed.2.1, closed.2.2⟩
        · split at taken
          · rename_i stops
            cases taken
            exact ⟨sound.buffers.enter _, stopped_of_checkBudget stops⟩
          · split at taken
            · rename_i allowed
              cases taken
              exact ⟨sound.buffers.enter _, phaseSound_handlingOf (Working.enter phase _) allowed.1
                (fun stream member => (allowed.2 stream member).1)⟩
            · cases taken
      · cases taken
  | serve moved =>
      simp only [World.parent] at taken
      split at taken
      · rename_i handling
        obtain ⟨after, handled, rfl⟩ := Option.map_eq_some_iff.mp taken
        exact sound.of_served handling handled
      · cases taken
  | await now cancelled =>
      simp only [World.parent] at taken
      split at taken
      · rename_i waiting
        split at taken
        · split at taken
          · rename_i stops
            cases taken
            exact ⟨sound.buffers.enter _, stopped_of_checkBudget stops⟩
          · cases taken
            exact sound
        · rename_i ended
          cases taken
          exact sound.of_left waiting ended
      · cases taken
  | reap died =>
      simp only [World.parent] at taken
      split at taken
      · rename_i leaving
        cases taken
        exact sound.of_reaped died leaving
      · cases taken

/-- What a step of the child does to a pipe that the parent reads: it adds to it
only while the parent does. -/
structure Fed (pipe after : Pipe UInt8) : Prop where
  read : after.read = pipe.read
  readerOpen : after.readerOpen = pipe.readerOpen
  written : after.written = pipe.written ∨
    pipe.readerOpen = true ∧ pipe.written.length ≤ after.written.length

theorem Fed.refl (pipe : Pipe UInt8) : Fed pipe pipe := ⟨rfl, rfl, Or.inl rfl⟩

theorem fed_put (pipe : Pipe UInt8) (isOpen : pipe.readerOpen = true) (bytes : Bytes) :
    Fed pipe (pipe.put isOpen bytes) := by
  refine ⟨rfl, rfl, Or.inr ⟨isOpen, ?_⟩⟩
  change _ ≤ (pipe.written ++ bytes).length
  rw [List.length_append]
  exact Nat.le_add_right _ _

theorem Fed.closed {pipe after : Pipe UInt8} (fed : Fed pipe after)
    (closed : pipe.readerOpen = false) : after.written = pipe.written := by
  rcases fed.written with same | ⟨isOpen, _⟩
  · exact same
  · rw [closed] at isOpen
    cases isOpen

theorem Fed.drained {pipe after : Pipe UInt8} (fed : Fed pipe after) (drained : Drained pipe) :
    Drained after := by
  intro closed
  rw [fed.readerOpen] at closed
  rw [fed.read, fed.closed closed]
  exact drained closed

structure ChildMoves (w next : World) : Prop where
  phase : next.phase = w.phase
  stderr : next.stderr = w.stderr
  writerOpen : next.input.writerOpen = w.input.writerOpen
  output : Fed w.output next.output
  errors : Fed w.errors next.errors
  child : next.child = w.child ∨ w.child = .running ∧ ∃ status, next.child = .exited status

namespace ChildMoves

variable (moves : ChildMoves w next)
include moves

theorem not_running (before : w.child ≠ .running) : next.child = w.child := by
  rcases moves.child with same | ⟨running, _⟩
  · exact same
  · exact absurd running before

private theorem written_le : w.output.written.length ≤ next.output.written.length := by
  rcases moves.output.written with same | ⟨_, more⟩
  · rw [same]
  · exact more

theorem stopped {problem : SandboxError} (reason : Stopped budget w problem) :
    Stopped budget next problem := by
  cases reason with
  | cancelled => exact .cancelled
  | timeout => exact .timeout
  | outputTooLarge more => exact .outputTooLarge (lt_of_lt_of_le more moves.written_le)

theorem ended {status : Int} (ended : Ended budget w status) : Ended budget next status := by
  have gone : w.child ≠ .running := by
    rw [ended.exited]
    exact nofun
  have output := moves.output.closed ended.outputClosed
  refine ⟨(moves.not_running gone).trans ended.exited,
    moves.output.readerOpen.trans ended.outputClosed,
    moves.errors.readerOpen.trans ended.errorsClosed, ?_, ?_, ?_⟩
  · rw [moves.output.read, output]
    exact ended.output
  · rw [moves.stderr, moves.errors.closed ended.errorsClosed]
    exact ended.errors
  · rw [output]
    exact ended.fits

theorem working (working : Working budget w) : Working budget next := by
  refine ⟨?_, ?_, moves.output.drained working.output, moves.errors.drained working.errors⟩
  · rcases moves.child with same | ⟨_, status, exited⟩
    · rw [same]
      exact working.acts
    · rw [exited]
      rfl
  · rw [moves.output.read]
    exact working.small

theorem registered (stream : Stream) : next.registered stream = w.registered stream := by
  cases stream with
  | stdin => exact moves.writerOpen
  | stdout => exact moves.output.readerOpen
  | stderr => exact moves.errors.readerOpen

theorem phaseSound {phase : ParentPhase} (sound : PhaseSound python budget w phase) :
    PhaseSound python budget next phase := by
  cases phase with
  | polling => exact moves.working sound
  | handling stream rest =>
      refine ⟨moves.working sound.1, sound.2.1, ?_⟩
      intro other member
      rw [moves.registered]
      exact sound.2.2 other member
  | waiting =>
      exact ⟨moves.working sound.1, moves.output.readerOpen.trans sound.2.1,
        moves.errors.readerOpen.trans sound.2.2⟩
  | leaving outcome =>
      cases outcome with
      | error problem => exact moves.stopped sound
      | ok output =>
          obtain ⟨same, status, ended⟩ := sound
          refine ⟨?_, status, moves.ended ended⟩
          rw [moves.output.read, moves.stderr]
          exact same
  | finished result =>
      obtain ⟨reaped, report⟩ := sound
      refine ⟨⟨?_, moves.writerOpen.trans reaped.inputClosed,
        moves.output.readerOpen.trans reaped.outputClosed,
        moves.errors.readerOpen.trans reaped.errorsClosed⟩, ?_⟩
      · rw [moves.not_running reaped.gone]
        exact reaped.gone
      · cases report with
        | stopped problem reason => exact .stopped problem (moves.stopped reason)
        | answered status ended =>
            rw [← moves.output.closed ended.outputClosed, ← moves.errors.closed ended.errorsClosed]
            exact .answered status (moves.ended ended)

end ChildMoves

theorem Sound.of_moves (sound : Sound python budget request w) (moves : ChildMoves w next)
    (input : InputSound request next) : Sound python budget request next := by
  refine ⟨⟨input, ?_, ?_⟩, ?_⟩
  · rw [moves.output.read]
    exact sound.buffers.bounded
  · rw [moves.stderr, moves.errors.read]
    exact sound.buffers.kept
  · rw [moves.phase]
    exact moves.phaseSound sound.phase

theorem Sound.of_child {capacity : Nat} {step : ChildStep} (sound : Sound python budget request w)
    (taken : w.childMove capacity step = some next) : Sound python budget request next := by
  obtain ⟨early, rest, closed⟩ := sound.buffers.input
  cases step with
  | reads count =>
      simp only [World.childMove] at taken
      split at taken
      · cases taken
        exact sound.of_moves ⟨rfl, rfl, rfl, .refl _, .refl _, Or.inl rfl⟩ ⟨early, rest, closed⟩
      · cases taken
  | writes bytes =>
      simp only [World.childMove] at taken
      split at taken
      · rename_i accepts
        cases taken
        exact sound.of_moves ⟨rfl, rfl, rfl, fed_put _ accepts.1 bytes, .refl _, Or.inl rfl⟩
          ⟨early, rest, closed⟩
      · cases taken
  | reports bytes =>
      simp only [World.childMove] at taken
      split at taken
      · rename_i accepts
        cases taken
        exact sound.of_moves ⟨rfl, rfl, rfl, .refl _, fed_put _ accepts.1 bytes, Or.inl rfl⟩
          ⟨early, rest, closed⟩
      · cases taken
  | closes stream =>
      cases taken
      cases stream with
      | stdin =>
          exact sound.of_moves ⟨rfl, rfl, rfl, .refl _, .refl _, Or.inl rfl⟩ ⟨early, nofun, closed⟩
      | stdout =>
          exact sound.of_moves ⟨rfl, rfl, rfl, ⟨rfl, rfl, Or.inl rfl⟩, .refl _, Or.inl rfl⟩
            ⟨early, rest, closed⟩
      | stderr =>
          exact sound.of_moves ⟨rfl, rfl, rfl, .refl _, ⟨rfl, rfl, Or.inl rfl⟩, Or.inl rfl⟩
            ⟨early, rest, closed⟩
  | exits status =>
      simp only [World.childMove] at taken
      split at taken
      · rename_i running
        cases taken
        exact sound.of_moves
          ⟨rfl, rfl, rfl, .refl _, .refl _, Or.inr ⟨running, status, rfl⟩⟩
          ⟨early, rest, fun _ => Or.inr nofun⟩
      · cases taken

/-! ### Every run -/

theorem sound_of_run {actions : List Action} {final : World}
    (ran : World.run python budget (.start request) actions = some final) :
    Sound python budget request final := by
  refine GuardedRuns.invariant_of_run ?_ actions (.start request) final
    (.start python budget request) ran
  intro before action after sound taken
  cases action with
  | parent step => exact sound.of_parent taken
  | child step =>
      simp only [World.step] at taken
      split at taken
      · exact sound.of_child taken
      · cases taken

structure Exchanged (python : Interpreter) (budget : Budget) (request : Bytes) (w : World) :
    Prop where
  inOrder : w.input.read <+: request
  whole : w.child = .running → w.input.readerOpen = true → w.input.queue = [] →
    w.input.writerOpen = false → w.input.read = request
  outputBounded : w.output.read.length ≤ budget.maxOutputBytes + readChunkSize
  errorsBounded : w.stderr.length ≤ stderrCap
  finished : ∀ result, w.phase = .finished result → Reaped w ∧ Reported python budget w result

/-- Whatever the child does and however the two interleave: the child reads the
request in order and, at the end of its input, all of it; the parent never holds
more than the cap and one chunk; and a call that returns has reaped the child,
and reports either why it stopped or the judgement of the complete output of a
child that exited. -/
theorem exchange_sound (python : Interpreter) (budget : Budget) (request : Bytes)
    (actions : List Action) (final : World)
    (ran : World.run python budget (.start request) actions = some final) :
    Exchanged python budget request final := by
  have sound := sound_of_run ran
  obtain ⟨early, rest, closed⟩ := sound.buffers.input
  refine ⟨final.input.read_isPrefix.trans early, ?_, sound.buffers.bounded, ?_, ?_⟩
  · intro running isOpen empty ended
    have all : final.pending = [] :=
      (closed ended).resolve_right (fun gone => gone running)
    rw [final.input.read_eq_written isOpen empty, ← rest isOpen, all, List.append_nil]
  · rw [sound.buffers.kept]
    exact List.length_take_le _ _
  · intro result finished
    have phase := sound.phase
    rw [finished] at phase
    exact phase

def oneAnswer : Bytes :=
  [0x7b, 0x22, 0x6f, 0x6b, 0x22, 0x3a, 0x20, 0x74, 0x72, 0x75, 0x65, 0x2c, 0x20, 0x22,
    0x76, 0x61, 0x6c, 0x75, 0x65, 0x22, 0x3a, 0x20, 0x31, 0x7d]

def oneInterpreter : Interpreter where
  loads := fun text =>
    if text = oneAnswer then some (.object [("ok", .bool true), ("value", .number "1")])
    else none
  detail := fun _ => ""

def defaultBudget : Budget where
  deadline := 2000
  maxOutputBytes := 1024 * 1024
  capacity := 64 * 1024

def oneCall : List Action :=
  [.parent (.poll 0 false [.stdin]), .parent (.serve 2), .child (.reads 2),
    .child (.writes oneAnswer), .child (.closes .stdin), .child (.closes .stdout),
    .child (.closes .stderr), .parent (.poll 1 false [.stdout]), .parent (.serve 24),
    .parent (.poll 2 false [.stderr, .stdout]), .parent (.serve 0), .parent (.serve 0),
    .parent (.poll 3 false []), .parent (.await 3 false), .child (.exits 0),
    .parent (.await 4 false), .parent (.reap true)]

theorem exchange_sound_oneCall : ∃ final,
    World.run oneInterpreter defaultBudget (.start [0x7b, 0x7d]) oneCall = some final ∧
      final.phase = .finished (.ok (.number "1")) ∧
      Exchanged oneInterpreter defaultBudget [0x7b, 0x7d] final :=
  ⟨_, rfl, rfl, exchange_sound oneInterpreter defaultBudget [0x7b, 0x7d] oneCall _ rfl⟩

end MigrationPlatform.Transform
