/-
One call of the sandbox: a parent that writes a request to a child process and
drains both of its output pipes, within a deadline and an output cap.

Parent and child interleave in any order, and the child may do anything with its
ends of the pipes; what it does follows no script here. A step of the parent is
one turn of its loops or one ready stream, a step of the child one system call. A
write moves as many bytes as the kernel takes.
-/

import MigrationPlatform.Connectors.Ingest
import MigrationPlatform.Foundation.BoundedPipes
import MigrationPlatform.Foundation.GuardedRuns
import MigrationPlatform.Foundation.NumberValue
import MigrationPlatform.Foundation.Utf8

namespace MigrationPlatform.Transform

open MigrationPlatform.Connectors
open BoundedPipes
open Utf8 (Bytes)

inductive SandboxError
  | cancelled
  | timeout
  | outputTooLarge (limit : Nat)
  | noResult (status : Int) (detail : String)
  | malformed
  | notAMapping
  | failed (error : Option Value)

/-- What the interpreter has for the parent: `json.loads`, and the end of what
the child wrote to its error stream as text. -/
structure Interpreter where
  loads : Bytes → Option Value
  detail : Bytes → String

/-- `bool(value)`. -/
def truthy : Value → Bool
  | .null => false
  | .bool value => value
  | .number text => decide (NumberText.value? text.toList ≠ some 0)
  | .text value => !value.isEmpty
  | .list items => !items.isEmpty
  | .object fields => !fields.isEmpty

def judge (python : Interpreter) (status : Int) (stdout stderr : Bytes) :
    Except SandboxError Value :=
  if status ≠ 0 ∨ stdout = [] then .error (.noResult status (python.detail stderr))
  else
    match python.loads stdout with
    | none => .error .malformed
    | some (.object payload) =>
        if truthy ((payload.lookup "ok").getD .null) = true then
          .ok ((payload.lookup "value").getD .null)
        else .error (.failed (payload.lookup "error"))
    | some _ => .error .notAMapping

inductive Stream
  | stdin
  | stdout
  | stderr
deriving DecidableEq, Repr

inductive ParentPhase
  | polling
  | handling (stream : Stream) (rest : List Stream)
  | waiting
  | leaving (outcome : Except SandboxError (Bytes × Bytes))
  | finished (result : Except SandboxError Value)

/-- `stuck`: the child did not end within the time `_reap` gives it after the
kill. -/
inductive ChildProcess
  | running
  | exited (status : Int)
  | killed
  | stuck
deriving DecidableEq, Repr

structure Budget where
  deadline : Nat
  maxOutputBytes : Nat
  capacity : Nat

/-- The parent's `stdout` is what it has read of the output pipe. -/
structure World where
  phase : ParentPhase
  pending : Bytes
  input : Pipe UInt8
  output : Pipe UInt8
  errors : Pipe UInt8
  stderr : Bytes
  child : ChildProcess

def World.start (request : Bytes) : World where
  phase := .polling
  pending := request
  input := .opened
  output := .opened
  errors := .opened
  stderr := []
  child := .running

def readChunkSize : Nat := 64 * 1024

def writeChunkSize : Nat := 4096

def stderrCap : Nat := 8 * 1024

def World.registered (w : World) : Stream → Bool
  | .stdin => w.input.writerOpen
  | .stdout => w.output.readerOpen
  | .stderr => w.errors.readerOpen

def World.ready (capacity : Nat) (w : World) (stream : Stream) : Prop :=
  w.registered stream = true ∧
    match stream with
    | .stdin => w.input.Writable capacity
    | .stdout => w.output.Readable
    | .stderr => w.errors.Readable

instance (capacity : Nat) (w : World) (stream : Stream) : Decidable (w.ready capacity stream) := by
  unfold World.ready
  cases stream <;> infer_instance

def checkBudget (deadline now : Nat) (cancelled : Bool) : Option SandboxError :=
  if cancelled = true then some .cancelled
  else if deadline ≤ now then some .timeout
  else none

def handlingOf : List Stream → ParentPhase
  | [] => .polling
  | stream :: rest => .handling stream rest

/-- `_write_chunk`, and closing the stream when nothing is pending. `moved` is
what the pipe accepted; nothing where it would have blocked. -/
def World.writeChunk (capacity : Nat) (w : World) (moved : Nat) : Option World :=
  if isOpen : w.input.readerOpen = true then
    if moved ≤ min writeChunkSize w.pending.length ∧ moved ≤ w.input.free capacity then
      let pipe := w.input.put isOpen (w.pending.take moved)
      let rest := w.pending.drop moved
      some { w with pending := rest, input := if rest = [] then pipe.closeWriter else pipe }
    else none
  else some { w with pending := [], input := w.input.closeWriter }

/-- `_read_chunk`, and closing the stream at its end: the pipe behind the read and
the chunk. `none` where the read would block. -/
def readChunk (pipe : Pipe UInt8) (moved : Nat) : Option (Pipe UInt8 × Bytes) :=
  if pipe.queue = [] then
    if pipe.writerOpen = false then some (pipe.closeReader, []) else none
  else if 0 < moved ∧ moved ≤ min readChunkSize pipe.queue.length then
    some (pipe.take moved, pipe.queue.take moved)
  else none

/-- The error stream is truncated and never fails the call. -/
def World.handle (capacity : Nat) (w : World) (stream : Stream) (moved : Nat) : Option World :=
  match stream with
  | .stdin => w.writeChunk capacity moved
  | .stdout => (readChunk w.output moved).map (fun read => { w with output := read.1 })
  | .stderr => (readChunk w.errors moved).map (fun read =>
      { w with
        errors := read.1
        stderr := w.stderr ++ read.2.take (stderrCap - w.stderr.length) })

/-- Behind each read the parent compares its output with the cap. -/
def World.afterHandling (maxOutputBytes : Nat) (w : World) (stream : Stream)
    (rest : List Stream) : World :=
  if stream ≠ .stdin ∧ maxOutputBytes < w.output.read.length then
    { w with phase := .leaving (.error (.outputTooLarge maxOutputBytes)) }
  else { w with phase := handlingOf rest }

/-- The child after `_reap`: `died` says whether the wait behind the kill ended. -/
def ChildProcess.reaped (died : Bool) : ChildProcess → ChildProcess
  | .running => if died = true then .killed else .stuck
  | other => other

def ChildProcess.exitStatus : ChildProcess → Int
  | .exited status => status
  | _ => -9

def World.reap (python : Interpreter) (w : World) (outcome : Except SandboxError (Bytes × Bytes))
    (died : Bool) : World :=
  let child := w.child.reaped died
  { w with
    child := child
    input := w.input.closeWriter
    output := w.output.closeReader
    errors := w.errors.closeReader
    phase := .finished (outcome.bind (fun output =>
      judge python child.exitStatus output.1 output.2)) }

inductive ParentStep
  | poll (now : Nat) (cancelled : Bool) (ready : List Stream)
  | serve (moved : Nat)
  | await (now : Nat) (cancelled : Bool)
  | reap (died : Bool)

def World.parent (python : Interpreter) (budget : Budget) (w : World) : ParentStep → Option World
  | .poll now cancelled ready =>
      match w.phase with
      | .polling =>
          if w.registered .stdin = false ∧ w.registered .stdout = false ∧
              w.registered .stderr = false then some { w with phase := .waiting }
          else
            match checkBudget budget.deadline now cancelled with
            | some problem => some { w with phase := .leaving (.error problem) }
            | none =>
                if ready.Nodup ∧ ∀ stream ∈ ready, w.ready budget.capacity stream then
                  some { w with phase := handlingOf ready }
                else none
      | _ => none
  | .serve moved =>
      match w.phase with
      | .handling stream rest =>
          (w.handle budget.capacity stream moved).map
            (fun next => next.afterHandling budget.maxOutputBytes stream rest)
      | _ => none
  | .await now cancelled =>
      match w.phase with
      | .waiting =>
          match w.child with
          | .running =>
              match checkBudget budget.deadline now cancelled with
              | some problem => some { w with phase := .leaving (.error problem) }
              | none => some w
          | _ => some { w with phase := .leaving (.ok (w.output.read, w.stderr)) }
      | _ => none
  | .reap died =>
      match w.phase with
      | .leaving outcome => some (w.reap python outcome died)
      | _ => none

/-! ### The child -/

inductive ChildStep
  | reads (count : Nat)
  | writes (bytes : Bytes)
  | reports (bytes : Bytes)
  | closes (stream : Stream)
  | exits (status : Int)

/-- What the child started may outlive it, and has no more steps after the kill. -/
def ChildProcess.acts : ChildProcess → Bool
  | .running => true
  | .exited _ => true
  | .killed => false
  | .stuck => false

def World.closeChildEnd (w : World) : Stream → World
  | .stdin => { w with input := w.input.closeReader }
  | .stdout => { w with output := w.output.closeWriter }
  | .stderr => { w with errors := w.errors.closeWriter }

def World.childMove (capacity : Nat) (w : World) : ChildStep → Option World
  | .reads count =>
      if w.input.readerOpen = true ∧ 0 < count ∧ count ≤ w.input.queue.length then
        some { w with input := w.input.take count }
      else none
  | .writes bytes =>
      if accepts : w.output.Accepts capacity bytes then
        some { w with output := w.output.put accepts.1 bytes }
      else none
  | .reports bytes =>
      if accepts : w.errors.Accepts capacity bytes then
        some { w with errors := w.errors.put accepts.1 bytes }
      else none
  | .closes stream => some (w.closeChildEnd stream)
  | .exits status =>
      if w.child = .running then some { w with child := .exited status } else none

inductive Action
  | parent (step : ParentStep)
  | child (step : ChildStep)

def World.step (python : Interpreter) (budget : Budget) (w : World) : Action → Option World
  | .parent step => w.parent python budget step
  | .child step => if w.child.acts = true then w.childMove budget.capacity step else none

abbrev World.run (python : Interpreter) (budget : Budget) : World → List Action → Option World :=
  GuardedRuns.run (World.step python budget)

end MigrationPlatform.Transform
