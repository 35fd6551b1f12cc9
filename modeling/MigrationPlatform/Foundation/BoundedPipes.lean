/-
A bounded pipe between a writer and a reader.

What was written and not yet read waits in the pipe, which holds no more than
its capacity. Each end is closed on its own. Once the reader has closed its end
what waited is lost; once the writer has, no more follows, and an empty pipe is
at its end.

A pipe keeps what was written into it and read out of it in all, with the facts
that relate the two. Every operation keeps these, so that a reader at the end of a
pipe has read exactly what was written.
-/

import Mathlib.Data.List.Basic

namespace BoundedPipes

structure Pipe (Item : Type*) where
  queue : List Item
  readerOpen : Bool
  writerOpen : Bool
  written : List Item
  read : List Item
  inOrder : read ++ queue <+: written
  intact : readerOpen = true → written = read ++ queue

namespace Pipe

variable {Item : Type*}

def opened : Pipe Item where
  queue := []
  readerOpen := true
  writerOpen := true
  written := []
  read := []
  inOrder := List.prefix_rfl
  intact := fun _ => rfl

def free (capacity : Nat) (p : Pipe Item) : Nat := capacity - p.queue.length

def put (p : Pipe Item) (isOpen : p.readerOpen = true) (items : List Item) : Pipe Item where
  queue := p.queue ++ items
  readerOpen := p.readerOpen
  writerOpen := p.writerOpen
  written := p.written ++ items
  read := p.read
  inOrder := ⟨[], by simp [p.intact isOpen]⟩
  intact := fun _ => by
    rw [p.intact isOpen, List.append_assoc]

def take (p : Pipe Item) (count : Nat) : Pipe Item where
  queue := p.queue.drop count
  readerOpen := p.readerOpen
  writerOpen := p.writerOpen
  written := p.written
  read := p.read ++ p.queue.take count
  inOrder := by
    rw [List.append_assoc, List.take_append_drop]
    exact p.inOrder
  intact := fun isOpen => by
    rw [List.append_assoc, List.take_append_drop]
    exact p.intact isOpen

def closeWriter (p : Pipe Item) : Pipe Item := { p with writerOpen := false }

def closeReader (p : Pipe Item) : Pipe Item where
  queue := []
  readerOpen := false
  writerOpen := p.writerOpen
  written := p.written
  read := p.read
  inOrder := by
    rw [List.append_nil]
    exact (List.prefix_append p.read p.queue).trans p.inOrder
  intact := fun isOpen => by cases isOpen

/-- A read returns at once: there is something to read, or the end. -/
def Readable (p : Pipe Item) : Prop := p.queue ≠ [] ∨ p.writerOpen = false

def Writable (capacity : Nat) (p : Pipe Item) : Prop :=
  p.readerOpen = false ∨ 0 < p.free capacity

def Accepts (capacity : Nat) (p : Pipe Item) (items : List Item) : Prop :=
  p.readerOpen = true ∧ p.writerOpen = true ∧ items ≠ [] ∧ items.length ≤ p.free capacity

instance [DecidableEq Item] (p : Pipe Item) : Decidable p.Readable :=
  inferInstanceAs (Decidable (_ ∨ _))

instance (capacity : Nat) (p : Pipe Item) : Decidable (p.Writable capacity) :=
  inferInstanceAs (Decidable (_ ∨ _))

instance [DecidableEq Item] (capacity : Nat) (p : Pipe Item) (items : List Item) :
    Decidable (p.Accepts capacity items) :=
  inferInstanceAs (Decidable (_ ∧ _))

theorem read_isPrefix (p : Pipe Item) : p.read <+: p.written :=
  (List.prefix_append p.read p.queue).trans p.inOrder

theorem read_eq_written (p : Pipe Item) (isOpen : p.readerOpen = true) (empty : p.queue = []) :
    p.read = p.written := by
  rw [p.intact isOpen, empty, List.append_nil]

end Pipe

end BoundedPipes
