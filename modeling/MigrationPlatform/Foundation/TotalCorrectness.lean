/-
Total correctness of computations that may fail.

A computation ensures a postcondition when it succeeds with a value that meets
it. The loop rule speaks of the items that a loop has still to visit.
-/

import Mathlib.Logic.Basic

namespace TotalCorrectness

universe u

variable {Failure Item : Type*} {Value Result : Type u}

def Ensures (computation : Except Failure Value) (post : Value → Prop) : Prop :=
  ∃ value, computation = .ok value ∧ post value

theorem Ensures.ok {post : Value → Prop} {value : Value} (holds : post value) :
    Ensures (.ok value : Except Failure Value) post :=
  ⟨value, rfl, holds⟩

theorem Ensures.mono {computation : Except Failure Value} {strong weak : Value → Prop}
    (ensures : Ensures computation strong) (implies : ∀ value, strong value → weak value) :
    Ensures computation weak := by
  obtain ⟨value, succeeded, holds⟩ := ensures
  exact ⟨value, succeeded, implies value holds⟩

theorem Ensures.bind {computation : Except Failure Value} {next : Value → Except Failure Result}
    {middle : Value → Prop} {post : Result → Prop} (first : Ensures computation middle)
    (second : ∀ value, middle value → Ensures (next value) post) :
    Ensures (computation >>= next) post := by
  obtain ⟨value, succeeded, holds⟩ := first
  rw [succeeded]
  exact second value holds

/-- A loop keeps an invariant on its state and the items before it. -/
theorem Ensures.foldlM {body : Value → Item → Except Failure Value}
    {Invariant : List Item → Value → Prop}
    (turn : ∀ item later value, Invariant (item :: later) value →
      Ensures (body value item) (Invariant later)) :
    ∀ (items : List Item) (value : Value), Invariant items value →
      Ensures (items.foldlM body value) (Invariant []) := by
  intro items
  induction items with
  | nil =>
      intro value holds
      exact Ensures.ok holds
  | cons item later ih =>
      intro value holds
      rw [List.foldlM_cons]
      exact Ensures.bind (turn item later value holds) ih

theorem Ensures.foldlM_of_mem {body : Value → Item → Except Failure Value}
    {Invariant : Value → Prop} {items : List Item}
    (turn : ∀ item ∈ items, ∀ value, Invariant value → Ensures (body value item) Invariant)
    {value : Value} (holds : Invariant value) :
    Ensures (items.foldlM body value) Invariant := by
  have looped := @Ensures.foldlM Failure Item Value body (fun remaining value =>
    (∀ item ∈ remaining, item ∈ items) ∧ Invariant value) (by
      rintro item later value ⟨within, holds⟩
      apply Ensures.mono (turn item (within item List.mem_cons_self) value holds)
      intro next holdsNext
      exact ⟨fun other member => within other (List.mem_cons_of_mem item member), holdsNext⟩)
    items value ⟨fun _item member => member, holds⟩
  apply Ensures.mono looped
  rintro final ⟨_, holdsFinal⟩
  exact holdsFinal

def iterate (body : Value → Except Failure (Value × Bool)) :
    Nat → Value → Option (Except Failure Value)
  | 0, _ => none
  | turns + 1, value =>
      match body value with
      | .error failure => some (.error failure)
      | .ok (next, true) => some (.ok next)
      | .ok (next, false) => iterate body turns next

theorem iterate_ends {body : Value → Except Failure (Value × Bool)}
    {Invariant post : Value → Prop} (measure : Value → Nat)
    (turn : ∀ value, Invariant value → Ensures (body value) (fun next =>
      if next.2 then post next.1 else Invariant next.1 ∧ measure next.1 < measure value)) :
    ∀ (turns : Nat) (value : Value), Invariant value → measure value < turns →
      ∃ final, iterate body turns value = some (.ok final) ∧ post final := by
  intro turns
  induction turns with
  | zero =>
      intro value _holds impossible
      omega
  | succ turns ih =>
      intro value holds enough
      obtain ⟨⟨next, ended⟩, succeeded, after⟩ := turn value holds
      unfold iterate
      rw [succeeded]
      cases ended with
      | true => exact ⟨next, rfl, after⟩
      | false =>
          obtain ⟨holdsNext, lower⟩ := after
          change measure next < measure value at lower
          exact ih next holdsNext (by omega)

end TotalCorrectness
