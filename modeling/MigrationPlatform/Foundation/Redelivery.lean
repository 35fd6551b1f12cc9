/-
Recording calls that may be delivered again.

Each attempt makes one call, under an id of its own. A call is delivered once or
more often, for the first time behind the calls of the attempts before it and
again at any time after that. A recorder keeps the data of the call that it took
last and counts the calls whose id is not that of the call before. `recorded_once_iff`
says when that is right: when no call comes again behind the call of a later attempt.
-/

import Mathlib.Data.List.Induction

namespace Redelivery

/-- Attempts in the order in which their calls are delivered; so many attempts have
been delivered at all. -/
inductive Arrives : Nat → List Nat → Prop
  | start : Arrives 0 []
  | first {delivered : Nat} {order : List Nat} (before : Arrives delivered order) :
      Arrives (delivered + 1) (order ++ [delivered])
  | again {delivered attempt : Nat} {order : List Nat} (before : Arrives delivered order)
      (known : attempt < delivered) : Arrives delivered (order ++ [attempt])

/-- The calls that a counter takes for new: those whose attempt is not that of the
call before. -/
def counted (order : List Nat) : Nat × Option Nat :=
  order.foldl (fun state attempt =>
    (if state.2 = some attempt then state.1 else state.1 + 1, some attempt)) (0, none)

section Orders

variable {delivered : Nat} {order : List Nat}

theorem counted_append (order : List Nat) (attempt : Nat) :
    counted (order ++ [attempt]) =
      (if (counted order).2 = some attempt then (counted order).1 else (counted order).1 + 1,
        some attempt) := by
  unfold counted
  rw [List.foldl_append]
  rfl

theorem Arrives.bound (arrives : Arrives delivered order) :
    ∀ attempt ∈ order, attempt < delivered := by
  induction arrives with
  | start =>
      intro attempt impossible
      cases impossible
  | first _before ih =>
      intro attempt member
      rcases List.mem_append.mp member with earlier | last
      · exact Nat.lt_succ_of_lt (ih attempt earlier)
      · rw [List.mem_singleton.mp last]
        exact Nat.lt_succ_self _
  | again _before known ih =>
      intro attempt member
      rcases List.mem_append.mp member with earlier | last
      · exact ih attempt earlier
      · rw [List.mem_singleton.mp last]
        exact known

theorem Arrives.all (arrives : Arrives delivered order) :
    ∀ attempt, attempt < delivered → attempt ∈ order := by
  induction arrives with
  | start =>
      intro attempt impossible
      omega
  | @first delivered order _before ih =>
      intro attempt below
      by_cases newest : attempt = delivered
      · rw [newest]
        exact List.mem_append_right _ List.mem_cons_self
      · exact List.mem_append_left _ (ih attempt (by omega))
  | again _before _known ih =>
      intro attempt below
      exact List.mem_append_left _ (ih attempt below)

theorem counted_last (order : List Nat) : (counted order).2 = order.getLast? := by
  induction order using List.reverseRecOn with
  | nil => rfl
  | append_singleton order attempt _ih =>
      rw [counted_append, List.getLast?_concat]

theorem sorted_concat {attempt : Nat} :
    (order ++ [attempt]).Pairwise (· ≤ ·) ↔
      order.Pairwise (· ≤ ·) ∧ ∀ other ∈ order, other ≤ attempt := by
  rw [List.pairwise_append]
  constructor
  · intro sorted
    exact ⟨sorted.1, fun other member => sorted.2.2 other member attempt List.mem_cons_self⟩
  · intro sorted
    refine ⟨sorted.1, List.pairwise_singleton _ _, ?_⟩
    intro other member last single
    rw [List.mem_singleton.mp single]
    exact sorted.2 other member

theorem Arrives.last_of_sorted (arrives : Arrives (delivered + 1) order)
    (sorted : order.Pairwise (· ≤ ·)) : order.getLast? = some delivered := by
  have member := arrives.all delivered (Nat.lt_succ_self _)
  induction order using List.reverseRecOn with
  | nil => cases member
  | append_singleton order attempt _ih =>
      have below := arrives.bound attempt (List.mem_append_right _ List.mem_cons_self)
      have above : delivered ≤ attempt := by
        rcases List.mem_append.mp member with earlier | last
        · exact (sorted_concat.mp sorted).2 delivered earlier
        · exact Nat.le_of_eq (List.mem_singleton.mp last)
      rw [List.getLast?_concat]
      congr 1
      omega

theorem Arrives.counted (arrives : Arrives delivered order) :
    delivered ≤ (Redelivery.counted order).1 ∧
      ((Redelivery.counted order).1 = delivered ↔ order.Pairwise (· ≤ ·)) := by
  induction arrives with
  | start => exact ⟨Nat.le_refl 0, fun _ => List.Pairwise.nil, fun _ => rfl⟩
  | @first delivered order before ih =>
      have fresh : (Redelivery.counted order).2 ≠ some delivered := by
        rw [counted_last]
        intro last
        have below := before.bound delivered (List.mem_of_getLast? last)
        omega
      have largest : ∀ other ∈ order, other ≤ delivered :=
        fun other member => Nat.le_of_lt (before.bound other member)
      rw [counted_append, if_neg fresh, sorted_concat]
      refine ⟨by omega, ?_, ?_⟩
      · intro same
        exact ⟨ih.2.mp (by omega), largest⟩
      · intro sorted
        exact congrArg (· + 1) (ih.2.mpr sorted.1)
  | @again delivered attempt order before known ih =>
      rw [counted_append, sorted_concat]
      by_cases repeated : (Redelivery.counted order).2 = some attempt
      · rw [if_pos repeated]
        refine ⟨ih.1, ?_, fun sorted => ih.2.mpr sorted.1⟩
        intro same
        have sorted := ih.2.mp same
        refine ⟨sorted, ?_⟩
        intro other member
        rw [counted_last] at repeated
        obtain ⟨front, shape⟩ := List.getLast?_eq_some_iff.mp repeated
        rw [shape] at sorted member
        rcases List.mem_append.mp member with earlier | last
        · exact (sorted_concat.mp sorted).2 other earlier
        · exact Nat.le_of_eq (List.mem_singleton.mp last)
      · rw [if_neg repeated]
        refine ⟨by omega, ?_, ?_⟩
        · intro same
          omega
        · -- the newest attempt would be the last of a sorted order, and known only once
          intro sorted
          obtain ⟨newest, rfl⟩ : ∃ newest, delivered = newest + 1 :=
            ⟨delivered - 1, by omega⟩
          have last := before.last_of_sorted sorted.1
          have atMost := sorted.2 newest (List.mem_of_getLast? last)
          rw [counted_last, last] at repeated
          exact absurd (congrArg some (show newest = attempt by omega)) repeated

end Orders

/-! ### Recorders -/

/-- A record under one key: made by the first call, then updated by each. -/
structure Recorder (Call Record Id Data : Type*) [DecidableEq Id] where
  id : Call → Option Id
  insert : Call → Record
  update : Call → Record → Record
  attempts : Record → Nat
  last : Record → Option Id
  data : Record → Data
  attempts_insert : ∀ call, attempts (insert call) = 1
  attempts_update : ∀ call record, attempts (update call record) =
    if (id call).isSome = true ∧ id call = last record then attempts record
    else attempts record + 1
  last_insert : ∀ call, last (insert call) = id call
  last_update : ∀ call record, last (update call record) = id call
  data_update : ∀ call record, data (update call record) = data (insert call)

namespace Recorder

variable {Call Record Id Data : Type*} [DecidableEq Id] (recorder : Recorder Call Record Id Data)

def take (record : Option Record) (call : Call) : Option Record :=
  some ((record.map (recorder.update call)).getD (recorder.insert call))

def deliver (calls : List Call) : Option Record := calls.foldl recorder.take none

/-- The attempts are counted once, and what is recorded is the newest call. -/
structure RecordedOnce (delivered : Nat) (newest : Call) (record : Record) : Prop where
  attempts : recorder.attempts record = delivered
  data : recorder.data record = recorder.data (recorder.insert newest)

variable {recorder} {delivered : Nat} {order : List Nat} {call : Nat → Call}

theorem deliver_append (calls : List Call) (call : Call) :
    recorder.deliver (calls ++ [call]) = recorder.take (recorder.deliver calls) call := by
  unfold deliver
  rw [List.foldl_append]
  rfl

theorem foldl_deliver {Store : Type*} {write : Store → Call → Store} {held : Store → Option Record}
    {start : Store} (absent : held start = none) {calls : List Call}
    (takes : ∀ store, ∀ call ∈ calls, held (write store call) = recorder.take (held store) call) :
    held (calls.foldl write start) = recorder.deliver calls := by
  induction calls using List.reverseRecOn with
  | nil => exact absent
  | append_singleton calls call ih =>
      have before := ih (fun store other member => takes store other (List.mem_append_left _ member))
      rw [deliver_append, ← before, List.foldl_append]
      exact takes _ call (List.mem_append_right _ List.mem_cons_self)

theorem deliver_counted {ids : Nat → Id} (named : ∀ attempt ∈ order,
      recorder.id (call attempt) = some (ids attempt))
    (apart : ∀ left ∈ order, ∀ right ∈ order, ids left = ids right → left = right)
    (nonempty : order ≠ []) :
    ∃ record last, recorder.deliver (order.map call) = some record ∧
      (Redelivery.counted order).2 = some last ∧ last ∈ order ∧
      recorder.attempts record = (Redelivery.counted order).1 ∧
      recorder.last record = some (ids last) ∧
      recorder.data record = recorder.data (recorder.insert (call last)) := by
  induction order using List.reverseRecOn with
  | nil => exact absurd rfl nonempty
  | append_singleton order attempt ih =>
      have namedHere := named attempt (List.mem_append_right _ List.mem_cons_self)
      have ofBoth : attempt ∈ order ++ [attempt] := List.mem_append_right _ List.mem_cons_self
      rw [List.map_append, List.map_singleton, deliver_append, counted_append]
      by_cases empty : order = []
      · subst empty
        refine ⟨recorder.insert (call attempt), attempt, rfl, rfl, ofBoth, ?_, ?_, rfl⟩
        · rw [recorder.attempts_insert]
          rfl
        · rw [recorder.last_insert, namedHere]
      · obtain ⟨record, last, delivered, lastIs, member, attempts, ended, _data⟩ := ih
          (fun other inside => named other (List.mem_append_left _ inside))
          (fun left inLeft right inRight => apart left (List.mem_append_left _ inLeft) right
            (List.mem_append_left _ inRight)) empty
        refine ⟨recorder.update (call attempt) record, attempt, ?_, rfl, ofBoth, ?_, ?_,
          recorder.data_update _ _⟩
        · rw [delivered]
          rfl
        · rw [recorder.attempts_update, namedHere, ended, attempts, lastIs]
          by_cases same : last = attempt
          · rw [same, if_pos ⟨rfl, rfl⟩, if_pos rfl]
          · have different : ¬some (ids attempt) = some (ids last) := by
              intro equal
              exact same (apart last (List.mem_append_left _ member) attempt ofBoth
                (Option.some.inj equal).symm)
            rw [if_neg (fun both => different both.2),
              if_neg (fun equal => same (Option.some.inj equal))]
        · rw [recorder.last_update, namedHere]

theorem recorded_once_iff {ids : Nat → Id} {newest : Nat} (arrives : Arrives (newest + 1) order)
    (named : ∀ attempt, attempt ≤ newest → recorder.id (call attempt) = some (ids attempt))
    (apart : ∀ left right, left ≤ newest → right ≤ newest → ids left = ids right → left = right) :
    ∃ record, recorder.deliver (order.map call) = some record ∧
      (recorder.RecordedOnce (newest + 1) (call newest) record ↔ order.Pairwise (· ≤ ·)) := by
  have within : ∀ attempt ∈ order, attempt ≤ newest :=
    fun attempt member => Nat.le_of_lt_succ (arrives.bound attempt member)
  have nonempty : order ≠ [] := by
    intro empty
    have member := arrives.all newest (Nat.lt_succ_self _)
    rw [empty] at member
    cases member
  obtain ⟨record, last, delivered, lastIs, _member, attempts, _ended, data⟩ :=
    @deliver_counted _ _ _ _ _ recorder order call ids
      (fun attempt member => named attempt (within attempt member))
      (fun left inLeft right inRight => apart left right (within left inLeft) (within right inRight))
      nonempty
  refine ⟨record, delivered, ?_, ?_⟩
  · intro once
    apply arrives.counted.2.mp
    rw [← attempts]
    exact once.attempts
  · intro sorted
    refine ⟨attempts.trans (arrives.counted.2.mpr sorted), ?_⟩
    have isNewest : last = newest := by
      rw [counted_last, arrives.last_of_sorted sorted] at lastIs
      exact (Option.some.inj lastIs).symm
    rw [data, isNewest]

end Recorder

end Redelivery
