/-
The shortest decimal of a binary number.

Many whole numbers round to one number of `p` bits. The shortest of them ends in
the most zeros and is the nearest of those that end in as many. It is found by
looking at the multiples of ever smaller powers of ten around the number, has the
fewest significant digits, and is the only one of its kind. A decimal with a
fraction is never shorter than the number itself.
-/

import Mathlib.Data.Nat.Factorization.Basic
import MigrationPlatform.Foundation.BinaryRounding

namespace ShortestDecimal

open BinaryRounding

variable {p : Nat}

/-- The nearer one of the multiples of `10 ^ k` around `v`, of those that round to it. -/
def bestAt (p v k : Nat) : Option Nat :=
  let low := v / 10 ^ k * 10 ^ k
  let high := low + 10 ^ k
  if roundTo p low = v then
    if roundTo p high = v ∧ high - v < v - low then some high else some low
  else if roundTo p high = v then some high
  else none

def shortestFrom (p v : Nat) : Nat → Nat
  | 0 => v
  | k + 1 => (bestAt p v (k + 1)).getD (shortestFrom p v k)

def shortest (p v : Nat) : Nat := shortestFrom p v (v.log2 + 1)

structure IsShortest (p v d : Nat) : Prop where
  rounds : roundTo p d = v
  zeros : ∀ m, roundTo p m = v → ∀ j, 10 ^ j ∣ m → 10 ^ j ∣ d
  closest : ∀ m, roundTo p m = v → (∀ j, 10 ^ j ∣ d → 10 ^ j ∣ m) → Nat.dist v d ≤ Nat.dist v m

/-! ### The search -/

theorem multiple_outside {k m : Nat} (v : Nat) (multiple : 10 ^ k ∣ m) :
    m ≤ v / 10 ^ k * 10 ^ k ∨ v / 10 ^ k * 10 ^ k + 10 ^ k ≤ m := by
  obtain ⟨c, rfl⟩ := multiple
  rw [Nat.mul_comm (10 ^ k) c]
  rcases Nat.lt_or_ge (v / 10 ^ k) c with large | small
  · right
    have step : (v / 10 ^ k + 1) * 10 ^ k ≤ c * 10 ^ k := Nat.mul_le_mul_right _ large
    rw [Nat.add_mul, Nat.one_mul] at step
    exact step
  · left
    exact Nat.mul_le_mul_right _ small

theorem around (v k : Nat) : v / 10 ^ k * 10 ^ k ≤ v ∧ v < v / 10 ^ k * 10 ^ k + 10 ^ k :=
  ⟨Nat.div_mul_le_self v _, Nat.lt_div_mul_add (Nat.pow_pos (by decide))⟩

theorem bestAt_some {v k d : Nat} (positive : 0 < p) (fixed : roundTo p v = v)
    (best : bestAt p v k = some d) :
    roundTo p d = v ∧ 10 ^ k ∣ d ∧
      ∀ m, roundTo p m = v → 10 ^ k ∣ m → Nat.dist v d ≤ Nat.dist v m := by
  have own := around v k
  have lowMultiple : 10 ^ k ∣ v / 10 ^ k * 10 ^ k := Nat.dvd_mul_left _ _
  have highMultiple : 10 ^ k ∣ v / 10 ^ k * 10 ^ k + 10 ^ k :=
    Nat.dvd_add lowMultiple (Nat.dvd_refl _)
  -- a multiple further out is in the class only if the one before it is
  have lowClass : ∀ m, roundTo p m = v → m ≤ v / 10 ^ k * 10 ^ k →
      roundTo p (v / 10 ^ k * 10 ^ k) = v :=
    fun m rounds below => roundTo_between positive rounds fixed below own.1
  have highClass : ∀ m, roundTo p m = v → v / 10 ^ k * 10 ^ k + 10 ^ k ≤ m →
      roundTo p (v / 10 ^ k * 10 ^ k + 10 ^ k) = v :=
    fun m rounds above => roundTo_between positive fixed rounds own.2.le above
  unfold bestAt at best
  simp only at best
  split at best
  · rename_i low
    split at best
    · rename_i high
      cases best
      refine ⟨high.1, highMultiple, ?_⟩
      intro m rounds multiple
      have outside := multiple_outside v multiple
      unfold Nat.dist
      omega
    · rename_i nearer
      cases best
      refine ⟨low, lowMultiple, ?_⟩
      intro m rounds multiple
      unfold Nat.dist
      rcases multiple_outside v multiple with below | above
      · omega
      · have far : ¬(v / 10 ^ k * 10 ^ k + 10 ^ k - v < v - v / 10 ^ k * 10 ^ k) :=
          fun near => nearer ⟨highClass m rounds above, near⟩
        omega
  · rename_i notLow
    split at best
    · rename_i high
      cases best
      refine ⟨high, highMultiple, ?_⟩
      intro m rounds multiple
      unfold Nat.dist
      rcases multiple_outside v multiple with below | above
      · exact absurd (lowClass m rounds below) notLow
      · omega
    · cases best

theorem bestAt_none {v k : Nat} (positive : 0 < p) (fixed : roundTo p v = v)
    (best : bestAt p v k = none) : ∀ m, roundTo p m = v → ¬10 ^ k ∣ m := by
  intro m rounds multiple
  have own := around v k
  unfold bestAt at best
  simp only at best
  split at best
  · split at best
    · cases best
    · cases best
  · rename_i notLow
    split at best
    · cases best
    · rename_i notHigh
      rcases multiple_outside v multiple with below | above
      · exact notLow (roundTo_between positive rounds fixed below own.1)
      · exact notHigh (roundTo_between positive fixed rounds own.2.le above)

theorem shortestFrom_stops {v : Nat} (positive : 0 < p) (fixed : roundTo p v = v) (k : Nat) :
    ∃ stop, roundTo p (shortestFrom p v k) = v ∧ 10 ^ stop ∣ shortestFrom p v k ∧
      (∀ m, roundTo p m = v → ∀ j, j ≤ k → 10 ^ j ∣ m → j ≤ stop) ∧
      ∀ m, roundTo p m = v → 10 ^ stop ∣ m →
        Nat.dist v (shortestFrom p v k) ≤ Nat.dist v m := by
  induction k with
  | zero =>
      refine ⟨0, fixed, Nat.one_dvd _, ?_, ?_⟩
      · intro m _rounds j few _multiple
        exact few
      · intro m _rounds _multiple
        rw [shortestFrom, Nat.dist_self]
        exact Nat.zero_le _
  | succ k ih =>
      unfold shortestFrom
      cases best : bestAt p v (k + 1) with
      | some d =>
          obtain ⟨rounds, multiple, closest⟩ := bestAt_some positive fixed best
          refine ⟨k + 1, rounds, multiple, ?_, closest⟩
          intro m _rounds j few _multiple
          exact few
      | none =>
          obtain ⟨stop, rounds, multiple, zeros, closest⟩ := ih
          refine ⟨stop, rounds, multiple, ?_, closest⟩
          intro m other j few multipleOf
          have none := bestAt_none positive fixed best m other
          have different : j ≠ k + 1 := by
            intro same
            rw [same] at multipleOf
            exact none multipleOf
          exact zeros m other j (by omega) multipleOf

theorem zeros_le {v m j : Nat} (positive : 0 < p) (nonzero : 0 < v) (rounds : roundTo p m = v)
    (multiple : 10 ^ j ∣ m) : j ≤ v.log2 + 1 := by
  by_contra more
  have present : 0 < m := by
    rcases Nat.eq_zero_or_pos m with zero | given
    · rw [zero, roundTo_of_representable positive (representable_of_lt (Nat.two_pow_pos p))] at rounds
      omega
    · exact given
  have power : 2 ^ (v.log2 + 1) ≤ m :=
    calc
      2 ^ (v.log2 + 1) ≤ 2 ^ j := Nat.pow_le_pow_right (by decide) (by omega)
      _ ≤ 10 ^ j := Nat.pow_le_pow_left (by decide) j
      _ ≤ m := Nat.le_of_dvd present multiple
  have rounded := (roundTo_bounds positive).1 power
  have size : v < 2 ^ (v.log2 + 1) := Nat.lt_log2_self
  omega

theorem isShortest_shortest {v : Nat} (positive : 0 < p) (nonzero : 0 < v)
    (fixed : roundTo p v = v) : IsShortest p v (shortest p v) := by
  obtain ⟨stop, rounds, multiple, zeros, closest⟩ :=
    shortestFrom_stops positive fixed (v.log2 + 1)
  refine ⟨rounds, ?_, ?_⟩
  · intro m other j multipleOf
    have few := zeros m other j (zeros_le positive nonzero other multipleOf) multipleOf
    exact Nat.dvd_trans (Nat.pow_dvd_pow 10 few) multiple
  · intro m other same
    exact closest m other (same stop multiple)

theorem not_halfway {v d k : Nat} (rounds : roundTo p d = v) (multiple : 10 ^ k ∣ d) :
    2 * Nat.dist v d ≠ 10 ^ k := by
  intro half
  obtain ⟨error, spaced⟩ := roundTo_error p d
  rw [rounds] at error spaced
  rw [Nat.dist_comm] at error
  unfold spacing at error spaced
  obtain ⟨c, rfl⟩ := multiple
  -- twice the number is an odd multiple of `10 ^ k`
  have odd : ∃ a, 2 * v = 2 ^ k * (2 * a + 1) := by
    have fives : ∃ b, 5 ^ k = 2 * b + 1 := Odd.pow (by decide)
    obtain ⟨b, fives⟩ := fives
    have tens : (10 : Nat) ^ k = 2 ^ k * 5 ^ k := by rw [← Nat.mul_pow]
    unfold Nat.dist at half
    rcases Nat.le_total v (10 ^ k * c) with below | above
    · have twice : 2 * v + 10 ^ k = 2 * (10 ^ k * c) := by omega
      have some_ : 0 < c := by
        rcases Nat.eq_zero_or_pos c with zero | given
        · have ten : 0 < (10 : Nat) ^ k := Nat.pow_pos (by decide)
          rw [zero] at twice
          omega
        · exact given
      obtain ⟨c, rfl⟩ := Nat.exists_eq_add_of_lt some_
      refine ⟨(2 * b + 1) * c + b, ?_⟩
      rw [tens, fives] at twice
      have expanded : 2 * (2 ^ k * (2 * b + 1) * (0 + c + 1)) =
          2 ^ k * (2 * ((2 * b + 1) * c + b) + 1) + 2 ^ k * (2 * b + 1) := by ring
      omega
    · have twice : 2 * v = 2 * (10 ^ k * c) + 10 ^ k := by omega
      refine ⟨(2 * b + 1) * c + b, ?_⟩
      rw [twice, tens, fives]
      ring
  obtain ⟨a, odd⟩ := odd
  have few : 2 ^ dropped p (10 ^ k * c) < 10 ^ k := by
    rcases Nat.lt_or_ge (dropped p (10 ^ k * c)) k with fine | coarse
    · calc
        2 ^ dropped p (10 ^ k * c) < 2 ^ k := Nat.pow_lt_pow_right (by decide) fine
        _ ≤ 10 ^ k := Nat.pow_le_pow_left (by decide) k
    · exfalso
      obtain ⟨w, rfl⟩ := Nat.dvd_trans (Nat.pow_dvd_pow 2 coarse) spaced
      have twice : 2 ^ k * (2 * w) = 2 ^ k * (2 * a + 1) := by
        rw [← odd]
        ring
      have same := Nat.eq_of_mul_eq_mul_left (Nat.two_pow_pos k) twice
      omega
  omega

theorem pos_of_rounds {v m : Nat} (positive : 0 < p) (nonzero : 0 < v) (rounds : roundTo p m = v) :
    0 < m := by
  rcases Nat.eq_zero_or_pos m with zero | given
  · rw [zero, roundTo_of_representable positive (representable_of_lt (Nat.two_pow_pos p))] at rounds
    omega
  · exact given

theorem not_both_sides {v low high : Nat} (positive : 0 < p) (nonzero : 0 < v)
    (one : IsShortest p v low) (other : IsShortest p v high) (apart : low < high)
    (middle : low + high = 2 * v) : False := by
  have present := pos_of_rounds positive nonzero one.rounds
  obtain ⟨k, c, last, split⟩ :=
    Nat.exists_eq_pow_mul_and_not_dvd (Nat.pos_iff_ne_zero.mp present) 10 (by decide)
  have lowMultiple : 10 ^ k ∣ low := ⟨c, split⟩
  have highMultiple : 10 ^ k ∣ high := other.zeros low one.rounds k lowMultiple
  obtain ⟨t, gap⟩ := (Nat.dvd_sub highMultiple lowMultiple)
  have unit : 0 < (10 : Nat) ^ k := Nat.pow_pos (by decide)
  have halfway : 2 * Nat.dist v low = 10 ^ k * t := by
    unfold Nat.dist
    omega
  match t, gap, halfway with
  | 0, gap, halfway => omega
  | 1, gap, halfway =>
      rw [Nat.mul_one] at halfway
      exact not_halfway one.rounds lowMultiple halfway
  | t + 2, gap, halfway =>
      have room : 10 ^ k * 2 ≤ 10 ^ k * (t + 2) := Nat.mul_le_mul_left _ (by omega)
      have inside : roundTo p (low + 10 ^ k) = v :=
        roundTo_between positive one.rounds other.rounds (Nat.le_add_right _ _) (by omega)
      have sameZeros : ∀ j, 10 ^ j ∣ low → 10 ^ j ∣ low + 10 ^ k := by
        intro j multiple
        have few : j ≤ k := by
          by_contra more
          have one_more : 10 ^ (k + 1) ∣ low := Nat.dvd_trans (Nat.pow_dvd_pow 10 (by omega)) multiple
          rw [split, pow_succ] at one_more
          exact last (Nat.dvd_of_mul_dvd_mul_left unit one_more)
        exact Nat.dvd_add multiple (Nat.pow_dvd_pow 10 few)
      have nearest := one.closest (low + 10 ^ k) inside sameZeros
      unfold Nat.dist at nearest
      omega

theorem IsShortest.unique {v d m : Nat} (positive : 0 < p) (nonzero : 0 < v)
    (one : IsShortest p v d) (other : IsShortest p v m) : d = m := by
  have nearer := one.closest m other.rounds (fun j multiple => other.zeros d one.rounds j multiple)
  have farther := other.closest d one.rounds (fun j multiple => one.zeros m other.rounds j multiple)
  by_contra different
  unfold Nat.dist at nearer farther
  rcases Nat.lt_or_ge d m with below | above
  · exact not_both_sides positive nonzero one other below (by omega)
  · exact not_both_sides positive nonzero other one (by omega) (by omega)

theorem shortest_eq_iff {v d : Nat} (positive : 0 < p) (nonzero : 0 < v)
    (fixed : roundTo p v = v) : shortest p v = d ↔ IsShortest p v d := by
  constructor
  · intro same
    rw [← same]
    exact isShortest_shortest positive nonzero fixed
  · intro one
    exact (isShortest_shortest positive nonzero fixed).unique positive nonzero one

theorem shortest_of_lt {v : Nat} (positive : 0 < p) (few : v < 2 ^ p) : shortest p v = v := by
  have own : ∀ m, roundTo p m = v → m = v := fun m rounds => (roundTo_eq_iff_of_lt positive few).mp rounds
  have fixed : roundTo p v = v := roundTo_of_representable positive (representable_of_lt few)
  rcases Nat.eq_zero_or_pos v with zero | nonzero
  · obtain ⟨stop, rounds, _rest⟩ := shortestFrom_stops positive fixed (v.log2 + 1)
    exact own _ rounds
  · exact own _ (isShortest_shortest positive nonzero fixed).rounds

theorem roundTo_shortest {v : Nat} (positive : 0 < p) (fixed : roundTo p v = v) :
    roundTo p (shortest p v) = v := by
  obtain ⟨stop, rounds, _rest⟩ := shortestFrom_stops positive fixed (v.log2 + 1)
  exact rounds

end ShortestDecimal
