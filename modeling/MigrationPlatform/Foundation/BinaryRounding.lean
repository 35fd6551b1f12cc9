/-
Rounding natural numbers to a significand of a fixed number of bits.

A number has a significand of `p` bits when it is below `2 ^ p` times a power of
two. Rounding goes to the nearest such number, to the even one of two. Everything
else, as that rounding is monotone and keeps what is rounded, follows from its
being nearest.
-/

import Mathlib.Data.Nat.Dist
import Mathlib.Tactic.Ring

namespace BinaryRounding

variable {p : Nat}

def Representable (p v : Nat) : Prop := ∃ m e, m < 2 ^ p ∧ v = m * 2 ^ e

def dropped (p n : Nat) : Nat := n.log2 + 1 - p

def spacing (p n : Nat) : Nat := 2 ^ dropped p n

def roundTo (p n : Nat) : Nat :=
  let unit := spacing p n
  let q := n / unit
  if 2 * (n % unit) < unit ∨ 2 * (n % unit) = unit ∧ q % 2 = 0 then q * unit
  else (q + 1) * unit

/-- The quotient, with a last bit for what is left. Where it has more than `p + 1`
bits it is rounded as the exact quotient is. -/
def jammed (n d : Nat) : Nat := 2 * (n / d) + if n % d = 0 then 0 else 1

/-! ### The two numbers around -/

theorem spacing_pos (p n : Nat) : 0 < spacing p n := Nat.two_pow_pos _

theorem quotient_lt (p n : Nat) : n / spacing p n < 2 ^ p := by
  have size : n < 2 ^ (n.log2 + 1) := Nat.lt_log2_self
  have bound : 2 ^ (n.log2 + 1) ≤ 2 ^ p * spacing p n := by
    unfold spacing dropped
    rw [← Nat.pow_add]
    apply Nat.pow_le_pow_right (by decide)
    omega
  apply (Nat.div_lt_iff_lt_mul (spacing_pos p n)).mpr
  exact lt_of_lt_of_le size bound

theorem half_le_quotient {n : Nat} (positive : 0 < p) (drops : dropped p n ≠ 0) :
    2 ^ (p - 1) ≤ n / spacing p n := by
  unfold dropped at drops
  have nonzero : n ≠ 0 := by
    intro zero
    rw [zero] at drops
    apply drops
    rw [Nat.log2_zero]
    omega
  have size : 2 ^ n.log2 ≤ n := Nat.log2_self_le nonzero
  apply (Nat.le_div_iff_mul_le (spacing_pos p n)).mpr
  unfold spacing dropped
  rw [← Nat.pow_add]
  have exponent : p - 1 + (n.log2 + 1 - p) = n.log2 := by omega
  rw [exponent]
  exact size

theorem representable_below (p n : Nat) : Representable p (n / spacing p n * spacing p n) :=
  ⟨n / spacing p n, dropped p n, quotient_lt p n, rfl⟩

theorem representable_above (positive : 0 < p) (n : Nat) :
    Representable p ((n / spacing p n + 1) * spacing p n) := by
  have few := quotient_lt p n
  by_cases full : n / spacing p n + 1 < 2 ^ p
  · exact ⟨_, dropped p n, full, rfl⟩
  · -- all bits are set, and the next number is a power of two
    have exact_ : n / spacing p n + 1 = 2 ^ p := by omega
    refine ⟨2 ^ (p - 1), dropped p n + 1, Nat.pow_lt_pow_right (by decide) (by omega), ?_⟩
    rw [exact_]
    unfold spacing
    rw [← Nat.pow_add, ← Nat.pow_add]
    congr 1
    omega

theorem not_between (positive : 0 < p) {n w : Nat} (representable : Representable p w)
    (low : n / spacing p n * spacing p n < w) : (n / spacing p n + 1) * spacing p n ≤ w := by
  obtain ⟨m, e, few, rfl⟩ := representable
  by_cases drops : dropped p n ≤ e
  · -- a multiple of the spacing
    have multiple : 2 ^ e = 2 ^ (e - dropped p n) * spacing p n := by
      unfold spacing
      rw [← Nat.pow_add]
      congr 1
      omega
    rw [multiple, ← Nat.mul_assoc] at low ⊢
    exact Nat.mul_le_mul_right _ (Nat.lt_of_mul_lt_mul_right low)
  · -- too small
    exfalso
    have first := half_le_quotient positive (n := n) (by omega)
    have small : m * 2 ^ e ≤ 2 ^ (p - 1) * spacing p n := by
      calc
        m * 2 ^ e ≤ 2 ^ p * 2 ^ e := Nat.mul_le_mul_right _ few.le
        _ = 2 ^ (p + e) := (Nat.pow_add 2 p e).symm
        _ ≤ 2 ^ (p - 1 + dropped p n) := Nat.pow_le_pow_right (by decide) (by omega)
        _ = 2 ^ (p - 1) * spacing p n := Nat.pow_add 2 (p - 1) (dropped p n)
    have large : 2 ^ (p - 1) * spacing p n ≤ n / spacing p n * spacing p n :=
      Nat.mul_le_mul_right _ first
    omega

theorem roundTo_cases (p n : Nat) :
    (roundTo p n = n / spacing p n * spacing p n ∧ 2 * (n % spacing p n) ≤ spacing p n) ∨
      (roundTo p n = (n / spacing p n + 1) * spacing p n ∧
        spacing p n ≤ 2 * (n % spacing p n)) := by
  unfold roundTo
  simp only
  split
  · left
    refine ⟨rfl, ?_⟩
    omega
  · right
    refine ⟨rfl, ?_⟩
    omega

theorem representable_roundTo (positive : 0 < p) (n : Nat) : Representable p (roundTo p n) := by
  rcases roundTo_cases p n with ⟨same, _⟩ | ⟨same, _⟩
  · rw [same]
    exact representable_below p n
  · rw [same]
    exact representable_above positive n

theorem nearest (positive : 0 < p) (n : Nat) {w : Nat} (representable : Representable p w) :
    Nat.dist n (roundTo p n) ≤ Nat.dist n w := by
  have parts : n / spacing p n * spacing p n + n % spacing p n = n := Nat.div_add_mod' n _
  have rest : n % spacing p n < spacing p n := Nat.mod_lt _ (spacing_pos p n)
  have above : (n / spacing p n + 1) * spacing p n =
      n / spacing p n * spacing p n + spacing p n := by rw [Nat.add_mul, Nat.one_mul]
  have outside : w ≤ n / spacing p n * spacing p n ∨
      (n / spacing p n + 1) * spacing p n ≤ w := by
    rcases Nat.lt_or_ge (n / spacing p n * spacing p n) w with low | high
    · exact .inr (not_between positive representable low)
    · exact .inl high
  unfold Nat.dist
  rcases roundTo_cases p n with ⟨same, half⟩ | ⟨same, half⟩
  · rw [same]
    omega
  · rw [same]
    omega

theorem roundTo_of_representable (positive : 0 < p) {v : Nat} (representable : Representable p v) :
    roundTo p v = v := by
  have near := nearest positive v representable
  rw [Nat.dist_self] at near
  exact (Nat.eq_of_dist_eq_zero (Nat.le_zero.mp near)).symm

theorem representable_of_lt {v : Nat} (few : v < 2 ^ p) : Representable p v :=
  ⟨v, 0, few, (Nat.mul_one v).symm⟩

theorem representable_two_pow (positive : 0 < p) (e : Nat) : Representable p (2 ^ e) :=
  ⟨1, e, Nat.one_lt_two_pow (by omega), (Nat.one_mul _).symm⟩

theorem roundTo_mul_two_pow (positive : 0 < p) {m : Nat} (few : m < 2 ^ p) (e : Nat) :
    roundTo p (m * 2 ^ e) = m * 2 ^ e :=
  roundTo_of_representable positive ⟨m, e, few, rfl⟩

theorem jammed_mul {d : Nat} (positive : 0 < d) (q e : Nat) :
    jammed (q * d * 2 ^ e) d = q * 2 ^ (e + 1) := by
  have exact_ : q * d * 2 ^ e = q * 2 ^ e * d := by ring
  unfold jammed
  rw [exact_, Nat.mul_div_cancel _ positive, Nat.mul_mod_left, if_pos rfl]
  ring

theorem roundTo_roundTo (positive : 0 < p) (n : Nat) : roundTo p (roundTo p n) = roundTo p n :=
  roundTo_of_representable positive (representable_roundTo positive n)

theorem roundTo_mono (positive : 0 < p) {n m : Nat} (le : n ≤ m) : roundTo p n ≤ roundTo p m := by
  by_contra crossed
  have first := nearest positive n (representable_roundTo positive m)
  have second := nearest positive m (representable_roundTo positive n)
  unfold Nat.dist at first second
  -- crossing is possible only where both lie in the middle, and then they are equal
  have same : n = m := by omega
  rw [same] at crossed
  exact crossed le_rfl

theorem roundTo_between (positive : 0 < p) {n m k v : Nat} (first : roundTo p n = v)
    (last : roundTo p m = v) (low : n ≤ k) (high : k ≤ m) : roundTo p k = v := by
  have below := roundTo_mono positive low
  have above := roundTo_mono positive high
  omega

theorem roundTo_error (p n : Nat) :
    2 * Nat.dist n (roundTo p n) ≤ spacing p n ∧ spacing p n ∣ roundTo p n := by
  have parts : n / spacing p n * spacing p n + n % spacing p n = n := Nat.div_add_mod' n _
  have rest : n % spacing p n < spacing p n := Nat.mod_lt _ (spacing_pos p n)
  have above : (n / spacing p n + 1) * spacing p n =
      n / spacing p n * spacing p n + spacing p n := by rw [Nat.add_mul, Nat.one_mul]
  unfold Nat.dist
  rcases roundTo_cases p n with ⟨same, half⟩ | ⟨same, half⟩
  · rw [same]
    exact ⟨by omega, Nat.dvd_mul_left _ _⟩
  · rw [same]
    exact ⟨by omega, Nat.dvd_mul_left _ _⟩

theorem roundTo_bounds (positive : 0 < p) {n e : Nat} :
    (2 ^ e ≤ n → 2 ^ e ≤ roundTo p n) ∧ (n ≤ 2 ^ e → roundTo p n ≤ 2 ^ e) := by
  have power := roundTo_of_representable positive (representable_two_pow positive e)
  constructor
  · intro low
    have rounded := roundTo_mono positive low
    omega
  · intro high
    have rounded := roundTo_mono positive high
    omega

theorem roundTo_eq_iff_of_lt (positive : 0 < p) {n v : Nat} (few : v < 2 ^ p) :
    roundTo p n = v ↔ n = v := by
  constructor
  · intro same
    by_cases small : n < 2 ^ p
    · rw [roundTo_of_representable positive (representable_of_lt small)] at same
      exact same
    · have large := (roundTo_bounds positive (e := p)).1 (Nat.le_of_not_lt small)
      omega
  · intro same
    rw [same]
    exact roundTo_of_representable positive (representable_of_lt few)

end BinaryRounding
