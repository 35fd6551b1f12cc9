/-
Blocks of addresses that share their leading bits.

An address is a list of octets, most significant first, and the number they
spell. Comparing octet by octet under a mask of leading ones compares the
numbers without their low bits.
-/

import Mathlib.Data.BitVec
import Mathlib.Tactic.Ring

namespace PrefixBlocks

def prefixMask (width ones : Nat) : BitVec width := BitVec.allOnes width <<< (width - ones)

theorem and_prefixMask {width : Nat} (word : BitVec width) (ones : Nat) :
    word &&& prefixMask width ones = (word >>> (width - ones)) <<< (width - ones) := by
  apply BitVec.eq_of_getLsbD_eq
  intro index inside
  by_cases low : index < width - ones
  · simp [prefixMask, low]
  · have back : width - ones + (index - (width - ones)) = index := by omega
    simp [prefixMask, low, inside, back]

theorem toNat_and_prefixMask {width : Nat} (word : BitVec width) (ones : Nat) :
    (word &&& prefixMask width ones).toNat =
      word.toNat / 2 ^ (width - ones) * 2 ^ (width - ones) := by
  have small : word.toNat / 2 ^ (width - ones) * 2 ^ (width - ones) < 2 ^ width :=
    Nat.lt_of_le_of_lt (Nat.div_mul_le_self _ _) word.isLt
  rw [and_prefixMask, BitVec.toNat_shiftLeft, BitVec.toNat_ushiftRight, Nat.shiftLeft_eq,
    Nat.shiftRight_eq_div_pow, Nat.mod_eq_of_lt small]

theorem and_prefixMask_eq_iff {width : Nat} (left right : BitVec width) (ones : Nat) :
    left &&& prefixMask width ones = right &&& prefixMask width ones ↔
      left.toNat / 2 ^ (width - ones) = right.toNat / 2 ^ (width - ones) := by
  rw [← BitVec.toNat_inj, toNat_and_prefixMask, toNat_and_prefixMask]
  constructor
  · intro same
    exact Nat.eq_of_mul_eq_mul_right (Nat.two_pow_pos _) same
  · intro same
    rw [same]

abbrev Octet := BitVec 8

def number : List Octet → Nat
  | [] => 0
  | octet :: rest => octet.toNat * 256 ^ rest.length + number rest

theorem number_lt (octets : List Octet) : number octets < 256 ^ octets.length := by
  induction octets with
  | nil => exact Nat.one_pos
  | cons octet rest ih =>
      have bound : octet.toNat + 1 ≤ 256 := octet.isLt
      calc
        number (octet :: rest) < octet.toNat * 256 ^ rest.length + 256 ^ rest.length := by
          exact Nat.add_lt_add_left ih _
        _ = (octet.toNat + 1) * 256 ^ rest.length := by ring
        _ ≤ 256 * 256 ^ rest.length := Nat.mul_le_mul_right _ bound
        _ = 256 ^ (octet :: rest).length := by
          rw [List.length_cons, Nat.pow_succ, Nat.mul_comm]

theorem number_append (front rest : List Octet) :
    number (front ++ rest) = number front * 256 ^ rest.length + number rest := by
  induction front with
  | nil => simp [number]
  | cons octet front ih =>
      change octet.toNat * 256 ^ (front ++ rest).length + number (front ++ rest) =
        (octet.toNat * 256 ^ front.length + number front) * 256 ^ rest.length + number rest
      rw [ih, List.length_append, Nat.pow_add]
      ring

def octetMask : Nat → Nat → List Octet
  | _, 0 => []
  | ones, count + 1 => prefixMask 8 ones :: octetMask (ones - 8) count

def leading (ones : Nat) (octets : List Octet) : Nat :=
  number octets / 2 ^ (8 * octets.length - ones)

theorem leading_zero (octets : List Octet) : leading 0 octets = 0 := by
  unfold leading
  apply Nat.div_eq_of_lt
  have bound := number_lt octets
  rwa [show (256 : Nat) = 2 ^ 8 by rfl, ← Nat.pow_mul] at bound

theorem leading_append {ones : Nat} (front rest : List Octet) (few : ones ≤ 8 * front.length) :
    leading ones (front ++ rest) = leading ones front := by
  have split : 8 * (front ++ rest).length - ones =
      8 * rest.length + (8 * front.length - ones) := by
    rw [List.length_append]
    omega
  unfold leading
  rw [split, Nat.pow_add, ← Nat.div_div_eq_div_mul, Nat.pow_mul, number_append]
  change (number front * 256 ^ rest.length + number rest) / 256 ^ rest.length / _ = _
  rw [Nat.mul_comm, Nat.mul_add_div (Nat.pow_pos (by decide)), Nat.div_eq_of_lt (number_lt rest),
    Nat.add_zero]

theorem leading_cons_short {ones : Nat} (few : ones ≤ 8) (octet : Octet) (rest : List Octet) :
    leading ones (octet :: rest) = octet.toNat / 2 ^ (8 - ones) := by
  have front := leading_append [octet] rest few
  simpa [leading, number] using front

theorem leading_cons_eq_iff {ones : Nat} (more : 8 ≤ ones) (left right : Octet)
    {lefts rights : List Octet} (even : lefts.length = rights.length) :
    leading ones (left :: lefts) = leading ones (right :: rights) ↔
      left = right ∧ leading (ones - 8) lefts = leading (ones - 8) rights := by
  have cut (octet : Octet) (rest : List Octet) :
      8 * (octet :: rest).length - ones = 8 * rest.length - (ones - 8) := by
    rw [List.length_cons]
    omega
  have whole (rest : List Octet) : 2 ^ (8 * rest.length - (ones - 8)) ∣ 256 ^ rest.length := by
    rw [show (256 : Nat) = 2 ^ 8 by rfl, ← Nat.pow_mul]
    exact Nat.pow_dvd_pow 2 (Nat.sub_le _ _)
  have spell (octet : Octet) (rest : List Octet) :
      leading ones (octet :: rest) =
        octet.toNat * (256 ^ rest.length / 2 ^ (8 * rest.length - (ones - 8))) +
          leading (ones - 8) rest := by
    unfold leading
    rw [cut]
    change (octet.toNat * 256 ^ rest.length + number rest) / _ = _
    rw [Nat.add_div_of_dvd_right ((whole rest).mul_left _), Nat.mul_div_assoc _ (whole rest)]
  have small (rest : List Octet) :
      leading (ones - 8) rest < 256 ^ rest.length / 2 ^ (8 * rest.length - (ones - 8)) :=
    Nat.div_lt_div_of_lt_of_dvd (whole rest) (number_lt rest)
  rw [spell, spell, even]
  have smallLeft := small lefts
  have smallRight := small rights
  rw [even] at smallLeft
  constructor
  · intro same
    have octets : left.toNat = right.toNat := by
      have quotients := congrArg
        (· / (256 ^ rights.length / 2 ^ (8 * rights.length - (ones - 8)))) same
      rwa [Nat.mul_comm, Nat.mul_add_div (by omega), Nat.div_eq_of_lt smallLeft, Nat.mul_comm,
        Nat.mul_add_div (by omega), Nat.div_eq_of_lt smallRight] at quotients
    rw [octets] at same
    exact ⟨BitVec.toNat_inj.mp octets, Nat.add_left_cancel same⟩
  · rintro ⟨rfl, same⟩
    rw [same]

theorem masked_eq_iff (ones : Nat) {lefts rights : List Octet}
    (even : lefts.length = rights.length) :
    List.zipWith (· &&& ·) lefts (octetMask ones lefts.length) =
        List.zipWith (· &&& ·) rights (octetMask ones rights.length) ↔
      leading ones lefts = leading ones rights := by
  induction lefts generalizing ones rights with
  | nil =>
      rw [List.length_eq_zero_iff.mp even.symm]
      exact iff_of_true rfl rfl
  | cons left lefts ih =>
      cases rights with
      | nil => cases even
      | cons right rights =>
          have rest : lefts.length = rights.length := Nat.succ.inj even
          change (left &&& prefixMask 8 ones) ::
                List.zipWith (· &&& ·) lefts (octetMask (ones - 8) lefts.length) =
              (right &&& prefixMask 8 ones) ::
                List.zipWith (· &&& ·) rights (octetMask (ones - 8) rights.length) ↔ _
          rw [List.cons.injEq, ih (ones - 8) rest, and_prefixMask_eq_iff]
          rcases Nat.le_total ones 8 with few | more
          · rw [leading_cons_short few, leading_cons_short few, Nat.sub_eq_zero_of_le few,
              leading_zero, leading_zero]
            exact and_iff_left rfl
          · rw [leading_cons_eq_iff more left right rest, Nat.sub_eq_zero_of_le more, Nat.pow_zero,
              Nat.div_one, Nat.div_one, BitVec.toNat_inj]

end PrefixBlocks
