/-
Base64 with the standard alphabet and padding.

A decoder reads four symbols at a time. Padding leaves bits of the last symbol
unused: a strict decoder wants them to be zero and then accepts exactly what the
encoder writes, a lenient one passes over them and accepts every spelling.
-/

import Mathlib.Data.List.Basic
import MigrationPlatform.Foundation.Utf8

namespace Base64

open Utf8 (Bytes)

def symbol (digit : Nat) : UInt8 :=
  if digit < 26 then UInt8.ofNat (65 + digit)
  else if digit < 52 then UInt8.ofNat (71 + digit)
  else if digit < 62 then UInt8.ofNat (digit - 4)
  else if digit = 62 then 43
  else 47

def digit? (byte : UInt8) : Option Nat :=
  let code := byte.toNat
  if 65 ≤ code ∧ code ≤ 90 then some (code - 65)
  else if 97 ≤ code ∧ code ≤ 122 then some (code - 71)
  else if 48 ≤ code ∧ code ≤ 57 then some (code + 4)
  else if code = 43 then some 62
  else if code = 47 then some 63
  else none

def pad : UInt8 := 61

/-! ### The bytes of a quantum -/

def first (x y : Nat) : UInt8 := UInt8.ofNat (x * 4 + y / 16)

def second (y z : Nat) : UInt8 := UInt8.ofNat (y % 16 * 16 + z / 4)

def third (z w : Nat) : UInt8 := UInt8.ofNat (z % 4 * 64 + w)

def encode : Bytes → Bytes
  | [] => []
  | [a] => [symbol (a.toNat / 4), symbol (a.toNat % 4 * 16), pad, pad]
  | [a, b] =>
      [symbol (a.toNat / 4), symbol (a.toNat % 4 * 16 + b.toNat / 16), symbol (b.toNat % 16 * 4),
        pad]
  | a :: b :: c :: rest =>
      symbol (a.toNat / 4) :: symbol (a.toNat % 4 * 16 + b.toNat / 16) ::
        symbol (b.toNat % 16 * 4 + c.toNat / 64) :: symbol (c.toNat % 64) :: encode rest

/-- `unused` are the bits that the last symbol of a padded quantum has left. -/
def trailing (strict : Bool) (unused : Nat) (bytes : Bytes) : Option Bytes :=
  if strict = true ∧ unused ≠ 0 then none else some bytes

def decodeLast (strict : Bool) (a b c d : UInt8) : Option Bytes :=
  match digit? a, digit? b, digit? c, digit? d with
  | some x, some y, some z, some w => some [first x y, second y z, third z w]
  | some x, some y, some z, none =>
      if d = pad then trailing strict (z % 4) [first x y, second y z] else none
  | some x, some y, none, none =>
      if c = pad ∧ d = pad then trailing strict (y % 16) [first x y] else none
  | _, _, _, _ => none

def decode (strict : Bool) : Bytes → Option Bytes
  | [] => some []
  | [a, b, c, d] => decodeLast strict a b c d
  | a :: b :: c :: d :: rest =>
      match digit? a, digit? b, digit? c, digit? d with
      | some x, some y, some z, some w =>
          (decode strict rest).map ([first x y, second y z, third z w] ++ ·)
      | _, _, _, _ => none
  | _ => none

/-- The texts that stand for bytes; a strict reading wants unused bits to be zero. -/
inductive Spells (strict : Bool) : Bytes → Bytes → Prop
  | nil : Spells strict [] []
  | one {x y : Nat} (hx : x < 64) (hy : y < 64) (zero : strict = true → y % 16 = 0) :
      Spells strict [symbol x, symbol y, pad, pad] [first x y]
  | two {x y z : Nat} (hx : x < 64) (hy : y < 64) (hz : z < 64)
      (zero : strict = true → z % 4 = 0) :
      Spells strict [symbol x, symbol y, symbol z, pad] [first x y, second y z]
  | three {x y z w : Nat} {text bytes : Bytes} (hx : x < 64) (hy : y < 64) (hz : z < 64)
      (hw : w < 64) (rest : Spells strict text bytes) :
      Spells strict (symbol x :: symbol y :: symbol z :: symbol w :: text)
        (first x y :: second y z :: third z w :: bytes)

theorem digit?_symbol : ∀ digit < 64, digit? (symbol digit) = some digit := by
  decide

theorem digit?_pad : digit? pad = none := by
  decide

theorem eq_symbol_of_digit? {byte : UInt8} {digit : Nat} (found : digit? byte = some digit) :
    digit < 64 ∧ byte = symbol digit := by
  have all : ∀ code < 256, ∀ d ∈ digit? (UInt8.ofNat code), d < 64 ∧ UInt8.ofNat code = symbol d := by
    decide +kernel
  have own := all byte.toNat byte.toNat_lt
  rw [UInt8.ofNat_toNat] at own
  exact own digit found

theorem toNat_first {x y : Nat} (hx : x < 64) (hy : y < 64) :
    (first x y).toNat = x * 4 + y / 16 := by
  rw [first, UInt8.toNat_ofNat']
  omega

theorem toNat_second {y z : Nat} (hz : z < 64) :
    (second y z).toNat = y % 16 * 16 + z / 4 := by
  rw [second, UInt8.toNat_ofNat']
  omega

theorem toNat_third {z w : Nat} (hw : w < 64) : (third z w).toNat = z % 4 * 64 + w := by
  rw [third, UInt8.toNat_ofNat']
  omega

theorem first_digits (a : UInt8) {low : Nat} (small : low < 16) :
    first (a.toNat / 4) (a.toNat % 4 * 16 + low) = a := by
  have bound := a.toNat_lt
  rw [← UInt8.toNat_inj, toNat_first (by omega) (by omega)]
  omega

theorem second_digits (b : UInt8) (high : Nat) {low : Nat} (small : low < 4) :
    second (high * 16 + b.toNat / 16) (b.toNat % 16 * 4 + low) = b := by
  have bound := b.toNat_lt
  rw [← UInt8.toNat_inj, toNat_second (by omega)]
  omega

theorem third_digits (c : UInt8) (high : Nat) :
    third (high * 4 + c.toNat / 64) (c.toNat % 64) = c := by
  have bound := c.toNat_lt
  rw [← UInt8.toNat_inj, toNat_third (by omega)]
  omega

theorem trailing_eq_some {strict : Bool} {unused : Nat} {bytes out : Bytes}
    (passed : trailing strict unused bytes = some out) :
    out = bytes ∧ (strict = true → unused = 0) := by
  unfold trailing at passed
  split at passed
  · cases passed
  · rename_i accepted
    cases passed
    refine ⟨rfl, ?_⟩
    intro exact
    by_contra some
    exact accepted ⟨exact, some⟩

theorem trailing_of_zero {strict : Bool} {unused : Nat} (zero : strict = true → unused = 0)
    (bytes : Bytes) : trailing strict unused bytes = some bytes := by
  unfold trailing
  rw [if_neg]
  rintro ⟨exact, some⟩
  exact some (zero exact)

theorem spells_of_decodeLast {strict : Bool} {a b c d : UInt8} {bytes : Bytes}
    (decoded : decodeLast strict a b c d = some bytes) : Spells strict [a, b, c, d] bytes := by
  unfold decodeLast at decoded
  split at decoded
  · rename_i x y z w readA readB readC readD
    obtain ⟨hx, rfl⟩ := eq_symbol_of_digit? readA
    obtain ⟨hy, rfl⟩ := eq_symbol_of_digit? readB
    obtain ⟨hz, rfl⟩ := eq_symbol_of_digit? readC
    obtain ⟨hw, rfl⟩ := eq_symbol_of_digit? readD
    cases decoded
    exact .three hx hy hz hw .nil
  · rename_i x y z readA readB readC readD
    obtain ⟨hx, rfl⟩ := eq_symbol_of_digit? readA
    obtain ⟨hy, rfl⟩ := eq_symbol_of_digit? readB
    obtain ⟨hz, rfl⟩ := eq_symbol_of_digit? readC
    split at decoded
    · rename_i padded
      obtain ⟨rfl, zero⟩ := trailing_eq_some decoded
      rw [padded]
      exact .two hx hy hz zero
    · cases decoded
  · rename_i x y readA readB readC readD
    obtain ⟨hx, rfl⟩ := eq_symbol_of_digit? readA
    obtain ⟨hy, rfl⟩ := eq_symbol_of_digit? readB
    split at decoded
    · rename_i padded
      obtain ⟨rfl, zero⟩ := trailing_eq_some decoded
      rw [padded.1, padded.2]
      exact .one hx hy zero
    · cases decoded
  · cases decoded

theorem spells_of_decode {strict : Bool} (text : Bytes) {bytes : Bytes}
    (decoded : decode strict text = some bytes) : Spells strict text bytes := by
  induction text using decode.induct generalizing bytes with
  | case1 =>
      cases decoded
      exact .nil
  | case2 a b c d => exact spells_of_decodeLast decoded
  | case3 a b c d rest more x y z w readD readC readB readA ih =>
      obtain ⟨hx, rfl⟩ := eq_symbol_of_digit? readA
      obtain ⟨hy, rfl⟩ := eq_symbol_of_digit? readB
      obtain ⟨hz, rfl⟩ := eq_symbol_of_digit? readC
      obtain ⟨hw, rfl⟩ := eq_symbol_of_digit? readD
      rw [decode, readA, readB, readC, readD] at decoded
      · obtain ⟨later, rest, rfl⟩ := Option.map_eq_some_iff.mp decoded
        exact .three hx hy hz hw (ih rest)
      · exact more
  | case4 a b c d rest more unread =>
      rw [decode] at decoded
      · split at decoded
        · rename_i x y z w readA readB readC readD
          exact (unread x y z w readA readB readC readD).elim
        · cases decoded
      · exact more
  | case5 text none last more =>
      rw [decode] at decoded
      · cases decoded
      · exact none
      · exact last
      · exact more

theorem decode_of_spells {strict : Bool} {text bytes : Bytes} (spelled : Spells strict text bytes) :
    decode strict text = some bytes := by
  induction spelled with
  | nil => rfl
  | @one x y hx hy zero =>
      change decodeLast strict (symbol x) (symbol y) pad pad = _
      simp only [decodeLast, digit?_symbol x hx, digit?_symbol y hy, digit?_pad, and_self, if_true]
      exact trailing_of_zero zero _
  | @two x y z hx hy hz zero =>
      change decodeLast strict (symbol x) (symbol y) (symbol z) pad = _
      simp only [decodeLast, digit?_symbol x hx, digit?_symbol y hy, digit?_symbol z hz, digit?_pad,
        if_true]
      exact trailing_of_zero zero _
  | @three x y z w text bytes hx hy hz hw rest ih =>
      cases text with
      | nil =>
          cases rest
          change decodeLast strict (symbol x) (symbol y) (symbol z) (symbol w) = _
          simp only [decodeLast, digit?_symbol x hx, digit?_symbol y hy, digit?_symbol z hz,
            digit?_symbol w hw]
      | cons head tail =>
          rw [decode, digit?_symbol x hx, digit?_symbol y hy, digit?_symbol z hz,
            digit?_symbol w hw, ih]
          · rfl
          · exact fun empty => by cases empty

theorem decode_eq_some_iff {strict : Bool} {text bytes : Bytes} :
    decode strict text = some bytes ↔ Spells strict text bytes :=
  ⟨spells_of_decode text, decode_of_spells⟩

theorem spells_encode (strict : Bool) (bytes : Bytes) : Spells strict (encode bytes) bytes := by
  induction bytes using encode.induct with
  | case1 => exact .nil
  | case2 a =>
      have bound := a.toNat_lt
      have zero : strict = true → a.toNat % 4 * 16 % 16 = 0 := fun _ => by omega
      have quantum := Spells.one (x := a.toNat / 4) (by omega) (by omega) zero
      have byte : first (a.toNat / 4) (a.toNat % 4 * 16 + 0) = a := first_digits a (by decide)
      rw [Nat.add_zero] at byte
      rwa [byte] at quantum
  | case3 a b =>
      have boundA := a.toNat_lt
      have boundB := b.toNat_lt
      have zero : strict = true → b.toNat % 16 * 4 % 4 = 0 := fun _ => by omega
      have quantum := Spells.two (x := a.toNat / 4) (y := a.toNat % 4 * 16 + b.toNat / 16) (by omega)
        (by omega) (by omega) zero
      have byte : second (a.toNat % 4 * 16 + b.toNat / 16) (b.toNat % 16 * 4 + 0) = b :=
        second_digits b (a.toNat % 4) (by decide)
      rw [Nat.add_zero] at byte
      rwa [first_digits a (by omega), byte] at quantum
  | case4 a b c rest ih =>
      have boundA := a.toNat_lt
      have boundB := b.toNat_lt
      have boundC := c.toNat_lt
      have quantum := Spells.three (x := a.toNat / 4) (y := a.toNat % 4 * 16 + b.toNat / 16)
        (z := b.toNat % 16 * 4 + c.toNat / 64) (w := c.toNat % 64) (by omega) (by omega) (by omega)
        (by omega) ih
      rwa [first_digits a (by omega), second_digits b (a.toNat % 4) (by omega),
        third_digits c (b.toNat % 16)] at quantum

theorem Spells.eq_encode {text bytes : Bytes} (spelled : Spells true text bytes) :
    text = encode bytes := by
  induction spelled with
  | nil => rfl
  | @one x y hx hy zero =>
      have none := zero rfl
      have digitX : (x * 4 + y / 16) / 4 = x := by omega
      have digitY : (x * 4 + y / 16) % 4 * 16 = y := by omega
      simp only [encode, toNat_first hx hy, digitX, digitY]
  | @two x y z hx hy hz zero =>
      have none := zero rfl
      have digitX : (x * 4 + y / 16) / 4 = x := by omega
      have digitY : (x * 4 + y / 16) % 4 * 16 + (y % 16 * 16 + z / 4) / 16 = y := by omega
      have digitZ : (y % 16 * 16 + z / 4) % 16 * 4 = z := by omega
      simp only [encode, toNat_first hx hy, toNat_second hz, digitX, digitY, digitZ]
  | @three x y z w text bytes hx hy hz hw rest ih =>
      have digitX : (x * 4 + y / 16) / 4 = x := by omega
      have digitY : (x * 4 + y / 16) % 4 * 16 + (y % 16 * 16 + z / 4) / 16 = y := by omega
      have digitZ : (y % 16 * 16 + z / 4) % 16 * 4 + (z % 4 * 64 + w) / 64 = z := by omega
      have digitW : (z % 4 * 64 + w) % 64 = w := by omega
      simp only [encode, toNat_first hx hy, toNat_second hz, toNat_third hw, digitX, digitY, digitZ,
        digitW, ih]

theorem decode_strict_eq_some_iff {text bytes : Bytes} :
    decode true text = some bytes ↔ text = encode bytes := by
  rw [decode_eq_some_iff]
  constructor
  · exact Spells.eq_encode
  · rintro rfl
    exact spells_encode true bytes

theorem Spells.length_eq {strict : Bool} {text bytes : Bytes} (spelled : Spells strict text bytes) :
    text.length = (bytes.length + 2) / 3 * 4 := by
  induction spelled with
  | nil => rfl
  | one hx hy zero => simp
  | two hx hy hz zero => simp
  | three hx hy hz hw rest ih =>
      simp only [List.length_cons, ih]
      omega

end Base64
