/-
SHA-256 over bytes.

The message is padded to whole blocks; each block is expanded to sixty-four
words and mixed into the chaining state. The words of the schedule are kept
newest first while it grows.
-/

import Mathlib.Data.List.Basic

namespace Sha256

abbrev Word := BitVec 32

structure State where
  a : Word
  b : Word
  c : Word
  d : Word
  e : Word
  f : Word
  g : Word
  h : Word

def initialState : State :=
  { a := 0x6a09e667, b := 0xbb67ae85, c := 0x3c6ef372, d := 0xa54ff53a
    e := 0x510e527f, f := 0x9b05688c, g := 0x1f83d9ab, h := 0x5be0cd19 }

def roundConstants : List Word :=
  [ 0x428a2f98, 0x71374491, 0xb5c0fbcf, 0xe9b5dba5, 0x3956c25b, 0x59f111f1, 0x923f82a4, 0xab1c5ed5,
    0xd807aa98, 0x12835b01, 0x243185be, 0x550c7dc3, 0x72be5d74, 0x80deb1fe, 0x9bdc06a7, 0xc19bf174,
    0xe49b69c1, 0xefbe4786, 0x0fc19dc6, 0x240ca1cc, 0x2de92c6f, 0x4a7484aa, 0x5cb0a9dc, 0x76f988da,
    0x983e5152, 0xa831c66d, 0xb00327c8, 0xbf597fc7, 0xc6e00bf3, 0xd5a79147, 0x06ca6351, 0x14292967,
    0x27b70a85, 0x2e1b2138, 0x4d2c6dfc, 0x53380d13, 0x650a7354, 0x766a0abb, 0x81c2c92e, 0x92722c85,
    0xa2bfe8a1, 0xa81a664b, 0xc24b8b70, 0xc76c51a3, 0xd192e819, 0xd6990624, 0xf40e3585, 0x106aa070,
    0x19a4c116, 0x1e376c08, 0x2748774c, 0x34b0bcb5, 0x391c0cb3, 0x4ed8aa4a, 0x5b9cca4f, 0x682e6ff3,
    0x748f82ee, 0x78a5636f, 0x84c87814, 0x8cc70208, 0x90befffa, 0xa4506ceb, 0xbef9a3f7, 0xc67178f2 ]

/-! ### The schedule -/

def smallSigma0 (x : Word) : Word := x.rotateRight 7 ^^^ x.rotateRight 18 ^^^ (x >>> 3)

def smallSigma1 (x : Word) : Word := x.rotateRight 17 ^^^ x.rotateRight 19 ^^^ (x >>> 10)

def blockWords : List UInt8 → List Word
  | a :: b :: c :: d :: rest =>
      (a.toBitVec ++ b.toBitVec ++ c.toBitVec ++ d.toBitVec : BitVec 32) :: blockWords rest
  | _ => []

def extendSchedule : Nat → List Word → List Word
  | 0, words => words
  | count + 1, words =>
      let next := smallSigma1 (words.getD 1 0) + words.getD 6 0 +
        smallSigma0 (words.getD 14 0) + words.getD 15 0
      extendSchedule count (next :: words)

def schedule (block : List UInt8) : List Word :=
  (extendSchedule 48 (blockWords block).reverse).reverse

def bigSigma0 (x : Word) : Word := x.rotateRight 2 ^^^ x.rotateRight 13 ^^^ x.rotateRight 22

def bigSigma1 (x : Word) : Word := x.rotateRight 6 ^^^ x.rotateRight 11 ^^^ x.rotateRight 25

def choose (x y z : Word) : Word := (x &&& y) ^^^ (~~~x &&& z)

def majority (x y z : Word) : Word := (x &&& y) ^^^ (x &&& z) ^^^ (y &&& z)

def State.round (s : State) (constant word : Word) : State :=
  let first := s.h + bigSigma1 s.e + choose s.e s.f s.g + constant + word
  let second := bigSigma0 s.a + majority s.a s.b s.c
  { a := first + second, b := s.a, c := s.b, d := s.c
    e := s.d + first, f := s.e, g := s.f, h := s.g }

def State.rounds : State → List (Word × Word) → State
  | s, [] => s
  | s, (constant, word) :: rest => (s.round constant word).rounds rest

def State.add (s t : State) : State :=
  { a := s.a + t.a, b := s.b + t.b, c := s.c + t.c, d := s.d + t.d
    e := s.e + t.e, f := s.f + t.f, g := s.g + t.g, h := s.h + t.h }

def State.compress (s : State) (block : List UInt8) : State :=
  s.add (s.rounds (roundConstants.zip (schedule block)))

def State.blocks : Nat → State → List UInt8 → State
  | 0, s, _ => s
  | count + 1, s, bytes => State.blocks count (s.compress (bytes.take 64)) (bytes.drop 64)

def bigEndian : Nat → Nat → List UInt8
  | 0, _ => []
  | count + 1, number => bigEndian count (number / 256) ++ [UInt8.ofNat number]

def padded (message : List UInt8) : List UInt8 :=
  message ++ [0x80] ++ List.replicate ((119 - message.length % 64) % 64) 0 ++
    bigEndian 8 (message.length * 8)

def State.bytes (s : State) : List UInt8 :=
  [s.a, s.b, s.c, s.d, s.e, s.f, s.g, s.h].flatMap (fun word => bigEndian 4 word.toNat)

def digest (message : List UInt8) : List UInt8 :=
  (State.blocks ((padded message).length / 64) initialState (padded message)).bytes

theorem length_bigEndian (count number : Nat) : (bigEndian count number).length = count := by
  induction count generalizing number with
  | zero => rfl
  | succ count ih => simp [bigEndian, ih]

theorem length_digest (message : List UInt8) : (digest message).length = 32 := by
  simp [digest, State.bytes, length_bigEndian]

/-- The digest of `abc`. -/
example : digest [97, 98, 99] =
    [ 0xba, 0x78, 0x16, 0xbf, 0x8f, 0x01, 0xcf, 0xea, 0x41, 0x41, 0x40, 0xde, 0x5d, 0xae, 0x22, 0x23,
      0xb0, 0x03, 0x61, 0xa3, 0x96, 0x17, 0x7a, 0x9c, 0xb4, 0x10, 0xff, 0x61, 0xf2, 0x00, 0x15,
      0xad ] := by
  decide +kernel

end Sha256
