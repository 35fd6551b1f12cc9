/-
The bytes of a text in UTF-8, and bytes read as text.

A byte below 128 stands for the character of that number and for no part of
another. Any bytes are read as a list of runes: a character where one is encoded,
and otherwise a single byte that belongs to none. The runes of what stands one
after the other are those of both, as soon as the second begins with the first
byte of a character.
-/

import Mathlib.Data.List.Basic

namespace Utf8

theorem toList_loop (bytes : ByteArray) (i : Nat) (seen : List UInt8) :
    ByteArray.toList.loop bytes i seen = seen.reverse ++ bytes.data.toList.drop i := by
  fun_induction ByteArray.toList.loop bytes i seen with
  | case1 i seen below ih =>
      have inside : i < bytes.data.toList.length := by simpa using below
      have here : bytes.get! i = bytes.data.toList[i] := by
        change bytes.data[i]! = _
        rw [getElem!_pos bytes.data i (by simpa using below)]
        simp
      rw [ih, List.drop_eq_getElem_cons inside, here]
      simp
  | case2 i seen above =>
      have outside : bytes.data.toList.length ≤ i := by simpa using above
      rw [List.drop_eq_nil_of_le outside, List.append_nil]

theorem toList_eq (bytes : ByteArray) : bytes.toList = bytes.data.toList := by
  rw [ByteArray.toList, toList_loop]
  rfl

theorem toList_toUTF8 (text : String) :
    text.toUTF8.toList = text.toList.flatMap String.utf8EncodeChar := by
  rw [toList_eq]
  change text.toByteArray.data.toList = _
  rw [← String.utf8Encode_toList]
  exact List.toList_data_toByteArray

theorem encode_small {c : Char} (small : c.toNat < 128) :
    String.utf8EncodeChar c = [UInt8.ofNat c.toNat] := by
  have below : c.val.toNat ≤ 127 := Nat.le_of_lt_succ small
  exact if_pos below

theorem encode_large {c : Char} (large : 128 ≤ c.toNat) :
    ∀ byte ∈ String.utf8EncodeChar c, 128 ≤ byte.toNat := by
  have above : ¬c.val.toNat ≤ 127 := Nat.not_le.mpr large
  intro byte member
  unfold String.utf8EncodeChar at member
  rw [if_neg above] at member
  split at member
  · simp only [List.mem_cons, List.not_mem_nil, or_false] at member
    rcases member with rfl | rfl <;> (simp only [UInt8.toNat_ofNat']; omega)
  · split at member
    · simp only [List.mem_cons, List.not_mem_nil, or_false] at member
      rcases member with rfl | rfl | rfl <;> (simp only [UInt8.toNat_ofNat']; omega)
    · simp only [List.mem_cons, List.not_mem_nil, or_false] at member
      rcases member with rfl | rfl | rfl | rfl <;> (simp only [UInt8.toNat_ofNat']; omega)

theorem mem_encode_iff {c : Char} {byte : UInt8} (small : byte.toNat < 128) :
    byte ∈ String.utf8EncodeChar c ↔ c.toNat = byte.toNat := by
  rcases Nat.lt_or_ge c.toNat 128 with below | above
  · rw [encode_small below, List.mem_singleton, ← UInt8.toNat_inj, UInt8.toNat_ofNat',
      Nat.mod_eq_of_lt (by omega)]
    exact eq_comm
  · constructor
    · intro member
      have := encode_large above byte member
      omega
    · omega

abbrev Bytes := List UInt8

inductive Rune
  | scalar (char : Char)
  | invalid (byte : UInt8)
deriving DecidableEq, Repr

def Rune.bytes : Rune → Bytes
  | .scalar char => String.utf8EncodeChar char
  | .invalid byte => [byte]

def Rune.isScalar : Rune → Bool
  | .scalar _ => true
  | .invalid _ => false

def front (bytes : Bytes) : Option Char := bytes.toByteArray.utf8DecodeChar? 0

/-- `skip` counts the bytes that still belong to the last character. -/
def runesFrom (skip : Nat) : Bytes → List Rune
  | [] => []
  | byte :: rest =>
      match skip with
      | left + 1 => runesFrom left rest
      | 0 =>
          match front (byte :: rest) with
          | some char => .scalar char :: runesFrom (char.utf8Size - 1) rest
          | none => .invalid byte :: runesFrom 0 rest

def runes (bytes : Bytes) : List Rune := runesFrom 0 bytes

def encode (chars : List Char) : Bytes := chars.flatMap String.utf8EncodeChar

def valid (bytes : Bytes) : Bool := (runes bytes).all Rune.isScalar

theorem front_encode_append (char : Char) (rest : Bytes) :
    front (String.utf8EncodeChar char ++ rest) = some char := by
  rw [front, List.toByteArray_append]
  exact ByteArray.utf8DecodeChar?_utf8EncodeChar_append

theorem exists_of_front {bytes : Bytes} {char : Char} (found : front bytes = some char) :
    ∃ rest, bytes = String.utf8EncodeChar char ++ rest := by
  obtain ⟨others, same⟩ := ByteArray.exists_of_utf8DecodeChar?_eq_some found
  refine ⟨others.data.toList, ?_⟩
  have lists := congrArg (fun array => array.data.toList) same
  simpa using lists

theorem encodeChar_ne_nil (char : Char) : String.utf8EncodeChar char ≠ [] := by
  rw [ne_eq, ← List.length_eq_zero_iff, String.length_utf8EncodeChar]
  exact Nat.ne_of_gt char.utf8Size_pos

theorem runesFrom_eq (bytes : Bytes) : ∀ skip, runesFrom skip bytes = runes (bytes.drop skip) := by
  induction bytes with
  | nil => intro skip; rw [List.drop_nil]; rfl
  | cons byte rest ih =>
      intro skip
      cases skip with
      | zero => rfl
      | succ left => exact ih left

theorem runes_encode_append (char : Char) (rest : Bytes) :
    runes (String.utf8EncodeChar char ++ rest) = .scalar char :: runes rest := by
  cases split : String.utf8EncodeChar char with
  | nil => exact absurd split (encodeChar_ne_nil char)
  | cons byte tail =>
      have found := front_encode_append char rest
      have size : char.utf8Size = tail.length + 1 := by
        rw [← String.length_utf8EncodeChar, split, List.length_cons]
      rw [split, List.cons_append] at found
      rw [List.cons_append, runes, runesFrom]
      simp only [found]
      rw [runesFrom_eq, size, Nat.add_sub_cancel, List.drop_left]

theorem runes_invalid {byte : UInt8} {rest : Bytes} (none : front (byte :: rest) = none) :
    runes (byte :: rest) = .invalid byte :: runes rest := by
  rw [runes, runesFrom, none]
  rfl

/-- The induction over bytes as runes. -/
theorem runes_induct {Holds : Bytes → Prop} (nil : Holds [])
    (scalar : ∀ char rest, Holds rest → Holds (String.utf8EncodeChar char ++ rest))
    (invalid : ∀ byte rest, front (byte :: rest) = none → Holds rest → Holds (byte :: rest)) :
    ∀ bytes, Holds bytes := by
  have bounded : ∀ size bytes, bytes.length ≤ size → Holds bytes := by
    intro size
    induction size with
    | zero =>
        intro bytes short
        rw [List.eq_nil_of_length_eq_zero (Nat.le_zero.mp short)]
        exact nil
    | succ size ih =>
        intro bytes short
        cases bytes with
        | nil => exact nil
        | cons byte rest =>
            cases found : front (byte :: rest) with
            | none => exact invalid byte rest found (ih rest (Nat.le_of_succ_le_succ short))
            | some char =>
                obtain ⟨others, same⟩ := exists_of_front found
                rw [same] at short ⊢
                refine scalar char others (ih others ?_)
                rw [List.length_append, String.length_utf8EncodeChar] at short
                have := char.utf8Size_pos
                omega
  exact fun bytes => bounded bytes.length bytes (Nat.le_refl _)

theorem runes_append (first : Bytes) {second : Bytes}
    (begins : ∀ byte ∈ second.head?, byte.IsUTF8FirstByte) :
    runes (first ++ second) = runes first ++ runes second := by
  induction first using runes_induct with
  | nil => rfl
  | scalar char rest ih =>
      rw [List.append_assoc, runes_encode_append, runes_encode_append, ih, List.cons_append]
  | invalid byte rest none ih =>
      have still : front (byte :: (rest ++ second)) = Option.none := by
        by_contra found
        obtain ⟨char, found⟩ := Option.ne_none_iff_exists'.mp found
        obtain ⟨others, same⟩ := exists_of_front found
        have split : byte :: rest ++ second = String.utf8EncodeChar char ++ others := same
        obtain ⟨more, left, right⟩ | ⟨more, left, _⟩ := List.append_eq_append_iff.mp split
        · -- The character would reach into what follows, past its first byte.
          cases more with
          | nil =>
              rw [List.append_nil] at left
              rw [← left, ← List.append_nil (String.utf8EncodeChar char),
                front_encode_append] at none
              cases none
          | cons inner more =>
              have inside : (byte :: rest).length < (String.utf8EncodeChar char).length := by
                rw [left, List.length_append]
                exact Nat.lt_add_of_pos_right (Nat.succ_pos more.length)
              have here : (String.utf8EncodeChar char)[(byte :: rest).length] = inner := by
                rw [List.getElem_of_eq left inside]
                rw [List.getElem_append_right (Nat.le_refl _)]
                simp
              have first : inner.IsUTF8FirstByte := begins inner (by rw [right]; rfl)
              rw [← here, UInt8.isUTF8FirstByte_getElem_utf8EncodeChar] at first
              cases first
        · rw [left, front_encode_append] at none
          cases none
      rw [List.cons_append, runes_invalid still, runes_invalid none, ih, List.cons_append]

theorem runes_encode (chars : List Char) : runes (encode chars) = chars.map .scalar := by
  induction chars with
  | nil => rfl
  | cons char rest ih =>
      rw [encode, List.flatMap_cons, runes_encode_append]
      exact congrArg (Rune.scalar char :: ·) ih

theorem valid_iff (bytes : Bytes) : valid bytes = true ↔ ∃ chars, bytes = encode chars := by
  constructor
  · induction bytes using runes_induct with
    | nil => exact fun _ => ⟨[], rfl⟩
    | scalar char rest ih =>
        intro whole
        rw [valid, runes_encode_append] at whole
        obtain ⟨chars, same⟩ := ih whole
        exact ⟨char :: chars, by rw [same]; rfl⟩
    | invalid byte rest none _ =>
        intro whole
        rw [valid, runes_invalid none] at whole
        cases whole
  · rintro ⟨chars, rfl⟩
    rw [valid, runes_encode, List.all_map]
    exact List.all_eq_true.mpr (fun _ _ => rfl)

theorem valid_append_of_valid {first second : Bytes} (whole : valid first = true) :
    valid (first ++ second) = valid second := by
  obtain ⟨chars, rfl⟩ := (valid_iff first).mp whole
  induction chars with
  | nil => rfl
  | cons char rest ih =>
      have later : valid (encode rest) = true := (valid_iff _).mpr ⟨rest, rfl⟩
      rw [encode, List.flatMap_cons, List.append_assoc, valid, runes_encode_append]
      exact ih later

theorem begins_encode (chars : List Char) :
    ∀ byte ∈ (encode chars).head?, byte.IsUTF8FirstByte := by
  intro byte found
  cases chars with
  | nil => cases found
  | cons char rest =>
      have nonempty : 0 < (String.utf8EncodeChar char).length := by
        rw [String.length_utf8EncodeChar]
        exact char.utf8Size_pos
      have first : (encode (char :: rest)).head? = some (String.utf8EncodeChar char)[0] := by
        rw [encode, List.flatMap_cons, List.head?_append, List.head?_eq_getElem?,
          List.getElem?_eq_getElem nonempty]
        rfl
      rw [first] at found
      cases found
      exact UInt8.isUTF8FirstByte_getElem_utf8EncodeChar.mpr rfl

theorem valid_append_encode (bytes : Bytes) (chars : List Char) :
    valid (bytes ++ encode chars) = valid bytes := by
  rw [valid, runes_append bytes (begins_encode chars), List.all_append, runes_encode, List.all_map]
  have all : chars.all (Rune.isScalar ∘ Rune.scalar) = true := List.all_eq_true.mpr (fun _ _ => rfl)
  rw [all, Bool.and_true]
  rfl

theorem valid_of_small (bytes : Bytes) (small : ∀ byte ∈ bytes, byte.toNat < 128) :
    valid bytes = true := by
  induction bytes with
  | nil => rfl
  | cons byte rest ih =>
      have one : valid [byte] = true := by
        rw [valid_iff]
        refine ⟨[Char.ofNat byte.toNat], ?_⟩
        have below := small byte List.mem_cons_self
        have fits : byte.toNat.isValidChar := Or.inl (by omega)
        have number : (Char.ofNat byte.toNat).toNat = byte.toNat := by
          rw [Char.ofNat, dif_pos fits]
          exact UInt32.toNat_ofNatLT
        rw [encode, List.flatMap_cons, List.flatMap_nil, List.append_nil,
          encode_small (by rw [number]; exact below), number, UInt8.ofNat_toNat]
      have split : valid (byte :: rest) = valid rest := valid_append_of_valid one
      rw [split]
      exact ih (fun other member => small other (List.mem_cons_of_mem _ member))

theorem valid_append {first second : Bytes} (left : valid first = true)
    (right : valid second = true) : valid (first ++ second) = true := by
  rw [valid_append_of_valid left, right]

theorem zero_mem_iff (bytes : Bytes) : 0 ∈ bytes ↔ Rune.scalar (Char.ofNat 0) ∈ runes bytes := by
  induction bytes using runes_induct with
  | nil => exact iff_of_false List.not_mem_nil List.not_mem_nil
  | scalar char rest ih =>
      have here : (0 : UInt8) ∈ String.utf8EncodeChar char ↔
          Rune.scalar (Char.ofNat 0) = .scalar char := by
        rw [mem_encode_iff (by decide)]
        constructor
        · intro zero
          rw [← Char.ofNat_toNat char, zero]
          rfl
        · intro same
          cases same
          rfl
      rw [List.mem_append, runes_encode_append, List.mem_cons, here, ih]
  | invalid byte rest none ih =>
      have other : byte ≠ 0 := by
        rintro rfl
        have found := front_encode_append (Char.ofNat 0) rest
        rw [encode_small (by decide)] at found
        exact absurd (found.symm.trans none) (by simp)
      rw [runes_invalid none, List.mem_cons, List.mem_cons, ih]
      simp [other.symm]

end Utf8
