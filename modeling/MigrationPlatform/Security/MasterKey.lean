/-
The master key that the API and the orchestrator derive from `MASTER_KEY`.

Both take the string for the base64 spelling of 32 bytes and, where it is none,
hash it. The decoder of the API is strict, that of the orchestrator skips line
breaks and passes over unused bits: a string that only the second can decode
gives two keys.
-/

import MigrationPlatform.Foundation.Base64
import MigrationPlatform.Foundation.Sha256

namespace MigrationPlatform.Security

open Base64
open Utf8 (Bytes)

/-- AES-256-GCM: what is sealed opens under the same key and nonce. -/
structure Aead where
  sealed : (key nonce plaintext : Bytes) → Bytes
  opened : (key nonce ciphertext : Bytes) → Option Bytes
  opens : ∀ key nonce plaintext, opened key nonce (sealed key nonce plaintext) = some plaintext

inductive MasterKeyError
  | empty
  | tooShort
deriving DecidableEq, Repr

def MasterKeyError.text : MasterKeyError → String
  | .empty => "MASTER_KEY is empty"
  | .tooShort => "MASTER_KEY must be base64 of 32 bytes or a raw string >= 32 chars"

/-! ### The API -/

def standardDecode (value : Bytes) : Option Bytes := decode true value

/-- `value.len()` counts bytes. -/
def decodeMasterKey (value : Bytes) : Except MasterKeyError Bytes :=
  match standardDecode value with
  | some bytes =>
      if bytes.length = 32 then .ok bytes
      else if value.length < 32 then .error .tooShort
      else .ok (Sha256.digest value)
  | none => if value.length < 32 then .error .tooShort else .ok (Sha256.digest value)

/-- `MasterKey::encrypt` under a nonce of twelve random bytes. -/
def encrypt (aead : Aead) (nonce plaintext value : Bytes) : Except MasterKeyError Bytes :=
  match decodeMasterKey value with
  | .error problem => .error problem
  | .ok key => .ok (aead.sealed key nonce plaintext)

def isLineBreak (byte : UInt8) : Bool := byte == 10 || byte == 13

/-- `base64.StdEncoding.DecodeString`: line breaks are skipped wherever they stand. -/
def decodeString (value : Bytes) : Option Bytes :=
  decode false (value.filter (fun byte => !isLineBreak byte))

def orchestratorDecodeMasterKey (value : Bytes) : Except MasterKeyError Bytes :=
  if value = [] then .error .empty
  else
    match decodeString value with
    | some decoded =>
        if decoded.length = 32 then .ok decoded
        else if value.length < 32 then .error .tooShort
        else .ok (Sha256.digest value)
    | none => if value.length < 32 then .error .tooShort else .ok (Sha256.digest value)

inductive DecryptError
  | masterKey (problem : MasterKeyError)
  | nonceSize (size : Nat)
  | failed

def decryptSecret (aead : Aead) (value ciphertext nonce : Bytes) : Except DecryptError Bytes :=
  match orchestratorDecodeMasterKey value with
  | .error problem => .error (.masterKey problem)
  | .ok key =>
      if nonce.length ≠ 12 then .error (.nonceSize nonce.length)
      else
        match aead.opened key nonce ciphertext with
        | some plain => .ok plain
        | none => .error .failed

def utf8 (value : String) : Bytes := value.toUTF8.toList

/-- Both fail, or both derive the same 32 bytes; what the one encrypts, the
other decrypts. -/
structure KeysAgree (value : String) : Prop where
  same :
    (∃ problem other, decodeMasterKey (utf8 value) = .error problem ∧
      orchestratorDecodeMasterKey (utf8 value) = .error other) ∨
    ∃ key, key.length = 32 ∧ decodeMasterKey (utf8 value) = .ok key ∧
      orchestratorDecodeMasterKey (utf8 value) = .ok key
  decrypts : ∀ (aead : Aead) (nonce plaintext ciphertext : Bytes), nonce.length = 12 →
    encrypt aead nonce plaintext (utf8 value) = .ok ciphertext →
    decryptSecret aead (utf8 value) ciphertext nonce = .ok plaintext

def withoutBreaks (value : Bytes) : Bytes := value.filter (fun byte => !isLineBreak byte)

/-- Where the string without its line breaks spells 32 bytes, it is their
canonical spelling, or its own digest are these bytes. -/
def Unambiguous (value : String) : Prop :=
  ∀ key, key.length = 32 → Spells false (withoutBreaks (utf8 value)) key →
    utf8 value = encode key ∨ Sha256.digest (utf8 value) = key

theorem symbol_not_lineBreak : ∀ digit < 64, isLineBreak (symbol digit) = false := by
  decide

private theorem withoutBreaks_of_spells {strict : Bool} {text bytes : Bytes}
    (spelled : Spells strict text bytes) : withoutBreaks text = text := by
  unfold withoutBreaks
  rw [List.filter_eq_self]
  induction spelled with
  | nil => exact fun byte member => by cases member
  | @one x y hx hy zero =>
      have noPad : isLineBreak pad = false := rfl
      simp [symbol_not_lineBreak x hx, symbol_not_lineBreak y hy, noPad]
  | @two x y z hx hy hz zero =>
      have noPad : isLineBreak pad = false := rfl
      simp [symbol_not_lineBreak x hx, symbol_not_lineBreak y hy, symbol_not_lineBreak z hz, noPad]
  | @three x y z w text bytes hx hy hz hw rest ih =>
      simp [symbol_not_lineBreak x hx, symbol_not_lineBreak y hy, symbol_not_lineBreak z hz,
        symbol_not_lineBreak w hw] at ih ⊢
      exact ih

theorem withoutBreaks_encode (key : Bytes) : withoutBreaks (encode key) = encode key :=
  withoutBreaks_of_spells (spells_encode false key)

theorem eq_of_spells_encode {key bytes : Bytes}
    (spelled : Spells false (withoutBreaks (encode bytes)) key) : key = bytes := by
  rw [withoutBreaks_encode] at spelled
  have same := (decode_of_spells spelled).symm.trans (decode_of_spells (spells_encode false bytes))
  exact Option.some.inj same

theorem decodeMasterKey_hashed {value : Bytes}
    (other : ∀ key, key.length = 32 → value ≠ encode key) :
    decodeMasterKey value =
      if value.length < 32 then .error .tooShort else .ok (Sha256.digest value) := by
  unfold decodeMasterKey standardDecode
  split
  · rename_i bytes decoded
    rw [if_neg]
    intro long
    exact other bytes long (decode_strict_eq_some_iff.mp decoded)
  · rfl

private theorem orchestratorDecodeMasterKey_hashed {value : Bytes}
    (other : ∀ key, key.length = 32 → ¬Spells false (withoutBreaks value) key) :
    orchestratorDecodeMasterKey value =
      if value = [] then .error .empty
      else if value.length < 32 then .error .tooShort else .ok (Sha256.digest value) := by
  unfold orchestratorDecodeMasterKey decodeString
  split
  · rfl
  · split
    · rename_i bytes decoded
      rw [if_neg]
      intro long
      exact other bytes long (decode_eq_some_iff.mp decoded)
    · rfl

theorem orchestratorDecodeMasterKey_spelled {value key : Bytes} (long : key.length = 32)
    (spelled : Spells false (withoutBreaks value) key) :
    orchestratorDecodeMasterKey value = .ok key ∧ 32 ≤ value.length := by
  have decoded : decodeString value = some key := decode_eq_some_iff.mpr spelled
  have size : 32 ≤ value.length := by
    have all : (withoutBreaks value).length ≤ value.length := List.length_filter_le _ _
    rw [spelled.length_eq, long] at all
    omega
  refine ⟨?_, size⟩
  unfold orchestratorDecodeMasterKey
  rw [if_neg, decoded]
  · exact if_pos long
  · rintro rfl
    exact absurd size (by decide)

theorem decodeMasterKey_encode {key : Bytes} (long : key.length = 32) :
    decodeMasterKey (encode key) = .ok key := by
  unfold decodeMasterKey standardDecode
  rw [decode_strict_eq_some_iff.mpr rfl]
  exact if_pos long

theorem KeysAgree.of_same {value : String}
    (same : (∃ problem other, decodeMasterKey (utf8 value) = .error problem ∧
        orchestratorDecodeMasterKey (utf8 value) = .error other) ∨
      ∃ key, key.length = 32 ∧ decodeMasterKey (utf8 value) = .ok key ∧
        orchestratorDecodeMasterKey (utf8 value) = .ok key) : KeysAgree value := by
  refine ⟨same, ?_⟩
  intro aead nonce plaintext ciphertext size encrypted
  rcases same with ⟨problem, _, failed, _⟩ | ⟨key, _, own, theirs⟩
  · unfold encrypt at encrypted
    rw [failed] at encrypted
    cases encrypted
  · unfold encrypt at encrypted
    rw [own] at encrypted
    cases encrypted
    simp [decryptSecret, theirs, size, aead.opens]

theorem keys_agree_iff (value : String) : KeysAgree value ↔ Unambiguous value := by
  constructor
  · intro agree key long spelled
    by_contra neither
    obtain ⟨notCanonical, notDigest⟩ := not_or.mp neither
    obtain ⟨theirs, size⟩ := orchestratorDecodeMasterKey_spelled long spelled
    have own : decodeMasterKey (utf8 value) = .ok (Sha256.digest (utf8 value)) := by
      rw [decodeMasterKey_hashed, if_neg (by omega)]
      intro other otherLong canonical
      apply notCanonical
      rw [canonical] at spelled
      rw [canonical, eq_of_spells_encode spelled]
    rcases agree.same with ⟨problem, _, failed, _⟩ | ⟨shared, _, ours, orchestrators⟩
    · rw [own] at failed
      cases failed
    · rw [own] at ours
      rw [theirs] at orchestrators
      exact notDigest ((Except.ok.inj ours).trans (Except.ok.inj orchestrators).symm)
  · intro plain
    apply KeysAgree.of_same
    by_cases spells : ∃ key, key.length = 32 ∧ Spells false (withoutBreaks (utf8 value)) key
    · obtain ⟨key, long, spelled⟩ := spells
      obtain ⟨theirs, size⟩ := orchestratorDecodeMasterKey_spelled long spelled
      refine .inr ⟨key, long, ?_, theirs⟩
      rcases plain key long spelled with canonical | digest
      · rw [canonical]
        exact decodeMasterKey_encode long
      · by_cases other : ∃ bytes, bytes.length = 32 ∧ utf8 value = encode bytes
        · obtain ⟨bytes, size, canonical⟩ := other
          rw [canonical] at spelled
          rw [canonical, eq_of_spells_encode spelled]
          exact decodeMasterKey_encode size
        · rw [decodeMasterKey_hashed, if_neg (by omega), digest]
          intro bytes size canonical
          exact other ⟨bytes, size, canonical⟩
    · have noSpelling : ∀ key, key.length = 32 → ¬Spells false (withoutBreaks (utf8 value)) key :=
        fun key long spelled => spells ⟨key, long, spelled⟩
      have notCanonical : ∀ key, key.length = 32 → utf8 value ≠ encode key := by
        intro key long canonical
        have apart := noSpelling key long
        rw [canonical, withoutBreaks_encode] at apart
        exact apart (spells_encode false key)
      rw [decodeMasterKey_hashed notCanonical, orchestratorDecodeMasterKey_hashed noSpelling]
      by_cases short : (utf8 value).length < 32
      · refine .inl ⟨.tooShort, if utf8 value = [] then .empty else .tooShort, if_pos short, ?_⟩
        split
        · rfl
        · rfl
      · refine .inr ⟨Sha256.digest (utf8 value), Sha256.length_digest _, if_neg short, ?_⟩
        rw [if_neg, if_neg short]
        intro empty
        rw [empty] at short
        exact short (by decide)

def keyWithNewline : String := "AAAAAAAAAAAAAAAAAAAAAAAAAAAAAAAAAAAAAAAAAAA=\n"

/-- The orchestrator takes the string for the key, the API hashes it. -/
theorem newline_splits_keys :
    orchestratorDecodeMasterKey (utf8 keyWithNewline) = .ok (List.replicate 32 0) ∧
      decodeMasterKey (utf8 keyWithNewline) = .ok (Sha256.digest (utf8 keyWithNewline)) ∧
      ¬KeysAgree keyWithNewline := by
  have bytes : utf8 keyWithNewline = encode (List.replicate 32 0) ++ [10] := by
    decide +kernel
  have zero : Spells false (withoutBreaks (utf8 keyWithNewline)) (List.replicate 32 0) := by
    rw [bytes, ← decode_eq_some_iff]
    decide +kernel
  have odd : (utf8 keyWithNewline).length = 45 := by
    rw [bytes]
    decide +kernel
  have notCanonical : ∀ key, key.length = 32 → utf8 keyWithNewline ≠ encode key := by
    intro key long canonical
    have size := (spells_encode false key).length_eq
    rw [← canonical, odd, long] at size
    cases size
  have otherDigest : Sha256.digest (utf8 keyWithNewline) ≠ List.replicate 32 0 := by
    rw [bytes]
    decide +kernel
  refine ⟨(orchestratorDecodeMasterKey_spelled rfl zero).1, ?_, ?_⟩
  · rw [decodeMasterKey_hashed notCanonical, if_neg (by omega)]
  · rw [keys_agree_iff]
    intro plain
    rcases plain _ rfl zero with canonical | digest
    · exact notCanonical _ rfl canonical
    · exact otherDigest digest

end MigrationPlatform.Security
