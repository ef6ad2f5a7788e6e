import Mathlib.Data.List.Basic

/-!
# UTF-8 bytes

Characters as bytes.  Bytes below 0x80 are characters of their own and occur in
no other character, so a byte sequence can be cut at them.
-/

namespace Utf8

open String (utf8EncodeChar)

def encode (characters : List Char) : List UInt8 := characters.flatMap utf8EncodeChar

@[simp]
theorem encode_nil : encode [] = [] := rfl

@[simp]
theorem encode_cons (character : Char) (rest : List Char) :
    encode (character :: rest) = utf8EncodeChar character ++ encode rest := rfl

@[simp]
theorem encode_append (first second : List Char) :
    encode (first ++ second) = encode first ++ encode second := List.flatMap_append

theorem toByteArray_ofList (characters : List Char) :
    (String.ofList characters).toByteArray.data.toList = encode characters := by
  rw [String.toByteArray_ofList, List.utf8Encode, List.toList_data_toByteArray]
  rfl

theorem toNat_ofNat {code : Nat} (small : code < 256) : (UInt8.ofNat code).toNat = code :=
  UInt8.toNat_ofNat_of_lt small

theorem valid_toNat (character : Char) : character.toNat < 0xD800 ∨
    0xDFFF < character.toNat ∧ character.toNat < 0x110000 := character.valid

theorem toNat_charOfNat {code : Nat}
    (valid : code < 0xD800 ∨ 0xDFFF < code ∧ code < 0x110000) : (Char.ofNat code).toNat = code := by
  rw [Char.ofNat, dif_pos valid]
  rfl

theorem utf8EncodeChar_of_ascii {character : Char} (ascii : character.toNat < 0x80) :
    utf8EncodeChar character = [UInt8.ofNat character.toNat] :=
  if_pos (Nat.le_of_lt_succ ascii)

/-- The leading byte of another character tells how many bytes follow it, each with
six bits of the code. -/
theorem utf8EncodeChar_cases {character : Char} (large : 0x80 ≤ character.toNat) :
    (character.toNat < 0x800 ∧ utf8EncodeChar character =
      [UInt8.ofNat (character.toNat / 64 + 0xC0), UInt8.ofNat (character.toNat % 64 + 0x80)]) ∨
    (0x800 ≤ character.toNat ∧ character.toNat < 0x10000 ∧ utf8EncodeChar character =
      [UInt8.ofNat (character.toNat / 4096 + 0xE0),
        UInt8.ofNat (character.toNat / 64 % 64 + 0x80),
        UInt8.ofNat (character.toNat % 64 + 0x80)]) ∨
    (0x10000 ≤ character.toNat ∧ utf8EncodeChar character =
      [UInt8.ofNat (character.toNat / 262144 + 0xF0),
        UInt8.ofNat (character.toNat / 4096 % 64 + 0x80),
        UInt8.ofNat (character.toNat / 64 % 64 + 0x80),
        UInt8.ofNat (character.toNat % 64 + 0x80)]) := by
  have valid := valid_toNat character
  have code : character.val.toNat = character.toNat := rfl
  unfold utf8EncodeChar
  dsimp only
  rw [code, if_neg (by omega)]
  by_cases two : character.toNat < 0x800
  · refine .inl ⟨two, ?_⟩
    rw [if_pos (by omega), Nat.mod_eq_of_lt (by omega : character.toNat / 64 < 32)]
  · by_cases three : character.toNat < 0x10000
    · refine .inr (.inl ⟨by omega, three, ?_⟩)
      rw [if_neg (by omega), if_pos (by omega),
        Nat.mod_eq_of_lt (by omega : character.toNat / 4096 < 16)]
    · refine .inr (.inr ⟨by omega, ?_⟩)
      rw [if_neg (by omega), if_neg (by omega),
        Nat.mod_eq_of_lt (by omega : character.toNat / 262144 < 8)]

theorem le_of_mem_utf8EncodeChar {character : Char} (large : 0x80 ≤ character.toNat)
    {byte : UInt8} (member : byte ∈ utf8EncodeChar character) : 0x80 ≤ byte.toNat := by
  have valid := valid_toNat character
  have high : ∀ code, code < 256 → 0x80 ≤ code → 0x80 ≤ (UInt8.ofNat code).toNat := by
    intro code small high
    rwa [toNat_ofNat small]
  rcases utf8EncodeChar_cases large with ⟨two, bytes⟩ | ⟨-, three, bytes⟩ | ⟨-, bytes⟩
  · simp only [bytes, List.mem_cons, List.not_mem_nil, or_false] at member
    rcases member with rfl | rfl <;> exact high _ (by omega) (by omega)
  · simp only [bytes, List.mem_cons, List.not_mem_nil, or_false] at member
    rcases member with rfl | rfl | rfl <;> exact high _ (by omega) (by omega)
  · simp only [bytes, List.mem_cons, List.not_mem_nil, or_false] at member
    rcases member with rfl | rfl | rfl | rfl <;> exact high _ (by omega) (by omega)

/-- The byte of a mark below 0x80 occurs where the mark does. -/
theorem mem_encode_iff {mark : Char} (ascii : mark.toNat < 0x80) (characters : List Char) :
    UInt8.ofNat mark.toNat ∈ encode characters ↔ mark ∈ characters := by
  induction characters with
  | nil => simp
  | cons character rest inductionHypothesis =>
      rw [encode_cons, List.mem_append, inductionHypothesis, List.mem_cons]
      apply or_congr_left
      by_cases small : character.toNat < 0x80
      · rw [utf8EncodeChar_of_ascii small, List.mem_singleton, ← UInt8.toNat_inj,
          toNat_ofNat (by omega), toNat_ofNat (by omega)]
        constructor
        · intro same
          rw [← Char.ofNat_toNat mark, same, Char.ofNat_toNat]
        · intro same
          rw [same]
      · constructor
        · intro member
          have high := le_of_mem_utf8EncodeChar (by omega) member
          rw [toNat_ofNat (by omega)] at high
          omega
        · rintro rfl
          omega

theorem encode_of_ascii {characters : List Char}
    (ascii : ∀ character ∈ characters, character.toNat < 0x80) :
    encode characters = characters.map fun character => UInt8.ofNat character.toNat := by
  induction characters with
  | nil => rfl
  | cons character rest inductionHypothesis =>
      obtain ⟨first, others⟩ := List.forall_mem_cons.mp ascii
      rw [encode_cons, utf8EncodeChar_of_ascii first, inductionHypothesis others]
      rfl

end Utf8
