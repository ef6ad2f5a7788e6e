import AntiEntropator.Domain.Text
import AntiEntropator.Utf8
import Mathlib.Data.List.TakeWhile

/-!
# Lossy decoding

The lossy conversion of a file name is the name itself if it is valid UTF-8.
Whatever the name, a character below 0x80 comes from its own byte.
-/

namespace AntiEntropator

open String (utf8EncodeChar)

theorem utf8Bytes_ofList (characters : List Char) :
    utf8Bytes (String.ofList characters) = Utf8.encode characters :=
  Utf8.toByteArray_ofList characters

theorem utf8Bytes_eq (text : String) : utf8Bytes text = Utf8.encode text.toList := by
  rw [← utf8Bytes_ofList, String.ofList_toList]

namespace OsString

section Bytes

variable {code : Nat} (small : code < 256)
include small

theorem le_ofNat_iff (low : UInt8) : low ≤ UInt8.ofNat code ↔ low.toNat ≤ code := by
  rw [UInt8.le_iff_toNat_le, Utf8.toNat_ofNat small]

theorem ofNat_le_iff (high : UInt8) : UInt8.ofNat code ≤ high ↔ code ≤ high.toNat := by
  rw [UInt8.le_iff_toNat_le, Utf8.toNat_ofNat small]

theorem ofNat_eq_iff (byte : UInt8) : UInt8.ofNat code = byte ↔ code = byte.toNat := by
  rw [← UInt8.toNat_inj, Utf8.toNat_ofNat small]

theorem sequenceShape_ofNat : sequenceShape (UInt8.ofNat code) =
    if 0xC2 ≤ code ∧ code ≤ 0xDF then some (1, 0x80, 0xBF)
    else if code = 0xE0 then some (2, 0xA0, 0xBF)
    else if code = 0xED then some (2, 0x80, 0x9F)
    else if 0xE1 ≤ code ∧ code ≤ 0xEF then some (2, 0x80, 0xBF)
    else if code = 0xF0 then some (3, 0x90, 0xBF)
    else if 0xF1 ≤ code ∧ code ≤ 0xF3 then some (3, 0x80, 0xBF)
    else if code = 0xF4 then some (3, 0x80, 0x8F)
    else none := by
  unfold sequenceShape
  simp only [le_ofNat_iff small, ofNat_le_iff small, ofNat_eq_iff small, UInt8.reduceToNat]

end Bytes

theorem lossyHead_of_shape {first second low high : UInt8} {extra : Nat}
    (large : ¬ first < 0x80) (shape : sequenceShape first = some (extra, low, high))
    (inside : low ≤ second ∧ second ≤ high) (more later : List UInt8)
    (full : more.length = extra - 1)
    (continuation : ∀ byte ∈ more, 0x80 ≤ byte ∧ byte ≤ 0xBF) :
    lossyHead first (second :: (more ++ later)) =
      (Char.ofNat ((second :: more).foldl (fun code byte => code * 64 + byte.toNat % 64)
        (first.toNat % 2 ^ (6 - extra))), extra) := by
  have taken : (more ++ later).take (extra - 1) = more := by
    rw [← full, List.take_left]
  have whole : more.takeWhile (fun byte => 0x80 ≤ byte ∧ byte ≤ 0xBF) = more :=
    List.takeWhile_eq_self_iff.mpr fun byte member => by simpa using continuation byte member
  unfold lossyHead
  simp only [if_neg large, shape, if_pos inside, taken, whole, if_pos full]

theorem continuation_ofNat (code : Nat) :
    0x80 ≤ UInt8.ofNat (code % 64 + 0x80) ∧ UInt8.ofNat (code % 64 + 0x80) ≤ 0xBF := by
  have small : code % 64 + 0x80 < 256 := by omega
  rw [le_ofNat_iff small, ofNat_le_iff small]
  simp only [UInt8.reduceToNat]
  omega

theorem not_lt_ofNat {code : Nat} (small : code < 256) (large : 0x80 ≤ code) :
    ¬ UInt8.ofNat code < 0x80 := by
  rw [UInt8.lt_iff_toNat_lt, Utf8.toNat_ofNat small]
  simp only [UInt8.reduceToNat]
  omega

/-- The second of three bytes is in the range that the first one asks for. -/
theorem sequenceShape_three {code : Nat} (above : 0x800 ≤ code) (below : code < 0x10000)
    (valid : code < 0xD800 ∨ 0xDFFF < code) : ∃ low high,
      sequenceShape (UInt8.ofNat (code / 4096 + 0xE0)) = some (2, low, high) ∧
        low ≤ UInt8.ofNat (code / 64 % 64 + 0x80) ∧
          UInt8.ofNat (code / 64 % 64 + 0x80) ≤ high := by
  have lead : code / 4096 + 0xE0 < 256 := by omega
  have middle : code / 64 % 64 + 0x80 < 256 := by omega
  simp only [sequenceShape_ofNat lead, le_ofNat_iff middle, ofNat_le_iff middle]
  rw [if_neg (by omega)]
  by_cases least : code < 0x1000
  · refine ⟨0xA0, 0xBF, ?_, ?_⟩
    · rw [if_pos (by omega)]
    · simp only [UInt8.reduceToNat]
      omega
  · by_cases surrogates : code / 4096 = 0xD
    · refine ⟨0x80, 0x9F, ?_, ?_⟩
      · rw [if_neg (by omega), if_pos (by omega)]
      · simp only [UInt8.reduceToNat]
        omega
    · refine ⟨0x80, 0xBF, ?_, ?_⟩
      · rw [if_neg (by omega), if_neg (by omega), if_pos (by omega)]
      · simp only [UInt8.reduceToNat]
        omega

theorem sequenceShape_four {code : Nat} (above : 0x10000 ≤ code) (below : code < 0x110000) :
    ∃ low high,
      sequenceShape (UInt8.ofNat (code / 262144 + 0xF0)) = some (3, low, high) ∧
        low ≤ UInt8.ofNat (code / 4096 % 64 + 0x80) ∧
          UInt8.ofNat (code / 4096 % 64 + 0x80) ≤ high := by
  have lead : code / 262144 + 0xF0 < 256 := by omega
  have middle : code / 4096 % 64 + 0x80 < 256 := by omega
  simp only [sequenceShape_ofNat lead, le_ofNat_iff middle, ofNat_le_iff middle]
  rw [if_neg (by omega), if_neg (by omega), if_neg (by omega), if_neg (by omega)]
  by_cases least : code < 0x40000
  · refine ⟨0x90, 0xBF, ?_, ?_⟩
    · rw [if_pos (by omega)]
    · simp only [UInt8.reduceToNat]
      omega
  · by_cases last : code < 0x100000
    · refine ⟨0x80, 0xBF, ?_, ?_⟩
      · rw [if_neg (by omega), if_pos (by omega)]
      · simp only [UInt8.reduceToNat]
        omega
    · refine ⟨0x80, 0x8F, ?_, ?_⟩
      · rw [if_neg (by omega), if_neg (by omega), if_pos (by omega)]
      · simp only [UInt8.reduceToNat]
        omega

theorem lossyHead_of_code {character : Char} {lead extra : Nat} {second low high : UInt8}
    (small : lead < 256) (large : 0x80 ≤ lead)
    (shape : sequenceShape (UInt8.ofNat lead) = some (extra, low, high))
    (inside : low ≤ second ∧ second ≤ high) (more later : List UInt8)
    (full : more.length = extra - 1) (continuation : ∀ byte ∈ more, 0x80 ≤ byte ∧ byte ≤ 0xBF)
    (code : (second :: more).foldl (fun code byte => code * 64 + byte.toNat % 64)
      (lead % 2 ^ (6 - extra)) = character.toNat) :
    lossyHead (UInt8.ofNat lead) (second :: (more ++ later)) = (character, extra) := by
  rw [lossyHead_of_shape (not_lt_ofNat small large) shape inside more later full continuation,
    Utf8.toNat_ofNat small, code, Char.ofNat_toNat]

theorem toNat_continuation (code : Nat) :
    (UInt8.ofNat (code % 64 + 0x80)).toNat = code % 64 + 0x80 :=
  Utf8.toNat_ofNat (by omega)

theorem lossyHead_utf8EncodeChar (character : Char) (later : List UInt8) :
    ∃ first rest, utf8EncodeChar character = first :: rest ∧
      lossyHead first (rest ++ later) = (character, rest.length) := by
  have valid := Utf8.valid_toNat character
  by_cases ascii : character.toNat < 0x80
  · refine ⟨_, [], Utf8.utf8EncodeChar_of_ascii ascii, ?_⟩
    have small : UInt8.ofNat character.toNat < 0x80 := by
      rw [UInt8.lt_iff_toNat_lt, Utf8.toNat_ofNat (by omega)]
      exact ascii
    unfold lossyHead
    rw [if_pos small, Utf8.toNat_ofNat (by omega), Char.ofNat_toNat]
    rfl
  · rcases Utf8.utf8EncodeChar_cases (Nat.le_of_not_lt ascii) with
      ⟨two, bytes⟩ | ⟨above, three, bytes⟩ | ⟨above, bytes⟩
    · refine ⟨_, _, bytes, ?_⟩
      have lead : character.toNat / 64 + 0xC0 < 256 := by omega
      have shape : sequenceShape (UInt8.ofNat (character.toNat / 64 + 0xC0)) =
          some (1, 0x80, 0xBF) := by
        rw [sequenceShape_ofNat lead, if_pos (by omega)]
      apply lossyHead_of_code lead (by omega) shape (continuation_ofNat character.toNat) [] later
        rfl (by simp)
      simp only [List.foldl_cons, List.foldl_nil, toNat_continuation]
      omega
    · refine ⟨_, _, bytes, ?_⟩
      have lead : character.toNat / 4096 + 0xE0 < 256 := by omega
      obtain ⟨low, high, shape, inside⟩ := sequenceShape_three above three (by omega)
      apply lossyHead_of_code lead (by omega) shape inside
        [UInt8.ofNat (character.toNat % 64 + 0x80)] later rfl
        (List.forall_mem_singleton.mpr (continuation_ofNat character.toNat))
      simp only [List.foldl_cons, List.foldl_nil, toNat_continuation]
      omega
    · refine ⟨_, _, bytes, ?_⟩
      have lead : character.toNat / 262144 + 0xF0 < 256 := by omega
      obtain ⟨low, high, shape, inside⟩ := sequenceShape_four above (by omega)
      apply lossyHead_of_code lead (by omega) shape inside
        [UInt8.ofNat (character.toNat / 64 % 64 + 0x80),
          UInt8.ofNat (character.toNat % 64 + 0x80)] later rfl
        (List.forall_mem_cons.mpr ⟨continuation_ofNat (character.toNat / 64),
          List.forall_mem_singleton.mpr (continuation_ofNat character.toNat)⟩)
      simp only [List.foldl_cons, List.foldl_nil, toNat_continuation]
      omega

theorem lossyChars_encode {fuel : Nat} (characters : List Char)
    (enough : (Utf8.encode characters).length ≤ fuel) :
    lossyChars fuel (Utf8.encode characters) = characters := by
  induction characters generalizing fuel with
  | nil => cases fuel <;> rfl
  | cons character rest inductionHypothesis =>
      obtain ⟨first, more, bytes, read⟩ :=
        lossyHead_utf8EncodeChar character (Utf8.encode rest)
      rw [Utf8.encode_cons, bytes, List.cons_append] at enough ⊢
      cases fuel with
      | zero => cases enough
      | succ fuel =>
          rw [List.length_cons, List.length_append] at enough
          rw [lossyChars, read]
          simp only [List.drop_left]
          rw [inductionHypothesis (by omega)]

/-- Nothing is lost of valid text. -/
theorem toStringLossy_utf8Bytes (text : String) : toStringLossy (utf8Bytes text) = text := by
  rw [toStringLossy, utf8Bytes_eq, lossyChars_encode _ (Nat.le_refl _), String.ofList_toList]

/-- What the first two bytes of a sequence make of its code. -/
theorem leading_of_shape {first second low high : UInt8} {extra : Nat}
    (shape : sequenceShape first = some (extra, low, high))
    (inside : low ≤ second ∧ second ≤ high) :
    (extra = 1 ∧ 2 ≤ first.toNat % 32 ∧ first.toNat % 32 < 32) ∨
    (extra = 2 ∧ 32 ≤ first.toNat % 16 * 64 + second.toNat % 64 ∧
      (first.toNat % 16 * 64 + second.toNat % 64 < 0x360 ∨
        0x37F < first.toNat % 16 * 64 + second.toNat % 64) ∧
      first.toNat % 16 * 64 + second.toNat % 64 < 0x400) ∨
    (extra = 3 ∧ 16 ≤ first.toNat % 8 * 64 + second.toNat % 64 ∧
      first.toNat % 8 * 64 + second.toNat % 64 < 0x110) := by
  have byte : UInt8.ofNat first.toNat = first := UInt8.ofNat_toNat
  have small := first.toNat_lt
  rw [← byte, sequenceShape_ofNat small] at shape
  rw [UInt8.le_iff_toNat_le, UInt8.le_iff_toNat_le] at inside
  split at shape
  next => cases shape; left; omega
  next =>
    right
    split at shape
    next => cases shape; simp only [UInt8.reduceToNat] at inside; omega
    next =>
      split at shape
      next => cases shape; simp only [UInt8.reduceToNat] at inside; omega
      next =>
        split at shape
        next => cases shape; simp only [UInt8.reduceToNat] at inside; omega
        next =>
          split at shape
          next => cases shape; simp only [UInt8.reduceToNat] at inside; omega
          next =>
            split at shape
            next => cases shape; simp only [UInt8.reduceToNat] at inside; omega
            next =>
              split at shape
              next => cases shape; simp only [UInt8.reduceToNat] at inside; omega
              next => cases shape

theorem le_toNat_of_shape {first second low high : UInt8} {extra : Nat} {more : List UInt8}
    (shape : sequenceShape first = some (extra, low, high))
    (inside : low ≤ second ∧ second ≤ high) (full : more.length = extra - 1) :
    0x80 ≤ (Char.ofNat ((second :: more).foldl (fun code byte => code * 64 + byte.toNat % 64)
      (first.toNat % 2 ^ (6 - extra)))).toNat := by
  rcases leading_of_shape shape inside with ⟨rfl, bounds⟩ | ⟨rfl, bounds⟩ | ⟨rfl, bounds⟩
  · obtain rfl := List.eq_nil_of_length_eq_zero full
    simp only [List.foldl_cons, List.foldl_nil, Nat.reduceSub, Nat.reducePow]
    rw [Utf8.toNat_charOfNat (by omega)]
    omega
  · obtain ⟨third, rfl⟩ := List.length_eq_one_iff.mp full
    simp only [List.foldl_cons, List.foldl_nil, Nat.reduceSub, Nat.reducePow]
    rw [Utf8.toNat_charOfNat (by omega)]
    omega
  · obtain ⟨third, fourth, rfl⟩ := List.length_eq_two.mp full
    simp only [List.foldl_cons, List.foldl_nil, Nat.reduceSub, Nat.reducePow]
    rw [Utf8.toNat_charOfNat (by omega)]
    omega

theorem lossyHead_ascii {first : UInt8} {rest : List UInt8}
    (ascii : (lossyHead first rest).1.toNat < 0x80) :
    UInt8.ofNat (lossyHead first rest).1.toNat = first := by
  have replaced : ¬ replacementCharacter.toNat < 0x80 := by decide
  unfold lossyHead at ascii ⊢
  split
  next own =>
    have small : first.toNat < 0x80 := UInt8.lt_iff_toNat_lt.mp own
    rw [Utf8.toNat_charOfNat (by omega)]
    exact UInt8.ofNat_toNat
  next other =>
    rw [if_neg other] at ascii
    split at ascii
    next extra low high second later shape =>
      dsimp only at ascii
      split at ascii
      next inside =>
        split at ascii
        next full => exact absurd ascii (Nat.not_lt.mpr (le_toNat_of_shape shape inside full))
        next => exact absurd ascii replaced
      next => exact absurd ascii replaced
    next => exact absurd ascii replaced

/-- No character below 0x80 is made up by the lossy conversion. -/
theorem mem_of_mem_toStringLossy {name : OsString} {character : Char}
    (ascii : character.toNat < 0x80) (member : character ∈ (toStringLossy name).toList) :
    UInt8.ofNat character.toNat ∈ name := by
  have read : ∀ fuel (bytes : List UInt8), character ∈ lossyChars fuel bytes →
      UInt8.ofNat character.toNat ∈ bytes := by
    intro fuel
    induction fuel with
    | zero =>
        intro bytes inside
        cases inside
    | succ fuel inductionHypothesis =>
        intro bytes inside
        cases bytes with
        | nil => cases inside
        | cons first rest =>
            rw [lossyChars] at inside
            rcases List.mem_cons.mp inside with same | later
            · have own : UInt8.ofNat character.toNat = first := by
                rw [same] at ascii ⊢
                exact lossyHead_ascii ascii
              rw [own]
              exact List.mem_cons_self
            · exact List.mem_cons_of_mem _ (List.mem_of_mem_drop (inductionHypothesis _ later))
  rw [toStringLossy, String.toList_ofList] at member
  exact read name.length name member

end OsString

end AntiEntropator
