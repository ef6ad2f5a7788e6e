import AntiEntropator.Domain.ContentHash
import AntiEntropator.Hexadecimal

/-!
# UUIDs as text

The parser of UUIDs is a library function and reads the hyphenated form back
that a UUID is displayed in.  It reads other spellings too: `anySpelling` has
the documented ones.
-/

namespace AntiEntropator

/-- `Uuid::parse_str`. -/
structure UuidSpellings where
  parseStr : String → Option Uuid
  parse_display : ∀ uuid : Uuid, parseStr uuid.display = some uuid

namespace UuidSpellings

theorem display_injective (spellings : UuidSpellings) : Function.Injective Uuid.display := by
  intro first second same
  have parsed := spellings.parse_display first
  rw [same, spellings.parse_display] at parsed
  exact (Option.some.inj parsed).symm

end UuidSpellings

namespace Uuid

/-- Thirty-two digits in either case. -/
def parseSimple (characters : List Char) : Option Uuid :=
  if characters.length = 32 then
    (characters.mapM Hexadecimal.value?).map fun digits =>
      BitVec.ofNat 128 (Hexadecimal.number digits)
  else none

/-- The digits of a text with four hyphens. -/
def ungroup (characters : List Char) : Option (List Char) :=
  if characters.length = 36 ∧ characters[8]? = some '-' ∧ characters[13]? = some '-' ∧
      characters[18]? = some '-' ∧ characters[23]? = some '-' then
    some (characters.take 8 ++ ((characters.drop 9).take 4 ++ ((characters.drop 14).take 4 ++
      ((characters.drop 19).take 4 ++ characters.drop 24))))
  else none

/-- The simple, hyphenated, braced and URN forms; the URN's prefix is read in either case. -/
def parseStr (text : String) : Option Uuid :=
  match text.toList with
  | '\x7b' :: rest =>
      if rest.getLast? = some '\x7d' then (ungroup rest.dropLast).bind parseSimple else none
  | characters =>
      if (characters.take 9).map Char.toLower = "urn:uuid:".toList then
        (ungroup (characters.drop 9)).bind parseSimple
      else parseSimple characters <|> (ungroup characters).bind parseSimple

example : parseStr "00000000-0000-0000-0000-00000000002A" = some 42 := by decide

example : parseStr "URN:uuid:00000000-0000-0000-0000-00000000002a" = some 42 := by decide

def digits (uuid : Uuid) : List Nat :=
  (List.range 32).map fun index => uuid.toNat / 16 ^ (31 - index) % 16

theorem parseSimple_digits (uuid : Uuid) :
    parseSimple (uuid.digits.map Hexadecimal.digit) = some uuid := by
  have small : ∀ value ∈ uuid.digits, value < 16 := by
    intro value member
    obtain ⟨index, -, rfl⟩ := List.mem_map.mp member
    exact Nat.mod_lt _ (by decide)
  have number : Hexadecimal.number uuid.digits = uuid.toNat := by
    have highest : Hexadecimal.number uuid.digits = uuid.toNat / 16 ^ (32 - 32) :=
      Hexadecimal.number_highest (show uuid.toNat < 16 ^ 32 from uuid.isLt) (Nat.le_refl 32)
    rw [highest, Nat.sub_self, Nat.pow_zero, Nat.div_one]
  have long : (uuid.digits.map Hexadecimal.digit).length = 32 := by
    rw [List.length_map, digits, List.length_map, List.length_range]
  rw [parseSimple, if_pos long, Hexadecimal.mapM_value?_digit small, Option.map_some, number,
    BitVec.ofNat_toNat, BitVec.setWidth_eq]

theorem ungroup_display (uuid : Uuid) :
    ungroup uuid.display.toList = some (uuid.digits.map Hexadecimal.digit) := by
  have shown : (List.range 32).map (fun index =>
      hexDigits.getD ((uuid >>> (4 * (31 - index))).toNat % 16) '0') =
      uuid.digits.map Hexadecimal.digit := by
    rw [digits, List.map_map]
    refine List.map_congr_left fun index _ => ?_
    rw [BitVec.toNat_ushiftRight, Nat.shiftRight_eq_div_pow, Nat.pow_mul]
    rfl
  rw [display, shown, String.toList_ofList, digits, List.map_map]
  rfl

theorem parseStr_display (uuid : Uuid) : parseStr uuid.display = some uuid := by
  have grouped := ungroup_display uuid
  have length : uuid.display.toList.length = 36 := by
    unfold ungroup at grouped
    split at grouped
    next shape => exact shape.1
    next => cases grouped
  have first : uuid.display.toList.head? =
      some (hexDigits.getD ((uuid >>> 124).toNat % 16) '0') := by
    rw [display, String.toList_ofList]
    rfl
  have plain : ∀ value : Fin 16, hexDigits.getD value.val '0' ≠ '\x7b' ∧
      (hexDigits.getD value.val '0').toLower ≠ 'u' := by decide
  obtain ⟨notBrace, notUrn⟩ := plain ⟨(uuid >>> 124).toNat % 16, Nat.mod_lt _ (by decide)⟩
  unfold parseStr
  split
  next rest braced =>
    rw [braced] at first
    exact absurd (Option.some.inj first).symm notBrace
  next =>
    have unnamed : (uuid.display.toList.take 9).map Char.toLower ≠ "urn:uuid:".toList := by
      intro named
      have head := congrArg List.head? named
      rw [List.head?_map, List.head?_take, if_neg (by decide), first] at head
      exact notUrn (Option.some.inj head)
    have simple : parseSimple uuid.display.toList = none := by
      rw [parseSimple, length]
      rfl
    rw [if_neg unnamed, simple, grouped]
    exact parseSimple_digits uuid

theorem slash_not_mem_display (uuid : Uuid) : '/' ∉ uuid.display.toList := by
  have plain : ∀ value : Fin 16, hexDigits.getD value.val '0' ≠ '/' := by decide
  have digits : '/' ∉ (List.range 32).map fun index =>
      hexDigits.getD ((uuid >>> (4 * (31 - index))).toNat % 16) '0' := by
    intro member
    obtain ⟨index, -, slash⟩ := List.mem_map.mp member
    exact plain ⟨_, Nat.mod_lt _ (by decide)⟩ slash
  have hyphen : '/' ≠ '-' := by decide
  rw [display, String.toList_ofList]
  simp only [List.mem_append, List.mem_cons, hyphen, false_or, not_or]
  exact ⟨fun member => digits (List.mem_of_mem_take member),
    fun member => digits (List.mem_of_mem_drop (List.mem_of_mem_take member)),
    fun member => digits (List.mem_of_mem_drop (List.mem_of_mem_take member)),
    fun member => digits (List.mem_of_mem_drop (List.mem_of_mem_take member)),
    fun member => digits (List.mem_of_mem_drop member)⟩

/-- The documented spellings. -/
def anySpelling : UuidSpellings := ⟨parseStr, parseStr_display⟩

end Uuid

end AntiEntropator
