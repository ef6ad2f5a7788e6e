import AntiEntropator.Decimal
import AntiEntropator.Trimming
import Mathlib.Algebra.Group.Nat.Defs
import Mathlib.Data.Char

/-!
# Reading short texts

What the program uses of the standard library to read a name, a size or a time:
trimming, endings, letter case and unsigned numbers.
-/

namespace AntiEntropator

/-- `char::is_whitespace`: the characters with the Unicode property `White_Space`. -/
def isWhitespace (character : Char) : Bool :=
  let code := character.toNat
  (0x09 ≤ code && code ≤ 0x0D) || code = 0x20 || code = 0x85 || code = 0xA0 || code = 0x1680 ||
    (0x2000 ≤ code && code ≤ 0x200A) || code = 0x2028 || code = 0x2029 || code = 0x202F ||
    code = 0x205F || code = 0x3000

def trim (text : String) : String := String.ofList (Trimming.trim isWhitespace text.toList)

theorem toList_trim (text : String) :
    (trim text).toList = Trimming.trim isWhitespace text.toList := String.toList_ofList

def toAsciiUppercase (text : String) : String := String.ofList (text.toList.map Char.toUpper)

def stripSuffix? (suffix text : String) : Option String :=
  if suffix.toList <:+ text.toList then
    some (String.ofList (text.toList.take (text.toList.length - suffix.toList.length)))
  else none

theorem stripSuffix?_append (text suffix : String) :
    stripSuffix? suffix (text ++ suffix) = some text := by
  simp [stripSuffix?, String.toList_append]

theorem eq_append_of_stripSuffix? {suffix text stem : String}
    (stripped : stripSuffix? suffix text = some stem) : text = stem ++ suffix := by
  unfold stripSuffix? at stripped
  split at stripped
  next ends =>
    obtain ⟨front, whole⟩ := ends
    cases stripped
    apply String.toList_inj.mp
    rw [String.toList_append, String.toList_ofList, ← whole]
    simp
  next => cases stripped

/-- `str::parse` for an unsigned integer with values below the bound. -/
def parseUnsigned? (bound : Nat) (text : String) : Option Nat :=
  Decimal.readUnsigned bound text.toList

/-! ## Letters -/

/-- A capital letter, or the small one of the same letter. -/
def IsCaseOf (capital letter : Char) : Prop := letter = capital ∨ letter = capital.toLower

theorem toUpper_of_not_small {character : Char}
    (other : ¬ (97 ≤ character.toNat ∧ character.toNat ≤ 122)) : character.toUpper = character :=
  dif_neg other

theorem isUpper_iff {character : Char} :
    character.isUpper = true ↔ 65 ≤ character.toNat ∧ character.toNat ≤ 90 := by
  change decide (65 ≤ character.val ∧ character.val ≤ 90) = true ↔ _
  simp [UInt32.le_iff_toNat_le, ← Char.toNat_val]

theorem toNat_toUpper {character : Char}
    (small : 97 ≤ character.toNat ∧ character.toNat ≤ 122) :
    character.toUpper.toNat = character.toNat - 32 := by
  have letters : ∀ letter : Fin 26,
      (Char.ofNat (97 + letter)).toUpper.toNat = 97 + letter - 32 := by decide
  have number := letters ⟨character.toNat - 97, by omega⟩
  rwa [show 97 + (character.toNat - 97) = character.toNat from by omega,
    Char.ofNat_toNat] at number

theorem toNat_toLower {character : Char}
    (capital : 65 ≤ character.toNat ∧ character.toNat ≤ 90) :
    character.toLower.toNat = character.toNat + 32 := by
  have letters : ∀ letter : Fin 26,
      (Char.ofNat (65 + letter)).toLower.toNat = 65 + letter + 32 := by decide
  have number := letters ⟨character.toNat - 65, by omega⟩
  rwa [show 65 + (character.toNat - 65) = character.toNat from by omega,
    Char.ofNat_toNat] at number

theorem toUpper_eq_or_capital (character : Char) :
    character.toUpper = character ∨ character.toUpper.isUpper = true := by
  by_cases small : 97 ≤ character.toNat ∧ character.toNat ≤ 122
  · have number := toNat_toUpper small
    exact .inr (isUpper_iff.mpr (by omega))
  · exact .inl (toUpper_of_not_small small)

theorem toUpper_eq_capital_iff {capital character : Char} (upper : capital.isUpper = true) :
    character.toUpper = capital ↔ IsCaseOf capital character := by
  have range := isUpper_iff.mp upper
  have lowered := toNat_toLower range
  rw [IsCaseOf, ← Char.toNat_inj, ← Char.toNat_inj, ← Char.toNat_inj, lowered]
  by_cases small : 97 ≤ character.toNat ∧ character.toNat ≤ 122
  · rw [toNat_toUpper small]
    omega
  · rw [toUpper_of_not_small small]
    omega

theorem eq_of_map_toUpper {letters text : List Char} (same : letters.map Char.toUpper = text)
    (plain : ∀ character ∈ text, character.isUpper = false) : letters = text := by
  subst same
  induction letters with
  | nil => rfl
  | cons letter rest inductionHypothesis =>
      rw [List.map_cons, List.forall_mem_cons] at plain
      rw [List.map_cons, ← inductionHypothesis plain.2]
      rcases toUpper_eq_or_capital letter with kept | capital
      · rw [kept]
      · rw [plain.1] at capital
        cases capital

/-! ## Numerals and white space -/

theorem not_small_of_isWhitespace {character : Char} (space : isWhitespace character = true) :
    ¬ (97 ≤ character.toNat ∧ character.toNat ≤ 122) ∧
      ¬ (65 ≤ character.toNat ∧ character.toNat ≤ 90) := by
  simp only [isWhitespace, Bool.or_eq_true, Bool.and_eq_true, decide_eq_true_eq] at space
  omega

theorem toNat_of_mem_unsigned {text : List Char} {number : Nat}
    (reading : Decimal.Unsigned text number) {character : Char} (member : character ∈ text) :
    character = '+' ∨ 48 ≤ character.toNat ∧ character.toNat ≤ 57 := by
  cases reading with
  | plain numeral => exact .inr (Char.isDigit_iff_toNat.mp (numeral.2 character member))
  | plus numeral =>
      rcases List.mem_cons.mp member with sign | digit
      · exact .inl sign
      · exact .inr (Char.isDigit_iff_toNat.mp (numeral.2 character digit))

theorem isWhitespace_of_mem_unsigned {text : List Char} {number : Nat}
    (reading : Decimal.Unsigned text number) {character : Char} (member : character ∈ text) :
    isWhitespace character = false := by
  rcases toNat_of_mem_unsigned reading member with rfl | digit
  · decide
  · simp only [isWhitespace, Bool.or_eq_false_iff, Bool.and_eq_false_iff, decide_eq_false_iff_not]
    omega

theorem not_small_of_mem_unsigned {text : List Char} {number : Nat}
    (reading : Decimal.Unsigned text number) {character : Char} (member : character ∈ text) :
    ¬ (97 ≤ character.toNat ∧ character.toNat ≤ 122) ∧
      ¬ (65 ≤ character.toNat ∧ character.toNat ≤ 90) := by
  rcases toNat_of_mem_unsigned reading member with rfl | digit
  · decide
  · omega

theorem ne_nil_of_unsigned {text : List Char} {number : Nat}
    (reading : Decimal.Unsigned text number) : text ≠ [] := by
  cases reading with
  | plain numeral => exact numeral.1
  | plus numeral => simp

end AntiEntropator
