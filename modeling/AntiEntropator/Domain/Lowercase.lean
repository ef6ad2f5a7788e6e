import Mathlib.Data.Char

/-!
# Lowercase text

`str::to_lowercase` maps every character by the Unicode tables of the standard
library, except that a capital sigma at the end of a word becomes the final
form.  The toolchain is not pinned to one Unicode version, so the tables are
parameters, together with what the standard guarantees for every version.
-/

namespace AntiEntropator

/-- The case data of one Unicode version. -/
structure CaseTable where
  /-- `char::to_lowercase`. -/
  lower : Char → List Char
  cased : Char → Bool
  caseIgnorable : Char → Bool
  lower_ascii : ∀ character, character.val < 0x80 → lower character = [character.toLower]
  /-- Other characters become no ASCII characters but letters. -/
  lower_letter : ∀ character, 0x80 ≤ character.val → ∀ lowered ∈ lower character,
    lowered.val < 0x80 → lowered.isLower

namespace CaseTable

variable (table : CaseTable)

/-- Behind the characters that do not count for casing, is the next one cased? -/
def casedNext (characters : List Char) : Bool :=
  match characters.dropWhile table.caseIgnorable with
  | character :: _ => table.cased character
  | [] => false

/-- A capital sigma ends a word if it follows a cased letter and none follows it. -/
def isWordFinal (before after : List Char) : Bool :=
  table.casedNext before && !table.casedNext after

/-- The lowercase of the characters that follow `before`, which is reversed. -/
def lowerChars (before : List Char) : List Char → List Char
  | [] => []
  | character :: after =>
      (if character = 'Σ' then [if table.isWordFinal before after then 'ς' else 'σ']
      else table.lower character) ++ lowerChars (character :: before) after

def toLowercase (text : String) : String := String.ofList (table.lowerChars [] text.toList)

end CaseTable

theorem toLower_of_not_capital {character : Char}
    (other : ¬ (65 ≤ character.toNat ∧ character.toNat ≤ 90)) : character.toLower = character :=
  dif_neg other

def asciiCase : CaseTable where
  lower character := [character.toLower]
  cased character := character.isAlpha
  caseIgnorable character := character ∈ ['\'', '.', ':', '^', '\x60']
  lower_ascii _ _ := rfl
  lower_letter character large lowered member small := by
    have beyond : 128 ≤ character.toNat := UInt32.le_iff_toNat_le.mp large
    have unchanged : character.toLower = character := toLower_of_not_capital (by omega)
    rw [List.mem_singleton.mp member, unchanged] at small
    exact absurd large (UInt32.not_le.mpr small)

example : asciiCase.toLowercase "Photo.JPG" = "photo.jpg" := by decide

end AntiEntropator
