import AntiEntropator.Domain.Lowercase
import Mathlib.Data.List.Infix

/-!
# Lowercase without context

Only the form of a small sigma depends on the text around it.  With one form for
both, lowering a text is lowering its characters one by one, and ASCII text is
found in the one exactly where it is found in the other.
-/

namespace AntiEntropator

/-- One form for the two small sigmas. -/
def foldSigma (character : Char) : Char := if character = 'ς' then 'σ' else character

abbrev IsAsciiChar (character : Char) : Prop := character.val < 0x80

theorem foldSigma_ascii {character : Char} (ascii : IsAsciiChar character) :
    foldSigma character = character := by
  refine if_neg ?_
  rintro rfl
  exact absurd ascii (by decide)

theorem foldSigma_eq_ascii_iff {mark : Char} (ascii : IsAsciiChar mark) {character : Char} :
    foldSigma character = mark ↔ character = mark := by
  unfold foldSigma
  split
  next final =>
    subst final
    constructor
    · rintro rfl
      exact absurd ascii (by decide)
    · rintro rfl
      exact absurd ascii (by decide)
  next => exact Iff.rfl

theorem map_foldSigma_eq_iff {word : List Char} (ascii : ∀ letter ∈ word, IsAsciiChar letter)
    {text : List Char} : text.map foldSigma = word ↔ text = word := by
  constructor
  · intro same
    induction text generalizing word with
    | nil => exact same
    | cons character rest inductionHypothesis =>
        subst same
        rw [List.map_cons, List.forall_mem_cons] at ascii
        have head : character = foldSigma character := (foldSigma_eq_ascii_iff ascii.1).mp rfl
        rw [List.map_cons, ← head, ← inductionHypothesis ascii.2 rfl]
  · rintro rfl
    exact List.map_congr_left (fun letter member => foldSigma_ascii (ascii letter member))
      |>.trans (List.map_id text)

theorem suffix_map_foldSigma_iff {word : List Char} (ascii : ∀ letter ∈ word, IsAsciiChar letter)
    {text : List Char} : word <:+ text.map foldSigma ↔ word <:+ text := by
  constructor
  · rintro ⟨front, whole⟩
    obtain ⟨start, ending, rfl, -, same⟩ := List.map_eq_append_iff.mp whole.symm
    rw [(map_foldSigma_eq_iff ascii).mp same]
    exact List.suffix_append start word
  · rintro ⟨front, rfl⟩
    rw [List.map_append, (map_foldSigma_eq_iff ascii).mpr rfl]
    exact List.suffix_append _ word

theorem toLower_cases (character : Char) : character.toLower = character ∨
    character.toLower.isLower = true ∧ IsAsciiChar character.toLower := by
  by_cases capital : 65 ≤ character.toNat ∧ character.toNat ≤ 90
  · have letters : ∀ letter : Fin 26, (Char.ofNat (65 + letter)).toLower.isLower = true ∧
        IsAsciiChar (Char.ofNat (65 + letter)).toLower := by decide
    have letter := letters ⟨character.toNat - 65, by omega⟩
    rw [Nat.add_sub_cancel' capital.1, Char.ofNat_toNat] at letter
    exact .inr letter
  · exact .inl (toLower_of_not_capital capital)

theorem isAscii_toLower {character : Char} (ascii : IsAsciiChar character) :
    IsAsciiChar character.toLower := by
  rcases toLower_cases character with same | ⟨-, small⟩
  · rwa [same]
  · exact small

theorem toLower_of_not_lower {character : Char} (other : character.toLower.isLower = false) :
    character.toLower = character := by
  rcases toLower_cases character with same | ⟨letter, -⟩
  · exact same
  · rw [other] at letter
    cases letter

namespace CaseTable

variable (table : CaseTable)

def lowerOne (character : Char) : List Char :=
  if character = 'Σ' then ['σ'] else (table.lower character).map foldSigma

theorem map_foldSigma_lowerChars (before text : List Char) :
    (table.lowerChars before text).map foldSigma = text.flatMap table.lowerOne := by
  induction text generalizing before with
  | nil => rfl
  | cons character rest inductionHypothesis =>
      rw [lowerChars, List.map_append, inductionHypothesis, List.flatMap_cons, lowerOne]
      congr 1
      split
      · split
        · rfl
        · rfl
      · rfl

theorem lowerOne_ascii {character : Char} (ascii : IsAsciiChar character) :
    table.lowerOne character = [character.toLower] := by
  have other : character ≠ 'Σ' := by
    rintro rfl
    exact absurd ascii (by decide)
  rw [lowerOne, if_neg other, table.lower_ascii character ascii, List.map_singleton,
    foldSigma_ascii (isAscii_toLower ascii)]

/-- An ASCII mark that is no small letter comes from itself only. -/
theorem mem_lowerOne_iff {mark : Char} (ascii : IsAsciiChar mark) (other : mark.isLower = false)
    (plain : mark.toLower = mark) {character : Char} :
    mark ∈ table.lowerOne character ↔ character = mark := by
  constructor
  · intro member
    by_cases small : IsAsciiChar character
    · rw [table.lowerOne_ascii small, List.mem_singleton] at member
      rw [member] at other
      exact (toLower_of_not_lower other).symm.trans member.symm
    · rw [lowerOne] at member
      split at member
      next =>
        rw [List.mem_singleton.mp member] at ascii
        exact absurd ascii (by decide)
      next =>
        obtain ⟨lowered, found, same⟩ := List.mem_map.mp member
        rw [(foldSigma_eq_ascii_iff ascii).mp same] at found
        have letter := table.lower_letter character (UInt32.not_lt.mp small) mark found ascii
        rw [other] at letter
        cases letter
  · rintro rfl
    rw [table.lowerOne_ascii ascii, plain, List.mem_singleton]

theorem mark_mem_lowered_iff {mark : Char} (ascii : IsAsciiChar mark)
    (other : mark.isLower = false) (plain : mark.toLower = mark) {text : List Char} :
    mark ∈ text.flatMap table.lowerOne ↔ mark ∈ text := by
  rw [List.mem_flatMap]
  constructor
  · rintro ⟨character, member, found⟩
    exact (table.mem_lowerOne_iff ascii other plain).mp found ▸ member
  · intro member
    exact ⟨mark, member, (table.mem_lowerOne_iff ascii other plain).mpr rfl⟩

theorem mark_mem_lowerChars_iff {mark : Char} (ascii : IsAsciiChar mark)
    (other : mark.isLower = false) (plain : mark.toLower = mark) {before text : List Char} :
    mark ∈ table.lowerChars before text ↔ mark ∈ text := by
  refine Iff.trans ?_ (table.mark_mem_lowered_iff ascii other plain)
  rw [← table.map_foldSigma_lowerChars before text, List.mem_map]
  constructor
  · intro member
    exact ⟨mark, member, foldSigma_ascii ascii⟩
  · rintro ⟨character, member, same⟩
    exact (foldSigma_eq_ascii_iff ascii).mp same ▸ member

theorem lowerChars_of_ascii {text : List Char}
    (plain : ∀ letter ∈ text, IsAsciiChar letter ∧ letter.toLower = letter)
    (before : List Char) : table.lowerChars before text = text := by
  apply (map_foldSigma_eq_iff fun letter member => (plain letter member).1).mp
  rw [map_foldSigma_lowerChars]
  induction text with
  | nil => rfl
  | cons letter rest inductionHypothesis =>
      obtain ⟨here, later⟩ := List.forall_mem_cons.mp plain
      rw [List.flatMap_cons, table.lowerOne_ascii here.1, here.2, inductionHypothesis later]
      rfl

theorem toLowercase_of_ascii {text : String}
    (plain : ∀ letter ∈ text.toList, IsAsciiChar letter ∧ letter.toLower = letter) :
    table.toLowercase text = text := by
  rw [toLowercase, table.lowerChars_of_ascii plain, String.ofList_toList]

end CaseTable

end AntiEntropator
