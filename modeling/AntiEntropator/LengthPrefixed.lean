import Mathlib.Data.List.Basic

/-!
# Length-prefixed parts

Parts of any content, each written behind a code of its length, can be read
back from the concatenation: the code says where the part ends.  All length
codes have the same nonzero width and tell the lengths below a bound apart.
-/

universe u

namespace LengthPrefixed

variable {Symbol : Type u}

/-- A part behind the code of its length. -/
def frame (lengthCode : Nat → List Symbol) (part : List Symbol) : List Symbol :=
  lengthCode part.length ++ part

def frames (lengthCode : Nat → List Symbol) (parts : List (List Symbol)) : List Symbol :=
  parts.flatMap (frame lengthCode)

/-- Codes of one nonzero width that tell the lengths below `bound` apart. -/
structure FixedWidth (lengthCode : Nat → List Symbol) (bound : Nat) : Prop where
  nonempty : ∀ length, lengthCode length ≠ []
  width : ∀ length other, (lengthCode length).length = (lengthCode other).length
  injective : ∀ length < bound, ∀ other < bound, lengthCode length = lengthCode other →
    length = other

variable {lengthCode : Nat → List Symbol} {bound : Nat}

theorem FixedWidth.frame_append_injective (codes : FixedWidth lengthCode bound)
    {part other rest later : List Symbol}
    (partShort : part.length < bound) (otherShort : other.length < bound)
    (same : frame lengthCode part ++ rest = frame lengthCode other ++ later) :
    part = other ∧ rest = later := by
  simp only [frame, List.append_assoc] at same
  obtain ⟨code, tails⟩ := List.append_inj same (codes.width _ _)
  apply List.append_inj tails
  exact codes.injective _ partShort _ otherShort code

theorem FixedWidth.frames_injective (codes : FixedWidth lengthCode bound)
    {parts others : List (List Symbol)}
    (partsShort : ∀ part ∈ parts, part.length < bound)
    (othersShort : ∀ part ∈ others, part.length < bound)
    (same : frames lengthCode parts = frames lengthCode others) : parts = others := by
  induction parts generalizing others with
  | nil =>
      cases others with
      | nil => rfl
      | cons other rest =>
          simp only [frames, frame, List.flatMap_nil, List.flatMap_cons, List.nil_eq,
            List.append_eq_nil_iff] at same
          exact absurd same.1.1 (codes.nonempty _)
  | cons part rest inductionHypothesis =>
      cases others with
      | nil =>
          simp only [frames, frame, List.flatMap_nil, List.flatMap_cons,
            List.append_eq_nil_iff] at same
          exact absurd same.1.1 (codes.nonempty _)
      | cons other later =>
          obtain ⟨partShort, restShort⟩ := List.forall_mem_cons.mp partsShort
          obtain ⟨otherShort, laterShort⟩ := List.forall_mem_cons.mp othersShort
          simp only [frames, List.flatMap_cons] at same
          obtain ⟨rfl, tails⟩ := codes.frame_append_injective partShort otherShort same
          rw [inductionHypothesis restShort laterShort tails]

end LengthPrefixed
