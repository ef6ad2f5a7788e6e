import Mathlib.Order.Bounds.Defs

/-!
# Running extremes

The smallest and the largest of a sequence, kept while it is read.  Both are
replaced under strict comparisons only, so ties keep the earlier element, and
both start from values of the caller's choice, which a sequence need not beat.
-/

universe u v

namespace Extremes

variable {Value : Type u} {Label : Type v} [LT Value] [DecidableLT Value]

def lower (low value : Value) : Value := if value < low then value else low

/-- Keep the larger value with its label; a tie changes nothing. -/
def raise (best candidate : Value × Label) : Value × Label :=
  if best.1 < candidate.1 then candidate else best

theorem foldl_lower_mem (start : Value) (values : List Value) :
    values.foldl lower start = start ∨ values.foldl lower start ∈ values := by
  induction values generalizing start with
  | nil => exact .inl rfl
  | cons value rest inductionHypothesis =>
      rcases inductionHypothesis (lower start value) with same | member
      · rw [List.foldl_cons, same]
        unfold lower
        split
        · exact .inr List.mem_cons_self
        · exact .inl rfl
      · exact .inr (List.mem_cons_of_mem _ member)

variable [LE Value] [Std.IsLinearOrder Value] [Std.LawfulOrderLT Value]

theorem lower_le (low value : Value) : lower low value ≤ low ∧ lower low value ≤ value := by
  unfold lower
  split
  next less => exact ⟨Std.le_of_lt less, Std.le_refl _⟩
  next notLess => exact ⟨Std.le_refl _, Std.not_lt.mp notLess⟩

theorem le_raise (best candidate : Value × Label) :
    best.1 ≤ (raise best candidate).1 ∧ candidate.1 ≤ (raise best candidate).1 := by
  unfold raise
  split
  next less => exact ⟨Std.le_of_lt less, Std.le_refl _⟩
  next notLess => exact ⟨Std.le_refl _, Std.not_lt.mp notLess⟩

theorem foldl_lower_le (start : Value) (values : List Value) :
    values.foldl lower start ≤ start ∧ ∀ value ∈ values, values.foldl lower start ≤ value := by
  induction values generalizing start with
  | nil => exact ⟨Std.le_refl _, by simp⟩
  | cons value rest inductionHypothesis =>
      obtain ⟨below, others⟩ := inductionHypothesis (lower start value)
      obtain ⟨old, new⟩ := lower_le start value
      refine ⟨Std.le_trans below old, ?_⟩
      intro other member
      rcases List.mem_cons.mp member with rfl | later
      · exact Std.le_trans below new
      · exact others other later

theorem isLeast_foldl_lower {start : Value} {values : List Value} (nonempty : values ≠ [])
    (above : ∀ value ∈ values, value ≤ start) :
    IsLeast {value | value ∈ values} (values.foldl lower start) := by
  obtain ⟨-, below⟩ := foldl_lower_le start values
  refine ⟨?_, below⟩
  rcases foldl_lower_mem start values with same | member
  · -- the start was not beaten, so every value ties with it
    obtain ⟨value, rest, rfl⟩ := List.exists_cons_of_ne_nil nonempty
    have tie : (value :: rest).foldl lower start = value :=
      Std.le_antisymm (below value List.mem_cons_self)
        (same.symm ▸ above value List.mem_cons_self)
    rw [tie]
    exact List.mem_cons_self
  · exact member

theorem le_foldl_raise (start : Value × Label) (items : List (Value × Label)) :
    start.1 ≤ (items.foldl raise start).1 ∧
      ∀ item ∈ items, item.1 ≤ (items.foldl raise start).1 := by
  induction items generalizing start with
  | nil => exact ⟨Std.le_refl _, by simp⟩
  | cons item rest inductionHypothesis =>
      obtain ⟨above, others⟩ := inductionHypothesis (raise start item)
      obtain ⟨old, new⟩ := le_raise start item
      refine ⟨Std.le_trans old above, ?_⟩
      intro other member
      rcases List.mem_cons.mp member with rfl | later
      · exact Std.le_trans new above
      · exact others other later

/-- The running maximum is its start, which nothing beat, or the first item of
the largest value. -/
theorem foldl_raise_cases [DecidableEq Value] (start : Value × Label)
    (items : List (Value × Label)) :
    items.foldl raise start = start ∧ (∀ item ∈ items, item.1 ≤ start.1) ∨
      start.1 < (items.foldl raise start).1 ∧
        items.find? (fun item => item.1 = (items.foldl raise start).1) =
          some (items.foldl raise start) := by
  induction items generalizing start with
  | nil => exact .inl ⟨rfl, by simp⟩
  | cons item rest inductionHypothesis =>
      rw [List.foldl_cons]
      by_cases beaten : start.1 < item.1
      · have raised : raise start item = item := if_pos beaten
        rw [raised]
        right
        rcases inductionHypothesis item with ⟨same, -⟩ | ⟨more, first⟩
        · rw [same]
          exact ⟨beaten, List.find?_cons_of_pos (by simp)⟩
        · refine ⟨Std.lt_trans beaten more, ?_⟩
          rw [List.find?_cons_of_neg (by simpa using Std.ne_of_lt more)]
          exact first
      · have kept : raise start item = start := if_neg beaten
        rw [kept]
        rcases inductionHypothesis start with ⟨same, bounded⟩ | ⟨more, first⟩
        · left
          refine ⟨same, ?_⟩
          intro other member
          rcases List.mem_cons.mp member with rfl | later
          · exact Std.not_lt.mp beaten
          · exact bounded other later
        · right
          have less : item.1 < (rest.foldl raise start).1 :=
            Std.lt_of_le_of_lt (Std.not_lt.mp beaten) more
          refine ⟨more, ?_⟩
          rw [List.find?_cons_of_neg (by simpa using Std.ne_of_lt less)]
          exact first

end Extremes
