import Mathlib.Data.List.Basic
import Mathlib.Data.Nat.Init

/-!
# Writers in turn

A log to which numbered writers contribute one after the other: while one of
them adds to it, those with higher numbers have not contributed yet.
-/

universe u

namespace ChangeLog

variable {Item : Type u}

/-- The contributions of the first writers, in their order. -/
def inTurn (contribution : Nat → List Item) (count : Nat) : List Item :=
  (List.range count).flatMap contribution

@[simp]
theorem inTurn_zero (contribution : Nat → List Item) : inTurn contribution 0 = [] := rfl

theorem inTurn_succ (contribution : Nat → List Item) (count : Nat) :
    inTurn contribution (count + 1) = inTurn contribution count ++ contribution count := by
  simp [inTurn, List.range_succ]

theorem mem_inTurn_iff {contribution : Nat → List Item} {count : Nat} {item : Item} :
    item ∈ inTurn contribution count ↔ ∃ writer < count, item ∈ contribution writer := by
  simp [inTurn]

theorem inTurn_congr {first second : Nat → List Item} {count : Nat}
    (same : ∀ writer < count, first writer = second writer) :
    inTurn first count = inTurn second count :=
  List.flatMap_congr fun writer member => same writer (List.mem_range.mp member)

theorem inTurn_of_idle {contribution : Nat → List Item} {writer count : Nat}
    (bound : writer ≤ count)
    (idle : ∀ later, writer ≤ later → later < count → contribution later = []) :
    inTurn contribution count = inTurn contribution writer := by
  induction count, bound using Nat.le_induction with
  | base => rfl
  | succ count bound inductionHypothesis =>
      rw [inTurn_succ, idle count bound (Nat.lt_succ_self count), List.append_nil]
      exact inductionHypothesis fun later after before =>
        idle later after (Nat.lt_succ_of_lt before)

theorem inTurn_append {before after : Nat → List Item} {more : List Item} {writer count : Nat}
    (bound : writer < count) (own : after writer = before writer ++ more)
    (others : ∀ other, other ≠ writer → after other = before other)
    (idle : ∀ later, writer < later → later < count → before later = []) :
    inTurn after count = inTurn before count ++ more := by
  have earlier : inTurn after writer = inTurn before writer :=
    inTurn_congr fun other less => others other (Nat.ne_of_lt less)
  have idleAfter : ∀ later, writer < later → later < count → after later = [] := by
    intro later greater less
    rw [others later (Nat.ne_of_gt greater), idle later greater less]
  rw [inTurn_of_idle bound idleAfter, inTurn_of_idle bound idle, inTurn_succ, inTurn_succ,
    earlier, own, List.append_assoc]

end ChangeLog
