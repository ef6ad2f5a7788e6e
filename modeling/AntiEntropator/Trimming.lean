import Mathlib.Data.List.DropRight

/-!
# Trimming

Items of one kind are dropped at both ends of a list.  What stays is the only
middle part that neither starts nor ends with such an item.
-/

namespace Trimming

universe u

variable {Item : Type u} {skip : Item → Bool}

def trim (skip : Item → Bool) (items : List Item) : List Item :=
  (items.dropWhile skip).rdropWhile skip

/-- No item at an end is one to drop. -/
structure Bare (skip : Item → Bool) (items : List Item) : Prop where
  head : ∀ item ∈ items.head?, skip item = false
  last : ∀ item ∈ items.getLast?, skip item = false

theorem trim_between (skip : Item → Bool) (items : List Item) :
    ∃ before after, items = before ++ trim skip items ++ after ∧
      (∀ item ∈ before, skip item = true) ∧ ∀ item ∈ after, skip item = true := by
  refine ⟨items.takeWhile skip, (items.dropWhile skip).rtakeWhile skip, ?_, ?_, ?_⟩
  · rw [trim, List.append_assoc, List.rdropWhile_append_rtakeWhile,
      List.takeWhile_append_dropWhile]
  · intro item member
    exact List.mem_takeWhile_imp member
  · intro item member
    exact List.mem_rtakeWhile_imp member

theorem mem_of_mem_trim {items : List Item} {item : Item} (member : item ∈ trim skip items) :
    item ∈ items := by
  obtain ⟨before, after, whole, -, -⟩ := trim_between skip items
  rw [whole]
  exact List.mem_append_left _ (List.mem_append_right _ member)

theorem bare_trim (skip : Item → Bool) (items : List Item) : Bare skip (trim skip items) where
  head := by
    intro item found
    obtain ⟨rest, whole⟩ := List.rdropWhile_prefix skip (items.dropWhile skip)
    have start : (items.dropWhile skip).head? = some item := by
      rw [← whole, List.head?_append, show (List.rdropWhile skip _).head? = _ from found]
      rfl
    have kept := List.head?_dropWhile_not skip items
    rw [start] at kept
    simpa using kept
  last := by
    intro item found
    obtain ⟨nonempty, rfl⟩ := List.mem_getLast?_eq_getLast found
    exact eq_false_of_ne_true
      (List.rdropWhile_last_not skip (items.dropWhile skip) nonempty)

theorem dropWhile_append_of_all {before items : List Item}
    (dropped : ∀ item ∈ before, skip item = true) :
    (before ++ items).dropWhile skip = items.dropWhile skip := by
  induction before with
  | nil => rfl
  | cons item rest inductionHypothesis =>
      rw [List.cons_append, List.dropWhile_cons_of_pos (dropped item (by simp))]
      exact inductionHypothesis fun other member => dropped other (List.mem_cons_of_mem _ member)

theorem dropWhile_of_head {items : List Item} (kept : ∀ item ∈ items.head?, skip item = false) :
    items.dropWhile skip = items := by
  cases items with
  | nil => rfl
  | cons item rest => exact List.dropWhile_cons_of_neg (by simp [kept item (by simp)])

theorem rdropWhile_append_of_all {items after : List Item}
    (dropped : ∀ item ∈ after, skip item = true) :
    (items ++ after).rdropWhile skip = items.rdropWhile skip := by
  rw [List.rdropWhile, List.rdropWhile, List.reverse_append]
  rw [dropWhile_append_of_all fun item member => dropped item (List.mem_reverse.mp member)]

theorem rdropWhile_of_last {items : List Item}
    (kept : ∀ item ∈ items.getLast?, skip item = false) : items.rdropWhile skip = items := by
  rw [List.rdropWhile, dropWhile_of_head, List.reverse_reverse]
  intro item found
  rw [List.head?_reverse] at found
  exact kept item found

theorem trim_append {core after : List Item} (bare : Bare skip core)
    (dropped : ∀ item ∈ after, skip item = true) : trim skip (core ++ after) = core := by
  cases core with
  | nil =>
      rw [trim, List.nil_append, List.dropWhile_eq_nil_iff.mpr dropped, List.rdropWhile_nil]
  | cons item rest =>
      have start : ∀ other ∈ (item :: rest ++ after).head?, skip other = false := by
        intro other found
        exact bare.head other (by simpa using found)
      rw [trim, dropWhile_of_head start, rdropWhile_append_of_all dropped,
        rdropWhile_of_last bare.last]

end Trimming
