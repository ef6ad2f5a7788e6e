import Mathlib.Data.List.Basic

/-!
# Stable sorting

A stable sort puts a new first element before what it ties with, so sorting the
part of a list that a predicate keeps is keeping that part of the sorted list.
The first elements of a sorted list can be found without keeping all of it: a
buffer may be sorted and cut at any time, as long as it keeps enough.
-/

universe u

namespace StableSort

variable {Item : Type u} {le : Item → Item → Bool}

/-- Where a stable sort puts the first element: behind what is strictly before it. -/
theorem mergeSort_cons_eq (trans : ∀ a b c, le a b → le b c → le a c)
    (total : ∀ a b, (le a b || le b a) = true) (item : Item) (items : List Item) :
    (item :: items).mergeSort le =
      (items.mergeSort le).filter (fun other => !le item other) ++
        item :: (items.mergeSort le).filter fun other => le item other := by
  obtain ⟨before, after, sorted, rest, earlier⟩ := List.mergeSort_cons trans total item items
  have ordered := List.pairwise_mergeSort trans total (item :: items)
  rw [sorted, List.pairwise_append, List.pairwise_cons] at ordered
  have later : ∀ other ∈ after, le item other = true := ordered.2.1.1
  have first : before.filter (fun other => !le item other) = before :=
    List.filter_eq_self.mpr earlier
  have second : after.filter (fun other => !le item other) = [] :=
    List.filter_eq_nil_iff.mpr (by simpa using later)
  have third : before.filter (fun other => le item other) = [] :=
    List.filter_eq_nil_iff.mpr (by simpa using earlier)
  have fourth : after.filter (fun other => le item other) = after := List.filter_eq_self.mpr later
  simp [sorted, rest, first, second, third, fourth]

theorem filter_mergeSort (trans : ∀ a b c, le a b → le b c → le a c)
    (total : ∀ a b, (le a b || le b a) = true) (keep : Item → Bool) (items : List Item) :
    (items.mergeSort le).filter keep = (items.filter keep).mergeSort le := by
  induction items with
  | nil => simp
  | cons item items inductionHypothesis =>
      cases kept : keep item with
      | false =>
          obtain ⟨before, after, sorted, rest, -⟩ := List.mergeSort_cons trans total item items
          rw [List.filter_cons_of_neg (by simp [kept]), ← inductionHypothesis, sorted, rest]
          simp [kept]
      | true =>
          rw [mergeSort_cons_eq trans total, List.filter_append, List.filter_cons_of_pos kept,
            List.filter_cons_of_pos kept, mergeSort_cons_eq trans total, ← inductionHypothesis,
            List.filter_comm, List.filter_comm keep]

/-! ## Pruning -/

theorem mergeSort_cons_congr (trans : ∀ a b c, le a b → le b c → le a c)
    (total : ∀ a b, (le a b || le b a) = true) (item : Item) {items others : List Item}
    (same : items.mergeSort le = others.mergeSort le) :
    (item :: items).mergeSort le = (item :: others).mergeSort le := by
  rw [mergeSort_cons_eq trans total, mergeSort_cons_eq trans total, same]

theorem mergeSort_swap (trans : ∀ a b c, le a b → le b c → le a c)
    (total : ∀ a b, (le a b || le b a) = true) {small large : Item}
    (strict : le large small = false) (items : List Item) :
    (small :: large :: items).mergeSort le = (large :: small :: items).mergeSort le := by
  have ordered : le small large = true := by simpa [strict] using total small large
  -- what is behind the larger one is behind the smaller one
  have behind : ∀ other, le large other = true → le small other = true :=
    fun other => trans small large other ordered
  have between (kept : List Item) :
      kept.filter (fun other => le large other && !le small other) = [] := by
    rw [List.filter_eq_nil_iff]
    intro other _ both
    simp only [Bool.and_eq_true, Bool.not_eq_true'] at both
    rw [behind other both.1] at both
    exact absurd both.2 (by decide)
  have commute (first second : Item → Bool) (kept : List Item) :
      kept.filter (fun other => first other && second other) =
        kept.filter fun other => second other && first other := by
    simp only [Bool.and_comm]
  rw [mergeSort_cons_eq trans total small, mergeSort_cons_eq trans total large,
    mergeSort_cons_eq trans total large, mergeSort_cons_eq trans total small]
  simp only [List.filter_append, List.filter_cons, List.filter_filter, strict, ordered, between,
    commute (fun other => !le small other), commute (le small)]
  simp

/-- An element may arrive before all that are strictly smaller. -/
theorem mergeSort_move (trans : ∀ a b c, le a b → le b c → le a c)
    (total : ∀ a b, (le a b || le b a) = true) {item : Item} {smaller : List Item}
    (strict : ∀ other ∈ smaller, le item other = false) (items : List Item) :
    (smaller ++ item :: items).mergeSort le = (item :: (smaller ++ items)).mergeSort le := by
  induction smaller with
  | nil => rfl
  | cons small rest inductionHypothesis =>
      obtain ⟨here, later⟩ := List.forall_mem_cons.mp strict
      calc (small :: (rest ++ item :: items)).mergeSort le
          = (small :: item :: (rest ++ items)).mergeSort le :=
            mergeSort_cons_congr trans total small (inductionHypothesis later)
        _ = (item :: small :: (rest ++ items)).mergeSort le :=
            mergeSort_swap trans total here (rest ++ items)

/-- Sorting what came first does not change the sorted whole. -/
theorem mergeSort_mergeSort_append (trans : ∀ a b c, le a b → le b c → le a c)
    (total : ∀ a b, (le a b || le b a) = true) (items later : List Item) :
    (items.mergeSort le ++ later).mergeSort le = (items ++ later).mergeSort le := by
  induction items with
  | nil => simp
  | cons item items inductionHypothesis =>
      obtain ⟨before, after, sorted, rest, earlier⟩ := List.mergeSort_cons trans total item items
      have strict : ∀ other ∈ before, le item other = false := by simpa using earlier
      calc ((item :: items).mergeSort le ++ later).mergeSort le
          = (before ++ item :: (after ++ later)).mergeSort le := by
            rw [sorted, List.append_assoc, List.cons_append]
        _ = (item :: (before ++ (after ++ later))).mergeSort le :=
            mergeSort_move trans total strict _
        _ = (item :: (items.mergeSort le ++ later)).mergeSort le := by
            rw [rest, List.append_assoc]
        _ = (item :: (items ++ later)).mergeSort le :=
            mergeSort_cons_congr trans total item inductionHypothesis

theorem exists_behind (trans : ∀ a b c, le a b → le b c → le a c)
    (total : ∀ a b, (le a b || le b a) = true) {ahead : List Item} {item : Item}
    (ordered : ∀ other ∈ ahead, le other item = true) (items : List Item) :
    ∃ before after, (ahead ++ item :: items).mergeSort le = before ++ item :: after ∧
      (ahead ++ items).mergeSort le = before ++ after ∧ ahead.length ≤ before.length := by
  induction ahead with
  | nil =>
      obtain ⟨before, after, sorted, rest, -⟩ := List.mergeSort_cons trans total item items
      exact ⟨before, after, sorted, rest, Nat.zero_le _⟩
  | cons first others inductionHypothesis =>
      obtain ⟨here, later⟩ := List.forall_mem_cons.mp ordered
      obtain ⟨before, after, sorted, rest, long⟩ := inductionHypothesis later
      refine ⟨before.filter (fun other => !le first other) ++
        after.filter (fun other => !le first other) ++
          first :: before.filter fun other => le first other,
        after.filter fun other => le first other, ?_, ?_, ?_⟩
      · rw [List.cons_append, mergeSort_cons_eq trans total, sorted]
        simp [here]
      · rw [List.cons_append, mergeSort_cons_eq trans total, rest]
        simp
      · have parts := List.length_eq_length_filter_add (l := before) fun other => le first other
        simp only [List.length_append, List.length_cons]
        omega

theorem take_mergeSort_append (trans : ∀ a b c, le a b → le b c → le a c)
    (total : ∀ a b, (le a b || le b a) = true) {count : Nat} {ahead behind : List Item}
    (enough : count ≤ ahead.length)
    (ordered : ∀ other ∈ ahead, ∀ item ∈ behind, le other item = true) (items : List Item) :
    ((ahead ++ behind ++ items).mergeSort le).take count =
      ((ahead ++ items).mergeSort le).take count := by
  induction behind with
  | nil => simp
  | cons item behind inductionHypothesis =>
      obtain ⟨before, after, sorted, rest, long⟩ := exists_behind trans total
        (fun other member => ordered other member item List.mem_cons_self) (behind ++ items)
      have others := inductionHypothesis fun other member later memberLater =>
        ordered other member later (List.mem_cons_of_mem _ memberLater)
      have first : count ≤ before.length := Nat.le_trans enough long
      rw [List.append_assoc] at others
      rw [← others, List.append_assoc, List.cons_append, sorted, rest,
        List.take_append_of_le_length first, List.take_append_of_le_length first]

/-- Whatever follows, `kept` leads to the same first `count` elements as `seen`. -/
def Represents (le : Item → Item → Bool) (count : Nat) (kept seen : List Item) : Prop :=
  ∀ later, ((kept ++ later).mergeSort le).take count = ((seen ++ later).mergeSort le).take count

namespace Represents

variable {count : Nat} {kept seen : List Item}

theorem refl (items : List Item) : Represents le count items items := fun _ => rfl

theorem snoc (represents : Represents le count kept seen) (item : Item) :
    Represents le count (kept ++ [item]) (seen ++ [item]) := by
  intro later
  rw [List.append_assoc, List.append_assoc]
  exact represents ([item] ++ later)

/-- The buffer may be sorted and cut, if at least `count` elements stay. -/
theorem prune (trans : ∀ a b c, le a b → le b c → le a c)
    (total : ∀ a b, (le a b || le b a) = true) {size : Nat} (enough : count ≤ size)
    (represents : Represents le count kept seen) :
    Represents le count ((kept.mergeSort le).take size) seen := by
  intro later
  rw [← represents later, ← mergeSort_mergeSort_append trans total kept later]
  by_cases short : (kept.mergeSort le).length ≤ size
  · rw [List.take_of_length_le short]
  · have ordered := List.pairwise_mergeSort trans total kept
    rw [← List.take_append_drop size (kept.mergeSort le), List.pairwise_append] at ordered
    conv_rhs => rw [← List.take_append_drop size (kept.mergeSort le)]
    symm
    apply take_mergeSort_append trans total _ ordered.2.2
    rw [List.length_take]
    omega

theorem take_mergeSort (represents : Represents le count kept seen) :
    (kept.mergeSort le).take count = (seen.mergeSort le).take count := by
  simpa using represents []

end Represents

end StableSort
