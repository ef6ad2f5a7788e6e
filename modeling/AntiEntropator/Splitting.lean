import Mathlib.Data.List.Basic

/-!
# Cutting lists at a mark

A list is cut at the first or the last place of a mark, or kept up to the first
one.  A cut is determined by the part that the mark may not occur in.
-/

namespace Splitting

universe u

variable {Item : Type u} [DecidableEq Item] {mark : Item}

/-- What precedes and what follows the first mark. -/
def cutFirst? (mark : Item) : List Item → Option (List Item × List Item)
  | [] => none
  | item :: rest =>
      if item = mark then some ([], rest)
      else (cutFirst? mark rest).map fun (before, after) => (item :: before, after)

def cutLast? (mark : Item) : List Item → Option (List Item × List Item)
  | [] => none
  | item :: rest =>
      match cutLast? mark rest with
      | some (before, after) => some (item :: before, after)
      | none => if item = mark then some ([], rest) else none

def upTo (mark : Item) (items : List Item) : List Item := items.takeWhile (· ≠ mark)

theorem cutFirst?_append {before : List Item} (clear : mark ∉ before) (after : List Item) :
    cutFirst? mark (before ++ mark :: after) = some (before, after) := by
  induction before with
  | nil => simp [cutFirst?]
  | cons item rest inductionHypothesis =>
      rw [List.mem_cons, not_or] at clear
      rw [List.cons_append, cutFirst?, if_neg (Ne.symm clear.1), inductionHypothesis clear.2]
      rfl

theorem cutFirst?_eq_some_iff {items before after : List Item} :
    cutFirst? mark items = some (before, after) ↔
      items = before ++ mark :: after ∧ mark ∉ before := by
  constructor
  · intro found
    induction items generalizing before with
    | nil => cases found
    | cons item rest inductionHypothesis =>
        rw [cutFirst?] at found
        split at found
        next same =>
          cases found
          exact ⟨by rw [same]; rfl, List.not_mem_nil⟩
        next different =>
          obtain ⟨⟨front, back⟩, later, same⟩ := Option.map_eq_some_iff.mp found
          cases same
          obtain ⟨rfl, clear⟩ := inductionHypothesis later
          refine ⟨rfl, fun member => ?_⟩
          rcases List.mem_cons.mp member with here | inside
          · exact different here.symm
          · exact clear inside
  · rintro ⟨rfl, clear⟩
    exact cutFirst?_append clear after

theorem cutLast?_of_notMem {items : List Item} (clear : mark ∉ items) :
    cutLast? mark items = none := by
  induction items with
  | nil => rfl
  | cons item rest inductionHypothesis =>
      rw [List.mem_cons, not_or] at clear
      rw [cutLast?, inductionHypothesis clear.2]
      exact if_neg (Ne.symm clear.1)

theorem cutLast?_append {after : List Item} (clear : mark ∉ after) (before : List Item) :
    cutLast? mark (before ++ mark :: after) = some (before, after) := by
  induction before with
  | nil =>
      rw [List.nil_append, cutLast?, cutLast?_of_notMem clear]
      exact if_pos rfl
  | cons item rest inductionHypothesis =>
      rw [List.cons_append, cutLast?, inductionHypothesis]

theorem notMem_of_cutLast? {items : List Item} (missing : cutLast? mark items = none) :
    mark ∉ items := by
  induction items with
  | nil => exact List.not_mem_nil
  | cons item rest inductionHypothesis =>
      rw [cutLast?] at missing
      split at missing
      next => cases missing
      next later =>
        rw [List.mem_cons, not_or]
        refine ⟨fun same => ?_, inductionHypothesis later⟩
        rw [if_pos same.symm] at missing
        cases missing

theorem append_of_cutLast? {items before after : List Item}
    (found : cutLast? mark items = some (before, after)) :
    items = before ++ mark :: after ∧ mark ∉ after := by
  induction items generalizing before with
  | nil => cases found
  | cons item rest inductionHypothesis =>
      rw [cutLast?] at found
      cases later : cutLast? mark rest with
      | some parts =>
          rw [later] at found
          cases found
          obtain ⟨rfl, clear⟩ := inductionHypothesis later
          exact ⟨rfl, clear⟩
      | none =>
          simp only [later] at found
          split at found
          next same =>
            cases found
            exact ⟨by rw [same]; rfl, notMem_of_cutLast? later⟩
          next => cases found

/-- What stays, and what is left off: nothing, or a part that starts with the mark. -/
theorem upTo_append (mark : Item) (items : List Item) :
    ∃ rest, items = upTo mark items ++ rest ∧ mark ∉ upTo mark items ∧
      (rest = [] ∨ rest.head? = some mark) := by
  induction items with
  | nil => exact ⟨[], rfl, List.not_mem_nil, .inl rfl⟩
  | cons item rest inductionHypothesis =>
      by_cases same : item = mark
      · have cut : upTo mark (item :: rest) = [] :=
          List.takeWhile_cons_of_neg (by simpa using same)
        rw [cut]
        exact ⟨item :: rest, rfl, List.not_mem_nil, .inr (congrArg some same)⟩
      · have kept : upTo mark (item :: rest) = item :: upTo mark rest :=
          List.takeWhile_cons_of_pos (by simpa using same)
        obtain ⟨later, whole, clear, start⟩ := inductionHypothesis
        refine ⟨later, ?_, ?_, start⟩
        · rw [kept, List.cons_append, ← whole]
        · rw [kept, List.mem_cons, not_or]
          exact ⟨Ne.symm same, clear⟩

theorem upTo_append_of_notMem {before : List Item} (clear : mark ∉ before) (rest : List Item) :
    upTo mark (before ++ rest) = before ++ upTo mark rest := by
  apply List.takeWhile_append_of_pos
  intro item member
  simpa using fun same : item = mark => clear (same ▸ member)

theorem upTo_of_head {items : List Item} (start : items.head? = some mark) :
    upTo mark items = [] := by
  obtain ⟨rest, rfl⟩ := List.head?_eq_some_iff.mp start
  exact List.takeWhile_cons_of_neg (by simp)

/-! ## Joined parts -/

theorem notMem_of_mem_splitOn {items part : List Item} (inside : part ∈ items.splitOn mark) :
    mark ∉ part := by
  induction items generalizing part with
  | nil =>
      rw [List.splitOn_nil, List.mem_singleton] at inside
      rw [inside]
      exact List.not_mem_nil
  | cons item rest inductionHypothesis =>
      rw [List.splitOn_cons_eq_if_modifyHead] at inside
      split at inside
      next =>
        rcases List.mem_cons.mp inside with rfl | later
        · exact List.not_mem_nil
        · exact inductionHypothesis later
      next different =>
        obtain ⟨first, others, parts⟩ := List.exists_cons_of_ne_nil (List.splitOn_ne_nil mark rest)
        rw [parts, List.modifyHead_cons] at inside
        rw [parts] at inductionHypothesis
        rcases List.mem_cons.mp inside with rfl | later
        · rw [List.mem_cons, not_or]
          exact ⟨fun same => different (by simp [same]), inductionHypothesis List.mem_cons_self⟩
        · exact inductionHypothesis (List.mem_cons_of_mem _ later)

omit [DecidableEq Item] in
theorem mem_intercalate {separator : List Item} {parts : List (List Item)} {item : Item}
    (member : item ∈ separator.intercalate parts) :
    item ∈ separator ∨ ∃ part ∈ parts, item ∈ part := by
  induction parts with
  | nil => cases member
  | cons part rest inductionHypothesis =>
      cases rest with
      | nil => exact .inr ⟨part, by simp, by simpa using member⟩
      | cons next others =>
          rw [List.intercalate_cons_cons, List.append_assoc] at member
          rcases List.mem_append.mp member with here | later
          · exact .inr ⟨part, by simp, here⟩
          · rcases List.mem_append.mp later with between | after
            · exact .inl between
            · rcases inductionHypothesis after with between | ⟨other, inside, found⟩
              · exact .inl between
              · exact .inr ⟨other, List.mem_cons_of_mem _ inside, found⟩

omit [DecidableEq Item] in
theorem mem_intercalate_of_mem {separator part : List Item} {parts : List (List Item)}
    {item : Item} (inside : part ∈ parts) (found : item ∈ part) :
    item ∈ separator.intercalate parts := by
  induction parts with
  | nil => cases inside
  | cons other rest inductionHypothesis =>
      cases rest with
      | nil =>
          rw [List.intercalate_singleton]
          exact List.mem_singleton.mp inside ▸ found
      | cons next others =>
          rw [List.intercalate_cons_cons, List.append_assoc]
          rcases List.mem_cons.mp inside with rfl | later
          · exact List.mem_append_left _ found
          · exact List.mem_append_right _ (List.mem_append_right _ (inductionHypothesis later))

omit [DecidableEq Item] in
theorem map_intercalate {Other : Type u} (change : Item → Other) (separator : List Item)
    (parts : List (List Item)) : (separator.intercalate parts).map change =
      (separator.map change).intercalate (parts.map (List.map change)) := by
  induction parts with
  | nil => rfl
  | cons part rest inductionHypothesis =>
      cases rest with
      | nil => simp
      | cons next others =>
          rw [List.map_cons] at inductionHypothesis
          rw [List.intercalate_cons_cons, List.map_append, List.map_append, inductionHypothesis,
            List.map_cons, List.map_cons, List.intercalate_cons_cons]

end Splitting
