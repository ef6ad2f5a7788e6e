import AntiEntropator.ChangeLog.Basic

/-!
# The newest entry

`latest` computes, for every key, the first among the entries with the greatest
time.  It is a join: the reduction of a concatenation is the join of the
reductions.  On a log without conflicting ties the order of the entries does
not matter.
-/

universe u v w

namespace ChangeLog

variable {Key : Type u} {Value : Type v} {Time : Type w} [LinearOrder Time]

/-- The newer of two entries; ties keep the left one. -/
def newer : Option (Entry Key Value Time) → Option (Entry Key Value Time) →
    Option (Entry Key Value Time)
  | some left, some right => if right.time ≤ left.time then some left else some right
  | some left, none => some left
  | none, right => right

@[simp]
theorem newer_none (entry : Option (Entry Key Value Time)) : newer entry none = entry := by
  cases entry <;> rfl

@[simp]
theorem none_newer (entry : Option (Entry Key Value Time)) : newer none entry = entry := rfl

theorem newer_assoc (first second third : Option (Entry Key Value Time)) :
    newer (newer first second) third = newer first (newer second third) := by
  cases first with
  | none => rfl
  | some first =>
      cases second with
      | none => rfl
      | some second =>
          cases third with
          | none => simp
          | some third =>
              by_cases early : second.time ≤ first.time <;>
                by_cases late : third.time ≤ second.time
              · simp [newer, early, late, late.trans early]
              · simp [newer, early, late]
              · simp [newer, early, late]
              · have last : ¬ third.time ≤ first.time := fun below =>
                  late (below.trans (not_le.mp early).le)
                simp [newer, early, late, last]

variable [DecidableEq Key]

theorem note_apply (state : Key → Option (Entry Key Value Time)) (entry : Entry Key Value Time)
    (key : Key) :
    note state entry key = if key = entry.key then newer (state key) (some entry)
      else state key := by
  by_cases same : key = entry.key
  · subst key
    cases held : state entry.key with
    | none => simp [note, held]
    | some existing =>
        by_cases older : entry.time ≤ existing.time <;> simp [note, newer, held, older]
  · rw [if_neg same]
    unfold note
    split
    · rfl
    · exact Function.update_of_ne same _ _

theorem latest_snoc_apply (log : List (Entry Key Value Time)) (entry : Entry Key Value Time)
    (key : Key) :
    latest (log ++ [entry]) key =
      if key = entry.key then newer (latest log key) (some entry) else latest log key := by
  rw [latest_snoc, note_apply]

theorem latest_append (log more : List (Entry Key Value Time)) (key : Key) :
    latest (log ++ more) key = newer (latest log key) (latest more key) := by
  induction more using List.reverseRecOn with
  | nil => simp [latest]
  | append_singleton more entry inductionHypothesis =>
      rw [← List.append_assoc, latest_snoc_apply, latest_snoc_apply, inductionHypothesis]
      split
      · rw [newer_assoc]
      · rfl

theorem latest_singleton (entry : Entry Key Value Time) (key : Key) :
    latest [entry] key = if key = entry.key then some entry else none := by
  have reduced := latest_snoc_apply [] entry key
  simpa [latest] using reduced

def Newest (log : List (Entry Key Value Time)) (key : Key) (entry : Entry Key Value Time) : Prop :=
  entry.key = key ∧ ∀ other ∈ log, other.key = key → other.time ≤ entry.time

instance (log : List (Entry Key Value Time)) (key : Key) (entry : Entry Key Value Time) :
    Decidable (Newest log key entry) := inferInstanceAs (Decidable (_ ∧ _))

theorem latest_eq_none_iff {log : List (Entry Key Value Time)} {key : Key} :
    latest log key = none ↔ ∀ entry ∈ log, entry.key ≠ key := by
  induction log with
  | nil => simp [latest]
  | cons entry rest inductionHypothesis =>
      rw [← List.singleton_append, latest_append, latest_singleton, List.forall_mem_append,
        ← inductionHypothesis]
      by_cases same : key = entry.key
      · subst key
        cases latest rest entry.key <;> simp [newer]
        split <;> simp
      · simp [same, Ne.symm same]

/-- What `latest` finds: older entries before it are strictly older, later ones
not newer. -/
theorem latest_split {log : List (Entry Key Value Time)} {key : Key}
    {entry : Entry Key Value Time} (found : latest log key = some entry) :
    ∃ before after, log = before ++ entry :: after ∧ entry.key = key ∧
      (∀ old ∈ before, old.key = key → old.time < entry.time) ∧
      ∀ other ∈ after, other.key = key → other.time ≤ entry.time := by
  induction log using List.reverseRecOn generalizing entry with
  | nil => cases found
  | append_singleton log last inductionHypothesis =>
      have kept : latest log key = some entry → (last.key = key → last.time ≤ entry.time) →
          ∃ before after, log ++ [last] = before ++ entry :: after ∧ entry.key = key ∧
            (∀ old ∈ before, old.key = key → old.time < entry.time) ∧
            ∀ other ∈ after, other.key = key → other.time ≤ entry.time := by
        intro held bounded
        obtain ⟨before, after, split, keyed, older, newest⟩ := inductionHypothesis held
        refine ⟨before, after ++ [last], by simp [split], keyed, older, ?_⟩
        intro other member same
        rcases List.mem_append.mp member with earlier | final
        · exact newest other earlier same
        · rw [List.mem_singleton.mp final] at same ⊢
          exact bounded same
      rw [latest_snoc_apply] at found
      by_cases same : key = last.key
      · rw [if_pos same] at found
        cases held : latest log key with
        | none =>
            simp only [held, none_newer, Option.some.injEq] at found
            subst entry
            refine ⟨log, [], rfl, same.symm, fun old member keyed => ?_, by simp⟩
            exact absurd keyed (latest_eq_none_iff.mp held old member)
        | some existing =>
            simp only [held, newer] at found
            split at found
            next older =>
              cases found
              exact kept held fun _ => older
            next younger =>
              cases found
              obtain ⟨before, after, split, keyed, earlier, later⟩ := inductionHypothesis held
              refine ⟨log, [], rfl, same.symm, fun old member keyed => ?_, by simp⟩
              have bounded : old.time ≤ existing.time := by
                rw [split] at member
                rcases List.mem_append.mp member with front | back
                · exact (earlier old front keyed).le
                · rcases List.mem_cons.mp back with rfl | tail
                  · exact le_refl _
                  · exact later old tail keyed
              exact bounded.trans_lt (not_le.mp younger)
      · rw [if_neg same] at found
        exact kept found fun keyed => absurd keyed.symm same

theorem newest_of_latest {log : List (Entry Key Value Time)} {key : Key}
    {entry : Entry Key Value Time} (found : latest log key = some entry) :
    entry ∈ log ∧ Newest log key entry := by
  obtain ⟨before, after, split, keyed, older, newest⟩ := latest_split found
  refine ⟨by simp [split], keyed, fun other member same => ?_⟩
  rw [split] at member
  rcases List.mem_append.mp member with front | back
  · exact (older other front same).le
  · rcases List.mem_cons.mp back with rfl | tail
    · exact le_refl _
    · exact newest other tail same

theorem latest_eq_find? (log : List (Entry Key Value Time)) (key : Key) :
    latest log key = log.find? fun entry => decide (Newest log key entry) := by
  cases found : latest log key with
  | none =>
      symm
      rw [List.find?_eq_none]
      intro entry member newest
      exact latest_eq_none_iff.mp found entry member (of_decide_eq_true newest).1
  | some entry =>
      obtain ⟨-, newest⟩ := newest_of_latest found
      obtain ⟨before, after, split, keyed, older, -⟩ := latest_split found
      symm
      refine List.find?_eq_some_iff_append.mpr ⟨decide_eq_true newest, before, after, split, ?_⟩
      intro old member
      have notNewest : ¬ Newest log key old := fun candidate =>
        absurd (candidate.2 entry (by simp [split]) keyed)
          (not_le.mpr (older old member candidate.1))
      simpa using notNewest

def Consistent (log : List (Entry Key Value Time)) : Prop :=
  ∀ first ∈ log, ∀ second ∈ log, first.key = second.key → first.time = second.time →
    first.value = second.value

omit [LinearOrder Time] [DecidableEq Key] in
theorem Consistent.eq {log : List (Entry Key Value Time)} (consistent : Consistent log)
    {first second : Entry Key Value Time} (left : first ∈ log) (right : second ∈ log)
    (key : first.key = second.key) (time : first.time = second.time) : first = second := by
  have value := consistent first left second right key time
  cases first
  cases second
  simp_all

/-- Any newest entry of a consistent log is the one `latest` finds. -/
theorem latest_of_newest {log : List (Entry Key Value Time)} (consistent : Consistent log)
    {key : Key} {entry : Entry Key Value Time} (member : entry ∈ log)
    (newest : Newest log key entry) : latest log key = some entry := by
  cases found : latest log key with
  | none => exact absurd newest.1 (latest_eq_none_iff.mp found entry member)
  | some other =>
      obtain ⟨present, keyed, bound⟩ := newest_of_latest found
      have time := le_antisymm (newest.2 other present keyed) (bound entry member newest.1)
      rw [consistent.eq present member (keyed.trans newest.1.symm) time]

theorem latest_perm {log permuted : List (Entry Key Value Time)} (consistent : Consistent log)
    (same : permuted.Perm log) : latest permuted = latest log := by
  funext key
  cases found : latest permuted key with
  | none =>
      symm
      rw [latest_eq_none_iff] at found ⊢
      exact fun entry member => found entry (same.mem_iff.mpr member)
  | some entry =>
      obtain ⟨present, keyed, bound⟩ := newest_of_latest found
      refine (latest_of_newest consistent (same.mem_iff.mp present) ⟨keyed, ?_⟩).symm
      exact fun other member => bound other (same.mem_iff.mpr member)

end ChangeLog
