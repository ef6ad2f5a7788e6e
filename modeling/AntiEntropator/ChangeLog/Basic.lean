import Mathlib.Data.List.Chain
import Mathlib.Order.Lattice

/-!
# Change logs

An append-only log of timed values per key.  A log is minimal when the entries
of each key are in the order of their times and no two consecutive ones carry
the same value: an entry is there because something changed.  `latest` reduces
a log to the newest entry of each key.
-/

universe u v w

namespace ChangeLog

structure Entry (Key : Type u) (Value : Type v) (Time : Type w) where
  key : Key
  value : Value
  time : Time
  deriving DecidableEq

variable {Key : Type u} {Value : Type v} {Time : Type w} [DecidableEq Key]

def history (log : List (Entry Key Value Time)) (key : Key) : List (Entry Key Value Time) :=
  log.filter fun entry => entry.key = key

@[simp]
theorem history_append (log more : List (Entry Key Value Time)) (key : Key) :
    history (log ++ more) key = history log key ++ history more key := by
  simp [history]

theorem mem_history_iff {log : List (Entry Key Value Time)} {key : Key}
    {entry : Entry Key Value Time} : entry ∈ history log key ↔ entry ∈ log ∧ entry.key = key := by
  simp [history]

theorem history_of_nodup {batch : List (Entry Key Value Time)}
    (distinct : (batch.map Entry.key).Nodup) (key : Key) :
    history batch key = [] ∨
      ∃ entry ∈ batch, entry.key = key ∧ history batch key = [entry] := by
  induction batch with
  | nil => exact .inl rfl
  | cons entry rest inductionHypothesis =>
      rw [List.map_cons, List.nodup_cons] at distinct
      by_cases same : entry.key = key
      · have none : history rest key = [] := by
          refine List.eq_nil_iff_forall_not_mem.mpr fun other member => distinct.1 ?_
          obtain ⟨inside, keyed⟩ := mem_history_iff.mp member
          rw [same, ← keyed]
          exact List.mem_map_of_mem inside
        refine .inr ⟨entry, List.mem_cons_self, same, ?_⟩
        rw [← List.singleton_append, history_append, none]
        simp [history, same]
      · have skipped : history (entry :: rest) key = history rest key := by
          simp [history, same]
        rw [skipped]
        rcases inductionHypothesis distinct.2 with empty | ⟨other, member, keyed, single⟩
        · exact .inl empty
        · exact .inr ⟨other, List.mem_cons_of_mem _ member, keyed, single⟩

section Minimal

variable [LinearOrder Time]

/-- One key's entries are chronological, and consecutive values differ. -/
structure Alternating (entries : List (Entry Key Value Time)) : Prop where
  chronological : entries.Pairwise fun earlier later => earlier.time < later.time
  changing : entries.IsChain fun earlier later => earlier.value ≠ later.value

/-- Every key's history alternates. -/
def Minimal (log : List (Entry Key Value Time)) : Prop := ∀ key, Alternating (history log key)

theorem minimal_nil : Minimal ([] : List (Entry Key Value Time)) := fun _ => ⟨.nil, .nil⟩

omit [DecidableEq Key] in
theorem Alternating.snoc {entries : List (Entry Key Value Time)} {entry : Entry Key Value Time}
    (alternating : Alternating entries) (later : ∀ old ∈ entries, old.time < entry.time)
    (differs : ∀ last, entries.getLast? = some last → last.value ≠ entry.value) :
    Alternating (entries ++ [entry]) where
  chronological := by
    rw [List.pairwise_append]
    refine ⟨alternating.chronological, List.pairwise_singleton _ _, ?_⟩
    intro old member new last
    rw [List.mem_singleton.mp last]
    exact later old member
  changing := by
    rw [List.isChain_append]
    refine ⟨alternating.changing, List.isChain_singleton _, ?_⟩
    intro last final new first
    have isNew : new = entry := by simpa using first.symm
    rw [isNew]
    exact differs last final

/-- A batch keeps the log minimal when its keys are distinct and each entry is
newer than its key's history and differs from the last of it. -/
theorem Minimal.append {log batch : List (Entry Key Value Time)} (minimal : Minimal log)
    (distinct : (batch.map Entry.key).Nodup)
    (later : ∀ entry ∈ batch, ∀ old ∈ history log entry.key, old.time < entry.time)
    (differs : ∀ entry ∈ batch, ∀ last, (history log entry.key).getLast? = some last →
      last.value ≠ entry.value) : Minimal (log ++ batch) := by
  intro key
  rw [history_append]
  rcases history_of_nodup distinct key with none | ⟨entry, member, rfl, single⟩
  · rw [none, List.append_nil]
    exact minimal key
  · rw [single]
    exact (minimal entry.key).snoc (later entry member) (differs entry member)

instance (state : Key → Option (Entry Key Value Time)) (entry : Entry Key Value Time) :
    Decidable (∃ existing, state entry.key = some existing ∧ entry.time ≤ existing.time) :=
  match state entry.key with
  | some existing =>
      decidable_of_iff (entry.time ≤ existing.time) (by simp)
  | none => isFalse (by simp)

/-- Note an entry: the newest entry of each key so far; ties keep the first. -/
def note (state : Key → Option (Entry Key Value Time)) (entry : Entry Key Value Time) :
    Key → Option (Entry Key Value Time) :=
  if ∃ existing, state entry.key = some existing ∧ entry.time ≤ existing.time then state
  else Function.update state entry.key (some entry)

/-- Reduce a log to the newest entry of each key. -/
def latest (log : List (Entry Key Value Time)) : Key → Option (Entry Key Value Time) :=
  log.foldl note fun _ => none

theorem latest_snoc (log : List (Entry Key Value Time)) (entry : Entry Key Value Time) :
    latest (log ++ [entry]) = note (latest log) entry := by
  simp [latest]

theorem latest_eq_getLast? {log : List (Entry Key Value Time)} (minimal : Minimal log) (key : Key) :
    latest log key = (history log key).getLast? := by
  induction log using List.reverseRecOn generalizing key with
  | nil => rfl
  | append_singleton log entry inductionHypothesis =>
      have earlier : Minimal log := fun other => by
        have both := minimal other
        rw [history_append] at both
        exact ⟨(List.pairwise_append.mp both.chronological).1,
          (List.isChain_append.mp both.changing).1⟩
      have single : history [entry] entry.key = [entry] := by simp [history]
      have newest : ¬ ∃ existing, latest log entry.key = some existing ∧
          entry.time ≤ existing.time := by
        rintro ⟨existing, held, late⟩
        rw [inductionHypothesis earlier] at held
        have both := (minimal entry.key).chronological
        rw [history_append, single] at both
        have before := (List.pairwise_append.mp both).2.2 existing (List.mem_of_getLast? held)
          entry (by simp)
        exact absurd late (not_le.mpr before)
      rw [latest_snoc, note, if_neg newest, history_append]
      by_cases same : key = entry.key
      · subst key
        simp [single]
      · have none : history [entry] key = [] := by
          simp [history, Ne.symm same]
        rw [Function.update_of_ne same, none, List.append_nil]
        exact inductionHypothesis earlier key

end Minimal

end ChangeLog
