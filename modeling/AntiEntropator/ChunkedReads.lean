import Mathlib.Data.List.Basic

/-!
# Reading in chunks

A read may return fewer items than it was asked for, but none only at the end.
A loop that reads until then sees everything, however the reads are cut; a
single read sees what it returned.
-/

universe u v w

/-- What the calls on a reader return: how many of the next items, or an error. -/
structure Reads (ε : Type u) where
  outcome : (call requested remaining : Nat) → Except ε Nat
  bounded : ∀ call requested remaining count,
    outcome call requested remaining = .ok count → count ≤ min requested remaining
  positive : ∀ call requested remaining count, 0 < requested → 0 < remaining →
    outcome call requested remaining = .ok count → 0 < count

namespace Reads

variable {ε : Type u} {Item : Type v} {State : Type w}

def Succeed (reads : Reads ε) : Prop :=
  ∀ call requested remaining, ∃ count, reads.outcome call requested remaining = .ok count

def readOnce (reads : Reads ε) (requested : Nat) (items : List Item) : Except ε (List Item) :=
  (reads.outcome 0 requested items.length).map items.take

/-- Read until a read returns nothing, and pass every chunk to `update`. -/
def readAll (reads : Reads ε) (update : State → List Item → State) (requested call : Nat)
    (state : State) (rest : List Item) : Except ε State :=
  match read : reads.outcome call requested rest.length with
  | .error error => .error error
  | .ok 0 => .ok state
  | .ok (count + 1) =>
      readAll reads update requested (call + 1) (update state (rest.take (count + 1)))
        (rest.drop (count + 1))
termination_by rest.length
decreasing_by
  have bound := reads.bounded _ _ _ _ read
  rw [List.length_drop]
  omega

theorem eq_nil_of_outcome_zero {reads : Reads ε} {requested call : Nat} {rest : List Item}
    (asked : 0 < requested) (read : reads.outcome call requested rest.length = .ok 0) :
    rest = [] := by
  by_contra more
  exact Nat.lt_irrefl 0
    (reads.positive _ _ _ _ asked (List.length_pos_iff.mpr more) read)

section Whole

variable {update : State → List Item → State} (update_nil : ∀ state, update state [] = state)
  (update_append : ∀ state first second,
    update (update state first) second = update state (first ++ second))

include update_nil update_append

/-- A loop that ends without an error has passed on everything, in order. -/
theorem readAll_eq_of_ok (reads : Reads ε) {requested : Nat} (asked : 0 < requested) (call : Nat)
    {state final : State} {rest : List Item}
    (done : readAll reads update requested call state rest = .ok final) :
    final = update state rest := by
  fun_induction readAll reads update requested call state rest with
  | case1 => cases done
  | case2 call state rest read =>
      rw [eq_nil_of_outcome_zero asked read, update_nil]
      exact (Except.ok.inj done).symm
  | case3 call state rest count read inductionHypothesis =>
      rw [inductionHypothesis done, update_append, List.take_append_drop]

theorem readAll_eq (reads : Reads ε) (succeed : reads.Succeed) {requested : Nat}
    (asked : 0 < requested) (call : Nat) (state : State) (rest : List Item) :
    readAll reads update requested call state rest = .ok (update state rest) := by
  have ends : ∃ final, readAll reads update requested call state rest = .ok final := by
    fun_induction readAll reads update requested call state rest with
    | case1 call state rest error read =>
        obtain ⟨count, other⟩ := succeed call requested rest.length
        rw [read] at other
        cases other
    | case2 call state rest read => exact ⟨state, rfl⟩
    | case3 call state rest count read inductionHypothesis => exact inductionHypothesis
  obtain ⟨final, done⟩ := ends
  rw [done, readAll_eq_of_ok update_nil update_append reads asked call done]

end Whole

theorem readOnce_eq_iff (reads : Reads ε) (requested : Nat) (items : List Item) :
    readOnce reads requested items = .ok (items.take requested) ↔
      reads.outcome 0 requested items.length = .ok (min requested items.length) := by
  unfold readOnce
  cases read : reads.outcome 0 requested items.length with
  | error error => simp [Except.map]
  | ok count =>
      have bound := reads.bounded _ _ _ _ read
      constructor
      · intro same
        have lengths := congrArg List.length (Except.ok.inj same)
        rw [List.length_take, List.length_take] at lengths
        exact congrArg Except.ok (by omega)
      · intro whole
        rw [Except.ok.inj whole]
        exact congrArg Except.ok (List.take_eq_take_min).symm

end Reads
