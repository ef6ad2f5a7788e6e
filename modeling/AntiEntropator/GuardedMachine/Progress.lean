import AntiEntropator.GuardedMachine.Basic
import Mathlib.Order.WellFounded

/-!
# Termination and progress

A machine whose steps all lower one natural number has no infinite schedule.
If in addition every reachable state that is not final enables some action,
then every schedule can be completed to one that ends in a final state.
-/

universe u v

namespace GuardedMachine

variable {State : Type u} {Action : Type v}

def Live (machine : GuardedMachine State Action) (state : State) : Prop :=
  ∃ action next, machine.step state action = some next

/-- The actions that lower a measure are at most as many as the measure a
schedule starts with, whatever the other actions do that do not raise it. -/
theorem exec_countP_le (machine : GuardedMachine State Action) (measure : State → Nat)
    (counted : Action → Bool)
    (decreases : ∀ state action next, machine.step state action = some next →
      measure next + (if counted action then 1 else 0) ≤ measure state)
    {initial final : State} {actions : List Action}
    (run : machine.exec initial actions = some final) :
    actions.countP counted + measure final ≤ measure initial := by
  refine machine.exec_induction (motive := fun actions state =>
    actions.countP counted + measure state ≤ measure initial) (by simp) ?_ run
  intro actions middle action final _ bounded stepped
  have lower := decreases middle action final stepped
  rw [List.countP_append, List.countP_singleton]
  omega

/-- A schedule is at most as long as the measure it starts with. -/
theorem exec_length_le (machine : GuardedMachine State Action) (measure : State → Nat)
    (decreases : ∀ state action next,
      machine.step state action = some next → measure next < measure state)
    {initial final : State} {actions : List Action}
    (run : machine.exec initial actions = some final) :
    actions.length + measure final ≤ measure initial := by
  have counted := machine.exec_countP_le measure (fun _ => true)
    (fun state action next stepped => Nat.succ_le_of_lt (decreases state action next stepped)) run
  simpa using counted

theorem wellFounded_of_measure (machine : GuardedMachine State Action) (measure : State → Nat)
    (decreases : ∀ state action next,
      machine.step state action = some next → measure next < measure state) :
    WellFounded fun next state => ∃ action, machine.step state action = some next := by
  refine Subrelation.wf ?_ (InvImage.wf measure Nat.lt_wfRel.wf)
  rintro next state ⟨action, stepped⟩
  exact decreases state action next stepped

/-- With a measure and progress, every schedule extends to a completed one. -/
theorem exists_completion (machine : GuardedMachine State Action) (measure : State → Nat)
    (Final : State → Prop) {initial : State}
    (decreases : ∀ state action next,
      machine.step state action = some next → measure next < measure state)
    (progress : ∀ actions state, machine.exec initial actions = some state →
      ¬ Final state → machine.Live state)
    {actions : List Action} {state : State}
    (run : machine.exec initial actions = some state) :
    ∃ rest final, machine.exec initial (actions ++ rest) = some final ∧ Final final := by
  induction bound : measure state using Nat.strong_induction_on generalizing actions state with
  | _ bound inductionHypothesis =>
      by_cases ended : Final state
      · exact ⟨[], state, by simpa using run, ended⟩
      · obtain ⟨action, next, stepped⟩ := progress actions state run ended
        have lower := decreases state action next stepped
        have extended : machine.exec initial (actions ++ [action]) = some next :=
          machine.exec_snoc_eq_some_iff.mpr ⟨state, run, stepped⟩
        obtain ⟨rest, final, completed, ended⟩ :=
          inductionHypothesis (measure next) (by omega) extended rfl
        exact ⟨action :: rest, final, by simpa using completed, ended⟩

end GuardedMachine
