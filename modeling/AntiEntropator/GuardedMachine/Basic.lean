import Mathlib.Data.List.Basic
import Mathlib.Data.List.Induction

/-!
# Guarded machines

A machine is an executable partial step function: `step state action` is the
next state when the action is enabled and `none` otherwise.  A schedule is a
list of actions, so a property of every interleaving is a property of every
list on which `exec` succeeds, and one concrete schedule can be evaluated.

`observe` collects what a schedule shows along the way without storing it in
the state, and `restrict` disables actions that an assumption rules out.
-/

universe u v w

/-- A transition system given by an executable, guarded step function. -/
structure GuardedMachine (State : Type u) (Action : Type v) where
  step : State → Action → Option State

namespace GuardedMachine

variable {State : Type u} {Action : Type v} {Seen : Type w}

/-- Run a schedule; `none` when one of its actions is disabled. -/
def exec (machine : GuardedMachine State Action) : State → List Action → Option State
  | state, [] => some state
  | state, action :: rest =>
      match machine.step state action with
      | none => none
      | some next => exec machine next rest

@[simp]
theorem exec_nil (machine : GuardedMachine State Action) (state : State) :
    machine.exec state [] = some state := rfl

theorem exec_cons_eq_some_iff (machine : GuardedMachine State Action)
    {state final : State} {action : Action} {rest : List Action} :
    machine.exec state (action :: rest) = some final ↔
      ∃ next, machine.step state action = some next ∧
        machine.exec next rest = some final := by
  simp only [exec]
  cases machine.step state action with
  | none => simp
  | some next => simp

theorem exec_append_eq_some_iff (machine : GuardedMachine State Action)
    {state final : State} {first second : List Action} :
    machine.exec state (first ++ second) = some final ↔
      ∃ middle, machine.exec state first = some middle ∧
        machine.exec middle second = some final := by
  induction first generalizing state with
  | nil => simp
  | cons action rest inductionHypothesis =>
      rw [List.cons_append, exec_cons_eq_some_iff]
      constructor
      · rintro ⟨next, stepped, remaining⟩
        obtain ⟨middle, before, after⟩ := inductionHypothesis.mp remaining
        exact ⟨middle, machine.exec_cons_eq_some_iff.mpr ⟨next, stepped, before⟩, after⟩
      · rintro ⟨middle, before, after⟩
        obtain ⟨next, stepped, remaining⟩ := machine.exec_cons_eq_some_iff.mp before
        exact ⟨next, stepped, inductionHypothesis.mpr ⟨middle, remaining, after⟩⟩

theorem exec_snoc_eq_some_iff (machine : GuardedMachine State Action)
    {state final : State} {actions : List Action} {action : Action} :
    machine.exec state (actions ++ [action]) = some final ↔
      ∃ middle, machine.exec state actions = some middle ∧
        machine.step middle action = some final := by
  simp [exec_append_eq_some_iff, exec_cons_eq_some_iff]

/-- Induction along a schedule.  The motive may mention the actions taken so
far, so it can relate the state to what the schedule has already shown. -/
theorem exec_induction (machine : GuardedMachine State Action)
    {motive : List Action → State → Prop} {initial : State}
    (start : motive [] initial)
    (advance : ∀ actions middle action final,
      machine.exec initial actions = some middle → motive actions middle →
      machine.step middle action = some final → motive (actions ++ [action]) final)
    {actions : List Action} {final : State}
    (run : machine.exec initial actions = some final) : motive actions final := by
  induction actions using List.reverseRecOn generalizing final with
  | nil =>
      simp only [exec_nil, Option.some.injEq] at run
      exact run ▸ start
  | append_singleton actions action inductionHypothesis =>
      obtain ⟨middle, before, stepped⟩ := machine.exec_snoc_eq_some_iff.mp run
      exact advance actions middle action final before (inductionHypothesis before) stepped

/-- A predicate that holds initially and is kept by every enabled action holds
in every state a schedule reaches. -/
theorem exec_invariant (machine : GuardedMachine State Action)
    (invariant : State → Prop) {initial final : State} {actions : List Action}
    (start : invariant initial)
    (preserved : ∀ state action next,
      invariant state → machine.step state action = some next → invariant next)
    (run : machine.exec initial actions = some final) : invariant final :=
  machine.exec_induction (motive := fun _ state => invariant state) start
    (fun _ middle action final _ holds stepped => preserved middle action final holds stepped) run

/-- A reflexive and transitive relation between consecutive states relates the
first state of a schedule to its last. -/
theorem exec_relation (machine : GuardedMachine State Action)
    (relation : State → State → Prop)
    (reflexive : ∀ state, relation state state)
    (transitive : ∀ first second third,
      relation first second → relation second third → relation first third)
    (stepwise : ∀ state action next, machine.step state action = some next → relation state next)
    {initial final : State} {actions : List Action}
    (run : machine.exec initial actions = some final) : relation initial final :=
  machine.exec_invariant (relation initial) (reflexive initial)
    (fun state action next related stepped =>
      transitive initial state next related (stepwise state action next stepped)) run

/-! ## Observations -/

/-- What a schedule shows: `view` is evaluated at each enabled action, in the
state in which the action is taken. -/
def observe (machine : GuardedMachine State Action)
    (view : State → Action → List Seen) : State → List Action → List Seen
  | _, [] => []
  | state, action :: rest =>
      match machine.step state action with
      | none => []
      | some next => view state action ++ observe machine view next rest

@[simp]
theorem observe_nil (machine : GuardedMachine State Action)
    (view : State → Action → List Seen) (state : State) :
    machine.observe view state [] = [] := rfl

theorem observe_append (machine : GuardedMachine State Action)
    (view : State → Action → List Seen) {state middle : State}
    {first : List Action} (second : List Action)
    (run : machine.exec state first = some middle) :
    machine.observe view state (first ++ second) =
      machine.observe view state first ++ machine.observe view middle second := by
  induction first generalizing state with
  | nil =>
      simp only [exec_nil, Option.some.injEq] at run
      subst middle
      rfl
  | cons action rest inductionHypothesis =>
      obtain ⟨next, stepped, remaining⟩ := machine.exec_cons_eq_some_iff.mp run
      simp only [List.cons_append, observe, stepped, List.append_assoc]
      rw [inductionHypothesis remaining]

theorem observe_snoc (machine : GuardedMachine State Action)
    (view : State → Action → List Seen) {state middle final : State}
    {actions : List Action} {action : Action}
    (run : machine.exec state actions = some middle)
    (stepped : machine.step middle action = some final) :
    machine.observe view state (actions ++ [action]) =
      machine.observe view state actions ++ view middle action := by
  rw [observe_append machine view [action] run]
  simp [observe, stepped]

/-! ## Restriction -/

/-- Disable the actions that an assumption on the environment rules out. -/
def restrict (machine : GuardedMachine State Action)
    (allowed : State → Action → Bool) : GuardedMachine State Action where
  step state action := if allowed state action then machine.step state action else none

theorem restrict_step_eq_some_iff (machine : GuardedMachine State Action)
    (allowed : State → Action → Bool) {state next : State} {action : Action} :
    (machine.restrict allowed).step state action = some next ↔
      allowed state action = true ∧ machine.step state action = some next := by
  simp [restrict]

theorem exec_of_restrict (machine : GuardedMachine State Action)
    (allowed : State → Action → Bool) {state final : State} {actions : List Action}
    (run : (machine.restrict allowed).exec state actions = some final) :
    machine.exec state actions = some final := by
  induction actions generalizing state with
  | nil => exact run
  | cons action rest inductionHypothesis =>
      obtain ⟨next, stepped, remaining⟩ := exec_cons_eq_some_iff _ |>.mp run
      refine machine.exec_cons_eq_some_iff.mpr ⟨next, ?_, inductionHypothesis remaining⟩
      exact (machine.restrict_step_eq_some_iff allowed).mp stepped |>.2

end GuardedMachine
