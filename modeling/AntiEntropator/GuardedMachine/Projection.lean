import AntiEntropator.GuardedMachine.Basic

/-!
# Projections

A projection maps the states of one machine to those of another and each action
to the schedule that the other machine takes instead.  Two schedules with the
same projection end in states with the same projection, and everything that can
be read off the projection is the same along both.
-/

universe u v u' v' w

namespace GuardedMachine

variable {State : Type u} {Action : Type v} {State' : Type u'} {Action' : Type v'} {Seen : Type w}

/-- Every step reached from `initial` is what the other machine does on the
actions that the step shows. -/
def Projects (machine : GuardedMachine State Action) (target : GuardedMachine State' Action')
    (project : State → State') (shown : State → Action → List Action') (initial : State) : Prop :=
  ∀ actions middle action next, machine.exec initial actions = some middle →
    machine.step middle action = some next →
    target.exec (project middle) (shown middle action) = some (project next)

section Projects

variable {machine : GuardedMachine State Action} {target : GuardedMachine State' Action'}
  {project : State → State'} {shown : State → Action → List Action'} {initial final : State}
  {actions : List Action}

theorem Projects.exec (projects : machine.Projects target project shown initial)
    (run : machine.exec initial actions = some final) :
    target.exec (project initial) (machine.observe shown initial actions) =
      some (project final) := by
  refine machine.exec_induction (motive := fun actions state =>
    target.exec (project initial) (machine.observe shown initial actions) =
      some (project state)) rfl ?_ run
  intro actions middle action next before projected stepped
  rw [machine.observe_snoc shown before stepped]
  exact target.exec_append_eq_some_iff.mpr
    ⟨_, projected, projects actions middle action next before stepped⟩

theorem Projects.observe (projects : machine.Projects target project shown initial)
    (look : State → Action → List Seen) (lookThrough : State' → Action' → List Seen)
    (agrees : ∀ actions middle action next, machine.exec initial actions = some middle →
      machine.step middle action = some next →
      look middle action = target.observe lookThrough (project middle) (shown middle action))
    (run : machine.exec initial actions = some final) :
    machine.observe look initial actions =
      target.observe lookThrough (project initial) (machine.observe shown initial actions) := by
  refine machine.exec_induction (motive := fun actions _ =>
    machine.observe look initial actions =
      target.observe lookThrough (project initial) (machine.observe shown initial actions))
    rfl ?_ run
  intro actions middle action next before same stepped
  rw [machine.observe_snoc look before stepped, machine.observe_snoc shown before stepped,
    target.observe_append lookThrough _ (projects.exec before), same,
    agrees actions middle action next before stepped]

end Projects

end GuardedMachine
