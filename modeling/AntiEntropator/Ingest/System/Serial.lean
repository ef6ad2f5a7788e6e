import AntiEntropator.Ingest.System

/-!
# One writer at a time

With serial runs, the writers of a source take turns: when one is active, the
others of its source have stopped for good.
-/

namespace AntiEntropator.Ingest

namespace Process

theorem Step.edit_of_quiesced {deployment : Deployment} {process next : Process}
    {action : ProcessAction} (stopped : System.quiesced process.run = true)
    (stepped : Step deployment process action next) :
    ∃ path contents, action = .edit path contents := by
  unfold System.quiesced at stopped
  rw [Bool.and_eq_true] at stopped
  obtain ⟨ended, settled⟩ := stopped
  have early : ∀ {phase : RunPhase}, process.run.phase = phase → Unrecorded phase → False := by
    rintro phase same (early | starting)
    · rw [same] at ended
      cases phase <;> first | exact early | cases ended
    · rw [same, starting] at ended
      cases ended
  cases stepped with
  | prologue taken => exact (early rfl taken.unrecorded).elim
  | ingest taken =>
      rw [taken.phase_eq.1] at ended
      cases ended
  | epilogue taken =>
      cases taken with
      | conclude phase | concludePreview phase | recorded phase | recordFailed phase
      | supersede phase | supersedeFailed phase | exit phase =>
          rw [phase] at ended
          cases ended
  | kill running =>
      unfold alive at running
      split at running
      · cases running
      · cases running
      next exited killed =>
        split at ended
        next same => exact (exited _ _ same).elim
        next same => exact (killed same).elim
        next => cases ended
  | land flying =>
      rw [flying] at settled
      cases settled
  | lose flying =>
      rw [flying] at settled
      cases settled
  | edit => exact ⟨_, _, rfl⟩

theorem Step.run_of_quiesced {deployment : Deployment} {process next : Process}
    {action : ProcessAction} (stopped : System.quiesced process.run = true)
    (stepped : Step deployment process action next) :
    next.run = process.run ∧ next.world.journals = process.world.journals ∧
      next.world.catalog = process.world.catalog := by
  obtain ⟨path, contents, rfl⟩ := stepped.edit_of_quiesced stopped
  cases stepped
  exact ⟨rfl, rfl, rfl⟩

end Process

namespace System

/-- Run ids differ, and of the writers of a source only the last is active. -/
structure Serialized (runs : List Run) : Prop where
  distinct : runs.Pairwise fun earlier later => earlier.plan.runId ≠ later.plan.runId
  exclusive : runs.Pairwise fun earlier later => earlier.plan.sourceId = later.plan.sourceId →
    earlier.plan.mode.writes = true → later.plan.mode.writes = true → quiesced earlier = true

theorem pairwise_set {α : Type} {relation : α → α → Prop} {items : List α} {index : Nat}
    {old new : α} (pairs : items.Pairwise relation) (found : items[index]? = some old)
    (before : ∀ other ∈ items, relation other old → relation other new)
    (after : ∀ other ∈ items, relation old other → relation new other) :
    (items.set index new).Pairwise relation := by
  induction items generalizing index with
  | nil => exact pairs
  | cons head rest inductionHypothesis =>
      rw [List.pairwise_cons] at pairs
      cases index with
      | zero =>
          simp only [List.getElem?_cons_zero, Option.some.injEq] at found
          subst head
          rw [List.set_cons_zero, List.pairwise_cons]
          refine ⟨fun other member => ?_, pairs.2⟩
          exact after other (List.mem_cons_of_mem _ member) (pairs.1 other member)
      | succ index =>
          rw [List.getElem?_cons_succ] at found
          rw [List.set_cons_succ, List.pairwise_cons]
          refine ⟨fun other member => ?_, inductionHypothesis pairs.2 found
            (fun other member => before other (List.mem_cons_of_mem _ member))
            fun other member => after other (List.mem_cons_of_mem _ member)⟩
          rcases List.mem_or_eq_of_mem_set member with inside | rfl
          · exact pairs.1 other inside
          · exact before head List.mem_cons_self (pairs.1 old (List.mem_of_getElem? found))

theorem Serialized.step {deployment : Deployment} {system next : System} {action : SystemAction}
    (serialized : Serialized system.runs) (allowed : serial system action = true)
    (stepped : Step deployment system action next) : Serialized next.runs := by
  cases stepped with
  | begin =>
      simp only [serial, decide_eq_true_eq] at allowed
      obtain ⟨-, others⟩ := allowed
      constructor
      · refine List.pairwise_append.mpr ⟨serialized.distinct, List.pairwise_singleton _ _, ?_⟩
        intro run member new last
        rw [List.mem_singleton.mp last]
        exact (others run member).1
      · refine List.pairwise_append.mpr ⟨serialized.exclusive, List.pairwise_singleton _ _, ?_⟩
        intro run member new last
        rw [List.mem_singleton.mp last]
        exact (others run member).2
  | @act index run inner process found taken =>
      have plan : process.run.plan = run.plan := taken.plan_eq
      constructor
      · apply pairwise_set serialized.distinct found
        · intro other _ different
          rwa [plan]
        · intro other _ different
          rwa [plan]
      · apply pairwise_set serialized.exclusive found
        · intro other _ stopped
          rwa [plan]
        · intro other _ stopped same earlier later
          rw [plan] at same earlier
          have before := stopped same earlier later
          rw [(taken.run_of_quiesced before).1]
          exact before

theorem exec_of_serial {deployment : Deployment} {system final : System}
    {actions : List SystemAction}
    (exec : (serialMachine deployment).exec system actions = some final) :
    (machine deployment).exec system actions = some final :=
  (machine deployment).exec_of_restrict serial exec

theorem step_of_serial {deployment : Deployment} {system next : System} {action : SystemAction}
    (stepped : (serialMachine deployment).step system action = some next) :
    serial system action = true ∧ Step deployment system action next := by
  obtain ⟨allowed, taken⟩ := (machine deployment).restrict_step_eq_some_iff serial |>.mp stepped
  exact ⟨allowed, .of_step taken⟩

theorem serialized_of_exec {deployment : Deployment} {world : World}
    {actions : List SystemAction} {final : System}
    (exec : (serialMachine deployment).exec ⟨world, []⟩ actions = some final) :
    Serialized final.runs := by
  apply (serialMachine deployment).exec_invariant (fun system => Serialized system.runs) _ _ exec
  · exact ⟨.nil, .nil⟩
  · intro system action next serialized stepped
    obtain ⟨allowed, taken⟩ := step_of_serial stepped
    exact serialized.step allowed taken

theorem Serialized.eq_of_active {runs : List Run} {index other : Nat} {run writer : Run}
    (serialized : Serialized runs) (found : runs[index]? = some run)
    (otherFound : runs[other]? = some writer)
    (source : run.plan.sourceId = writer.plan.sourceId) (writes : run.plan.mode.writes = true)
    (otherWrites : writer.plan.mode.writes = true) (active : quiesced run = false)
    (otherActive : quiesced writer = false) : index = other := by
  obtain ⟨bound, rfl⟩ := List.getElem?_eq_some_iff.mp found
  obtain ⟨otherBound, rfl⟩ := List.getElem?_eq_some_iff.mp otherFound
  have stopped := List.pairwise_iff_getElem.mp serialized.exclusive
  rcases Nat.lt_trichotomy index other with before | same | after
  · rw [stopped index other bound otherBound before source writes otherWrites] at active
    cases active
  · exact same
  · rw [stopped other index otherBound bound after source.symm otherWrites writes] at otherActive
    cases otherActive

theorem Serialized.runId_ne {runs : List Run} {index other : Nat} {run writer : Run}
    (serialized : Serialized runs) (found : runs[index]? = some run)
    (otherFound : runs[other]? = some writer) (different : index ≠ other) :
    run.plan.runId ≠ writer.plan.runId := by
  obtain ⟨bound, rfl⟩ := List.getElem?_eq_some_iff.mp found
  obtain ⟨otherBound, rfl⟩ := List.getElem?_eq_some_iff.mp otherFound
  have ids := List.pairwise_iff_getElem.mp serialized.distinct
  rcases Nat.lt_or_gt_of_ne different with before | after
  · exact ids index other bound otherBound before
  · exact (ids other index otherBound bound after).symm

end System

end AntiEntropator.Ingest
