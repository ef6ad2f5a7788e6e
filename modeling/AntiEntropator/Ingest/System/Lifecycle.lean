import AntiEntropator.Ingest.Run.Brackets

/-!
# The lifecycle of a journal

A journal is begun by its run and closed by a later one.  These are the words
its history can be, the writes that extend them, and what a store of journals
satisfies when all its writes are of this kind.
-/

namespace AntiEntropator.Ingest

/-! ## Histories -/

/-- Own entries that leave the run's outcome open. -/
inductive Reconcilable : List RunState → Prop where
  | between (sizes : List Nat) : Reconcilable (ownWord sizes)
  | announced (sizes : List Nat) :
      Reconcilable (ownWord sizes ++ [.committing (sizes.length + 1)])
  | failed (sizes : List Nat) : Reconcilable (ownWord sizes ++
      [.committing (sizes.length + 1), .commitFailed (sizes.length + 1)])

/-- A history: own entries, and the closures of a run whose outcome was open. -/
inductive Lifecycle : List RunState → Prop where
  | own {states : List RunState} : OwnStates states → Lifecycle states
  | reconciled {states : List RunState} (rows : Nat) :
      Reconcilable states → Lifecycle (states ++ [.reconciled rows])
  | superseded {states : List RunState} (rows : Nat) (writer : Uuid) :
      Reconcilable states → Lifecycle (states ++ [.reconciled rows, .supersededBy writer])

theorem Lifecycle.reconcilable {journal : RunJournal} (lifecycle : Lifecycle journal.states)
    (opened : journal.isOpen = true) : Reconcilable journal.states := by
  obtain ⟨unclosed, completed, incomplete⟩ := RunJournal.isOpen_iff.mp opened
  rw [RunJournal.isClosed] at unclosed
  generalize same : journal.states = states at lifecycle unclosed
  cases lifecycle with
  | own own =>
      cases own with
      | between sizes => exact .between sizes
      | announced sizes => exact .announced sizes
      | accepted sizes terminal accepted =>
          rcases accepted with rfl | ⟨failed, rfl⟩
          · exact (completed (lastOwn_of_states same rfl)).elim
          · exact (incomplete failed (lastOwn_of_states same rfl)).elim
      | failed sizes => exact .failed sizes
  | reconciled rows => simp [RunState.isClosure] at unclosed
  | superseded rows writer => simp [RunState.isClosure] at unclosed

theorem isClosed_of_prefix {first second : RunJournal} (longer : first.history <+: second.history)
    (closed : first.isClosed = true) : second.isClosed = true := by
  rw [RunJournal.isClosed, List.any_eq_true] at closed ⊢
  obtain ⟨state, member, closure⟩ := closed
  exact ⟨state, (longer.map Transition.state).subset member, closure⟩

/-! ## Writes -/

/-- A journal object and the run that wrote it. -/
structure Writing where
  writer : Uuid
  journal : RunJournal
  deriving DecidableEq

/-- The write that reconciles a run: its last entry says so. -/
def Writing.Reconciles (writing : Writing) (id : Uuid) : Prop :=
  writing.journal.runId = id ∧
    ∃ rows, writing.journal.states.getLast? = some (.reconciled rows)

/-- A write that a run may make over the store it finds. -/
inductive Lawful (past : List Writing) (store : JournalStore) (writer : Uuid)
    (sourceId : String) : RunJournal → Prop where
  /-- Its own journal, longer than what is stored. -/
  | own {journal : RunJournal} :
      journal.runId = writer → journal.sourceId = sourceId → OwnStates journal.states →
      (∀ stored, store.lookup writer = some stored →
        stored.sourceId = sourceId ∧ stored.history <+: journal.history) →
      Lawful past store writer sourceId journal
  /-- A stored open journal of its source, reconciled. -/
  | reconcile {journal : RunJournal} (rows : Nat) (now : DateTime) :
      store.lookup journal.runId = some journal → journal.sourceId = sourceId →
      journal.isOpen = true →
      Lawful past store writer sourceId (journal.push (.reconciled rows) now)
  /-- A stored journal that it has reconciled, superseded by itself. -/
  | supersede {journal : RunJournal} {states : List RunState} {rows : Nat} (now : DateTime) :
      store.lookup journal.runId = some journal → journal.sourceId = sourceId →
      ⟨writer, journal⟩ ∈ past → Reconcilable states →
      journal.states = states ++ [.reconciled rows] →
      Lawful past store writer sourceId (journal.push (.supersededBy writer) now)

section Lawful

variable {past : List Writing} {store : JournalStore} {writer : Uuid} {sourceId : String}
  {journal : RunJournal}

theorem Lawful.sourceId_eq (lawful : Lawful past store writer sourceId journal) :
    journal.sourceId = sourceId := by
  cases lawful with
  | own named source => exact source
  | reconcile rows now stored source => exact source
  | supersede now stored source => exact source

theorem Lawful.extends (lawful : Lawful past store writer sourceId journal)
    {stored : RunJournal} (found : store.lookup journal.runId = some stored) :
    stored.sourceId = sourceId ∧ stored.history <+: journal.history := by
  cases lawful with
  | own named source own longer =>
      rw [named] at found
      exact longer stored found
  | reconcile rows now there source =>
      rw [RunJournal.push_runId, there, Option.some.injEq] at found
      subst stored
      exact ⟨source, List.prefix_append _ _⟩
  | supersede now there source =>
      rw [RunJournal.push_runId, there, Option.some.injEq] at found
      subst stored
      exact ⟨source, List.prefix_append _ _⟩

theorem Lawful.runId_eq (lawful : Lawful past store writer sourceId journal)
    (absent : store.lookup journal.runId = none) : journal.runId = writer := by
  cases lawful with
  | own named => exact named
  | reconcile rows now there =>
      rw [RunJournal.push_runId, there] at absent
      cases absent
  | supersede now there =>
      rw [RunJournal.push_runId, there] at absent
      cases absent

theorem Lawful.lifecycle
    (lives : ∀ id stored, store.lookup id = some stored → Lifecycle stored.states)
    (lawful : Lawful past store writer sourceId journal) : Lifecycle journal.states := by
  cases lawful with
  | own named source own => exact .own own
  | @reconcile journal rows now there source opened =>
      rw [RunJournal.push_states]
      exact .reconciled rows ((lives _ _ there).reconcilable opened)
  | @supersede journal states rows now there source member reconcilable shown =>
      rw [RunJournal.push_states, shown, List.append_assoc]
      exact .superseded rows writer reconcilable

/-- Other sources' journals stay, and no other name appears. -/
structure Untouched (before after : JournalStore) (writer : Uuid) (sourceId : String) : Prop where
  stored : ∀ id journal, before.lookup id = some journal → journal.sourceId ≠ sourceId →
    after.lookup id = some journal
  absent : ∀ id, id ≠ writer → before.lookup id = none → after.lookup id = none

theorem Lawful.untouched (lawful : Lawful past store writer sourceId journal) :
    Untouched store (store.insert journal.runId journal) writer sourceId where
  stored := by
    intro id other found different
    have elsewhere : id ≠ journal.runId := by
      rintro rfl
      exact different (lawful.extends found).1
    rwa [AList.lookup_insert_ne elsewhere]
  absent := by
    intro id other absent
    have elsewhere : id ≠ journal.runId := by
      rintro rfl
      exact other (lawful.runId_eq absent)
    rwa [AList.lookup_insert_ne elsewhere]

end Lawful

/-! ## The store -/

/-- A store that began as `initial` and was changed by these writes. -/
structure Archive (initial : JournalStore) (past : List Writing) (store : JournalStore) : Prop where
  keyed : ∀ id journal, store.lookup id = some journal → journal.runId = id
  lifecycle : ∀ id journal, store.lookup id = some journal → Lifecycle journal.states
  /-- A journal is reconciled at most once. -/
  once : past.Pairwise fun earlier later => ∀ id, earlier.Reconciles id → ¬ later.Reconciles id
  closed : ∀ writing ∈ past, ∀ id, writing.Reconciles id →
    ∃ journal, store.lookup id = some journal ∧ journal.isClosed = true
  /-- A superseding run has reconciled before. -/
  superseded : ∀ id journal states rows writer, store.lookup id = some journal →
    journal.states = states ++ [.reconciled rows, .supersededBy writer] →
    initial.lookup id = some journal ∨ ∃ earlier, ⟨writer, earlier⟩ ∈ past ∧
      earlier.runId = id ∧ earlier.states = states ++ [.reconciled rows]

theorem archive_start {store : JournalStore}
    (keyed : ∀ id journal, store.lookup id = some journal → journal.runId = id)
    (lifecycle : ∀ id journal, store.lookup id = some journal → Lifecycle journal.states) :
    Archive store [] store where
  keyed := keyed
  lifecycle := lifecycle
  once := .nil
  closed := by simp
  superseded := fun _ _ _ _ _ found _ => .inl found

theorem Lawful.reconciles {past : List Writing} {store : JournalStore} {writer : Uuid}
    {sourceId : String} {journal : RunJournal} {id : Uuid}
    (lawful : Lawful past store writer sourceId journal)
    (reconciles : (Writing.mk writer journal).Reconciles id) :
    ∃ stored, store.lookup id = some stored ∧ stored.isClosed = false ∧
      journal.isClosed = true := by
  obtain ⟨rfl, rows, last⟩ := reconciles
  cases lawful with
  | own named source own =>
      have plain := own.not_closure _ (List.mem_of_getLast? last)
      cases plain
  | reconcile rows now there source opened =>
      refine ⟨_, there, (RunJournal.isOpen_iff.mp opened).1, ?_⟩
      simp [RunState.isClosure]
  | supersede now => simp at last

theorem Archive.insert {initial store : JournalStore} {past : List Writing} {writer : Uuid}
    {sourceId : String} {journal : RunJournal} (archive : Archive initial past store)
    (lawful : Lawful past store writer sourceId journal) :
    Archive initial (past ++ [⟨writer, journal⟩]) (store.insert journal.runId journal) where
  keyed := by
    intro id stored found
    by_cases same : id = journal.runId
    · subst id
      rw [AList.lookup_insert, Option.some.injEq] at found
      rw [found]
    · rw [AList.lookup_insert_ne same] at found
      exact archive.keyed id stored found
  lifecycle := by
    intro id stored found
    rcases Process.lookup_insert_cases found with rfl | old
    · exact lawful.lifecycle archive.lifecycle
    · exact archive.lifecycle id stored old
  once := by
    refine List.pairwise_append.mpr ⟨archive.once, List.pairwise_singleton _ _, ?_⟩
    intro earlier member later new id before after
    rw [List.mem_singleton.mp new] at after
    obtain ⟨stored, found, unclosed, -⟩ := lawful.reconciles after
    obtain ⟨other, there, closed⟩ := archive.closed earlier member id before
    rw [found, Option.some.injEq] at there
    rw [there, closed] at unclosed
    cases unclosed
  closed := by
    intro writing member id reconciles
    by_cases same : id = journal.runId
    · subst id
      refine ⟨journal, AList.lookup_insert _, ?_⟩
      rcases List.mem_append.mp member with old | new
      · obtain ⟨stored, found, closed⟩ := archive.closed writing old _ reconciles
        exact isClosed_of_prefix (lawful.extends found).2 closed
      · rw [List.mem_singleton.mp new] at reconciles
        obtain ⟨-, -, -, closed⟩ := lawful.reconciles reconciles
        exact closed
    · rw [AList.lookup_insert_ne same]
      rcases List.mem_append.mp member with old | new
      · exact archive.closed writing old id reconciles
      · rw [List.mem_singleton.mp new] at reconciles
        exact (same reconciles.1.symm).elim
  superseded := by
    intro id stored states rows superseder found shown
    by_cases same : id = journal.runId
    · subst id
      rw [AList.lookup_insert, Option.some.injEq] at found
      subst stored
      apply Or.inr
      cases lawful with
      | own named source own =>
          have plain := own.not_closure (.supersededBy superseder) (by simp [shown])
          cases plain
      | reconcile rows now =>
          have last := congrArg List.getLast? shown
          simp at last
      | @supersede journal before count now there source member reconcilable word =>
          have split : journal.states ++ [RunState.supersededBy writer] =
              (states ++ [.reconciled rows]) ++ [.supersededBy superseder] := by
            rw [← RunJournal.push_states, shown, List.append_assoc]
            rfl
          obtain ⟨front, last⟩ := List.append_inj' split rfl
          obtain rfl : writer = superseder := by simpa using last
          exact ⟨journal, List.mem_append_left _ member, rfl, front⟩
    · rw [AList.lookup_insert_ne same] at found
      rcases archive.superseded id stored states rows superseder found shown with
        old | ⟨earlier, member, named, word⟩
      · exact .inl old
      · exact .inr ⟨earlier, List.mem_append_left _ member, named, word⟩

end AntiEntropator.Ingest
