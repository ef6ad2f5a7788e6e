import AntiEntropator.Ingest.System.Protocol
import AntiEntropator.Ingest.System.Turns

/-!
# Recovery over any history

Runs may die anywhere and learn anything about their commits; the next run reads
what has landed and brings what is missing.  As long as the writers of a source
take turns and their clocks move forward, its rows stay a minimal change log.
-/

namespace AntiEntropator.Ingest

open Lakehouse

namespace System

/-- The index of a run that writes for the source. -/
def Writer (runs : List Run) (sourceId : String) (index : Nat) : Prop :=
  ∃ run, runs[index]? = some run ∧ run.plan.sourceId = sourceId ∧ run.plan.mode.writes = true

/-- In microseconds, the readings of each writer of a source are later than
those of the writers before it, and than the rows there were at the start. -/
structure Clocked (sourceId : String) (initial : List CatalogRow)
    (traces : Nat → List (Process × ProcessAction)) (runs : List Run) : Prop where
  start : ∀ index, Writer runs sourceId index → ∀ entry ∈ observationLog initial sourceId,
    ∀ time ∈ shown Process.readings (traces index), entry.time < floorMicros time
  forward : ∀ earlier later, earlier < later → Writer runs sourceId earlier →
    Writer runs sourceId later → ∀ before ∈ shown Process.readings (traces earlier),
      ∀ after ∈ shown Process.readings (traces later),
        timestampMicros before < timestampMicros after

end System

theorem floorMicros_lt {first second : DateTime}
    (less : timestampMicros first < timestampMicros second) :
    floorMicros first < floorMicros second :=
  Int.mul_lt_mul_of_pos_right less (by decide)

theorem Run.Remembers.time_of_mem {deployment : Deployment} {run : Run}
    {steps : List (Process × ProcessAction)} {entry : ChangeLog.Entry String String DateTime}
    (remembers : run.Remembers deployment steps) (writes : run.plan.mode.writes = true)
    (member : entry ∈ observationLog (shown Process.landing steps) run.plan.sourceId) :
    ∃ time ∈ shown Process.readings steps, entry.time = floorMicros time := by
  have before := observationLog_prefix run.plan.sourceId (remembers.landed_prefix writes)
  exact (news_of_mem_observationLog remembers.reported (before.subset member)).1

namespace System

section Minimal

variable {deployment : Deployment} {sourceId : String} {initial : List CatalogRow}
  {traces : Nat → List (Process × ProcessAction)} {system : System}

theorem writer_of_brought {index : Nat}
    (remembers : ∀ index (run : Run), system.runs[index]? = some run →
      run.Remembers deployment (traces index))
    (unbegun : ∀ index, system.runs.length ≤ index → traces index = [])
    (some : brought sourceId traces index ≠ []) :
    ∃ run, system.runs[index]? = .some run ∧ run.plan.sourceId = sourceId ∧
      run.plan.mode.writes = true ∧ run.state ≠ none := by
  cases place : system.runs[index]? with
  | none =>
      refine (some ?_).elim
      rw [brought, unbegun index (List.getElem?_eq_none_iff.mp place)]
      rfl
  | some run => exact ⟨run, rfl, (remembers index run place).of_observationRows some⟩

theorem Clocked.older (clocked : Clocked sourceId initial traces system.runs)
    (remembers : ∀ index (run : Run), system.runs[index]? = some run →
      run.Remembers deployment (traces index))
    (unbegun : ∀ index, system.runs.length ≤ index → traces index = []) {index : Nat}
    (writer : Writer system.runs sourceId index) :
    ∀ entry ∈ (observationRows initial sourceId ++
        ChangeLog.inTurn (brought sourceId traces) index).map ObservationRow.entry,
      ∀ time ∈ shown Process.readings (traces index), entry.time < floorMicros time := by
  intro entry member time read
  rw [List.map_append] at member
  rcases List.mem_append.mp member with old | new
  · exact clocked.start index writer entry old time read
  · obtain ⟨row, inside, rfl⟩ := List.mem_map.mp new
    obtain ⟨earlier, less, bringing⟩ := ChangeLog.mem_inTurn_iff.mp inside
    obtain ⟨run, found, rfl, writes, -⟩ :=
      writer_of_brought remembers unbegun (List.ne_nil_of_mem bringing)
    obtain ⟨before, taken, same⟩ :=
      (remembers earlier run found).time_of_mem writes (List.mem_map_of_mem bringing)
    rw [same]
    exact floorMicros_lt (clocked.forward earlier index less ⟨run, found, rfl, writes⟩ writer
      before taken time read)

/-- After each turn the change log is minimal. -/
theorem Sequenced.minimal (sequenced : Sequenced sourceId initial traces system)
    (remembers : ∀ index (run : Run), system.runs[index]? = some run →
      run.Remembers deployment (traces index))
    (unbegun : ∀ index, system.runs.length ≤ index → traces index = [])
    (clocked : Clocked sourceId initial traces system.runs)
    (minimal : ChangeLog.Minimal (observationLog initial sourceId)) (count : Nat) :
    ChangeLog.Minimal ((observationRows initial sourceId ++
      ChangeLog.inTurn (brought sourceId traces) count).map ObservationRow.entry) := by
  induction count with
  | zero =>
      rw [ChangeLog.inTurn_zero, List.append_nil]
      exact minimal
  | succ index inductionHypothesis =>
      rw [ChangeLog.inTurn_succ, ← List.append_assoc, List.map_append]
      by_cases idle : brought sourceId traces index = []
      · rw [idle, List.map_nil, List.append_nil]
        exact inductionHypothesis
      · obtain ⟨run, found, rfl, writes, read⟩ := writer_of_brought remembers unbegun idle
        have own := remembers index run found
        obtain ⟨catalog, known⟩ := own.exists_read writes read
        have same := sequenced.read index run found rfl writes catalog known
        have log : observationLog catalog run.plan.sourceId = _ :=
          congrArg (List.map ObservationRow.entry) same
        rw [← log] at inductionHypothesis ⊢
        apply own.minimal_append writes known inductionHypothesis
        rw [log]
        exact clocked.older remembers unbegun ⟨run, found, rfl, writes⟩

end Minimal

end System

/-- Over any history of runs, killed or not, whose writers take turns under a
clock that moves forward, no two consecutive rows of a path have the same
content, and a run only offers rows for candidates whose content is not the
last one in the catalog that it read. -/
theorem recovery_is_idempotent {deployment : Deployment} {world : World}
    {actions : List SystemAction} {final : System} {sourceId : String}
    (minimal : ChangeLog.Minimal (observationLog world.catalog sourceId))
    (exec : (System.turnsMachine deployment).exec ⟨world, []⟩ actions = some final)
    (clocked : System.Clocked sourceId world.catalog (System.trace deployment world actions)
      final.runs) :
    ChangeLog.Minimal (observationLog final.world.catalog sourceId) ∧
      ∀ (index : Nat) (run : Run), final.runs[index]? = some run →
        run.plan.sourceId = sourceId → run.plan.mode.writes = true →
        ∀ rows ∈ shown Process.handing (System.trace deployment world actions index),
          ∀ info ∈ rows, ∃ catalog,
            shown Process.reads (System.trace deployment world actions index) = [catalog] ∧
              run.Novel catalog info := by
  have plain := (System.machine deployment).exec_of_restrict System.turns exec
  have remembers := System.remembers_of_exec plain
  have sequenced := System.sequenced_of_exec sourceId exec
  constructor
  · rw [observationLog, sequenced.catalog]
    exact sequenced.minimal remembers (System.trace_eq_nil plain) clocked minimal final.runs.length
  · intro index run found _ writes
    exact (remembers index run found).novel writes

/-! ## A history -/

def changedRow (runId : Uuid) (now : DateTime) : FileInfo :=
  let context : FileContext :=
    ⟨⟨[utf8Bytes "data"]⟩, true, .ingest, runId, "/data", some fun _ => none⟩
  { (PreparedFile.observe sampleDeployment context
      (FileInfo.scanned (samplePath "a") 11 (sampleDetails now)) "a"
      ⟨sampleCrypto.hexDigest (utf8Bytes "hello there")⟩ now).info with ingestedAt := some now }

/-- A run is killed with its batch in flight, and the file is edited.  The batch
lands when the second run has begun, which brings the new content; its commit is
rejected and applied all the same. -/
def historySchedule : List SystemAction :=
  System.solo (samplePlan 1) (oneFileSchedule 1 1000000 ++ requestSchedule 1000000 ++
      [.kill, .edit (samplePath "a") (some ⟨utf8Bytes "hello there", helloThere_length_lt⟩)]) ++
    [.begin (samplePlan 2), .act 0 .land] ++
    (reconcileSchedule ["a"] 2000000 ++
      ([.spawn, .await].map fun action => ProcessAction.ingest (.pipeline action)) ++
      hashSchedule 0 2000000 ++ uploadSchedule 0 2000000 ++
      deliverSchedule (changedRow 2 2000000) .uploaded ++ requestSchedule 2000000 ++
      [ProcessAction.ingest (.commit (.requestFailed (.msg "conflict"))), .land, .kill]).map
        (.act 1)

theorem recovery_is_idempotent_history :
    ∃ final run catalog, (System.turnsMachine sampleDeployment).exec ⟨sampleWorld, []⟩
        historySchedule = some final ∧
      (observationLog final.world.catalog "/data").map ChangeLog.Entry.value =
        [sampleCrypto.hexDigest (utf8Bytes "hello world"),
          sampleCrypto.hexDigest (utf8Bytes "hello there")] ∧
      ChangeLog.Minimal (observationLog final.world.catalog "/data") ∧
      final.runs[1]? = some run ∧
      shown Process.reads (System.trace sampleDeployment sampleWorld historySchedule 1) =
        [catalog] ∧
      run.Novel catalog (changedRow 2 2000000) := by
  obtain ⟨final, exec, shows⟩ := Option.map_eq_some_iff.mp (show
    ((System.turnsMachine sampleDeployment).exec ⟨sampleWorld, []⟩ historySchedule).map
      (fun final => ((observationLog final.world.catalog "/data").map ChangeLog.Entry.value,
        final.runs.map fun run => (run.plan.sourceId, run.plan.mode))) =
      some ([sampleCrypto.hexDigest (utf8Bytes "hello world"),
        sampleCrypto.hexDigest (utf8Bytes "hello there")],
        [("/data", .ingest), ("/data", .ingest)]) by decide +kernel)
  obtain ⟨values, plans⟩ := Prod.mk.injEq .. ▸ shows
  have first : shown Process.readings
      (System.trace sampleDeployment sampleWorld historySchedule 0) = [1000000] := by
    decide +kernel
  have second : shown Process.readings
      (System.trace sampleDeployment sampleWorld historySchedule 1) = [2000000] := by
    decide +kernel
  have handed : shown Process.handing
      (System.trace sampleDeployment sampleWorld historySchedule 1) =
        [[changedRow 2 2000000]] := by
    decide +kernel
  have two : final.runs.length = 2 := by simpa using congrArg List.length plans
  have below : ∀ {index}, System.Writer final.runs "/data" index → index < 2 := by
    rintro index ⟨run, found, -⟩
    rw [← two]
    exact (List.getElem?_eq_some_iff.mp found).1
  obtain ⟨run, place, plan⟩ : ∃ run, final.runs[1]? = some run ∧
      (run.plan.sourceId, run.plan.mode) = ("/data", .ingest) := by
    have last := congrArg (fun plans => plans[1]?) plans
    rw [List.getElem?_map] at last
    exact Option.map_eq_some_iff.mp last
  obtain ⟨source, mode⟩ := Prod.mk.injEq .. ▸ plan
  have minimal : ChangeLog.Minimal (observationLog sampleWorld.catalog "/data") :=
    ChangeLog.minimal_nil
  obtain ⟨stays, offers⟩ := recovery_is_idempotent minimal exec {
    start := fun _ _ _ member => nomatch member
    forward := by
      intro earlier later less _ writer before taken after read
      have last := below writer
      obtain ⟨rfl, rfl⟩ : earlier = 0 ∧ later = 1 := by omega
      rw [first, List.mem_singleton] at taken
      rw [second, List.mem_singleton] at read
      subst before after
      decide }
  obtain ⟨catalog, read, novel⟩ := offers 1 run place source (by rw [mode]; rfl) _
    (handed ▸ List.mem_singleton.mpr rfl) _ (List.mem_singleton.mpr rfl)
  exact ⟨final, run, catalog, exec, values, stays, place, read, novel⟩

end AntiEntropator.Ingest
