import Spicebench.Proof.Commands.Checkpoint
import Spicebench.Proof.Commands.Failure
import Spicebench.Proof.Commands.Run

namespace Spicebench.Commands
open Library Etl

variable {Table Key Data : Type} [DecidableEq Table]

/-- The oracle runs one step where the benchmark skips the seed of a base that is a single step. -/
def Misaligned (metadata : Metadata Table) (version : VersionMetadata) (interval : Nat) : Prop :=
  version.bootstrap = true ∧ version.numSteps ≤ 1 ∧ 2 ≤ interval ∧ 2 ≤ (planKeys metadata).length

/-- Two scheduled checkpoints hold the same batches when their first runs cover the same ones. -/
theorem applied_eq {metadata : Metadata Table} {first other interval : Nat} {written validated : List (Checkpoint Table)}
    (scheduled : Scheduled metadata first interval written) (against : Scheduled metadata other interval validated)
    (same : ∀ intervals table batchId, Covered metadata (first + intervals * interval) table batchId ↔
      Covered metadata (other + intervals * interval) table batchId)
    {one two : Checkpoint Table} (wrote : one ∈ written) (checked : two ∈ validated) (index : one.index = two.index) :
    one.applied = two.applied := by
  ext ⟨table, batchId⟩
  have mine := scheduled one wrote table batchId
  have other := against two checked table batchId
  rw [index] at mine
  exact mine.trans ((same two.index table batchId).trans other.symm)

omit [DecidableEq Table] in
/-- The commands start with the same budget except for a single-step base and a longer interval. -/
theorem firstTarget_eq_or (args : RunArgs) {interval : Nat} (positive : 1 ≤ interval) :
    (⟨args.version, interval⟩ : CheckpointArgs).firstBudget = args.firstTarget interval ∨
      args.version.bootstrap = true ∧ args.version.numSteps ≤ 1 ∧ 2 ≤ interval ∧
        (⟨args.version, interval⟩ : CheckpointArgs).firstBudget = 1 ∧ args.firstTarget interval = interval := by
  unfold CheckpointArgs.firstBudget RunArgs.firstTarget RunArgs.seeds VersionMetadata.baseRemainder
  cases bootstrap : args.version.bootstrap with
  | false => simp
  | true =>
      by_cases single : args.version.numSteps ≤ 1
      · have zero : args.version.numSteps - 1 = 0 := by omega
        by_cases one : interval = 1
        · simp [zero, one]
        · right
          simp only [zero, single, Bool.true_and, if_true, true_and]
          refine ⟨by omega, by simp, by simp⟩
      · left
        have base : 0 < args.version.numSteps - 1 := by omega
        simp [base]
        omega

/-- A second key of the plan is covered by a longer first run only. -/
theorem exists_uncovered {metadata : Metadata Table} {interval : Nat} (longer : 2 ≤ interval)
    (keys : 2 ≤ (planKeys metadata).length) :
    ∃ table batchId, Covered metadata interval table batchId ∧ ¬ Covered metadata 1 table batchId := by
  have ascending := (buildWorkPlan metadata metadata.tables true).keys_ascending
  change (planKeys metadata).Pairwise (· < ·) at ascending
  match listed : planKeys metadata, keys with
  | least :: second :: rest, _ =>
      have member : second ∈ planKeys metadata := by simp [listed]
      obtain ⟨table, planned, later⟩ := mem_planKeys.mp member
      obtain ⟨more, rfl⟩ : ∃ more, interval = more + 2 := ⟨interval - 2, by omega⟩
      refine ⟨table, second, ⟨planned, .inr (by simp [listed])⟩, ?_⟩
      rintro ⟨_, first | early⟩
      · exact later first
      · rw [listed] at early ascending
        have before := (List.pairwise_cons.mp ascending).1 second List.mem_cons_self
        have same : second = least := by simpa using early
        omega

/-- The checkpoints of the oracle and those that the benchmark validates hold the same batches at every
common index, unless a bootstrap version has a single base step, the interval is longer than that, and
the plan has two keys. -/
theorem checkpoints_agree_iff (metadata : Metadata Table) (args : RunArgs) {interval : Nat}
    (positive : 1 ≤ interval) (steps : args.checkpointSteps = some interval)
    (validates : args.validateResults = true) (loaded : args.loaded 0 = true)
    (oracleConfig benchmarkConfig : EtlConfig Key Data)
    (oracleEnvironment benchmarkEnvironment : Environment Table Key Data)
    (oracleHealthy : oracleEnvironment.Healthy metadata.Planned)
    (oracleResponds : oracleEnvironment.Responds metadata.Planned)
    (benchmarkHealthy : benchmarkEnvironment.Healthy metadata.Planned)
    (benchmarkResponds : benchmarkEnvironment.Responds metadata.Planned) :
    (∀ oracle benchmark,
      (checkpointMachine oracleConfig oracleEnvironment metadata ⟨args.version, interval⟩).Reaches
        (.new metadata) oracle →
      (runCommandMachine benchmarkConfig benchmarkEnvironment metadata args).Reaches (.new metadata) benchmark →
      ∀ written ∈ oracle.written, ∀ validated ∈ benchmark.validated, written.index = validated.index →
        written.applied = validated.applied) ↔
    ¬ Misaligned metadata args.version interval := by
  rcases firstTarget_eq_or args positive with equal | ⟨bootstrap, single, longer, oracleFirst, benchmarkFirst⟩
  · -- Both commands follow one schedule, and the condition cannot fail.
    constructor
    · rintro _ ⟨bootstrap, single, longer, _⟩
      have zero : args.version.numSteps - 1 = 0 := by omega
      simp only [CheckpointArgs.firstBudget, RunArgs.firstTarget, RunArgs.seeds, VersionMetadata.baseRemainder,
        bootstrap, zero] at equal
      simp at equal
      omega
    · intro _ oracle benchmark oraclePath benchmarkPath written wrote validated checked index
      have scheduled := Checkpointing.reached positive oracleHealthy oraclePath
      have against := Validating.reached positive steps benchmarkHealthy benchmarkPath
      refine applied_eq scheduled against ?_ wrote checked index
      intro intervals table batchId
      rw [equal]
  · constructor
    · rintro agree ⟨_, _, _, keys⟩
      have seedless : args.seeds = false := by
        have zero : args.version.numSteps - 1 = 0 := by omega
        simp [RunArgs.seeds, VersionMetadata.baseRemainder, zero]
      obtain ⟨oracle, oraclePath, written, wrote, zero⟩ := @exists_first_written _ _ _ _ _ metadata
        ⟨args.version, interval⟩ oracleConfig positive oracleHealthy oracleResponds
      obtain ⟨benchmark, benchmarkPath, validated, checked, none⟩ := exists_first_validated benchmarkConfig
        positive steps validates loaded seedless benchmarkHealthy benchmarkResponds
      have same := agree oracle benchmark oraclePath benchmarkPath written wrote validated checked
        (zero.trans none.symm)
      have scheduled := Checkpointing.reached positive oracleHealthy oraclePath written wrote
      have against := Validating.reached positive steps benchmarkHealthy benchmarkPath validated checked
      obtain ⟨table, batchId, covered, uncovered⟩ := exists_uncovered longer keys
      have both : (table, batchId) ∈ written.applied ↔ (table, batchId) ∈ validated.applied := by rw [same]
      have mine := scheduled table batchId
      have other := against table batchId
      rw [zero, Nat.zero_mul, Nat.add_zero, oracleFirst] at mine
      rw [none, Nat.zero_mul, Nat.add_zero, benchmarkFirst] at other
      exact uncovered (mine.mp (both.mpr (other.mpr covered)))
    · intro aligned oracle benchmark oraclePath benchmarkPath written wrote validated checked index
      have short : (planKeys metadata).length ≤ 1 := by
        by_contra long
        exact aligned ⟨bootstrap, single, longer, by omega⟩
      have scheduled := Checkpointing.reached positive oracleHealthy oraclePath
      have against := Validating.reached positive steps benchmarkHealthy benchmarkPath
      refine applied_eq scheduled against ?_ wrote checked index
      intro intervals table batchId
      have one : (⟨args.version, interval⟩ : CheckpointArgs).firstBudget = 1 := oracleFirst
      rw [covered_all, covered_all]
      · omega
      · dsimp only
        omega

/-- Without bootstrap mode both commands take their first checkpoint after one interval. -/
theorem checkpoints_agree_iff_plain :
    ∃ oracle benchmark, (checkpointMachine sampleConfig sampleEnvironment sampleMetadata ⟨⟨2, false⟩, 5⟩).Reaches
        (.new sampleMetadata) oracle ∧
      (runCommandMachine sampleConfig sampleEnvironment sampleMetadata loadArgs).Reaches
        (.new sampleMetadata) benchmark ∧
      ∃ written ∈ oracle.written, ∃ validated ∈ benchmark.validated, written.index = validated.index ∧
        written.applied = validated.applied := by
  have healthy := sampleEnvironment_healthy sampleMetadata.Planned
  have responds : sampleEnvironment.Responds sampleMetadata.Planned := fun _ _ _ => ⟨_, rfl⟩
  obtain ⟨oracle, oraclePath, written, wrote, zero⟩ := @exists_first_written _ _ _ _ _ sampleMetadata
    ⟨⟨2, false⟩, 5⟩ sampleConfig (by decide) healthy responds
  obtain ⟨benchmark, benchmarkPath, validated, checked, none⟩ := @exists_first_validated _ _ _ _ _ sampleMetadata
    loadArgs 5 sampleConfig (by decide) rfl rfl rfl rfl healthy responds
  have index := zero.trans none.symm
  have agree := (checkpoints_agree_iff sampleMetadata loadArgs (by decide) rfl rfl rfl sampleConfig sampleConfig
    sampleEnvironment sampleEnvironment healthy responds healthy responds).mpr (by simp [Misaligned, loadArgs])
  exact ⟨oracle, benchmark, oraclePath, benchmarkPath, written, wrote, validated, checked, index,
    agree oracle benchmark oraclePath benchmarkPath written wrote validated checked index⟩

/-- A base of a single step is followed by two mutation steps. -/
def shortMetadata : Metadata Unit := ⟨[()], List.nodup_singleton (), fun _ => [0, 1, 2], fun _ => 3⟩

def shortVersion : VersionMetadata := ⟨1, true⟩

/-- The oracle runs one step after `initialize` and takes its first checkpoint. -/
def oracleActions : List (CheckpointAction Unit Nat Unit) :=
  [.proceed [()] (.ok ())] ++ initActions.map CheckpointAction.etl ++ [.proceed [()] (.ok ())] ++
    List.map CheckpointAction.etl ([.background 0 .start, .background 0 (.loopHead false (.ok ())),
      .background 0 (.task () .reserve),
      .background 0 (.task () (.join 1 (sampleRead 1))), .background 0 (.task () .nextBatch),
      .background 0 (.task () .nextSegment), .background 0 (.task () (.writeChunk 0 (.ok ()))),
      .background 0 (.task () .finish), .background 0 (.collect ()), .background 0 .stepDone,
      .background 0 (.loopHead false (.ok ())), .publish 0] : List (PipelineAction Unit Nat Unit)) ++
    [.proceed [()] (.ok ())]

/-- The benchmark has no base to seed, and runs a whole interval before its first checkpoint. -/
def benchmarkActions : List (RunCommandAction Unit Nat Unit) :=
  [proceedWell] ++ initActions.map RunCommandAction.etl ++ [proceedWell, proceedWell] ++
    List.map RunCommandAction.etl ([.background 0 .start, .background 0 (.loopHead false (.ok ())),
      .background 0 (.task () .reserve),
      .background 0 (.task () (.join 1 (sampleRead 1))), .background 0 (.task () .reserve),
      .background 0 (.task () (.join 2 (sampleRead 2))), .background 0 (.task () .nextBatch),
      .background 0 (.task () .nextSegment), .background 0 (.task () (.writeChunk 0 (.ok ()))),
      .background 0 (.task () .finish), .background 0 (.collect ()), .background 0 .stepDone,
      .background 0 (.loopHead false (.ok ())), .publish 0] : List (PipelineAction Unit Nat Unit)) ++
    [proceedWell]

/-- The first checkpoint of the oracle lacks the last batch that the benchmark has applied at its own. -/
theorem checkpoint_zero_differs :
    ∃ oracle benchmark, (checkpointMachine sampleConfig sampleEnvironment shortMetadata ⟨shortVersion, 2⟩).Reaches
        (.new shortMetadata) oracle ∧
      (runCommandMachine sampleConfig sampleEnvironment shortMetadata
        ⟨shortVersion, some 2, true, fun _ => true⟩).Reaches (.new shortMetadata) benchmark ∧
      ∃ written ∈ oracle.written, ∃ validated ∈ benchmark.validated, written.index = validated.index ∧
        written.applied ≠ validated.applied := by
  have wrote : ((checkpointMachine sampleConfig sampleEnvironment shortMetadata ⟨shortVersion, 2⟩).run
      (.new shortMetadata) oracleActions).map CheckpointCommand.written =
      some [⟨0, [.handed () 0, .handed () 1]⟩] := by
    decide
  have checked : ((runCommandMachine sampleConfig sampleEnvironment shortMetadata
      ⟨shortVersion, some 2, true, fun _ => true⟩).run (.new shortMetadata) benchmarkActions).map
        RunCommand.validated = some [⟨0, [.handed () 0, .handed () 1, .handed () 2]⟩] := by
    decide +kernel
  obtain ⟨oracle, oracleRan, written⟩ := Option.map_eq_some_iff.mp wrote
  obtain ⟨benchmark, benchmarkRan, validated⟩ := Option.map_eq_some_iff.mp checked
  have early : ⟨0, [.handed () 0, .handed () 1]⟩ ∈ oracle.written := by simp [written]
  have late : ⟨0, [.handed () 0, .handed () 1, .handed () 2]⟩ ∈ benchmark.validated := by simp [validated]
  refine ⟨oracle, benchmark, Machine.reaches_of_run _ ?_ oracleRan, Machine.reaches_of_run _ ?_ benchmarkRan,
    _, early, _, late, rfl, ?_⟩
  · simp [oracleActions, initActions, checkpointMachine, Environment.AdmitsPipeline, Environment.AdmitsRun,
      Environment.AdmitsTask, Environment.AdmitsFlush, shortMetadata, sampleEnvironment, sampleRead]
  · simp [benchmarkActions, proceedWell, initActions, runCommandMachine, Environment.AdmitsPipeline,
      Environment.AdmitsRun, Environment.AdmitsTask, Environment.AdmitsFlush, shortMetadata, sampleEnvironment,
      sampleRead]
  · intro same
    have lacking : ((), 2) ∈ Checkpoint.applied (⟨0, [.handed () 0, .handed () 1]⟩ : Checkpoint Unit) := by
      rw [same]
      simp [Checkpoint.applied]
    simp [Checkpoint.applied] at lacking

end Spicebench.Commands
