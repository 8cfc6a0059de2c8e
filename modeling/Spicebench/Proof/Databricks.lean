import Spicebench.Construction.Databricks

namespace Spicebench.Databricks
open Library Fallible

variable {Run Dataset : Type}

section Careful

variable (config : Config Dataset) (metadata : Metadata) (datasets : List (String × Dataset)) (remote : Remote Run)

/-- The cluster that a lookup yields. -/
def ClusterConfig.found : ClusterConfig → Option (Cluster Run)
  | ⟨some clusterId, _⟩ => remote.clusters.find? (·.id = clusterId)
  | ⟨none, clusterName⟩ => remote.clusters.find? (·.name = clusterName)

namespace SetupAnswers

variable (answers : SetupAnswers)

def looksUp (cluster : ClusterConfig) : Bool :=
  match cluster.clusterId with
  | some _ => answers.getCluster.isDone
  | none => answers.findClusterByName.isDone

/-- No cluster is there, and the request for a new one reaches the remote side. -/
def createsCluster : Bool :=
  match config.computeTarget with
  | .sparkCluster cluster =>
      cluster.clusterId.isNone && answers.looksUp cluster && (cluster.found remote).isNone && answers.createCluster.applied
  | _ => false

/-- A cluster that an earlier setup made and a teardown terminated is started again. -/
def restartsCluster [DecidableEq Run] : Bool :=
  match config.computeTarget with
  | .sparkCluster cluster =>
      answers.looksUp cluster && answers.ensureClusterRunning.applied && (cluster.found remote).any fun found =>
        remote.clusters.any fun cluster => cluster.id = found.id && cluster.terminated && cluster.maker ≠ .other
  | _ => false

def readiesCluster : Bool :=
  match config.computeTarget with
  | .sparkCluster cluster =>
      answers.looksUp cluster && ((cluster.found remote).isSome ||
        cluster.clusterId.isNone && answers.createCluster.isDone) && answers.ensureClusterRunning.isDone
  | _ => true

/-- All steps up to the record of the run go through. -/
def registers (variant : DatabricksVariant) : Bool :=
  answers.readiesCluster config remote && answers.ensureUcSchemaExists.isDone &&
    (config.tableFormatFromSetupMetadata variant metadata).isOk

def buildsTable (dataset : String × Dataset) : Bool :=
  (answers.dropStaleTable dataset.1).isDone && (config.createTableDdl dataset.1 dataset.2 .delta).isOk

/-- The statement for the first table reaches the remote side. -/
def startsTables : Bool :=
  answers.initializeSchema.isDone &&
    match datasets with
    | [] => false
    | dataset :: _ => answers.buildsTable config dataset && (answers.createTable dataset.1).applied

/-- All steps from the first table to the record of all tables go through. -/
def finishesTables (variant : DatabricksVariant) : Bool :=
  datasets.all (fun dataset => answers.buildsTable config dataset && (answers.createTable dataset.1).isDone) &&
    match variant, config.computeTarget with
    | .databricks, _ => true
    | .lakebase, .lakebase => answers.initializeLakebaseSchema.isDone && datasets.all fun dataset =>
        (answers.alterTable dataset.1).isDone && (answers.createSyncedTable dataset.1).isDone
    | .lakebase, _ => false

end SetupAnswers

/-- The record names nothing that a teardown would have to delete. -/
def RunState.namesNothing (record : RunState) : Bool :=
  record.createdTables = [] && !record.clusterCreatedByAdapter

namespace TeardownAnswers

variable (answers : TeardownAnswers) (record : RunState)

def deletesJob : Bool :=
  match answers.findJobIdByName with
  | .ok (some _) => answers.deleteJob.isDone
  | _ => true

def deletesNotebook : Bool :=
  match answers.findNotebook with
  | .ok true => answers.deleteNotebook.isDone
  | _ => true

def deletesTables : Bool :=
  match record.variant, config.computeTarget with
  | .lakebase, .lakebase => answers.connectLakebasePg.isDone && record.createdTables.all fun tableName =>
      (answers.deleteSyncedTable tableName).isDone && (answers.dropTable tableName).isDone &&
        (answers.dropLakebasePgTable tableName).isDone
  | .lakebase, _ => false
  | .databricks, _ => record.createdTables.all fun tableName => (answers.dropTable tableName).isDone

def terminatesCluster : Bool := !record.clusterCreatedByAdapter || answers.terminateCluster.isDone

/-- Every deletion for the record goes through. -/
def deletes : Bool :=
  answers.deletesJob && answers.deletesNotebook && answers.deletesTables config record &&
    answers.terminatesCluster record

end TeardownAnswers

/-- A setup does not fail between the creation of a cluster and the record of the run, nor between the
first table and the record of the tables; it neither replaces a record that names something nor starts
a terminated cluster of an earlier setup. A teardown that has something to delete does not fail. -/
def careful [DecidableEq Run] (state : State Run) : Action Run Dataset → Bool
  | .setup run metadata datasets answers =>
      match variantFromSetupMetadata metadata with
      | .error _ => true
      | .ok variant =>
          let registers := answers.registers config metadata state.remote variant
          (!answers.createsCluster config state.remote || registers) &&
            !answers.restartsCluster config state.remote &&
            (!registers || (state.runs run).all (·.namesNothing)) &&
            (!(registers && answers.startsTables config datasets) || answers.finishesTables config datasets variant)
  | .teardown run _ answers => (state.runs run).all fun record => record.namesNothing || answers.deletes config record

end Careful

/-- A record names a table that its teardown deletes. -/
def RunState.Names (record : RunState) : Table → Prop
  | .managed name => name ∈ record.createdTables
  | .synced name => name ∈ record.createdTables ∧ record.variant = .lakebase
  | .postgres name => name ∈ record.createdTables ∧ record.variant = .lakebase

def RunState.NamesCluster (record : RunState) (clusterId : String) : Prop :=
  record.clusterCreatedByAdapter = true ∧ record.clusterId = some clusterId

/-- What setups made and no teardown deleted is on record, apart from some tables and clusters of one run. -/
structure RecordedBut (run : Run) (tables : Table → Prop) (clusters : String → Prop) (state : State Run) : Prop where
  tables : ∀ {table : Table} {maker : Run}, state.remote.tables table = some (.setup maker) →
    (maker = run ∧ tables table) ∨ ∃ record, state.runs maker = some record ∧ record.Names table
  clusters : ∀ {cluster : Cluster Run} {maker : Run}, cluster ∈ state.remote.clusters →
    cluster.maker = .setup maker → cluster.terminated = false →
    (maker = run ∧ clusters cluster.id) ∨ ∃ record, state.runs maker = some record ∧ record.NamesCluster cluster.id

/-- Everything is on record. -/
abbrev Recorded (run : Run) : State Run → Prop := RecordedBut run (fun _ => False) fun _ => False

section Keep

variable {run : Run} {tables : Table → Prop} {clusters : String → Prop} {state : State Run}

theorem RecordedBut.mono {moreTables : Table → Prop} {moreClusters : String → Prop}
    (recorded : RecordedBut run tables clusters state) (fewer : ∀ table, tables table → moreTables table)
    (less : ∀ clusterId, clusters clusterId → moreClusters clusterId) :
    RecordedBut run moreTables moreClusters state where
  tables made := (recorded.tables made).imp_left fun ⟨isRun, pending⟩ => ⟨isRun, fewer _ pending⟩
  clusters member made runs := (recorded.clusters member made runs).imp_left fun ⟨isRun, pending⟩ =>
    ⟨isRun, less _ pending⟩

theorem RecordedBut.dropTable (recorded : RecordedBut run tables clusters state) (table : Table) :
    RecordedBut run (fun other => tables other ∧ other ≠ table) clusters
      { state with remote := state.remote.dropTable table } where
  tables {other maker} made := by
    by_cases same : other = table
    · simp [Remote.dropTable, same] at made
    · simp only [Remote.dropTable, Function.update_of_ne same] at made
      exact (recorded.tables made).imp_left fun ⟨isRun, pending⟩ => ⟨isRun, pending, same⟩
  clusters := recorded.clusters

theorem RecordedBut.createTable (recorded : RecordedBut run tables clusters state) (table : Table) :
    RecordedBut run (fun other => tables other ∨ other = table) clusters
      { state with remote := state.remote.createTable table run } where
  tables {other maker} made := by
    have weaker := fun made => (@RecordedBut.tables _ _ _ _ _ recorded other maker made).imp_left fun pending =>
      (⟨pending.1, .inl pending.2⟩ : maker = run ∧ (tables other ∨ other = table))
    by_cases same : other = table
    · subst same
      simp only [Remote.createTable, Function.update_self, Option.some.injEq] at made
      cases existing : state.remote.tables other with
      | none =>
          simp only [existing, Option.getD_none, Maker.setup.injEq] at made
          exact .inl ⟨made.symm, .inr rfl⟩
      | some maker =>
          simp only [existing, Option.getD_some] at made
          exact weaker (existing.trans (congrArg some made))
    · simp only [Remote.createTable, Function.update_of_ne same] at made
      exact weaker made
  clusters := recorded.clusters

theorem RecordedBut.createCluster (recorded : RecordedBut run tables clusters state) (id name : String) :
    RecordedBut run tables (fun other => clusters other ∨ other = id)
      { state with remote := state.remote.createCluster ⟨id, name, false, .setup run⟩ } where
  tables := recorded.tables
  clusters {cluster maker} member made runs := by
    rcases List.mem_append.mp member with member | member
    · exact (recorded.clusters member made runs).imp_left fun ⟨isRun, pending⟩ => ⟨isRun, .inl pending⟩
    · obtain rfl := List.mem_singleton.mp member
      exact .inl ⟨(Maker.setup.inj made).symm, .inr rfl⟩

theorem RecordedBut.terminate (recorded : RecordedBut run tables clusters state) (clusterId : String) :
    RecordedBut run tables (fun other => clusters other ∧ other ≠ clusterId)
      { state with remote := state.remote.setTerminated clusterId true } where
  tables := recorded.tables
  clusters {cluster maker} member made runs := by
    obtain ⟨before, old, rfl⟩ := List.mem_map.mp member
    by_cases same : before.id = clusterId
    · simp [same] at runs
    · simp only [same, if_false] at made runs ⊢
      exact (recorded.clusters old made runs).imp_left fun ⟨isRun, pending⟩ => ⟨isRun, pending, same⟩

/-- A cluster is started that no setup made, or that was not terminated. -/
theorem RecordedBut.start (recorded : RecordedBut run tables clusters state) {clusterId : String}
    (harmless : ∀ cluster ∈ state.remote.clusters, cluster.id = clusterId → cluster.terminated = true →
      cluster.maker = .other) :
    RecordedBut run tables clusters { state with remote := state.remote.setTerminated clusterId false } where
  tables := recorded.tables
  clusters {cluster maker} member made runs := by
    obtain ⟨before, old, rfl⟩ := List.mem_map.mp member
    by_cases same : before.id = clusterId
    · simp only [same, if_true] at made ⊢
      cases terminated : before.terminated with
      | true =>
          rw [harmless before old same terminated] at made
          cases made
      | false => exact same ▸ recorded.clusters old made terminated
    · simp only [same, if_false] at made runs ⊢
      exact recorded.clusters old made runs

/-- Other records stay as they are when the record of the run is replaced. -/
theorem RecordedBut.setRun [DecidableEq Run] {record : Option RunState} {fewer : Table → Prop} {less : String → Prop}
    (recorded : RecordedBut run tables clusters state)
    (keepsTables : ∀ table, tables table ∨ (∃ old, state.runs run = some old ∧ old.Names table) →
      fewer table ∨ ∃ new, record = some new ∧ new.Names table)
    (keepsClusters : ∀ id, clusters id ∨ (∃ old, state.runs run = some old ∧ old.NamesCluster id) →
      less id ∨ ∃ new, record = some new ∧ new.NamesCluster id) :
    RecordedBut run fewer less (state.setRun run record) where
  tables {table maker} made := by
    by_cases same : maker = run
    · subst same
      have known := keepsTables table ((recorded.tables made).imp_left And.right)
      simpa [State.setRun] using known
    · rcases recorded.tables made with ⟨isRun, _⟩ | named
      · exact absurd isRun same
      · exact .inr (by simpa [State.setRun, Function.update_of_ne same] using named)
  clusters {cluster maker} member made runs := by
    by_cases same : maker = run
    · subst same
      have known := keepsClusters cluster.id ((recorded.clusters member made runs).imp_left And.right)
      simpa [State.setRun] using known
    · rcases recorded.clusters member made runs with ⟨isRun, _⟩ | named
      · exact absurd isRun same
      · exact .inr (by simpa [State.setRun, Function.update_of_ne same] using named)

end Keep

section External

theorem Outcome.applied_of_isDone {outcome : Outcome} (isDone : outcome.isDone = true) : outcome.applied = true := by
  cases outcome with
  | done => rfl
  | failed message applied => cases isDone

variable {before failed : State Run → Prop} {returned : Unit → State Run → Prop} {outcome : Outcome}
  {effect : Remote Run → Remote Run}

theorem meets_external (applies : ∀ state, before state → outcome.isDone = true →
      returned () { state with remote := effect state.remote })
    (fails : ∀ state, before state → outcome.isDone = false → failed state)
    (failsApplied : ∀ state, before state → outcome.isDone = false → outcome.applied = true →
      failed { state with remote := effect state.remote }) :
    Meets before (external outcome effect) returned failed := by
  intro state holds
  cases outcome with
  | done => exact applies state holds rfl
  | failed message applied =>
      cases applied with
      | true => exact failsApplied state holds rfl rfl
      | false => exact fails state holds rfl

/-- A step without an effect of its own. -/
theorem meets_external_id (applies : ∀ state, before state → outcome.isDone = true → returned () state)
    (fails : ∀ state, before state → outcome.isDone = false → failed state) :
    Meets before (external outcome id) returned failed :=
  meets_external applies fails fun state holds isFailed _ => fails state holds isFailed

/-- A step that goes through. -/
theorem meets_external_done (isDone : outcome.isDone = true)
    (applies : ∀ state, before state → returned () { state with remote := effect state.remote }) :
    Meets before (external outcome effect) returned failed := by
  refine meets_external (fun state holds _ => applies state holds) ?_ ?_
  · intro _ _ isFailed
    rw [isDone] at isFailed
    cases isFailed
  · intro _ _ isFailed
    rw [isDone] at isFailed
    cases isFailed

end External

section Register

variable {config : Config Dataset} {run : Run} {metadata : Metadata} {answers : SetupAnswers}
  {start : State Run} {cluster : ClusterConfig}

/-- A setup creates a cluster only where it then records it, and starts none that a teardown terminated. -/
structure Prudent [DecidableEq Run] (config : Config Dataset) (metadata : Metadata) (answers : SetupAnswers) (start : State Run)
    (variant : DatabricksVariant) : Prop where
  created : answers.createsCluster config start.remote = true →
    answers.registers config metadata start.remote variant = true
  restarted : answers.restartsCluster config start.remote = false

/-- What holds once a cluster is there: only a new one is not on record. -/
structure Acquired (config : Config Dataset) (metadata : Metadata) (answers : SetupAnswers) (run : Run)
    (start : State Run) (variant : DatabricksVariant) (clusterId : Option String) (created : Bool)
    (state : State Run) : Prop where
  runs : state.runs = start.runs
  recorded : RecordedBut run (fun _ => False) (fun id => created = true ∧ clusterId = some id) state
  readies : answers.readiesCluster config start.remote = true
  registers : created = true → answers.registers config metadata start.remote variant = true

/-- The cluster that a setup goes on with, before it is awaited. -/
inductive Located (run : Run) (answers : SetupAnswers) (start : State Run) (cluster : ClusterConfig) :
    String × Bool → State Run → Prop where
  | existing {found : Cluster Run} (looksUp : answers.looksUp cluster = true)
      (isFound : cluster.found start.remote = some found) : Located run answers start cluster (found.id, false) start
  | created (looksUp : answers.looksUp cluster = true) (unnamed : cluster.clusterId = none)
      (absent : cluster.found start.remote = none) (isDone : answers.createCluster.isDone = true) :
      Located run answers start cluster (answers.newClusterId, true) ⟨start.runs,
        start.remote.createCluster ⟨answers.newClusterId, cluster.clusterName, false, .setup run⟩⟩

theorem readies_of_registers {variant : DatabricksVariant}
    (registers : answers.registers config metadata start.remote variant = true) :
    answers.readiesCluster config start.remote = true := by
  simp only [SetupAnswers.registers, Bool.and_eq_true] at registers
  exact registers.1.1

/-- Awaiting the cluster leaves only a new one off the record. -/
theorem Located.await [DecidableEq Run] {variant : DatabricksVariant}
    (target : config.computeTarget = .sparkCluster cluster)
    (prudent : Prudent config metadata answers start variant) (recorded : Recorded run start)
    (fresh : ∀ cluster ∈ start.remote.clusters, cluster.id ≠ answers.newClusterId) (result : String × Bool) :
    Meets (Located run answers start cluster result)
      (external answers.ensureClusterRunning (·.setTerminated result.1 false))
      (fun _ => Acquired config metadata answers run start variant (some result.1) result.2) (Recorded run) := by
  rintro state (@⟨found, looksUp, isFound⟩ | ⟨looksUp, unnamed, absent, created⟩)
  · have harmless : answers.ensureClusterRunning.applied = true → Recorded run
        { start with remote := start.remote.setTerminated found.id false } := by
      intro applied
      refine recorded.start fun other member same terminated => ?_
      have never := prudent.restarted
      simp only [SetupAnswers.restartsCluster, target, looksUp, applied, isFound, Bool.true_and, Option.any_some,
        List.any_eq_false] at never
      simpa [same, terminated] using never other member
    have existing : Meets (fun state => state = start)
        (external answers.ensureClusterRunning (·.setTerminated found.id false))
        (fun _ => Acquired config metadata answers run start variant (some found.id) false) (Recorded run) := by
      refine meets_external ?_ ?_ ?_
      · rintro state rfl isDone
        refine ⟨rfl, (harmless (Outcome.applied_of_isDone isDone)).mono (fun _ => id) fun _ => False.elim, ?_, ?_⟩
        · simp [SetupAnswers.readiesCluster, target, looksUp, isFound, isDone]
        · exact fun never => by cases never
      · rintro state rfl _
        exact recorded
      · rintro state rfl _ applied
        exact harmless applied
    exact existing start rfl
  · have createsCluster : answers.createsCluster config start.remote = true := by
      have applied := Outcome.applied_of_isDone created
      simp [SetupAnswers.createsCluster, target, looksUp, unnamed, absent, applied]
    have registers := prudent.created createsCluster
    have readies := readies_of_registers registers
    have isDone : answers.ensureClusterRunning.isDone = true := by
      simp only [SetupAnswers.readiesCluster, target, Bool.and_eq_true] at readies
      exact readies.2
    have new := recorded.createCluster answers.newClusterId cluster.clusterName
    refine meets_external_done isDone ?_ _ rfl
    rintro state rfl
    refine ⟨rfl, ?_, readies, fun _ => registers⟩
    refine (new.start ?_).mono (fun _ => id) ?_
    · intro other member same terminated
      rcases List.mem_append.mp member with member | member
      · exact absurd same (fresh other member)
      · obtain rfl := List.mem_singleton.mp member
        cases terminated
    · rintro id (none | rfl)
      · exact none.elim
      · exact ⟨rfl, rfl⟩

variable [DecidableEq Run] {variant : DatabricksVariant}

theorem locateCluster_meets (target : config.computeTarget = .sparkCluster cluster)
    (prudent : Prudent config metadata answers start variant) (recorded : Recorded run start) :
    Meets (fun state => state = start) (locateCluster run answers cluster) (Located run answers start cluster)
      (Recorded run) := by
  have unchanged : ∀ state, state = start → Recorded run state := fun _ same => same ▸ recorded
  have looked : ∀ outcome : Outcome, Meets (fun state => state = start) (external outcome id)
      (fun _ state => state = start ∧ outcome.isDone = true) (Recorded run) :=
    fun outcome => meets_external_id (fun _ same isDone => ⟨same, isDone⟩) fun state same _ => unchanged state same
  have got : ∀ outcome : Outcome, Meets (fun state => state = start ∧ outcome.isDone = true) Fallible.get
      (fun value state => value = start ∧ state = start ∧ outcome.isDone = true) (Recorded run) :=
    fun outcome => Meets.get fun state holds => ⟨holds.1, holds⟩
  unfold locateCluster
  rcases cluster with ⟨clusterId | clusterId, clusterName⟩
  · refine Meets.bind (looked answers.findClusterByName) fun _ => Meets.bind (got _) fun value => ?_
    dsimp only
    split
    · rename_i existing isFound
      refine Meets.pure ?_
      rintro state ⟨rfl, rfl, isDone⟩
      exact .existing isDone isFound
    · rename_i absent
      have created : Meets
          (fun state => value = start ∧ state = start ∧ answers.findClusterByName.isDone = true)
          (external answers.createCluster (·.createCluster ⟨answers.newClusterId, clusterName, false, .setup run⟩))
          (fun _ => Located run answers start ⟨none, clusterName⟩ (answers.newClusterId, true)) (Recorded run) := by
        refine meets_external ?_ ?_ ?_
        · rintro state ⟨rfl, rfl, isDone⟩ created
          exact .created isDone rfl absent created
        · rintro state ⟨_, same, _⟩ _
          exact unchanged state same
        · rintro state ⟨rfl, rfl, isDone⟩ notCreated applied
          have createsCluster : answers.createsCluster config state.remote = true := by
            simp [SetupAnswers.createsCluster, target, SetupAnswers.looksUp, isDone, ClusterConfig.found, absent,
              applied]
          have readies := readies_of_registers (prudent.created createsCluster)
          simp [SetupAnswers.readiesCluster, target, ClusterConfig.found, absent, notCreated] at readies
      exact Meets.bind created fun _ => Meets.pure fun _ => id
  · refine Meets.bind (looked answers.getCluster) fun _ => Meets.bind (got _) fun value => ?_
    split
    · rename_i found isFound
      refine Meets.pure ?_
      rintro state ⟨rfl, rfl, isDone⟩
      exact .existing isDone isFound
    · exact Meets.fail fun state holds => unchanged state holds.2.1

theorem acquireCluster_meets (prudent : Prudent config metadata answers start variant) (recorded : Recorded run start)
    (fresh : ∀ cluster ∈ start.remote.clusters, cluster.id ≠ answers.newClusterId) :
    Meets (fun state => state = start) (acquireCluster config run answers)
      (fun result => Acquired config metadata answers run start variant result.1 result.2) (Recorded run) := by
  have without : (∀ cluster, config.computeTarget ≠ .sparkCluster cluster) → Meets (fun state => state = start)
      (Pure.pure (none, false)) (fun result => Acquired config metadata answers run start variant result.1 result.2)
      (Recorded run) := by
    intro other
    refine Meets.pure ?_
    rintro state rfl
    refine ⟨rfl, recorded.mono (fun _ => id) fun _ => False.elim, ?_, fun never => by cases never⟩
    unfold SetupAnswers.readiesCluster
    split
    · rename_i cluster target
      exact absurd target (other cluster)
    · rfl
  unfold acquireCluster
  split
  · rename_i cluster target
    have ready : Meets (fun state => state = start) (ensureClusterReady run answers cluster)
        (fun result => Acquired config metadata answers run start variant (some result.1) result.2)
        (Recorded run) :=
      Meets.bind (locateCluster_meets target prudent recorded) fun result =>
        Meets.bind (Located.await target prudent recorded fresh result) fun _ => Meets.pure fun _ => id
    exact Meets.bind ready.mapError fun result => Meets.pure fun _ => id
  · rename_i target
    exact without (by simp [target])
  · rename_i target
    exact without (by simp [target])

omit [DecidableEq Run] in
/-- A step may fail between the creation of a cluster and the record only if none was created. -/
theorem Acquired.of_failed {clusterId : Option String} {created : Bool} {state : State Run}
    (acquired : Acquired config metadata answers run start variant clusterId created state)
    (fails : answers.registers config metadata start.remote variant = false) : Recorded run state := by
  refine acquired.recorded.mono (fun _ => id) ?_
  rintro id ⟨isCreated, _⟩
  rw [acquired.registers isCreated] at fails
  cases fails

/-- What holds once a run is on record. -/
structure Registered (config : Config Dataset) (metadata : Metadata) (answers : SetupAnswers) (run : Run)
    (start : State Run) (variant : DatabricksVariant) (state : State Run) : Prop where
  recorded : Recorded run state
  record : ∃ record, state.runs run = some record ∧ record.createdTables = [] ∧ record.variant = variant
  registers : answers.registers config metadata start.remote variant = true

theorem Acquired.register {clusterId : Option String} {created : Bool} {state : State Run}
    (acquired : Acquired config metadata answers run start variant clusterId created state)
    (registers : answers.registers config metadata start.remote variant = true)
    (emptied : (start.runs run).all (·.namesNothing) = true) (format : TableFormat) (slug : String) :
    Registered config metadata answers run start variant
      (state.setRun run (some ⟨format, variant, slug, [], clusterId, created⟩)) := by
  have nothing : ∀ old, state.runs run = some old → old.createdTables = [] ∧ old.clusterCreatedByAdapter = false := by
    intro old isOld
    rw [acquired.runs] at isOld
    rw [isOld, Option.all_some] at emptied
    simpa [RunState.namesNothing] using emptied
  have record : (state.setRun run (some ⟨format, variant, slug, [], clusterId, created⟩)).runs run =
      some ⟨format, variant, slug, [], clusterId, created⟩ := Function.update_self ..
  refine ⟨acquired.recorded.setRun ?_ ?_, ⟨_, record, rfl, rfl⟩, registers⟩
  · rintro table (none | ⟨old, isOld, named⟩)
    · exact none.elim
    · cases table <;> simp [RunState.Names, (nothing old isOld).1] at named
  · rintro id (⟨isCreated, isId⟩ | ⟨old, isOld, isCreated, _⟩)
    · exact .inr ⟨_, rfl, isCreated, isId⟩
    · rw [(nothing old isOld).2] at isCreated
      cases isCreated

theorem registerRun_meets (isVariant : variantFromSetupMetadata metadata = .ok variant)
    (prudent : Prudent config metadata answers start variant) (recorded : Recorded run start)
    (fresh : ∀ cluster ∈ start.remote.clusters, cluster.id ≠ answers.newClusterId)
    (emptied : answers.registers config metadata start.remote variant = true →
      (start.runs run).all (·.namesNothing) = true) :
    Meets (fun state => state = start) (registerRun config run metadata answers)
      (fun result state => result = variant ∧ Registered config metadata answers run start variant state)
      (Recorded run) := by
  have parsed : Meets (fun state => state = start) (ofExcept (variantFromSetupMetadata metadata))
      (fun result state => result = variant ∧ state = start) (Recorded run) := by
    refine Meets.ofExcept ?_ ?_
    · intro state same result isResult
      rw [isVariant] at isResult
      exact ⟨(Except.ok.inj isResult).symm, same⟩
    · intro state same
      rw [same]
      exact fun _ _ => recorded
  unfold registerRun
  refine Meets.bind parsed.mapError ?_
  rintro result
  by_cases same : result = variant
  swap
  · exact fun state holds => absurd holds.1 same
  subst same
  refine Meets.bind ((acquireCluster_meets prudent recorded fresh).weaken (fun _ holds => holds.2)
    (fun _ _ => id) fun _ => id) ?_
  rintro ⟨clusterId, created⟩
  have schema : Meets (Acquired config metadata answers run start result clusterId created)
      (external answers.ensureUcSchemaExists id)
      (fun _ state => Acquired config metadata answers run start result clusterId created state ∧
        answers.ensureUcSchemaExists.isDone = true) (Recorded run) := by
    refine meets_external_id (fun _ holds isDone => ⟨holds, isDone⟩) ?_
    intro state holds notDone
    exact holds.of_failed (by simp [SetupAnswers.registers, notDone])
  refine Meets.bind schema.mapError fun _ => ?_
  have format : Meets (fun state => Acquired config metadata answers run start result clusterId created state ∧
        answers.ensureUcSchemaExists.isDone = true) (ofExcept (config.tableFormatFromSetupMetadata result metadata))
      (fun _ state => Acquired config metadata answers run start result clusterId created state ∧
        answers.registers config metadata start.remote result = true) (Recorded run) := by
    refine Meets.ofExcept ?_ ?_
    · rintro state ⟨holds, isDone⟩ value isValue
      exact ⟨holds, by simp [SetupAnswers.registers, holds.readies, isDone, isValue, Except.isOk, Except.toBool]⟩
    · rintro state ⟨holds, _⟩ message isError
      exact holds.of_failed (by simp [SetupAnswers.registers, isError, Except.isOk, Except.toBool])
  refine Meets.bind format.mapError fun tableFormat => ?_
  refine Meets.bind ?_ fun _ => Meets.pure fun state
    (registered : Registered config metadata answers run start result state) => ⟨rfl, registered⟩
  exact Meets.modify fun state holds =>
    holds.1.register holds.2 (emptied holds.2) tableFormat (scenarioSlug metadata)

end Register

section Tables

variable {config : Config Dataset} {run : Run} {answers : SetupAnswers} {datasets : List (String × Dataset)}
  {variant : DatabricksVariant} {record : RunState}

/-- The tables that a setup has created so far are not on record yet. -/
structure Building (run : Run) (record : RunState) (tables : Table → Prop) (state : State Run) : Prop where
  recorded : RecordedBut run tables (fun _ => False) state
  record : state.runs run = some record

theorem Building.dropTable {tables : Table → Prop} {state : State Run} (building : Building run record tables state)
    (table : Table) : Building run record tables { state with remote := state.remote.dropTable table } :=
  ⟨(building.recorded.dropTable table).mono (fun _ => And.left) fun _ => id, building.record⟩

theorem Building.createTable {tables : Table → Prop} {state : State Run} (building : Building run record tables state)
    (table : Table) : Building run record (fun other => tables other ∨ other = table)
      { state with remote := state.remote.createTable table run } :=
  ⟨building.recorded.createTable table, building.record⟩

def managedTables (datasets : List (String × Dataset)) (table : Table) : Prop :=
  ∃ dataset ∈ datasets, table = .managed dataset.1

def syncedTables (datasets : List (String × Dataset)) (table : Table) : Prop :=
  ∃ dataset ∈ datasets, table = .synced dataset.1 ∨ table = .postgres dataset.1

/-- A managed table is created where its steps go through. -/
theorem createManagedTable_meets {tables : Table → Prop} {dataset : String × Dataset}
    (builds : answers.buildsTable config dataset = true) (creates : (answers.createTable dataset.1).isDone = true) :
    Meets (Building run record tables) (createManagedTable config run answers dataset)
      (fun _ => Building run record fun table => tables table ∨ table = .managed dataset.1) (fun _ => False) := by
  simp only [SetupAnswers.buildsTable, Bool.and_eq_true] at builds
  have dropped : Meets (Building run record tables)
      (external (answers.dropStaleTable dataset.1) (·.dropTable (.managed dataset.1)))
      (fun _ => Building run record tables) (fun _ => False) :=
    meets_external_done builds.1 fun _ building => building.dropTable _
  have described : Meets (Building run record tables) (ofExcept (config.createTableDdl dataset.1 dataset.2 .delta))
      (fun _ => Building run record tables) (fun _ => False) := by
    refine Meets.ofExcept (fun _ building _ _ => building) ?_
    intro _ _ message isError
    rw [isError] at builds
    cases builds.2
  refine Meets.bind dropped.mapError fun _ => Meets.bind described.mapError fun _ => Meets.mapError ?_
  exact meets_external_done creates fun _ building => building.createTable _

/-- The first table is not created where its steps do not go through. -/
theorem createManagedTable_fails {dataset : String × Dataset}
    (fails : (answers.buildsTable config dataset && (answers.createTable dataset.1).applied) = false) :
    Meets (Building run record fun _ => False) (createManagedTable config run answers dataset)
      (fun _ _ => False) (Recorded run) := by
  have dropped : Meets (Building run record fun _ => False)
      (external (answers.dropStaleTable dataset.1) (·.dropTable (.managed dataset.1)))
      (fun _ state => Building run record (fun _ => False) state ∧ (answers.dropStaleTable dataset.1).isDone = true)
      (Recorded run) :=
    meets_external (fun _ building isDone => ⟨building.dropTable _, isDone⟩) (fun _ building _ => building.recorded)
      fun _ building _ _ => (building.dropTable _).recorded
  have described : Meets (fun state => Building run record (fun _ => False) state ∧
        (answers.dropStaleTable dataset.1).isDone = true) (ofExcept (config.createTableDdl dataset.1 dataset.2 .delta))
      (fun _ state => Building run record (fun _ => False) state ∧ (answers.createTable dataset.1).applied = false)
      (Recorded run) := by
    refine Meets.ofExcept ?_ fun _ holds _ _ => holds.1.recorded
    rintro state ⟨building, isDone⟩ ddl isDdl
    refine ⟨building, ?_⟩
    simpa [SetupAnswers.buildsTable, isDone, isDdl, Except.isOk, Except.toBool] using fails
  refine Meets.bind dropped.mapError fun _ => Meets.bind described.mapError fun _ => Meets.mapError ?_
  refine meets_external ?_ (fun _ holds _ => holds.1.recorded) ?_
  · intro _ holds isDone
    rw [Outcome.applied_of_isDone isDone] at holds
    cases holds.2
  · intro _ holds _ applied
    rw [applied] at holds
    cases holds.2

/-- A synced table is created where its steps go through. -/
theorem createSyncedTable_meets {tables : Table → Prop} {dataset : String × Dataset}
    (alters : (answers.alterTable dataset.1).isDone = true)
    (creates : (answers.createSyncedTable dataset.1).isDone = true) :
    Meets (Building run record tables) (createSyncedTable run answers dataset)
      (fun _ => Building run record fun table => (tables table ∨ table = .synced dataset.1) ∨
        table = .postgres dataset.1) (fun _ => False) := by
  have altered : Meets (Building run record tables) (external (answers.alterTable dataset.1) id)
      (fun _ => Building run record tables) (fun _ => False) :=
    meets_external_done alters fun _ building => building
  refine Meets.bind altered.mapError fun _ => Meets.mapError ?_
  exact meets_external_done creates fun _ building => (building.createTable _).createTable _

/-- The stale copies are deleted as far as possible. -/
theorem deleteStale_meets {tables : Table → Prop} (datasets : List (String × Dataset)) (failed : State Run → Prop) :
    Meets (Building run record tables)
      (forEach (fun dataset => (external (answers.deleteStaleSyncedTable dataset.1)
        (·.dropTable (.synced dataset.1))).ignoreError) datasets)
      (fun _ => Building run record tables) failed := by
  refine Meets.forEach (fun _ => Building run record tables) fun _ dataset _ _ => Meets.ignoreError ?_
  exact meets_external (fun _ building _ => building.dropTable _) (fun _ building _ => building)
    fun _ building _ _ => building.dropTable _

/-- The tables that a variant needs. -/
def builtTables (variant : DatabricksVariant) (datasets : List (String × Dataset)) (table : Table) : Prop :=
  managedTables datasets table ∨ (variant = .lakebase ∧ syncedTables datasets table)

theorem createManagedTables_meets (builds : datasets.all (fun dataset =>
      answers.buildsTable config dataset && (answers.createTable dataset.1).isDone) = true) :
    Meets (Building run record fun _ => False) (forEach (createManagedTable config run answers) datasets)
      (fun _ => Building run record (managedTables datasets)) (fun _ => False) := by
  have loop : Meets (Building run record (managedTables ([] : List (String × Dataset))))
      (forEach (createManagedTable config run answers) datasets)
      (fun _ => Building run record (managedTables datasets)) (fun _ => False) := by
    refine Meets.forEach (fun done => Building run record (managedTables done)) ?_
    intro done dataset rest split
    have member : dataset ∈ datasets := by simp [split]
    have built := List.all_eq_true.mp builds dataset member
    rw [Bool.and_eq_true] at built
    refine (createManagedTable_meets built.1 built.2).weaken (fun _ => id) ?_ fun _ => id
    rintro _ state ⟨recorded, isRecord⟩
    refine ⟨recorded.mono ?_ fun _ => id, isRecord⟩
    rintro table (⟨other, before, rfl⟩ | rfl)
    · exact ⟨other, by simp [before], rfl⟩
    · exact ⟨dataset, by simp, rfl⟩
  refine loop.weaken ?_ (fun _ _ => id) fun _ => id
  exact fun state building => ⟨building.recorded.mono (fun _ => False.elim) fun _ => id, building.record⟩

theorem createSyncedTables_meets (failed : State Run → Prop) {tables : Table → Prop}
    (creates : datasets.all (fun dataset =>
      (answers.alterTable dataset.1).isDone && (answers.createSyncedTable dataset.1).isDone) = true) :
    Meets (Building run record tables) (joinAll (createSyncedTable run answers) datasets)
      (fun _ => Building run record fun table => tables table ∨ syncedTables datasets table) failed := by
  have loop : Meets (Building run record fun table => tables table ∨ syncedTables ([] : List (String × Dataset)) table)
      (joinAll (createSyncedTable run answers) datasets)
      (fun _ => Building run record fun table => tables table ∨ syncedTables datasets table) failed := by
    refine Meets.joinAll (fun done => Building run record fun table => tables table ∨ syncedTables done table) ?_
    intro done dataset rest split
    have member : dataset ∈ datasets := by simp [split]
    have built := List.all_eq_true.mp creates dataset member
    rw [Bool.and_eq_true] at built
    refine (createSyncedTable_meets built.1 built.2).weaken (fun _ => id) ?_ fun _ => id
    rintro _ state ⟨recorded, isRecord⟩
    refine ⟨recorded.mono ?_ fun _ => id, isRecord⟩
    rintro table (((before | ⟨other, before, isTable⟩) | rfl) | rfl)
    · exact .inl before
    · exact .inr ⟨other, by simp [before], isTable⟩
    · exact .inr ⟨dataset, by simp, .inl rfl⟩
    · exact .inr ⟨dataset, by simp, .inr rfl⟩
  refine loop.weaken ?_ (fun _ _ => id) fun _ => id
  exact fun state building => ⟨building.recorded.mono (fun _ => .inl) fun _ => id, building.record⟩

theorem postProcess_meets (finishes : answers.finishesTables config datasets variant = true) :
    Meets (Building run record (managedTables datasets)) (postProcess config run answers datasets variant)
      (fun _ => Building run record (builtTables variant datasets)) (fun _ => False) := by
  simp only [SetupAnswers.finishesTables, Bool.and_eq_true] at finishes
  have managed : ∀ state, Building run record (managedTables datasets) state →
      Building run record (builtTables variant datasets) state :=
    fun state building => ⟨building.recorded.mono (fun _ => .inl) fun _ => id, building.record⟩
  cases variant with
  | databricks => exact Meets.pure managed
  | lakebase =>
      unfold postProcess
      cases target : config.computeTarget with
      | lakebase =>
          simp only [target, Bool.and_eq_true] at finishes
          have schema : Meets (Building run record (managedTables datasets))
              (external answers.initializeLakebaseSchema id) (fun _ => Building run record (managedTables datasets))
              (fun _ => False) :=
            meets_external_done finishes.2.1 fun _ building => building
          refine Meets.bind schema.mapError fun _ => Meets.bind (deleteStale_meets datasets _) fun _ => ?_
          refine (createSyncedTables_meets (fun _ => False) finishes.2.2).weaken (fun _ => id) ?_ fun _ => id
          rintro _ state ⟨recorded, isRecord⟩
          refine ⟨recorded.mono ?_ fun _ => id, isRecord⟩
          exact fun table built => built.imp_right fun synced => ⟨rfl, synced⟩
      | sparkCluster cluster =>
          rw [target] at finishes
          cases finishes.2
      | sqlWarehouse =>
          rw [target] at finishes
          cases finishes.2

/-- Without datasets there is nothing to sync. -/
theorem postProcess_nil_meets : Meets (Building run record fun _ => False)
    (postProcess config run answers ([] : List (String × Dataset)) variant)
    (fun _ => Building run record fun _ => False) (Recorded run) := by
  cases variant with
  | databricks => exact Meets.pure fun _ => id
  | lakebase =>
      unfold postProcess
      cases config.computeTarget with
      | lakebase =>
          have schema : Meets (Building run record fun _ => False) (external answers.initializeLakebaseSchema id)
              (fun _ => Building run record fun _ => False) (Recorded run) :=
            meets_external_id (fun _ building _ => building) fun _ building _ => building.recorded
          exact Meets.bind schema.mapError fun _ => Meets.bind (deleteStale_meets [] _) fun _ => Meets.pure fun _ => id
      | sparkCluster cluster => exact Meets.fail fun _ building => building.recorded
      | sqlWarehouse => exact Meets.fail fun _ building => building.recorded

/-- The record of the tables covers what was built. -/
theorem Building.record_tables [DecidableEq Run] {state : State Run}
    (building : Building run record (builtTables variant datasets) state)
    (named : record.createdTables = []) (isVariant : record.variant = variant) :
    Recorded run (state.setRun run
      ((state.runs run).map fun record => { record with createdTables := datasets.map Prod.fst })) := by
  rw [building.record, Option.map_some]
  refine building.recorded.setRun ?_ ?_
  · rintro table (built | ⟨old, isOld, names⟩)
    · refine .inr ⟨_, rfl, ?_⟩
      rcases built with ⟨dataset, member, rfl⟩ | ⟨rfl, dataset, member, rfl | rfl⟩
      · exact List.mem_map_of_mem member
      · exact ⟨List.mem_map_of_mem member, isVariant⟩
      · exact ⟨List.mem_map_of_mem member, isVariant⟩
    · obtain rfl := Option.some.inj (building.record.symm.trans isOld)
      cases table <;> simp [RunState.Names, named] at names
  · rintro id (none | ⟨old, isOld, names⟩)
    · exact none.elim
    · obtain rfl := Option.some.inj (building.record.symm.trans isOld)
      exact .inr ⟨_, rfl, names⟩

theorem createTables_meets [DecidableEq Run] (named : record.createdTables = []) (isVariant : record.variant = variant)
    (allowed : answers.startsTables config datasets = true →
      answers.finishesTables config datasets variant = true) :
    Meets (Building run record fun _ => False) (createTables config run answers datasets variant)
      (fun _ => Recorded run) (Recorded run) := by
  have schema : Meets (Building run record fun _ => False) (external answers.initializeSchema id)
      (fun _ state => Building run record (fun _ => False) state ∧ answers.initializeSchema.isDone = true)
      (Recorded run) :=
    meets_external_id (fun _ building isDone => ⟨building, isDone⟩) fun _ building _ => building.recorded
  unfold createTables
  refine Meets.bind schema.mapError fun _ => ?_
  by_cases isDone : answers.initializeSchema.isDone = true
  swap
  · exact fun state holds => absurd holds.2 isDone
  by_cases starts : answers.startsTables config datasets = true
  · have finishes := allowed starts
    have builds := finishes
    simp only [SetupAnswers.finishesTables, Bool.and_eq_true] at builds
    refine Meets.bind ((createManagedTables_meets builds.1).weaken (fun _ => And.left) (fun _ _ => id)
      fun _ => False.elim) fun _ => ?_
    refine Meets.bind ((postProcess_meets finishes).weaken (fun _ => id) (fun _ _ => id) fun _ => False.elim) fun _ => ?_
    exact Meets.modify fun _ building => building.record_tables named isVariant
  · cases datasets with
    | nil =>
        refine Meets.bind (Meets.pure fun _ => And.left) fun _ => Meets.bind postProcess_nil_meets fun _ => ?_
        refine Meets.modify fun state building => ?_
        have built : Building run record (builtTables variant ([] : List (String × Dataset))) state :=
          ⟨building.recorded.mono (fun _ => False.elim) fun _ => id, building.record⟩
        exact built.record_tables named isVariant
    | cons dataset rest =>
        have fails : (answers.buildsTable config dataset && (answers.createTable dataset.1).applied) = false := by
          simpa [SetupAnswers.startsTables, isDone] using starts
        refine Meets.bind (Meets.bind ((createManagedTable_fails fails).weaken (fun _ => And.left) (fun _ _ => id)
          fun _ => id) fun _ _ => False.elim) fun _ _ => False.elim

/-- The response is built without any change. -/
theorem setupResponse_meets (holds : State Run → Prop) :
    Meets holds (setupResponse config answers) (fun _ => holds) holds := by
  unfold setupResponse
  split
  · refine Meets.bind (Meets.mapError ?_) fun _ => Meets.pure fun _ => id
    exact Meets.ofExcept (fun _ held _ _ => held) fun _ held _ _ => held
  · exact Meets.pure fun _ => id

end Tables

section Setup

variable [DecidableEq Run] {config : Config Dataset} {run : Run} {metadata : Metadata} {answers : SetupAnswers}
  {datasets : List (String × Dataset)} {state : State Run}

/-- A careful setup leaves everything on record, whether it returns or fails. -/
theorem setup_recorded (allowed : careful config state (.setup run metadata datasets answers) = true)
    (fresh : ∀ cluster ∈ state.remote.clusters, cluster.id ≠ answers.newClusterId) (recorded : Recorded run state) :
    Recorded run (setup config run metadata answers datasets state).2 := by
  suffices met : Meets (fun start => start = state) (setup config run metadata answers datasets)
      (fun _ => Recorded run) (Recorded run) from met.state rfl
  unfold setup
  cases isVariant : variantFromSetupMetadata metadata with
  | error message =>
      have unparsed : Meets (fun start => start = state) (ofExcept (variantFromSetupMetadata metadata))
          (fun _ _ => False) (Recorded run) := by
        rw [isVariant]
        exact Meets.fail fun _ same => same ▸ recorded
      refine Meets.bind (Meets.bind unparsed.mapError fun _ _ => False.elim) fun _ _ => False.elim
  | ok variant =>
      simp only [careful, isVariant, Bool.and_eq_true, Bool.or_eq_true, Bool.not_eq_true'] at allowed
      obtain ⟨⟨⟨created, restarted⟩, emptied⟩, finishes⟩ := allowed
      have prudent : Prudent config metadata answers state variant :=
        ⟨fun creates => created.resolve_left (by simp [creates]), restarted⟩
      refine Meets.bind (registerRun_meets isVariant prudent recorded fresh fun registers =>
        emptied.resolve_left (by simp [registers])) fun result => ?_
      refine Meets.bind ?_ fun _ => setupResponse_meets (Recorded run)
      rintro start ⟨rfl, registered⟩
      obtain ⟨record, isRecord, named, sameVariant⟩ := registered.record
      refine createTables_meets named sameVariant (fun starts => finishes.resolve_left ?_) start
        ⟨registered.recorded, isRecord⟩
      simp [registered.registers, starts]

end Setup

section Teardown

variable {config : Config Dataset} {run : Run} {answers : TeardownAnswers} {record : RunState}
  {tables : Table → Prop} {clusters : String → Prop}

/-- The record of the run is gone, and some of its tables and clusters may be left. -/
structure Torn (run : Run) (tables : Table → Prop) (clusters : String → Prop) (state : State Run) : Prop where
  recorded : RecordedBut run tables clusters state
  unrecorded : state.runs run = none

theorem Torn.mono {moreTables : Table → Prop} {state : State Run} (torn : Torn run tables clusters state)
    (fewer : ∀ table, tables table → moreTables table) : Torn run moreTables clusters state :=
  ⟨torn.recorded.mono fewer fun _ => id, torn.unrecorded⟩

theorem Torn.dropTable {state : State Run} (torn : Torn run tables clusters state) (table : Table) :
    Torn run (fun other => tables other ∧ ¬ other = table) clusters
      { state with remote := state.remote.dropTable table } :=
  ⟨torn.recorded.dropTable table, torn.unrecorded⟩

theorem Torn.terminate {state : State Run} (torn : Torn run tables clusters state) (clusterId : String) :
    Torn run tables (fun other => clusters other ∧ other ≠ clusterId)
      { state with remote := state.remote.setTerminated clusterId true } :=
  ⟨torn.recorded.terminate clusterId, torn.unrecorded⟩

/-- A deletion that fails leaves what it found, with the reason why it failed. -/
theorem meets_keep {outcome : Outcome} {fails : Prop} (reason : outcome.isDone = false → fails) :
    Meets (Torn run tables clusters) (external outcome id) (fun _ => Torn run tables clusters)
      (fun state => Torn run tables clusters state ∧ fails) :=
  meets_external_id (fun _ torn _ => torn) fun _ torn notDone => ⟨torn, reason notDone⟩

theorem meets_drop {outcome : Outcome} {fails : Prop} (table : Table) (reason : outcome.isDone = false → fails) :
    Meets (Torn run tables clusters) (external outcome (·.dropTable table))
      (fun _ => Torn run (fun other => tables other ∧ ¬ other = table) clusters)
      (fun state => Torn run tables clusters state ∧ fails) := by
  refine meets_external (fun _ torn _ => torn.dropTable table) ?_ ?_
  · exact fun _ torn notDone => ⟨torn, reason notDone⟩
  · exact fun _ torn notDone _ => ⟨(torn.dropTable table).mono fun _ => And.left, reason notDone⟩

/-- A loop over the tables of a record deletes what each of its rounds deletes. -/
theorem forEach_drops {body : String → Fallible (State Run) Unit} {drops : String → Table → Prop}
    {names : List String} {fails : Prop} (step : ∀ name ∈ names, ∀ tables, Meets (Torn run tables clusters) (body name)
      (fun _ => Torn run (fun table => tables table ∧ ¬ drops name table) clusters)
      (fun state => Torn run tables clusters state ∧ fails)) :
    Meets (Torn run tables clusters) (forEach body names)
      (fun _ => Torn run (fun table => tables table ∧ ∀ name ∈ names, ¬ drops name table) clusters)
      (fun state => Torn run tables clusters state ∧ fails) := by
  have loop : Meets (Torn run (fun table => tables table ∧ ∀ name ∈ ([] : List String), ¬ drops name table) clusters)
      (forEach body names)
      (fun _ => Torn run (fun table => tables table ∧ ∀ name ∈ names, ¬ drops name table) clusters)
      (fun state => Torn run tables clusters state ∧ fails) := by
    refine Meets.forEach (fun done => Torn run (fun table => tables table ∧ ∀ name ∈ done, ¬ drops name table) clusters) ?_
    intro done name rest split
    refine (step name (by simp [split]) _).weaken (fun _ => id) ?_ ?_
    · rintro _ state torn
      refine torn.mono ?_
      rintro table ⟨⟨pending, kept⟩, last⟩
      refine ⟨pending, fun other member => ?_⟩
      rcases List.mem_append.mp member with before | same
      · exact kept other before
      · exact List.mem_singleton.mp same ▸ last
    · exact fun _ failed => ⟨failed.1.mono fun _ => And.left, failed.2⟩
  exact loop.weaken (fun _ torn => torn.mono fun _ pending => ⟨pending, by simp⟩) (fun _ _ => id) fun _ => id

theorem deleteSyncJob_meets : Meets (Torn run tables clusters) (deleteSyncJob answers record)
    (fun _ => Torn run tables clusters)
    (fun state => Torn run tables clusters state ∧ answers.deletesJob = false) := by
  unfold deleteSyncJob
  split
  · rename_i jobId found
    exact (meets_keep fun notDone => by simp [TeardownAnswers.deletesJob, found, notDone]).mapError
  · exact Meets.pure fun _ => id

theorem deleteSyncNotebook_meets : Meets (Torn run tables clusters) (deleteSyncNotebook answers record)
    (fun _ => Torn run tables clusters)
    (fun state => Torn run tables clusters state ∧ answers.deletesNotebook = false) := by
  unfold deleteSyncNotebook
  split
  · rename_i found
    exact (meets_keep fun notDone => by simp [TeardownAnswers.deletesNotebook, found, notDone]).mapError
  · exact Meets.pure fun _ => id

theorem deleteLakebaseTable_meets {name : String} {fails : Prop}
    (synced : (answers.deleteSyncedTable name).isDone = false → fails)
    (managed : (answers.dropTable name).isDone = false → fails) :
    Meets (Torn run tables clusters) (deleteLakebaseTable answers name)
      (fun _ => Torn run (fun table => tables table ∧ ¬ (table = .synced name ∨ table = .managed name)) clusters)
      (fun state => Torn run tables clusters state ∧ fails) := by
  unfold deleteLakebaseTable
  refine Meets.bind (meets_drop (.synced name) synced).mapError fun _ => ?_
  have entry : ∀ pending : Table → Prop, ∀ failed : State Run → Prop, Meets (Torn run pending clusters)
      (external (answers.dropSyncedEntry name) id).ignoreError (fun _ => Torn run pending clusters) failed := by
    intro pending failed
    refine Meets.ignoreError (meets_external_id (fun _ torn _ => torn) fun _ torn _ => torn)
  refine Meets.bind (entry _ _) fun _ => (meets_drop (.managed name) managed).mapError.weaken (fun _ => id) ?_ ?_
  · rintro _ state torn
    refine torn.mono ?_
    rintro table ⟨⟨pending, notSynced⟩, notManaged⟩
    exact ⟨pending, fun either => either.elim notSynced notManaged⟩
  · exact fun _ failed => ⟨failed.1.mono fun _ => And.left, failed.2⟩

theorem deletesTables_of_databricks (isVariant : record.variant = .databricks) {name : String}
    (member : name ∈ record.createdTables) (notDone : (answers.dropTable name).isDone = false) :
    answers.deletesTables config record = false := by
  simp only [TeardownAnswers.deletesTables, isVariant, List.all_eq_false]
  exact ⟨name, member, by simp [notDone]⟩

theorem deletesTables_of_lakebase (isVariant : record.variant = .lakebase) (target : config.computeTarget = .lakebase)
    {name : String} (member : name ∈ record.createdTables)
    (fails : ((answers.deleteSyncedTable name).isDone && (answers.dropTable name).isDone &&
      (answers.dropLakebasePgTable name).isDone) = false) : answers.deletesTables config record = false := by
  simp only [TeardownAnswers.deletesTables, isVariant, target, Bool.and_eq_false_iff, List.all_eq_false]
  exact .inr ⟨name, member, by simp [fails]⟩

theorem deleteLakebasePgTables_meets {names : List String} {fails : Prop}
    (unconnected : answers.connectLakebasePg.isDone = false → fails)
    (undropped : ∀ name ∈ names, (answers.dropLakebasePgTable name).isDone = false → fails) :
    Meets (Torn run tables clusters) (deleteLakebasePgTables answers names)
      (fun _ => Torn run (fun table => tables table ∧ ∀ name ∈ names, ¬ table = .postgres name) clusters)
      (fun state => Torn run tables clusters state ∧ fails) :=
  Meets.bind (meets_keep unconnected) fun _ => forEach_drops fun name member _ =>
    (meets_drop (.postgres name) (undropped name member)).mapError

/-- The tables of a record are deleted unless a deletion fails. -/
theorem cleanUpTables_meets (drops : config.dropTablesOnTeardown = true) :
    Meets (Torn run record.Names clusters) (cleanUpTables config answers record)
      (fun _ => Torn run (fun _ => False) clusters)
      (fun state => Torn run record.Names clusters state ∧ answers.deletesTables config record = false) := by
  unfold cleanUpTables
  cases isVariant : record.variant with
  | databricks =>
      simp only [drops, if_true]
      refine (forEach_drops fun name member _ => (meets_drop (.managed name)
        (deletesTables_of_databricks isVariant member)).mapError).weaken (fun _ => id) ?_ fun _ => id
      rintro _ state torn
      refine torn.mono ?_
      rintro (name | name | name) ⟨names, dropped⟩
      · exact dropped name names rfl
      · simp [RunState.Names, isVariant] at names
      · simp [RunState.Names, isVariant] at names
  | lakebase =>
      cases target : config.computeTarget with
      | lakebase =>
          have synced : Meets (Torn run record.Names clusters) (forEach (deleteLakebaseTable answers) record.createdTables)
              (fun _ => Torn run (fun table => record.Names table ∧ ∀ name ∈ record.createdTables,
                ¬ (table = .synced name ∨ table = .managed name)) clusters)
              (fun state => Torn run record.Names clusters state ∧ answers.deletesTables config record = false) :=
            forEach_drops fun name member _ => deleteLakebaseTable_meets
              (fun notDone => deletesTables_of_lakebase isVariant target member (by simp [notDone]))
              (fun notDone => deletesTables_of_lakebase isVariant target member (by simp [notDone]))
          have unconnected : answers.connectLakebasePg.isDone = false → answers.deletesTables config record = false := by
            intro notDone
            simp [TeardownAnswers.deletesTables, isVariant, target, notDone]
          have undropped : ∀ name ∈ record.createdTables, (answers.dropLakebasePgTable name).isDone = false →
              answers.deletesTables config record = false := by
            intro name member notDone
            exact deletesTables_of_lakebase isVariant target member (by simp [notDone])
          refine Meets.bind synced fun _ => ?_
          refine (deleteLakebasePgTables_meets unconnected undropped).mapError.weaken (fun _ => id) ?_ ?_
          · rintro _ state torn
            refine torn.mono ?_
            rintro (name | name | name) ⟨⟨names, others⟩, postgres⟩
            · exact others name names (.inr rfl)
            · exact others name names.1 (.inl rfl)
            · exact postgres name names.1 rfl
          · exact fun _ failed => ⟨failed.1.mono fun _ => And.left, failed.2⟩
      | sparkCluster cluster =>
          exact Meets.fail fun state torn => ⟨torn, by simp [TeardownAnswers.deletesTables, isVariant, target]⟩
      | sqlWarehouse =>
          exact Meets.fail fun state torn => ⟨torn, by simp [TeardownAnswers.deletesTables, isVariant, target]⟩

theorem terminateCluster_meets :
    Meets (Torn run (fun _ => False) record.NamesCluster) (terminateCluster answers record)
      (fun _ => Torn run (fun _ => False) fun _ => False)
      (fun state => Torn run (fun _ => False) record.NamesCluster state ∧
        answers.terminatesCluster record = false) := by
  unfold terminateCluster
  split
  · rename_i clusterId created isId
    have fails : answers.terminateCluster.isDone = false → answers.terminatesCluster record = false := by
      intro notDone
      simp [TeardownAnswers.terminatesCluster, created, notDone]
    refine Meets.mapError (meets_external ?_ ?_ ?_)
    · intro state torn _
      refine ⟨(torn.terminate clusterId).recorded.mono (fun _ => id) ?_, torn.unrecorded⟩
      rintro other ⟨⟨_, isOther⟩, differs⟩
      exact differs (Option.some.inj (isOther.symm.trans isId))
    · exact fun _ torn notDone => ⟨torn, fails notDone⟩
    · intro state torn notDone _
      exact ⟨⟨(torn.terminate clusterId).recorded.mono (fun _ => id) fun _ => And.left, torn.unrecorded⟩, fails notDone⟩
  · rename_i other
    refine Meets.pure fun state torn => ⟨torn.recorded.mono (fun _ => id) ?_, torn.unrecorded⟩
    rintro id ⟨created, isId⟩
    exact other id created isId

variable [DecidableEq Run]

/-- A careful teardown leaves everything on record, and nothing of its run. -/
theorem teardown_torn (drops : config.dropTablesOnTeardown = true) {preserveResources : Bool} {state : State Run}
    (allowed : careful config state (.teardown run preserveResources answers) = true)
    (recorded : Recorded run state) :
    Torn run (fun _ => False) (fun _ => False) (teardown config run answers preserveResources state).2 := by
  suffices met : Meets (fun start => start = state) (teardown config run answers preserveResources)
      (fun _ => Torn run (fun _ => False) fun _ => False) (Torn run (fun _ => False) fun _ => False) from met.state rfl
  have got : Meets (fun start => start = state) Fallible.get (fun value start => value = state ∧ start = state)
      (Torn run (fun _ => False) fun _ => False) := Meets.get fun _ same => ⟨same, same⟩
  unfold teardown
  refine Meets.bind got fun value => ?_
  by_cases same : value = state
  swap
  · exact fun start holds => absurd holds.1 same
  subst same
  cases isRecord : value.runs run with
  | none =>
      refine Meets.pure ?_
      rintro start ⟨_, rfl⟩
      exact ⟨recorded, isRecord⟩
  | some record =>
      simp only [careful, isRecord, Option.all_some, Bool.or_eq_true] at allowed
      have unregistered : Meets (fun start => value = value ∧ start = value)
          (Fallible.modify fun state => state.setRun run none) (fun _ => Torn run record.Names record.NamesCluster)
          (Torn run (fun _ => False) fun _ => False) := by
        refine Meets.modify ?_
        rintro start ⟨_, rfl⟩
        refine ⟨recorded.setRun ?_ ?_, Function.update_self ..⟩
        · rintro table (none | ⟨old, isOld, names⟩)
          · exact none.elim
          · obtain rfl := Option.some.inj (isRecord.symm.trans isOld)
            exact .inl names
        · rintro id (none | ⟨old, isOld, names⟩)
          · exact none.elim
          · obtain rfl := Option.some.inj (isRecord.symm.trans isOld)
            exact .inl names
      -- A step may fail only where the record names nothing, and then nothing is left anyway.
      have empty : ∀ {tables : Table → Prop} {state : State Run}, (∀ table, tables table → record.Names table) →
          Torn run tables record.NamesCluster state → answers.deletes config record = false →
          Torn run (fun _ => False) (fun _ => False) state := by
        intro tables state fewer torn fails
        have nothing := allowed.resolve_right (by simp [fails])
        simp only [RunState.namesNothing, Bool.and_eq_true, decide_eq_true_eq, Bool.not_eq_true'] at nothing
        refine ⟨torn.recorded.mono ?_ ?_, torn.unrecorded⟩
        · intro table pending
          have names := fewer table pending
          cases table <;> simp [RunState.Names, nothing.1] at names
        · rintro id ⟨created, _⟩
          rw [nothing.2] at created
          cases created
      refine Meets.bind unregistered fun _ => ?_
      refine Meets.bind (deleteSyncJob_meets.weaken (fun _ => id) (fun _ _ => id) fun _ failed =>
        empty (fun _ => id) failed.1 (by simp [TeardownAnswers.deletes, failed.2])) fun _ => ?_
      refine Meets.bind (deleteSyncNotebook_meets.weaken (fun _ => id) (fun _ _ => id) fun _ failed =>
        empty (fun _ => id) failed.1 (by simp [TeardownAnswers.deletes, failed.2])) fun _ => ?_
      refine Meets.bind ((cleanUpTables_meets drops).weaken (fun _ => id) (fun _ _ => id) fun _ failed =>
        empty (fun _ => id) failed.1 (by simp [TeardownAnswers.deletes, failed.2])) fun _ => ?_
      refine Meets.bind (terminateCluster_meets.weaken (fun _ => id) (fun _ _ => id) fun _ failed =>
        empty (fun _ => False.elim) failed.1 (by simp [TeardownAnswers.deletes, failed.2])) fun _ => ?_
      exact Meets.pure fun _ => id

end Teardown

section Runs

variable [DecidableEq Run] {config : Config Dataset} {run : Run} {start state next : State Run}

/-- No setup was called yet. -/
structure Untouched (state : State Run) : Prop where
  runs : ∀ run, state.runs run = none
  tables : ∀ table run, state.remote.tables table ≠ some (.setup run)
  clusters : ∀ cluster ∈ state.remote.clusters, ∀ run, cluster.maker ≠ .setup run

omit [DecidableEq Run] in
theorem Untouched.recorded (untouched : Untouched state) (run : Run) : Recorded run state where
  tables made := absurd made (untouched.tables _ _)
  clusters member made := absurd made (untouched.clusters _ member _)

omit [DecidableEq Run] in
/-- Where nothing is left out, it does not matter for which run. -/
theorem Recorded.of_other {other : Run} (recorded : Recorded other state) : Recorded run state where
  tables made := (recorded.tables made).imp_left fun none => none.2.elim
  clusters member made runs := (recorded.clusters member made runs).imp_left fun none => none.2.elim

theorem Recorded.step (drops : config.dropTablesOnTeardown = true) (recorded : Recorded run state)
    {action : Action Run Dataset} (allowed : careful config state action = true)
    (stepped : step config state action = some next) : Recorded run next := by
  cases action with
  | setup other metadata datasets answers =>
      simp only [Databricks.step, Option.ite_none_left_eq_some, Bool.not_eq_true, List.any_eq_false,
        decide_eq_true_eq] at stepped
      obtain ⟨fresh, isNext⟩ := stepped
      obtain rfl := Option.some.inj isNext
      exact (setup_recorded allowed fresh recorded.of_other).of_other
  | teardown other preserveResources answers =>
      obtain rfl := Option.some.inj stepped
      exact Recorded.of_other (teardown_torn drops allowed recorded.of_other).recorded

theorem Recorded.of_reaches (drops : config.dropTablesOnTeardown = true) (untouched : Untouched start)
    (reached : (machine config).ReachesWhen (careful config) start state) : Recorded run state := by
  refine reached.invariant (Recorded run) ?_ (untouched.recorded run)
  rintro state next recorded ⟨action, _, allowed, stepped⟩
  exact recorded.step drops allowed stepped

/-- In a run of careful calls, a teardown that returns has deleted every table and every cluster that
a setup of its run created. -/
theorem teardown_leaves_nothing (config : Config Dataset) (drops : config.dropTablesOnTeardown = true)
    (untouched : Untouched start) (reached : (machine config).ReachesWhen (careful config) start state)
    {answers : TeardownAnswers} (allowed : careful config state (.teardown run false answers) = true)
    (returned : teardown config run answers false state = (.ok ⟨true⟩, next)) :
    (∀ table, next.remote.tables table ≠ some (.setup run)) ∧
      ∀ cluster ∈ next.remote.clusters, cluster.maker = .setup run → cluster.terminated = true := by
  have torn := teardown_torn drops allowed (Recorded.of_reaches drops untouched reached)
  rw [returned] at torn
  refine ⟨?_, ?_⟩
  · intro table made
    rcases torn.recorded.tables made with ⟨_, none⟩ | ⟨record, isRecord, _⟩
    · exact none
    · rw [torn.unrecorded] at isRecord
      cases isRecord
  · intro cluster member made
    by_contra running
    rcases torn.recorded.clusters member made (by simpa using running) with ⟨_, none⟩ | ⟨record, isRecord, _⟩
    · exact none
    · rw [torn.unrecorded] at isRecord
      cases isRecord

/-- The sample uses a cluster by its name. -/
def sampleConfig : Config Unit where
  catalog := "spiceai_sandbox"
  schema := "tpch"
  computeTarget := .sparkCluster ⟨none, "spicebench"⟩
  tableFormat := .parquet
  dropTablesOnTeardown := true
  stagingVolumePath := "/Volumes/staging"
  databricksUri := "databricks://"
  createTableDdl := fun table _ _ => .ok ("CREATE TABLE " ++ table)

def sampleStart : State Nat := ⟨fun _ => none, ⟨fun _ => none, []⟩⟩

def sampleMetadata : Metadata := fun _ => none

def sampleDatasets : List (String × Unit) := [("orders", ()), ("lineitem", ())]

def goodSetup : SetupAnswers :=
  ⟨.done, .done, .done, "1", .done, .done, .done, fun _ => .done, fun _ => .done, .done, fun _ => .done,
    fun _ => .done, fun _ => .done, .ok ""⟩

/-- The second table cannot be created. -/
def brokenSetup : SetupAnswers :=
  { goodSetup with createTable := fun table => if table = "lineitem" then .failed "timeout" false else .done }

def goodTeardown : TeardownAnswers :=
  ⟨.ok none, .done, .ok false, .done, fun _ => .done, fun _ => .done, fun _ => .done, .done, fun _ => .done, .done⟩

/-- The first table cannot be dropped. -/
def brokenTeardown : TeardownAnswers := { goodTeardown with dropTable := fun _ => .failed "timeout" false }

theorem sampleStart_untouched : Untouched sampleStart where
  runs _ := rfl
  tables _ _ made := by cases made
  clusters _ member := by cases member

theorem teardown_leaves_nothing_sample :
    let state := (setup sampleConfig 0 sampleMetadata goodSetup sampleDatasets sampleStart).2
    let next := (teardown sampleConfig 0 goodTeardown false state).2
    state.remote.tables (.managed "orders") = some (.setup 0) ∧
      (∀ table, next.remote.tables table ≠ some (.setup 0)) ∧
      ∀ cluster ∈ next.remote.clusters, cluster.maker = .setup 0 → cluster.terminated = true := by
  intro state next
  have stepped : (machine sampleConfig).runWhen (careful sampleConfig) sampleStart
      [.setup 0 sampleMetadata sampleDatasets goodSetup] = some state := by rfl
  have reached := (machine sampleConfig).reachesWhen_of_runWhen (fun _ _ => trivial) stepped
  have allowed : careful sampleConfig state (.teardown 0 false goodTeardown) = true := by rfl
  have returned : teardown sampleConfig 0 goodTeardown false state = (.ok ⟨true⟩, next) := by rfl
  exact ⟨rfl, teardown_leaves_nothing sampleConfig rfl sampleStart_untouched reached allowed returned⟩

/-- After a setup that failed, and after a teardown that failed, a teardown returns and a table is left. -/
theorem teardown_leaves_table :
    (∃ state next, (machine sampleConfig).Reaches sampleStart state ∧
      teardown sampleConfig 0 goodTeardown false state = (.ok ⟨true⟩, next) ∧
      next.remote.tables (.managed "orders") = some (.setup 0)) ∧
    ∃ state next, (machine sampleConfig).Reaches sampleStart state ∧
      (teardown sampleConfig 0 brokenTeardown false state).1 = .error "Failed to drop table 'orders': timeout" ∧
      teardown sampleConfig 0 goodTeardown false (teardown sampleConfig 0 brokenTeardown false state).2 =
        (.ok ⟨true⟩, next) ∧
      next.remote.tables (.managed "orders") = some (.setup 0) := by
  constructor
  · have ran : (machine sampleConfig).run sampleStart [.setup 0 sampleMetadata sampleDatasets brokenSetup] =
        some (setup sampleConfig 0 sampleMetadata brokenSetup sampleDatasets sampleStart).2 := by rfl
    exact ⟨_, _, (machine sampleConfig).reaches_of_run (fun _ _ => trivial) ran, rfl, rfl⟩
  · have ran : (machine sampleConfig).run sampleStart [.setup 0 sampleMetadata sampleDatasets goodSetup] =
        some (setup sampleConfig 0 sampleMetadata goodSetup sampleDatasets sampleStart).2 := by rfl
    exact ⟨_, _, (machine sampleConfig).reaches_of_run (fun _ _ => trivial) ran, rfl, rfl, rfl⟩

end Runs

end Spicebench.Databricks
