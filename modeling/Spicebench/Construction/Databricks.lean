/-
This file embeds setup and teardown of the Databricks adapter, with the tables and clusters that they
create and delete remotely.
-/

import Spicebench.Construction.Duration
import Spicebench.Library.Fallible
import Spicebench.Library.Machine
import Mathlib.Logic.Function.Basic

namespace Spicebench.Databricks

open Library Fallible

inductive DatabricksVariant where
  | databricks
  | lakebase
  deriving DecidableEq, Repr

inductive TableFormat where
  | parquet
  | delta
  | iceberg
  deriving DecidableEq, Repr

/-- This is `value.trim().to_ascii_lowercase()`. -/
def normalized (value : String) : String := .ofList ((DurationParse.trim value.toList).map Char.toLower)

def DatabricksVariant.fromMetadataValue (value : String) : Option DatabricksVariant :=
  match normalized value with
  | "databricks" => some .databricks
  | "sql" => some .databricks
  | "databricks-sql" => some .databricks
  | "lakebase" => some .lakebase
  | "databricks-lakebase" => some .lakebase
  | _ => none

def TableFormat.fromMetadataValue (value : String) : Option TableFormat :=
  match normalized value with
  | "parquet" => some .parquet
  | "delta" => some .delta
  | "iceberg" => some .iceberg
  | _ => none

/-- The metadata of a setup, read by key; a value that is no text reads as missing. -/
abbrev Metadata := String → Option String

structure ClusterConfig where
  clusterId : Option String
  clusterName : String

inductive ComputeTarget where
  | sparkCluster (cluster : ClusterConfig)
  | sqlWarehouse
  | lakebase

/-- The settings of the adapter; the texts of its DDL and its URI are given. -/
structure Config (Dataset : Type) where
  catalog : String
  schema : String
  computeTarget : ComputeTarget
  tableFormat : TableFormat
  dropTablesOnTeardown : Bool
  stagingVolumePath : String
  databricksUri : String
  createTableDdl : String → Dataset → TableFormat → Except String String

def variantFromSetupMetadata (metadata : Metadata) : Except String DatabricksVariant :=
  match metadata "system_adapter_variant" with
  | some text =>
      match DatabricksVariant.fromMetadataValue text with
      | some variant => .ok variant
      | none => .error
          s!"Unsupported system_adapter_variant '{text}'. Allowed values: databricks, sql, lakebase"
  | none =>
      match metadata "system_under_test" with
      | some text =>
          match DatabricksVariant.fromMetadataValue text with
          | some variant => .ok variant
          | none => .error ( s!"Unsupported system_under_test '{text}' for Databricks adapter. " ++
              "Expected databricks-sql or databricks-lakebase")
      | none => .ok .databricks

def Config.tableFormatFromSetupMetadata {Dataset : Type} (config : Config Dataset) (variant : DatabricksVariant)
    (metadata : Metadata) : Except String TableFormat :=
  match variant with
  | .databricks => .ok .delta
  | .lakebase =>
      match metadata "table_format" with
      | some text =>
          match TableFormat.fromMetadataValue text with
          | some format => .ok format
          | none => .error s!"Unsupported table_format '{text}'. Allowed values: parquet, delta, iceberg"
      | none => .ok config.tableFormat

/-- Letters and digits are kept, and every run of other characters becomes one dash. -/
def slugChars : List Char → Bool → List Char
  | [], _ => []
  | char :: rest, lastWasSeparator =>
      let lower := char.toLower
      if lower.isAlphanum then lower :: slugChars rest false
      else if lastWasSeparator then slugChars rest true
      else '-' :: slugChars rest true

def scenarioSlug (metadata : Metadata) : String :=
  let raw := ((metadata "scenario").or (metadata "scenario_name")).getD "default"
  let slug := ((slugChars raw.toList false).dropWhile (· = '-')).rdropWhile (· = '-')
  if slug = [] then "default" else .ofList slug

def notebookPathForScenario (scenarioSlug : String) : String :=
  s!"/Shared/spicebench/sync_autoloader_{scenarioSlug}"

def jobNameForScenario (scenarioSlug : String) : String := s!"spicebench_sync_tables_{scenarioSlug}"

/-- What the adapter remembers of a run. -/
structure RunState where
  tableFormat : TableFormat
  variant : DatabricksVariant
  scenarioSlug : String
  createdTables : List String
  clusterId : Option String
  clusterCreatedByAdapter : Bool
  deriving DecidableEq, Repr

/-- A table of the schema, its synced copy, and the copy's table in PostgreSQL. -/
inductive Table where
  | managed (name : String)
  | synced (name : String)
  | postgres (name : String)
  deriving DecidableEq, Repr

/-- What exists remotely was made by the setup of a run or by someone else. -/
inductive Maker (Run : Type) where
  | setup (run : Run)
  | other
  deriving DecidableEq, Repr

/-- A deleted cluster stays in the list of clusters, and can be started again. -/
structure Cluster (Run : Type) where
  id : String
  name : String
  terminated : Bool
  maker : Maker Run

structure Remote (Run : Type) where
  tables : Table → Option (Maker Run)
  clusters : List (Cluster Run)

/-- The adapter's records, and the remote side. -/
structure State (Run : Type) where
  runs : Run → Option RunState
  remote : Remote Run

def State.setRun {Run : Type} [DecidableEq Run] (state : State Run) (run : Run) (record : Option RunState) :
    State Run :=
  { state with runs := Function.update state.runs run record }

/-- An external step goes through, or it fails and may have had its effect all the same. -/
inductive Outcome where
  | done
  | failed (message : String) (applied : Bool)

namespace Outcome

def isDone : Outcome → Bool
  | .done => true
  | .failed _ _ => false

def applied : Outcome → Bool
  | .done => true
  | .failed _ applied => applied

def result : Outcome → Except String Unit
  | .done => .ok ()
  | .failed message _ => .error message

end Outcome

variable {Run Dataset : Type}

namespace Remote

variable (remote : Remote Run)

/-- A table that exists is not created again. -/
def createTable (table : Table) (run : Run) : Remote Run :=
  { remote with tables := Function.update remote.tables table (some ((remote.tables table).getD (.setup run))) }

def dropTable (table : Table) : Remote Run :=
  { remote with tables := Function.update remote.tables table none }

def createCluster (cluster : Cluster Run) : Remote Run :=
  { remote with clusters := remote.clusters ++ [cluster] }

def setTerminated (clusterId : String) (terminated : Bool) : Remote Run :=
  { remote with clusters := remote.clusters.map fun cluster =>
      if cluster.id = clusterId then { cluster with terminated } else cluster }

end Remote

/-- An external step returns its outcome, with its effect on the remote side. -/
def external (outcome : Outcome) (effect : Remote Run → Remote Run) : Fallible (State Run) Unit := fun state =>
  (outcome.result, if outcome.applied then { state with remote := effect state.remote } else state)

/-- The outcomes of the external steps of a setup. -/
structure SetupAnswers where
  getCluster : Outcome
  findClusterByName : Outcome
  createCluster : Outcome
  newClusterId : String
  ensureClusterRunning : Outcome
  ensureUcSchemaExists : Outcome
  initializeSchema : Outcome
  dropStaleTable : String → Outcome
  createTable : String → Outcome
  initializeLakebaseSchema : Outcome
  deleteStaleSyncedTable : String → Outcome
  alterTable : String → Outcome
  createSyncedTable : String → Outcome
  lakebasePgUri : Except String String

/-- The outcomes of the external steps of a teardown. -/
structure TeardownAnswers where
  findJobIdByName : Except String (Option Int)
  deleteJob : Outcome
  findNotebook : Except String Bool
  deleteNotebook : Outcome
  deleteSyncedTable : String → Outcome
  dropSyncedEntry : String → Outcome
  dropTable : String → Outcome
  connectLakebasePg : Outcome
  dropLakebasePgTable : String → Outcome
  terminateCluster : Outcome

inductive AdbcDriver where
  | databricks
  | postgresql
  deriving DecidableEq, Repr

structure SetupResponse where
  sinkDriver : AdbcDriver
  sinkDbKwargs : List (String × String)
  catalogNamespace : Option String
  readDriver : AdbcDriver
  readDbKwargs : List (String × String)
  deriving DecidableEq, Repr

structure TeardownResponse where
  ok : Bool
  deriving DecidableEq, Repr

section Setup

variable [DecidableEq Run] (config : Config Dataset) (run : Run) (metadata : Metadata) (answers : SetupAnswers)

/-- A cluster is looked up by its id or its name, or created. -/
def locateCluster (cluster : ClusterConfig) : Fallible (State Run) (String × Bool) :=
  match cluster.clusterId with
  | some clusterId => do
      external answers.getCluster id
      let state ← get
      match state.remote.clusters.find? (·.id = clusterId) with
      | some found => pure (found.id, false)
      | none => fail s!"Configured Databricks cluster id '{clusterId}' was not found"
  | none => do
      external answers.findClusterByName id
      let state ← get
      match state.remote.clusters.find? (·.name = cluster.clusterName) with
      | some existing => pure (existing.id, false)
      | none => do
          external answers.createCluster
            (·.createCluster ⟨answers.newClusterId, cluster.clusterName, false, .setup run⟩)
          pure (answers.newClusterId, true)

def ensureClusterReady (cluster : ClusterConfig) : Fallible (State Run) (String × Bool) := do
  let (clusterId, createdByAdapter) ← locateCluster run answers cluster
  external answers.ensureClusterRunning (·.setTerminated clusterId false)
  pure (clusterId, createdByAdapter)

def acquireCluster : Fallible (State Run) (Option String × Bool) :=
  match config.computeTarget with
  | .sparkCluster cluster => do
      let (clusterId, created) ← (ensureClusterReady run answers cluster).mapError fun e =>
        s!"Failed to ensure Databricks cluster is ready: {e}"
      pure (some clusterId, created)
  | .sqlWarehouse => pure (none, false)
  | .lakebase => pure (none, false)

/-- The first part of a setup ends with the record of the run. -/
def registerRun : Fallible (State Run) DatabricksVariant := do
  let variant ← (ofExcept (variantFromSetupMetadata metadata)).mapError fun e => s!"Invalid setup metadata: {e}"
  let (clusterId, clusterCreatedByAdapter) ← acquireCluster config run answers
  (external answers.ensureUcSchemaExists id).mapError fun e =>
    s!"Failed to ensure Unity Catalog schema exists: {e}"
  let tableFormat ← (ofExcept (config.tableFormatFromSetupMetadata variant metadata)).mapError fun e =>
    s!"Invalid setup metadata: {e}"
  modify fun state => state.setRun run
    (some ⟨tableFormat, variant, scenarioSlug metadata, [], clusterId, clusterCreatedByAdapter⟩)
  pure variant

/-- A managed table takes the place of a stale one. -/
def createManagedTable (dataset : String × Dataset) : Fallible (State Run) Unit := do
  let tableName := dataset.1
  (external (answers.dropStaleTable tableName) (·.dropTable (.managed tableName))).mapError fun e =>
    s!"Failed to drop stale managed table '{tableName}': {e}"
  let _ddl ← (ofExcept (config.createTableDdl tableName dataset.2 .delta)).mapError fun e =>
    s!"Failed to build DDL for managed table '{tableName}': {e}"
  (external (answers.createTable tableName) (·.createTable (.managed tableName) run)).mapError fun e =>
    s!"Failed to create managed table '{tableName}': {e}"

/-- A synced table comes with its table in PostgreSQL. -/
def createSyncedTable (dataset : String × Dataset) : Fallible (State Run) Unit := do
  let tableName := dataset.1
  (external (answers.alterTable tableName) id).mapError fun e => s!"Failed to alter table '{tableName}': {e}"
  (external (answers.createSyncedTable tableName) fun remote =>
    (remote.createTable (.synced tableName) run).createTable (.postgres tableName) run).mapError fun e =>
      s!"Failed to create synced table for '{tableName}': {e}"

def postProcess (datasets : List (String × Dataset)) : DatabricksVariant → Fallible (State Run) Unit
  | .databricks => pure ()
  | .lakebase =>
      match config.computeTarget with
      | .lakebase => do
          (external answers.initializeLakebaseSchema id).mapError fun e => s!"Failed to initialize schema': {e}"
          forEach (fun dataset => (external (answers.deleteStaleSyncedTable dataset.1)
            (·.dropTable (.synced dataset.1))).ignoreError) datasets
          joinAll (createSyncedTable run answers) datasets
      | _ => fail "create_synced_table called without Lakebase compute target"

/-- The second part of a setup creates the tables, and records them once all are there. -/
def createTables (datasets : List (String × Dataset)) (variant : DatabricksVariant) :
    Fallible (State Run) Unit := do
  (external answers.initializeSchema id).mapError fun e => s!"Failed to initialize schema: {e}"
  forEach (createManagedTable config run answers) datasets
  postProcess config run answers datasets variant
  modify fun state => state.setRun run
    ((state.runs run).map fun record => { record with createdTables := datasets.map Prod.fst })

def setupResponse : Fallible (State Run) SetupResponse := do
  let databricks := [("uri", config.databricksUri), ("databricks.staging.volume_path", config.stagingVolumePath)]
  match config.computeTarget with
  | .lakebase => do
      let pgUri ← (ofExcept answers.lakebasePgUri).mapError fun e =>
        s!"Failed to build Lakebase PostgreSQL URI: {e}"
      pure ⟨.databricks, databricks, none, .postgresql, [("uri", pgUri)]⟩
  | _ => pure ⟨.databricks, databricks, some s!"{config.catalog}.{config.schema}", .databricks, databricks⟩

def setup (datasets : List (String × Dataset)) : Fallible (State Run) SetupResponse := do
  let variant ← registerRun config run metadata answers
  createTables config run answers datasets variant
  setupResponse config answers

end Setup

section Teardown

variable [DecidableEq Run] (config : Config Dataset) (run : Run) (answers : TeardownAnswers)

def deleteSyncJob (record : RunState) : Fallible (State Run) Unit :=
  let jobName := jobNameForScenario record.scenarioSlug
  match answers.findJobIdByName with
  | .ok (some jobId) => (external answers.deleteJob id).mapError fun e =>
      s!"Failed to delete sync job '{jobName}' (id={jobId}): {e}"
  | _ => pure ()

def deleteSyncNotebook (record : RunState) : Fallible (State Run) Unit :=
  let notebookPath := notebookPathForScenario record.scenarioSlug
  match answers.findNotebook with
  | .ok true => (external answers.deleteNotebook id).mapError fun e =>
      s!"Failed to delete notebook '{notebookPath}': {e}"
  | _ => pure ()

/-- The synced table goes first, then its entry in the catalog if possible, then the managed table. -/
def deleteLakebaseTable (tableName : String) : Fallible (State Run) Unit := do
  (external (answers.deleteSyncedTable tableName) (·.dropTable (.synced tableName))).mapError fun e =>
    s!"Failed to delete synced table '{tableName}': {e}"
  (external (answers.dropSyncedEntry tableName) id).ignoreError
  (external (answers.dropTable tableName) (·.dropTable (.managed tableName))).mapError fun e =>
    s!"Failed to drop managed table '{tableName}': {e}"

def deleteLakebasePgTables (tableNames : List String) : Fallible (State Run) Unit := do
  external answers.connectLakebasePg id
  forEach (fun tableName => (external (answers.dropLakebasePgTable tableName)
    (·.dropTable (.postgres tableName))).mapError fun e =>
      s!"Failed to drop Lakebase PG table '{tableName}': {e}") tableNames

def cleanUpTables (record : RunState) : Fallible (State Run) Unit :=
  match record.variant with
  | .lakebase =>
      match config.computeTarget with
      | .lakebase => do
          forEach (deleteLakebaseTable answers) record.createdTables
          (deleteLakebasePgTables answers record.createdTables).mapError fun e =>
            s!"Failed to delete Lakebase PG tables: {e}"
      | _ => fail "Lakebase variant requires Lakebase compute target"
  | .databricks =>
      if config.dropTablesOnTeardown then
        forEach (fun tableName => (external (answers.dropTable tableName)
          (·.dropTable (.managed tableName))).mapError fun e =>
            s!"Failed to drop table '{tableName}': {e}") record.createdTables
      else pure ()

def terminateCluster (record : RunState) : Fallible (State Run) Unit :=
  match record.clusterCreatedByAdapter, record.clusterId with
  | true, some clusterId => (external answers.terminateCluster (·.setTerminated clusterId true)).mapError fun e =>
      s!"Failed to terminate Databricks cluster '{clusterId}': {e}"
  | _, _ => pure ()

/-- The record of the run is taken out before anything is deleted. -/
def teardown (_preserveResources : Bool) : Fallible (State Run) TeardownResponse := do
  let state ← get
  match state.runs run with
  | none => pure ⟨true⟩
  | some record => do
      modify fun state => state.setRun run none
      deleteSyncJob answers record
      deleteSyncNotebook answers record
      cleanUpTables config answers record
      terminateCluster answers record
      pure ⟨true⟩

end Teardown

inductive Action (Run Dataset : Type) where
  | setup (run : Run) (metadata : Metadata) (datasets : List (String × Dataset)) (answers : SetupAnswers)
  | teardown (run : Run) (preserveResources : Bool) (answers : TeardownAnswers)

/-- The server handles one request at a time, and the remote side does not issue an id twice. -/
def step [DecidableEq Run] (config : Config Dataset) (state : State Run) : Action Run Dataset → Option (State Run)
  | .setup run metadata datasets answers =>
      if state.remote.clusters.any (·.id = answers.newClusterId) then none
      else some (setup config run metadata answers datasets state).2
  | .teardown run preserveResources answers => some (teardown config run answers preserveResources state).2

def machine [DecidableEq Run] (config : Config Dataset) : Machine (State Run) (Action Run Dataset) where
  step := step config
  admits _ := True

end Spicebench.Databricks
