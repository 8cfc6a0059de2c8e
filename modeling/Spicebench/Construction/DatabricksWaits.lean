/-
This file embeds the requests of the Databricks adapter that wait for the remote side: SQL statements, the marker in the
query history, clusters and synced tables, and the walk over the query history behind the metrics of a warehouse.
-/

import Spicebench.Library.Polling

namespace Spicebench.Databricks

open Library

/-- The status of a response comes with the text that shows it; a body that cannot be read as text is empty. -/
structure Response (Body : Type) where
  code : Nat
  status : String
  text : String
  body : Except String Body

/-- A request fails, or it is answered. -/
abbrev Reply (Body : Type) := Except String (Response Body)

def isOk (code : Nat) : Bool := code == 200

def isSuccess (code : Nat) : Bool := 200 ≤ code && code < 300

/-- A response that is not accepted is an error under the label of the request. -/
def Reply.checked {Body : Type} (label : String) (accepts : Nat → Bool) (reply : Reply Body) : Except String Body :=
  match reply with
  | .error message => .error message
  | .ok response =>
      if accepts response.code then response.body else .error s!"{label} ({response.status}): {response.text}"

/-- A failed request ends a wait. -/
def pollVerdict {Body : Type} (answer : Except String Body) (found : Body → Verdict (Except String Unit)) :
    Verdict (Except String Unit) :=
  match answer with
  | .error message => .decided (.error message)
  | .ok body => found body

section Statements

inductive StatementState where
  | pending
  | running
  | succeeded
  | failed
  | canceled
  deriving DecidableEq, Repr

structure StatementError where
  message : Option String

structure StatementStatus where
  state : StatementState
  error : Option StatementError

def StatementStatus.errorMessage (status : StatementStatus) : String :=
  (status.error.bind StatementError.message).getD "unknown error"

structure StatementResponse where
  statementId : String
  status : StatementStatus

/-- A statement that is over has a result. -/
def StatementStatus.result (status : StatementStatus) : Option (Except String Unit) :=
  match status.state with
  | .succeeded => some (.ok ())
  | .failed => some (.error s!"Databricks SQL statement failed: {status.errorMessage}")
  | .canceled => some (.error "Databricks SQL statement canceled")
  | .pending | .running => none

/-- The warehouse answers the execution of a statement, and every request for its status, in its own time. -/
structure StatementServer where
  execute : Reply StatementResponse
  status : String → Nat → Reply StatementResponse
  statusTime : Nat → Nat

def statementVerdict (reply : Reply StatementResponse) : Verdict (Except String Unit) :=
  pollVerdict (reply.checked "Databricks SQL statement status check failed" isOk) fun body =>
    match body.status.result with
    | some result => .decided result
    | none => .again (millis 750)

def StatementServer.polling (server : StatementServer) (statementId : String) : Polling (Except String Unit) where
  verdict index := statementVerdict (server.status statementId index)
  latency := server.statusTime

/-- A wait that gave up says so. -/
def concluded (timedOut : String) (ended : Ended (Except String Unit)) : Except String Unit :=
  ended.result.getD (.error timedOut)

def statementTimeout : Nat := millis 180000

def StatementServer.waitForStatementCompletion (server : StatementServer) (statementId : String) (fuel : Nat) :
    Option (Except String Unit) :=
  ((server.polling statementId).wait statementTimeout fuel).map
    (concluded s!"Timed out waiting for Databricks SQL statement {statementId}")

/-- A statement may be over with the first answer. -/
def StatementServer.executeSqlStatement (server : StatementServer) (fuel : Nat) : Option (Except String Unit) :=
  match server.execute.checked "Databricks SQL statement execute failed" isOk with
  | .error message => some (.error message)
  | .ok body =>
      match body.status.result with
      | some result => some result
      | none => server.waitForStatementCompletion body.statementId fuel

end Statements

section History

structure QueryHistoryMetrics where
  readBytes : Option UInt64
  readRemoteBytes : Option UInt64
  readCacheBytes : Option UInt64
  writeRemoteBytes : Option UInt64
  spillToDiskBytes : Option UInt64

structure QueryHistoryEntry where
  metrics : Option QueryHistoryMetrics

structure QueryHistoryResponse where
  res : List QueryHistoryEntry
  hasNextPage : Bool
  nextPageToken : Option String

def markerVerdict (reply : Reply QueryHistoryResponse) : Verdict (Except String Unit) :=
  pollVerdict (reply.checked "Query History API failed" isSuccess) fun body =>
    if body.res.isEmpty then .again (millis 5000) else .decided (.ok ())

/-- The query history answers each search for the marker in its own time. -/
structure MarkerServer where
  statements : StatementServer
  search : Nat → Reply QueryHistoryResponse
  searchTime : Nat → Nat

def MarkerServer.polling (server : MarkerServer) : Polling (Except String Unit) where
  verdict index := markerVerdict (server.search index)
  latency := server.searchTime

def markerTimeout : Nat := millis 600000

/-- The marker is a statement that the query history shows later. -/
def MarkerServer.fireMarkerAndWait (server : MarkerServer) (fuel : Nat) : Option (Except String Unit) :=
  match server.statements.executeSqlStatement fuel with
  | none => none
  | some (.error message) => some (.error message)
  | some (.ok ()) => (server.polling.wait markerTimeout fuel).map
      (concluded "Timed out (10 min) waiting for marker query to appear in Query History")

/-- The first request carries the time range, and each later one the token of a page alone. -/
inductive HistoryRequest where
  | filterBy (startTimeMs endTimeMs : UInt64)
  | pageToken (token : String)
  deriving DecidableEq, Repr

/-- The sums wrap around as machine words do. -/
structure IoTotals where
  readBytes : UInt64
  readRemoteBytes : UInt64
  readCacheBytes : UInt64
  writeRemoteBytes : UInt64
  spillToDiskBytes : UInt64
  deriving DecidableEq, Repr

def IoTotals.zero : IoTotals := ⟨0, 0, 0, 0, 0⟩

def IoTotals.add (totals : IoTotals) (entry : QueryHistoryEntry) : IoTotals :=
  match entry.metrics with
  | none => totals
  | some metrics => {
      readBytes := totals.readBytes + metrics.readBytes.getD 0
      readRemoteBytes := totals.readRemoteBytes + metrics.readRemoteBytes.getD 0
      readCacheBytes := totals.readCacheBytes + metrics.readCacheBytes.getD 0
      writeRemoteBytes := totals.writeRemoteBytes + metrics.writeRemoteBytes.getD 0
      spillToDiskBytes := totals.spillToDiskBytes + metrics.spillToDiskBytes.getD 0 }

/-- The walk goes on when the page says that there is another one and hands over its token. -/
def QueryHistoryResponse.continuation (body : QueryHistoryResponse) : Option String :=
  match body.hasNextPage, body.nextPageToken with
  | true, some token => some token
  | _, _ => none

/-- The query history answers each request of a walk in its own time. -/
structure HistoryServer where
  page : Nat → HistoryRequest → Reply QueryHistoryResponse
  pageTime : Nat → Nat

def ioSumDeadline : Nat := millis 120000

def maxPages : Nat := 100

/-- The walk over the pages with the time at which it ends; `left` counts the requests that it may still make. -/
def HistoryServer.sumPages (server : HistoryServer) :
    Nat → Nat → Nat → HistoryRequest → IoTotals → Except String IoTotals × Nat
  | left, pages, clock, request, totals =>
    if ioSumDeadline < clock then
      (.error s!"Timed out (120s) summing Query History I/O after {pages} page(s)", clock)
    else match left with
      | 0 => (.error s!"Query History I/O sum exceeded {maxPages} pages; aborting pagination", clock)
      | left + 1 =>
          let later := clock + server.pageTime pages
          match (server.page pages request).checked "Query History REST API failed" isSuccess with
          | .error message => (.error message, later)
          | .ok body =>
              let sum := body.res.foldl IoTotals.add totals
              match body.continuation with
              | some token => server.sumPages left (pages + 1) later (.pageToken token) sum
              | none => (.ok sum, later)

/-- Reads count all bytes, and writes count the remote ones and those spilled to the disk. -/
def IoTotals.reported (totals : IoTotals) : UInt64 × UInt64 :=
  (totals.readBytes, totals.writeRemoteBytes + totals.spillToDiskBytes)

def HistoryServer.sumQueryHistoryIo (server : HistoryServer) (startTimeMs endTimeMs : UInt64) :
    Except String (UInt64 × UInt64) × Nat :=
  let (sum, clock) := server.sumPages maxPages 0 0 (.filterBy startTimeMs endTimeMs) .zero
  (sum.map IoTotals.reported, clock)

end History

section Metrics

structure WarehouseInfoResponse where
  numActiveSessions : Option UInt64
  numClusters : Option UInt64

/-- The metrics of a warehouse; all others are left out. -/
structure WarehouseMetrics where
  numComputeNodes : Option UInt64
  activeConnections : Option UInt64
  diskReadBytes : Option UInt64
  diskWriteBytes : Option UInt64
  deriving DecidableEq, Repr

structure MetricsServer where
  warehouseInfo : Reply WarehouseInfoResponse
  marker : MarkerServer
  history : HistoryServer

def periodicBudget : Nat := millis 500

/-- This is `metrics` for a SQL warehouse: the sum of the query history is left out when it fails, and a periodic scrape
leaves it out also when it takes too long. -/
def MetricsServer.metrics (server : MetricsServer) (startedAtMs nowMs : UInt64) (finalScrape : Bool) (fuel : Nat) :
    Option (Except String WarehouseMetrics) :=
  match server.warehouseInfo.checked "Failed to get warehouse info" isSuccess with
  | .error message => some (.error s!"Failed to get warehouse info: {message}")
  | .ok info =>
      let marked : Option (Except String Unit) :=
        if finalScrape then server.marker.fireMarkerAndWait fuel else some (.ok ())
      marked.map fun _ =>
        let (sum, clock) := server.history.sumQueryHistoryIo startedAtMs nowMs
        let ioSum := if finalScrape || clock ≤ periodicBudget then some sum else none
        match ioSum with
        | some (.ok (read, written)) => .ok ⟨info.numClusters, info.numActiveSessions, some read, some written⟩
        | _ => .ok ⟨info.numClusters, info.numActiveSessions, none, none⟩

end Metrics

section Clusters

structure ClusterSummary where
  clusterId : String
  clusterName : String
  state : Option String

/-- A cluster that is not found is no error yet. -/
def getCluster (reply : Reply ClusterSummary) : Except String (Option ClusterSummary) :=
  match reply with
  | .error message => .error message
  | .ok response =>
      if response.code = 404 then .ok none else (reply.checked "Databricks clusters/get failed" isOk).map some

/-- The remote side answers each poll of a cluster, and a request to start it after that poll. -/
structure ClusterServer where
  get : Nat → Reply ClusterSummary
  start : Nat → Reply Unit
  roundTime : Nat → Nat

/-- A terminated cluster is started and polled again at once. -/
def clusterStateVerdict (clusterId : String) (cluster : ClusterSummary) (start : Reply Unit) :
    Verdict (Except String Unit) :=
  match cluster.state.getD "" with
  | "RUNNING" => .decided (.ok ())
  | "TERMINATED" => pollVerdict (start.checked "Databricks clusters/start failed" isOk) fun _ => .again 0
  | "ERROR" | "TERMINATING" =>
      let state := cluster.state.getD "unknown"
      .decided (.error s!"Databricks cluster {clusterId} is in invalid state '{state}'")
  | _ => .again (millis 5000)

def clusterVerdict (clusterId : String) (get : Reply ClusterSummary) (start : Reply Unit) :
    Verdict (Except String Unit) :=
  pollVerdict (getCluster get) fun
    | none => .decided (.error s!"Databricks cluster {clusterId} disappeared while waiting for RUNNING state")
    | some cluster => clusterStateVerdict clusterId cluster start

def ClusterServer.polling (server : ClusterServer) (clusterId : String) : Polling (Except String Unit) where
  verdict index := clusterVerdict clusterId (server.get index) (server.start index)
  latency := server.roundTime

def clusterTimeout : Nat := millis 900000

def ClusterServer.ensureClusterRunning (server : ClusterServer) (clusterId : String) (fuel : Nat) :
    Option (Except String Unit) :=
  ((server.polling clusterId).wait clusterTimeout fuel).map
    (concluded s!"Timed out waiting for Databricks cluster {clusterId} to become RUNNING")

end Clusters

section SyncedTables

/-- The parts of a status that the adapter reads; a missing state is empty. -/
structure SyncedTableStatus where
  detailedState : Option String
  message : Option String

/-- The remote side answers each attempt to create a synced table, and each poll of its status. -/
structure SyncedTableServer where
  create : Nat → Reply Unit
  status : Nat → Reply SyncedTableStatus
  statusTime : Nat → Nat

def syncedTableVerdict (tableName : String) (reply : Reply SyncedTableStatus) : Verdict (Except String Unit) :=
  pollVerdict (reply.checked s!"Failed to get synced table status for '{tableName}'" isSuccess) fun body =>
    match body.detailedState.getD "" with
    | "SYNCED_TABLE_ONLINE_NO_PENDING_UPDATE" | "SYNCED_TABLE_ONLINE_CONTINUOUS_UPDATE" => .decided (.ok ())
    | "SYNCED_TABLE_OFFLINE_FAILED" | "OFFLINE_FAILED" =>
        let message := body.message.getD "unknown error"
        .decided (.error s!"Synced table '{tableName}' failed: {message}")
    | _ => .again (millis 5000)

def SyncedTableServer.polling (server : SyncedTableServer) (tableName : String) : Polling (Except String Unit) where
  verdict index := syncedTableVerdict tableName (server.status index)
  latency := server.statusTime

def syncedTableTimeout : Nat := millis 600000

def isServerError (code : Nat) : Bool := 500 ≤ code && code < 600

/-- The attempts to create a synced table with their number: only an error of the server is tried again. -/
def SyncedTableServer.attemptCreate (server : SyncedTableServer) (tableName : String) :
    Nat → Nat → Except String Unit × Nat
  | 0, attempt => (.ok (), attempt)
  | left + 1, attempt =>
      match server.create attempt with
      | .error message => (.error message, attempt + 1)
      | .ok response =>
          if isSuccess response.code then (.ok (), attempt + 1)
          else if isServerError response.code && left ≠ 0 then server.attemptCreate tableName left (attempt + 1)
          else
            (.error s!"Failed to create synced table '{tableName}' ({response.status}): {response.text}", attempt + 1)

def SyncedTableServer.createSyncedTable (server : SyncedTableServer) (tableName : String) (fuel : Nat) :
    Option (Except String Unit) :=
  match (server.attemptCreate tableName 3 0).1 with
  | .error message => some (.error message)
  | .ok () => ((server.polling tableName).wait syncedTableTimeout fuel).map
      (concluded s!"Timed out waiting for synced table '{tableName}' to come ONLINE")

end SyncedTables

end Spicebench.Databricks
