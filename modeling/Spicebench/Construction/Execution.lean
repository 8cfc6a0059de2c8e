/-
This file embeds the executor of distributed queries: it submits a query, polls its status and fetches the row count.
-/

import Spicebench.Library.Polling

namespace Spicebench.Execution

open Library

/-- The numbers of a response keep the form in which they were read. -/
inductive Number where
  | posInt (value : UInt64)
  | negInt (value : Int)
  | float (bits : UInt64)
  deriving DecidableEq, Repr

inductive Json where
  | null
  | bool (value : Bool)
  | number (value : Number)
  | string (value : String)
  | array (items : List Json)
  | object (entries : List (String × Json))

namespace Json

/-- Only an object has fields. -/
def get (key : String) : Json → Option Json
  | .object entries => entries.lookup key
  | _ => none

def asStr : Json → Option String
  | .string value => some value
  | _ => none

def asU64 : Json → Option Nat
  | .number (.posInt value) => some value.toNat
  | _ => none

end Json

/-- The status of a response comes with the text that shows it; a body that cannot be read as text is empty. -/
structure Response where
  code : Nat
  status : String
  text : String
  json : Except String Json

def Response.isSuccess (response : Response) : Bool := 200 ≤ response.code && response.code < 300

/-- A request fails, or it is answered. -/
abbrev Reply := Except String Response

/-- The remote side answers one submission, every status request and one request for the results, in its own time. -/
structure Server where
  submit : Reply
  submitTime : Nat
  status : Nat → Reply
  statusTime : Nat → Nat
  results : Reply
  resultsTime : Nat

/-- The row batches of an execution are left out by this executor. -/
structure ExecutionResult (Batch : Type) where
  duration : Nat
  rowCount : Nat
  batches : Option (List Batch)
  deriving DecidableEq, Repr

def maxPollInterval : Nat := millis 5000

def pollTimeout : Nat := millis 3600000

/-- The interval doubles after each poll, up to its maximum. -/
def pollInterval : Nat → Nat
  | 0 => millis 100
  | index + 1 => min (pollInterval index * 2) maxPollInterval

/-- The first request names the query. -/
def queryIdOf (submit : Reply) : Except String String := do
  let response ← submit
  if !response.isSuccess then
    throw s!"Query distributed submit failed: {response.status} - {response.text}"
  let body ← response.json
  match (body.get "query_id").bind Json.asStr with
  | some queryId => pure queryId
  | none => throw "No query_id in submit response"

/-- The state that a status response names. -/
def stateOf (body : Json) : String := ((body.get "state").bind Json.asStr).getD "unknown"

def errorOf (body : Json) : String :=
  (((body.get "error").bind (Json.get "message")).bind Json.asStr).getD "Unknown error"

/-- A status that is not terminal asks for another poll, also when it is unknown. -/
def statusVerdict (interval : Nat) (status : Reply) : Verdict (Except String Unit) :=
  match status with
  | .error message => .decided (.error message)
  | .ok response =>
      if !response.isSuccess then .decided (.error s!"Query status check failed: {response.text}")
      else match response.json with
        | .error message => .decided (.error message)
        | .ok body =>
            match stateOf body with
            | "succeeded" => .decided (.ok ())
            | "failed" => .decided (.error s!"Query distributed execution failed: {errorOf body}")
            | "cancelled" => .decided (.error "Query was cancelled")
            | "closed" => .decided (.error "Query results expired before retrieval")
            | "pending" | "running" => .again interval
            | _ => .again interval

def Server.polling (server : Server) : Polling (Except String Unit) where
  verdict index := statusVerdict (pollInterval index) (server.status index)
  latency := server.statusTime

/-- The row count stands in the manifest of the results. -/
def rowCountOf (results : Reply) : Except String Nat := do
  let response ← results
  if !response.isSuccess then
    throw s!"Query results fetch failed: {response.status} - {response.text}"
  let body ← response.json
  match body.get "manifest" with
  | none => throw "Query results response missing 'manifest' field"
  | some manifest =>
      match manifest.get "total_row_count" with
      | none => throw "Query results manifest missing 'total_row_count' field"
      | some total =>
          match total.asU64 with
          | none => throw "Query results manifest 'total_row_count' field is not a valid u64"
          | some count => pure count

/-- What an execution returns, and how often it asked for the status. -/
structure Executed (Batch : Type) where
  result : Except String (ExecutionResult Batch)
  statusPolls : Nat

/-- What an execution returns once the wait for the query has ended. -/
def Server.resultOf {Batch : Type} (server : Server) (ended : Ended (Except String Unit)) :
    Except String (ExecutionResult Batch) :=
  match ended.result with
  | none => .error "Query timed out waiting for distributed execution"
  | some (.error message) => .error message
  | some (.ok ()) =>
      match rowCountOf server.results with
      | .error message => .error message
      | .ok count => .ok ⟨server.submitTime + ended.clock + server.resultsTime, count, none⟩

/-- This is `execute` of the distributed executor; `fuel` bounds the status polls. -/
def Server.execute {Batch : Type} (server : Server) (fuel : Nat) : Option (Executed Batch) :=
  match queryIdOf server.submit with
  | .error message => some ⟨.error message, 0⟩
  | .ok _ => (server.polling.wait pollTimeout fuel).map fun ended => ⟨server.resultOf ended, ended.polls⟩

end Spicebench.Execution
