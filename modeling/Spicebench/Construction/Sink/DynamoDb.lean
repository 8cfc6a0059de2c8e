/-
This file embeds the dispatch of write requests to DynamoDB: the chunks are sent concurrently, and a chunk is sent again
until the service has taken all of it or the retries are used up.
-/

import Spicebench.Library.Machine
import Mathlib.Data.List.Infix
import Mathlib.Data.List.Perm.Basic

namespace Spicebench.Sink.DynamoDb

open Library

def batchWriteMaxItems : Nat := 25

def maxRetries : Nat := 6

variable {Request : Type}

/-- The requests of a batch are cut into chunks; `(0..n).step_by(25)` are the starts of them. -/
def chunkRequests (requests : List Request) : List (List Request) :=
  let rows := requests.length
  (List.range' 0 ((rows + (batchWriteMaxItems - 1)) / batchWriteMaxItems) batchWriteMaxItems).map fun chunkStart =>
    let chunkEnd := min (chunkStart + batchWriteMaxItems) rows
    (requests.drop chunkStart).take (chunkEnd - chunkStart)

/-- The service replies to a call. Which requests it accepted only it knows; those that it did not process are listed by
the names of their tables. -/
inductive Response (Request : Type) where
  | success (accepted : List Request) (unprocessed : Option (List (String × List Request)))
  | failure (code : Option String) (shown : String)

def retryableCodes : List String :=
  ["Throttling", "ProvisionedThroughputExceeded", "ResourceInUseException", "InternalServerError", "ServiceUnavailable"]

/-- The code of a service error contains one of the names. -/
def isRetryable : Option String → Bool
  | some code => retryableCodes.any fun name => name.toList <:+: code.toList
  | none => false

def unprocessedItems (physical : String) (unprocessed : Option (List (String × List Request))) : List Request :=
  (unprocessed.bind fun entries => entries.lookup physical).getD []

/-- A task runs through its attempts, returns, or falls out of the loop into `unreachable!()`. -/
inductive TaskPhase (Request : Type) where
  | running (attempt : Nat) (currentChunk : List Request)
  | finished (result : Except String Unit)
  | panicked

/-- The loop over `0..=MAX_RETRIES` goes on or ends. -/
def nextAttempt (attempt : Nat) (currentChunk : List Request) : TaskPhase Request :=
  if attempt ≤ maxRetries then .running attempt currentChunk else .panicked

/-- What a task does with the response to an attempt. -/
def afterResponse (physical opLabel : String) (attempt : Nat) (currentChunk : List Request) :
    Response Request → TaskPhase Request
  | .success _ unprocessed =>
      let unprocessed := unprocessedItems physical unprocessed
      if unprocessed.isEmpty then .finished (.ok ())
      else if maxRetries ≤ attempt then
        .finished (.error s!"DynamoDB BatchWriteItem ({opLabel}): {unprocessed.length} items remained unprocessed after {maxRetries} retries")
      else nextAttempt (attempt + 1) unprocessed
  | .failure code shown =>
      if isRetryable code ∧ attempt < maxRetries then nextAttempt (attempt + 1) currentChunk
      else .finished (.error s!"DynamoDB BatchWriteItem ({opLabel}) failed: {shown}")

/-- A call hands over requests, of which the service accepts some. -/
structure Call (Request : Type) where
  submitted : List Request
  accepted : List Request

structure ChunkTask (Request : Type) where
  chunk : List Request
  phase : TaskPhase Request
  calls : List (Call Request)
  joined : Bool

def ChunkTask.spawn (chunk : List Request) : ChunkTask Request := ⟨chunk, .running 0 chunk, [], false⟩

def Response.accepted : Response Request → List Request
  | .success accepted _ => accepted
  | .failure _ _ => []

/-- A task takes the response to a call. -/
def ChunkTask.respond (physical opLabel : String) (task : ChunkTask Request) (attempt : Nat)
    (currentChunk : List Request)
    (response : Response Request) : ChunkTask Request :=
  { task with
    phase := afterResponse physical opLabel attempt currentChunk response
    calls := task.calls ++ [⟨currentChunk, response.accepted⟩] }

/-- The service answers a call: each request is accepted or returned, and those that are returned stand under the name of
the table that they were sent to. -/
def Answers (physical : String) (submitted : List Request) : Response Request → Prop
  | .success accepted unprocessed =>
      (∀ entry ∈ unprocessed.getD [], entry.1 = physical) ∧ ((unprocessed.getD []).map Prod.fst).Nodup ∧
        (accepted ++ (unprocessed.getD []).flatMap Prod.snd).Perm submitted
  | .failure _ _ => True

instance [DecidableEq Request] (physical : String) (submitted : List Request) (response : Response Request) :
    Decidable (Answers physical submitted response) := by
  unfold Answers
  cases response <;> infer_instance

/-- The chunks that wait for a permit, the tasks that were spawned, and what the function returns. -/
structure Dispatch (Request : Type) where
  waiting : List (List Request)
  tasks : List (ChunkTask Request)
  permits : Nat
  outcome : Option (Except String Unit)

def Dispatch.new (chunks : List (List Request)) (parallelism : Nat) : Dispatch Request := ⟨chunks, [], parallelism, none⟩

/-- The function spawns a task, joins one or returns, or the service responds to a task. -/
inductive DispatchAction (Request : Type) where
  | spawn
  | respond (task : Nat) (response : Response Request)
  | join (task : Nat)
  | finish

def TaskPhase.isRunning : TaskPhase Request → Bool
  | .running _ _ => true
  | _ => false

/-- One step of the function or of a task. The tasks that are left when the function returns are aborted. -/
def dispatchStep [DecidableEq Request] (physical opLabel : String) (dispatch : Dispatch Request)
    (action : DispatchAction Request) : Option (Dispatch Request) :=
  if dispatch.outcome.isSome then none
  else
    match action with
    | .spawn =>
        match dispatch.waiting with
        | [] => none
        | chunk :: waiting =>
            if 0 < dispatch.permits then
              some { dispatch with waiting, tasks := dispatch.tasks ++ [.spawn chunk], permits := dispatch.permits - 1 }
            else none
    | .respond index response =>
        match dispatch.tasks[index]? with
        | some task =>
            match task.phase with
            | .running attempt currentChunk =>
                if Answers physical currentChunk response then
                  let task := task.respond physical opLabel attempt currentChunk response
                  some { dispatch with
                    tasks := dispatch.tasks.set index task
                    permits := if task.phase.isRunning then dispatch.permits else dispatch.permits + 1 }
                else none
            | _ => none
        | none => none
    | .join index =>
        match dispatch.waiting, dispatch.tasks[index]? with
        | [], some task =>
            if task.joined then none
            else
              match task.phase with
              | .running _ _ => none
              | .finished (.ok ()) =>
                  some { dispatch with tasks := dispatch.tasks.set index { task with joined := true } }
              | .finished (.error message) => some { dispatch with outcome := some (.error message) }
              | .panicked => some { dispatch with outcome := some (.error "DynamoDB task panicked") }
        | _, _ => none
    | .finish =>
        if dispatch.waiting = [] ∧ ∀ task ∈ dispatch.tasks, task.joined = true then
          some { dispatch with outcome := some (.ok ()) }
        else none

/-- The chunks are dispatched with any responses of the service, in any order of the tasks. -/
def dispatchChunks [DecidableEq Request] (physical opLabel : String) :
    Machine (Dispatch Request) (DispatchAction Request) where
  step := dispatchStep physical opLabel
  admits _ := True

end Spicebench.Sink.DynamoDb
