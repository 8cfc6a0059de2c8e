import Spicebench.Construction.Sink.DynamoDb
import Mathlib

namespace Spicebench.Sink.DynamoDb
open Library

variable {Request : Type}

section Responses

variable {physical opLabel : String} {submitted : List Request}

/-- All that the service returns stands under the name that is looked up. -/
theorem unprocessedItems_eq {unprocessed : Option (List (String × List Request))}
    (named : ∀ entry ∈ unprocessed.getD [], entry.1 = physical) (distinct : ((unprocessed.getD []).map Prod.fst).Nodup) :
    unprocessedItems physical unprocessed = (unprocessed.getD []).flatMap Prod.snd := by
  cases unprocessed with
  | none => rfl
  | some entries =>
      match entries with
      | [] => rfl
      | [entry] =>
          have same : entry.1 = physical := named entry List.mem_cons_self
          simp [unprocessedItems, List.lookup, same]
      | first :: second :: rest =>
          have same : first.1 = second.1 :=
            (named first (by simp)).trans (named second (by simp)).symm
          simp [same] at distinct

/-- The requests that the service has accepted from a task so far. -/
def ChunkTask.accepted (task : ChunkTask Request) : List Request := task.calls.flatMap Call.accepted

/-- The accepted requests and the pending ones are the chunk, and the task has not left its loop. -/
def TaskPhase.Accounts (chunk accepted : List Request) : TaskPhase Request → Prop
  | .running attempt currentChunk => attempt ≤ maxRetries ∧ (accepted ++ currentChunk).Perm chunk
  | .finished (.ok ()) => accepted.Perm chunk
  | .finished (.error _) => True
  | .panicked => False

/-- Every call submits what of the chunk was not accepted before, neither more nor less. -/
def Fresh (chunk : List Request) (calls : List (Call Request)) : Prop :=
  ∀ before call after, calls = before ++ call :: after → (before.flatMap Call.accepted ++ call.submitted).Perm chunk

structure ChunkTask.Sound (task : ChunkTask Request) : Prop where
  accounts : task.phase.Accounts task.chunk task.accepted
  fresh : Fresh task.chunk task.calls

/-- What remains after a response is accounted for, whatever the service answers. -/
theorem accounts_afterResponse {chunk accepted : List Request} {attempt : Nat}
    (pending : (accepted ++ submitted).Perm chunk) {response : Response Request}
    (answers : Answers physical submitted response) :
    (afterResponse physical opLabel attempt submitted response).Accounts chunk (accepted ++ response.accepted) := by
  cases response with
  | success taken unprocessed =>
      obtain ⟨named, distinct, answered⟩ := answers
      rw [← unprocessedItems_eq named distinct] at answered
      have remaining : ((accepted ++ taken) ++ unprocessedItems physical unprocessed).Perm chunk := by
        rw [List.append_assoc]
        exact (answered.append_left accepted).trans pending
      unfold afterResponse
      dsimp only [Response.accepted]
      split_ifs with none exhausted
      · rw [List.isEmpty_iff.mp none, List.append_nil] at remaining
        exact remaining
      · trivial
      · have more : attempt + 1 ≤ maxRetries := by omega
        rw [nextAttempt, if_pos more]
        exact ⟨more, remaining⟩
  | failure code shown =>
      unfold afterResponse
      dsimp only [Response.accepted]
      split_ifs with again
      · have more : attempt + 1 ≤ maxRetries := again.2
        rw [nextAttempt, if_pos more, List.append_nil]
        exact ⟨more, pending⟩
      · trivial

theorem fresh_append {chunk : List Request} {calls : List (Call Request)} (fresh : Fresh chunk calls)
    {call : Call Request}
    (pending : (calls.flatMap Call.accepted ++ call.submitted).Perm chunk) : Fresh chunk (calls ++ [call]) := by
  intro before other after split
  rcases List.eq_nil_or_concat after with rfl | ⟨front, last, rfl⟩
  · obtain ⟨rfl, same⟩ := List.append_inj' split rfl
    obtain rfl := (List.cons.inj same).1
    exact pending
  · rw [List.concat_eq_append, ← List.cons_append, ← List.append_assoc] at split
    exact fresh before other front (List.append_inj_left' split rfl)

/-- A response keeps a task sound. -/
theorem ChunkTask.Sound.respond {task : ChunkTask Request} (sound : task.Sound) {attempt : Nat}
    (running : task.phase = .running attempt submitted) {response : Response Request}
    (answers : Answers physical submitted response) :
    (task.respond physical opLabel attempt submitted response).Sound := by
  have accounts := sound.accounts
  rw [running] at accounts
  obtain ⟨_, pending⟩ := accounts
  constructor
  · simpa [ChunkTask.respond, ChunkTask.accepted] using accounts_afterResponse pending answers
  · exact fresh_append sound.fresh pending

theorem ChunkTask.sound_spawn (chunk : List Request) : (ChunkTask.spawn chunk).Sound := by
  refine ⟨⟨Nat.zero_le _, List.Perm.refl _⟩, fun before call after split => ?_⟩
  simp [ChunkTask.spawn] at split

end Responses

section Runs

variable {physical opLabel : String} {chunks : List (List Request)} {dispatch next : Dispatch Request}

/-- What one step does to the dispatch. -/
inductive Dispatch.Stepped (physical opLabel : String) (dispatch next : Dispatch Request) : Prop where
  | spawned (chunk : List Request) (waits : dispatch.waiting = chunk :: next.waiting)
      (tasks : next.tasks = dispatch.tasks ++ [.spawn chunk]) (goesOn : next.outcome = none)
  | responded (index : Nat) (task : ChunkTask Request) (found : dispatch.tasks[index]? = some task) (attempt : Nat)
      (currentChunk : List Request) (running : task.phase = .running attempt currentChunk) (response : Response Request)
      (answers : Answers physical currentChunk response) (waiting : next.waiting = dispatch.waiting)
      (tasks : next.tasks = dispatch.tasks.set index (task.respond physical opLabel attempt currentChunk response))
      (goesOn : next.outcome = none)
  | joined (index : Nat) (task : ChunkTask Request) (found : dispatch.tasks[index]? = some task)
      (went : task.phase = .finished (.ok ())) (waiting : next.waiting = dispatch.waiting)
      (tasks : next.tasks = dispatch.tasks.set index { task with joined := true }) (goesOn : next.outcome = none)
  | failed (message : String) (waiting : next.waiting = dispatch.waiting) (tasks : next.tasks = dispatch.tasks)
      (returned : next.outcome = some (.error message))
  | finished (none : dispatch.waiting = []) (all : ∀ task ∈ dispatch.tasks, task.joined = true)
      (waiting : next.waiting = dispatch.waiting) (tasks : next.tasks = dispatch.tasks)

theorem dispatchStep_cases [DecidableEq Request] {action : DispatchAction Request}
    (stepped : dispatchStep physical opLabel dispatch action = some next) :
    Dispatch.Stepped physical opLabel dispatch next := by
  unfold dispatchStep at stepped
  by_cases ended : dispatch.outcome.isSome = true
  · rw [if_pos ended] at stepped
    cases stepped
  rw [if_neg ended] at stepped
  have goesOn : dispatch.outcome = none := by simpa using ended
  cases action with
  | spawn =>
      dsimp only at stepped
      split at stepped
      · cases stepped
      · rename_i chunk waiting waits
        split_ifs at stepped
        obtain rfl := Option.some.inj stepped
        exact .spawned chunk waits rfl goesOn
  | respond index response =>
      dsimp only at stepped
      split at stepped
      · rename_i task found
        split at stepped
        · rename_i attempt currentChunk running
          split_ifs at stepped with answers
          · obtain rfl := Option.some.inj stepped
            exact .responded index task found attempt currentChunk running response answers rfl rfl goesOn
          · obtain rfl := Option.some.inj stepped
            exact .responded index task found attempt currentChunk running response answers rfl rfl goesOn
        · cases stepped
      · cases stepped
  | join index =>
      dsimp only at stepped
      split at stepped
      · rename_i task none found
        split_ifs at stepped
        split at stepped
        · cases stepped
        · rename_i went
          obtain rfl := Option.some.inj stepped
          exact .joined index task found went rfl rfl goesOn
        · rename_i message _
          obtain rfl := Option.some.inj stepped
          exact .failed message rfl rfl rfl
        · obtain rfl := Option.some.inj stepped
          exact .failed _ rfl rfl rfl
      · cases stepped
  | finish =>
      dsimp only at stepped
      split_ifs at stepped with all
      obtain rfl := Option.some.inj stepped
      exact .finished all.1 all.2 rfl rfl

/-- The tasks are those of the first chunks, each one is sound, and only tasks that went through are joined. -/
structure Dispatch.Sound (chunks : List (List Request)) (dispatch : Dispatch Request) : Prop where
  spawned : dispatch.tasks.map ChunkTask.chunk ++ dispatch.waiting = chunks
  sound : ∀ task ∈ dispatch.tasks, task.Sound
  joined : ∀ task ∈ dispatch.tasks, task.joined = true → task.phase = .finished (.ok ())
  returned : dispatch.outcome = some (.ok ()) →
    dispatch.waiting = [] ∧ ∀ task ∈ dispatch.tasks, task.joined = true

theorem Dispatch.sound_new (parallelism : Nat) : (Dispatch.new chunks parallelism).Sound chunks :=
  ⟨rfl, by simp [new], by simp [new], by simp [new]⟩

/-- A task stands for the same chunk after it was replaced. -/
theorem map_chunk_set {tasks : List (ChunkTask Request)} {index : Nat} {task other : ChunkTask Request}
    (found : tasks[index]? = some task) (same : other.chunk = task.chunk) :
    (tasks.set index other).map ChunkTask.chunk = tasks.map ChunkTask.chunk := by
  rw [List.map_set, same]
  refine List.ext_getElem? fun position => ?_
  by_cases here : index = position
  · subst here
    have inside := (List.getElem?_eq_some_iff.mp found).1
    rw [List.getElem?_set_self (by simpa using inside), List.getElem?_map, found]
    rfl
  · rw [List.getElem?_set_ne here]

/-- A step keeps the dispatch sound. -/
theorem Dispatch.Sound.step (sound : dispatch.Sound chunks) (stepped : Dispatch.Stepped physical opLabel dispatch next) :
    next.Sound chunks := by
  cases stepped with
  | spawned chunk waits tasks goesOn =>
      refine ⟨?_, ?_, ?_, ?_⟩
      · have spawned := sound.spawned
        rw [waits] at spawned
        rw [tasks, List.map_append, List.append_assoc]
        exact spawned
      · rw [tasks]
        exact List.forall_mem_append.mpr ⟨sound.sound, by simpa using ChunkTask.sound_spawn chunk⟩
      · rw [tasks]
        exact List.forall_mem_append.mpr ⟨sound.joined, by simp [ChunkTask.spawn]⟩
      · simp [goesOn]
  | responded index task found attempt currentChunk running response answers waiting tasks goesOn =>
      have member := List.mem_of_getElem? found
      refine ⟨?_, ?_, ?_, ?_⟩
      · have same : (task.respond physical opLabel attempt currentChunk response).chunk = task.chunk := rfl
        rw [tasks, map_chunk_set found same, waiting]
        exact sound.spawned
      · rw [tasks]
        intro other inside
        rcases List.mem_or_eq_of_mem_set inside with old | rfl
        · exact sound.sound other old
        · exact (sound.sound task member).respond running answers
      · rw [tasks]
        intro other inside
        rcases List.mem_or_eq_of_mem_set inside with old | rfl
        · exact sound.joined other old
        · intro isJoined
          have went := sound.joined task member isJoined
          rw [running] at went
          cases went
      · simp [goesOn]
  | joined index task found went waiting tasks goesOn =>
      have member := List.mem_of_getElem? found
      refine ⟨?_, ?_, ?_, ?_⟩
      · have same : ({ task with joined := true } : ChunkTask Request).chunk = task.chunk := rfl
        rw [tasks, map_chunk_set found same, waiting]
        exact sound.spawned
      · rw [tasks]
        intro other inside
        rcases List.mem_or_eq_of_mem_set inside with old | rfl
        · exact sound.sound other old
        · exact ⟨(sound.sound task member).accounts, (sound.sound task member).fresh⟩
      · rw [tasks]
        intro other inside
        rcases List.mem_or_eq_of_mem_set inside with old | rfl
        · exact sound.joined other old
        · exact fun _ => went
      · simp [goesOn]
  | failed message waiting tasks returned =>
      refine ⟨by rw [tasks, waiting]; exact sound.spawned, by rw [tasks]; exact sound.sound,
        by rw [tasks]; exact sound.joined, by simp [returned]⟩
  | finished none all waiting tasks =>
      refine ⟨by rw [tasks, waiting]; exact sound.spawned, by rw [tasks]; exact sound.sound,
        by rw [tasks]; exact sound.joined, fun _ => ?_⟩
      rw [waiting, tasks]
      exact ⟨none, all⟩

/-- All that the service has accepted in the calls of the dispatch. -/
def Dispatch.accepted (dispatch : Dispatch Request) : List Request := dispatch.tasks.flatMap ChunkTask.accepted

/-- Every state that a dispatch reaches is sound. -/
theorem Dispatch.sound_of_reaches [DecidableEq Request] {parallelism : Nat}
    (reached : (dispatchChunks physical opLabel).Reaches (Dispatch.new chunks parallelism) dispatch) :
    dispatch.Sound chunks := by
  refine reached.invariant (Dispatch.Sound chunks) ?_ (Dispatch.sound_new parallelism)
  rintro state next sound ⟨action, _, stepped⟩
  exact sound.step (dispatchStep_cases stepped)

/-- A dispatch that returns without an error has had every request accepted. -/
theorem Dispatch.Sound.accepted_perm (sound : dispatch.Sound chunks) (went : dispatch.outcome = some (.ok ())) :
    dispatch.accepted.Perm chunks.flatten := by
  obtain ⟨none, all⟩ := sound.returned went
  have chunk : chunks.flatten = dispatch.tasks.flatMap ChunkTask.chunk := by
    rw [← sound.spawned, none, List.append_nil, List.flatMap_def]
  rw [chunk]
  refine List.Perm.flatMap_left _ fun task member => ?_
  have accounts := (sound.sound task member).accounts
  rwa [sound.joined task member (all task member)] at accounts

/-- However the service answers, a dispatch that returns without an error has had every request accepted, no task leaves
its loop, and every call submits just the requests of its chunk that were not accepted before. -/
theorem dispatch_acknowledges [DecidableEq Request] (physical opLabel : String) (parallelism : Nat)
    (chunks : List (List Request)) {final : Dispatch Request}
    (reached : (dispatchChunks physical opLabel).Reaches (Dispatch.new chunks parallelism) final) :
    (final.outcome = some (.ok ()) → final.accepted.Perm chunks.flatten) ∧
      (∀ task ∈ final.tasks, task.phase ≠ .panicked) ∧
      ∀ task ∈ final.tasks, task.chunk ∈ chunks ∧
        ∀ before call after, task.calls = before ++ call :: after →
          (before.flatMap Call.accepted ++ call.submitted).Perm task.chunk := by
  have sound := Dispatch.sound_of_reaches reached
  refine ⟨sound.accepted_perm, fun task member panicked => ?_, fun task member => ⟨?_, (sound.sound task member).fresh⟩⟩
  · have accounts := (sound.sound task member).accounts
    rwa [panicked] at accounts
  · rw [← sound.spawned]
    exact List.mem_append_left _ (List.mem_map_of_mem member)

/-- Two chunks are sent at once; the service returns a request of the first one and throttles the second. -/
def sampleResponses : List (DispatchAction Nat) :=
  [.spawn, .spawn, .respond 0 (.success [1] (some [("orders", [2])])),
    .respond 1 (.failure (some "Throttling") "slow down"),
    .respond 1 (.success [3] none), .respond 0 (.success [2] (some [])), .join 1, .join 0, .finish]

theorem dispatch_acknowledges_sample :
    ∃ final, (dispatchChunks "orders" "upsert").run (Dispatch.new [[1, 2], [3]] 2) sampleResponses = some final ∧
      final.accepted.Perm [1, 2, 3] := by
  obtain ⟨final, ran, went⟩ : ∃ final, (dispatchChunks "orders" "upsert").run (Dispatch.new [[1, 2], [3]] 2)
      sampleResponses = some final ∧ final.outcome = some (.ok ()) := ⟨_, rfl, rfl⟩
  have reached := (dispatchChunks "orders" "upsert").reaches_of_run (fun _ _ => trivial) ran
  exact ⟨final, ran, (dispatch_acknowledges "orders" "upsert" 2 [[1, 2], [3]] reached).1 went⟩

end Runs

section Chunks

/-- Behind the first chunk the rest is cut in the same way. -/
theorem chunkRequests_cons {requests : List Request} (nonempty : requests ≠ []) :
    chunkRequests requests = requests.take batchWriteMaxItems :: chunkRequests (requests.drop batchWriteMaxItems) := by
  have positive := List.length_pos_iff.mpr nonempty
  unfold chunkRequests
  simp only [List.length_drop, batchWriteMaxItems]
  have count : (requests.length + (25 - 1)) / 25 = (requests.length - 25 + (25 - 1)) / 25 + 1 := by omega
  rw [count, List.range'_succ, List.map_cons]
  congr 1
  · rw [List.drop_zero, Nat.zero_add, Nat.sub_zero]
    rcases Nat.le_total 25 requests.length with long | short
    · rw [Nat.min_eq_left long]
    · rw [Nat.min_eq_right short, List.take_length, List.take_of_length_le short]
  · have shifted : List.range' (0 + 25) ((requests.length - 25 + (25 - 1)) / 25) 25 =
        (List.range' 0 ((requests.length - 25 + (25 - 1)) / 25) 25).map (25 + ·) := by
      rw [List.map_add_range', Nat.add_comm]
    rw [shifted, List.map_map]
    refine List.map_congr_left fun chunkStart _ => ?_
    simp only [Function.comp_apply]
    rw [List.drop_drop]
    congr 1
    omega

/-- The chunks hold all requests in their order, and none has more than the service takes. -/
theorem chunkRequests_flatten (requests : List Request) :
    (chunkRequests requests).flatten = requests ∧
      ∀ chunk ∈ chunkRequests requests, chunk.length ≤ batchWriteMaxItems := by
  induction size : requests.length using Nat.strong_induction_on generalizing requests with
  | _ size chunked =>
      by_cases empty : requests = []
      · subst empty
        simp [chunkRequests, batchWriteMaxItems]
      · have positive := List.length_pos_iff.mpr empty
        obtain ⟨flat, short⟩ := chunked _ (by simp [batchWriteMaxItems]; omega) (requests.drop batchWriteMaxItems) rfl
        rw [chunkRequests_cons empty, List.flatten_cons, flat, List.take_append_drop]
        exact ⟨rfl, List.forall_mem_cons.mpr ⟨List.length_take_le _ _, short⟩⟩

/-- The requests of a whole batch are accepted when the dispatch of its chunks returns without an error. -/
theorem batch_accepted [DecidableEq Request] {physical opLabel : String} {parallelism : Nat} {requests : List Request}
    {final : Dispatch Request}
    (reached : (dispatchChunks physical opLabel).Reaches (Dispatch.new (chunkRequests requests) parallelism) final)
    (went : final.outcome = some (.ok ())) : final.accepted.Perm requests := by
  have accepted := (Dispatch.sound_of_reaches reached).accepted_perm went
  rwa [(chunkRequests_flatten requests).1] at accepted

end Chunks

end Spicebench.Sink.DynamoDb
