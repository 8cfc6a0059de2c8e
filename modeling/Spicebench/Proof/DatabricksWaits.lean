import Spicebench.Construction.DatabricksWaits
import Mathlib

namespace Spicebench.Databricks

open Library

/-- A reply answers with this body, under a status that is accepted. -/
def Answers {Body : Type} (accepts : Nat → Bool) (reply : Reply Body) (body : Body) : Prop :=
  ∃ response, reply = .ok response ∧ accepts response.code = true ∧ response.body = .ok body

section Replies

variable {Body : Type} {accepts : Nat → Bool} {reply : Reply Body}

theorem checked_eq_ok_iff (label : String) {body : Body} :
    reply.checked label accepts = .ok body ↔ Answers accepts reply body := by
  cases reply with
  | error message => simp [Reply.checked, Answers]
  | ok response => cases accepted : accepts response.code <;> simp [Reply.checked, Answers, accepted]

theorem checked_of_answers {label : String} {body : Body} (answers : Answers accepts reply body) :
    reply.checked label accepts = .ok body := (checked_eq_ok_iff label).mpr answers

/-- A poll that does not end in an error was answered. -/
theorem pollVerdict_eq_iff {label : String} {found : Body → Verdict (Except String Unit)}
    {verdict : Verdict (Except String Unit)} (sound : ∀ message, verdict ≠ .decided (.error message)) :
    pollVerdict (reply.checked label accepts) found = verdict ↔
      ∃ body, Answers accepts reply body ∧ found body = verdict := by
  constructor
  · intro polled
    cases read : reply.checked label accepts with
    | error message =>
        rw [read] at polled
        exact absurd polled.symm (sound message)
    | ok body =>
        rw [read] at polled
        exact ⟨body, (checked_eq_ok_iff label).mp read, polled⟩
  · rintro ⟨body, answers, same⟩
    rw [checked_of_answers answers]
    exact same

/-- A wait succeeds exactly if it ends with success. -/
theorem concluded_eq_ok_iff {timedOut : String} {ended : Ended (Except String Unit)} :
    concluded timedOut ended = .ok () ↔ ended.result = some (.ok ()) := by
  cases result : ended.result with
  | none => simp [concluded, result]
  | some found => simp [concluded, result]

end Replies

section Statements

theorem result_eq_ok_iff {status : StatementStatus} : status.result = some (.ok ()) ↔ status.state = .succeeded := by
  cases state : status.state <;> simp [StatementStatus.result, state]

/-- A statement that is not over yet. -/
def StatementStatus.Unfinished (status : StatementStatus) : Prop := status.state = .pending ∨ status.state = .running

theorem result_eq_none_iff {status : StatementStatus} : status.result = none ↔ status.Unfinished := by
  cases state : status.state <;> simp [StatementStatus.result, StatementStatus.Unfinished, state]

theorem statementVerdict_ok_iff {reply : Reply StatementResponse} :
    statementVerdict reply = .decided (.ok ()) ↔ ∃ body, Answers isOk reply body ∧ body.status.state = .succeeded := by
  rw [statementVerdict, pollVerdict_eq_iff (by simp)]
  refine exists_congr fun body => and_congr_right fun _ => ?_
  rw [← result_eq_ok_iff]
  cases body.status.result <;> simp

theorem statementVerdict_again_iff {reply : Reply StatementResponse} {pause : Nat} :
    statementVerdict reply = .again pause ↔
      pause = millis 750 ∧ ∃ body, Answers isOk reply body ∧ body.status.Unfinished := by
  rw [statementVerdict, pollVerdict_eq_iff (by simp), ← exists_and_left]
  refine exists_congr fun body => ?_
  rw [← result_eq_none_iff]
  cases body.status.result <;> simp [and_comm, eq_comm]

theorem StatementServer.paced (server : StatementServer) (statementId : String) :
    (server.polling statementId).Paced (millis 750) := by
  intro index pause again
  exact (Iff.mp statementVerdict_again_iff again).1.ge

/-- The first status request that finds the statement over starts within three minutes, and finds that it succeeded. -/
def StatementServer.SucceedsInTime (server : StatementServer) (statementId : String) : Prop :=
  ∃ last, (server.polling statementId).clock last ≤ statementTimeout ∧
    (∃ found, Answers isOk (server.status statementId last) found ∧ found.status.state = .succeeded) ∧
    ∀ earlier < last, ∃ found, Answers isOk (server.status statementId earlier) found ∧ found.status.Unfinished

theorem StatementServer.wait_succeeds_iff (server : StatementServer) (statementId : String) :
    ∃ result, (∀ fuel, 241 < fuel → server.waitForStatementCompletion statementId fuel = some result) ∧
      (result = .ok () ↔ server.SucceedsInTime statementId) := by
  obtain ⟨ended, stops⟩ := Polling.exists_stops statementTimeout (by decide) (server.paced statementId)
  refine ⟨concluded s!"Timed out waiting for Databricks SQL statement {statementId}" ended, ?_, ?_⟩
  · intro fuel enough
    have few : ended.polls ≤ 241 := stops.polls_le (by decide) (server.paced statementId)
    rw [waitForStatementCompletion, stops.wait_eq (lt_of_le_of_lt few enough), Option.map_some]
  · rw [concluded_eq_ok_iff, stops.result_iff]
    refine exists_congr fun last => and_congr_right fun _ => and_congr statementVerdict_ok_iff ?_
    refine forall_congr' fun earlier => forall_congr' fun less => ?_
    constructor
    · rintro ⟨pause, again⟩
      exact (Iff.mp statementVerdict_again_iff again).2
    · intro found
      exact ⟨_, Iff.mpr statementVerdict_again_iff ⟨rfl, found⟩⟩

/-- The execution is refused, or its answer is final, or the adapter waits for the statement. -/
inductive StatementServer.Executes (server : StatementServer) : Prop where
  | refused (message : String) (ran : ∀ fuel, server.executeSqlStatement fuel = some (.error message))
      (unanswered : ∀ body, ¬ Answers isOk server.execute body)
  | settled (body : StatementResponse) (result : Except String Unit) (answered : ∀ other,
      Answers isOk server.execute other ↔ body = other) (ended : body.status.result = some result)
      (ran : ∀ fuel, server.executeSqlStatement fuel = some result)
  | waits (body : StatementResponse) (answered : ∀ other, Answers isOk server.execute other ↔ body = other)
      (unfinished : body.status.result = none)
      (ran : ∀ fuel, server.executeSqlStatement fuel = server.waitForStatementCompletion body.statementId fuel)

theorem StatementServer.executes (server : StatementServer) : server.Executes := by
  have answered : ∀ body, server.execute.checked "Databricks SQL statement execute failed" isOk = .ok body ↔
      Answers isOk server.execute body := fun _ => checked_eq_ok_iff _
  cases read : server.execute.checked "Databricks SQL statement execute failed" isOk with
  | error message =>
      refine .refused message ?_ ?_
      · intro fuel
        simp only [executeSqlStatement, read]
      · intro body
        rw [← answered, read]
        exact nofun
  | ok body =>
      simp only [read, Except.ok.injEq] at answered
      cases ended : body.status.result with
      | some result =>
          refine .settled body result (fun other => (answered other).symm) ended ?_
          intro fuel
          simp only [executeSqlStatement, read, ended]
      | none =>
          refine .waits body (fun other => (answered other).symm) ended ?_
          intro fuel
          simp only [executeSqlStatement, read, ended]

/-- A statement succeeds for the adapter exactly if the warehouse says so at once, or says that it is not over and the
first of the status requests to find it over starts within three minutes and finds that it succeeded. The adapter asks
at most 241 times. -/
theorem sql_statement_succeeds_iff (server : StatementServer) :
    ∃ result, (∀ fuel, 241 < fuel → server.executeSqlStatement fuel = some result) ∧
      (result = .ok () ↔ ∃ body, Answers isOk server.execute body ∧ (body.status.state = .succeeded ∨
        body.status.Unfinished ∧ server.SucceedsInTime body.statementId)) := by
  cases server.executes with
  | refused message ran unanswered =>
      refine ⟨.error message, fun fuel _ => ran fuel, nofun, ?_⟩
      rintro ⟨body, answers, _⟩
      exact absurd answers (unanswered body)
  | settled body result answered ended ran =>
      refine ⟨result, fun fuel _ => ran fuel, ?_⟩
      simp only [answered, exists_eq_left', ← result_eq_ok_iff, ← result_eq_none_iff, ended]
      simp
  | waits body answered unfinished ran =>
      obtain ⟨result, waited, succeeds⟩ := server.wait_succeeds_iff body.statementId
      refine ⟨result, fun fuel enough => (ran fuel).trans (waited fuel enough), ?_⟩
      simp only [answered, exists_eq_left', ← result_eq_ok_iff, ← result_eq_none_iff, unfinished]
      simpa using succeeds

end Statements

section History

theorem markerVerdict_ok_iff {reply : Reply QueryHistoryResponse} :
    markerVerdict reply = .decided (.ok ()) ↔ ∃ body, Answers isSuccess reply body ∧ body.res ≠ [] := by
  rw [markerVerdict, pollVerdict_eq_iff (by simp)]
  refine exists_congr fun body => and_congr_right fun _ => ?_
  cases body.res <;> simp

theorem markerVerdict_again {reply : Reply QueryHistoryResponse} {pause : Nat}
    (again : markerVerdict reply = .again pause) : pause = millis 5000 := by
  rw [markerVerdict, pollVerdict_eq_iff (by simp)] at again
  obtain ⟨body, _, found⟩ := again
  split at found
  · exact (Verdict.again.inj found).symm
  · exact nomatch found

theorem MarkerServer.paced (server : MarkerServer) : server.polling.Paced (millis 5000) :=
  fun _ _ again => (markerVerdict_again again).ge

/-- The history serves its pages one after another, each one under the token that the page before it hands over. -/
structure HistoryServer.Serves (server : HistoryServer) (first : HistoryRequest)
    (pages : List (List QueryHistoryEntry)) (tokens : Nat → String) : Prop where
  nonempty : pages ≠ []
  answers : ∀ index page (inside : page < pages.length), ∃ body,
    Answers isSuccess (server.page index (if page = 0 then first else .pageToken (tokens page))) body ∧
      body.res = pages[page] ∧
        body.continuation = if page + 1 < pages.length then some (tokens (page + 1)) else none

end History

section Clusters

/-- The state that a poll of the cluster reads. -/
def ClusterServer.shown (server : ClusterServer) (index : Nat) : Option String :=
  match getCluster (server.get index) with
  | .ok (some cluster) => some (cluster.state.getD "")
  | _ => none

/-- A poll goes on after a cluster that is terminated and can be started, or that is still on its way. -/
def ClusterServer.Waits (server : ClusterServer) (index : Nat) : Prop :=
  (server.shown index = some "TERMINATED" ∧ Answers isOk (server.start index) ()) ∨
    ∃ state ∉ ["RUNNING", "TERMINATED", "ERROR", "TERMINATING"], server.shown index = some state

theorem ClusterServer.shown_eq_some_iff {server : ClusterServer} {index : Nat} {state : String} :
    server.shown index = some state ↔
      ∃ cluster, getCluster (server.get index) = .ok (some cluster) ∧ cluster.state.getD "" = state := by
  unfold shown
  split
  · rename_i cluster found
    simp [found]
  · rename_i missing
    simp only [reduceCtorEq, false_iff, not_exists, not_and]
    intro cluster found
    exact absurd found (missing cluster)

section States

variable {clusterId : String} {cluster : ClusterSummary} {start : Reply Unit}

theorem clusterStateVerdict_ok_iff :
    clusterStateVerdict clusterId cluster start = .decided (.ok ()) ↔ cluster.state.getD "" = "RUNNING" := by
  unfold clusterStateVerdict
  split
  · rename_i state
    simp [state]
  · rename_i state
    rw [pollVerdict_eq_iff (by simp)]
    simp [state]
  · rename_i state
    simp [state]
  · rename_i state
    simp [state]
  · rename_i running _ _ _
    exact ⟨nofun, fun state => absurd state running⟩

theorem clusterStateVerdict_again_iff {pause : Nat} :
    clusterStateVerdict clusterId cluster start = .again pause ↔
      (cluster.state.getD "" = "TERMINATED" ∧ Answers isOk start () ∧ pause = 0) ∨
      (cluster.state.getD "" ∉ ["RUNNING", "TERMINATED", "ERROR", "TERMINATING"] ∧ pause = millis 5000) := by
  unfold clusterStateVerdict
  split
  · rename_i state
    simp [state]
  · rename_i state
    rw [pollVerdict_eq_iff (by simp)]
    constructor
    · rintro ⟨_, answers, again⟩
      exact .inl ⟨state, answers, (Verdict.again.inj again).symm⟩
    · rintro (⟨_, answers, rfl⟩ | ⟨other, _⟩)
      · exact ⟨(), answers, rfl⟩
      · simp [state] at other
  · rename_i state
    simp [state]
  · rename_i state
    simp [state]
  · rename_i running terminated failed terminating
    constructor
    · intro again
      refine .inr ⟨?_, (Verdict.again.inj again).symm⟩
      simp only [List.mem_cons, List.not_mem_nil, or_false, not_or]
      exact ⟨running, terminated, failed, terminating⟩
    · rintro (⟨state, _⟩ | ⟨_, rfl⟩)
      · exact absurd state terminated
      · rfl

end States

variable {server : ClusterServer} {clusterId : String} {index : Nat}

/-- A poll that does not end in an error finds the cluster. -/
theorem clusterVerdict_eq_iff {verdict : Verdict (Except String Unit)}
    (sound : ∀ message, verdict ≠ .decided (.error message)) :
    (server.polling clusterId).verdict index = verdict ↔ ∃ cluster,
      getCluster (server.get index) = .ok (some cluster) ∧
        clusterStateVerdict clusterId cluster (server.start index) = verdict := by
  change clusterVerdict clusterId (server.get index) (server.start index) = verdict ↔ _
  unfold clusterVerdict
  cases getCluster (server.get index) with
  | error message => simpa [pollVerdict] using fun same => sound message same.symm
  | ok answer =>
      cases answer with
      | none => simpa [pollVerdict] using fun same => sound _ same.symm
      | some cluster => simp [pollVerdict]

theorem clusterVerdict_ok_iff :
    (server.polling clusterId).verdict index = .decided (.ok ()) ↔ server.shown index = some "RUNNING" := by
  rw [clusterVerdict_eq_iff (by simp), ClusterServer.shown_eq_some_iff]
  simp only [clusterStateVerdict_ok_iff]

theorem clusterVerdict_again_iff :
    (∃ pause, (server.polling clusterId).verdict index = .again pause) ↔ server.Waits index := by
  unfold ClusterServer.Waits
  constructor
  · rintro ⟨pause, again⟩
    rw [clusterVerdict_eq_iff (by simp)] at again
    obtain ⟨cluster, found, again⟩ := again
    obtain ⟨state, started, _⟩ | ⟨state, _⟩ := clusterStateVerdict_again_iff.mp again
    · exact .inl ⟨ClusterServer.shown_eq_some_iff.mpr ⟨cluster, found, state⟩, started⟩
    · exact .inr ⟨_, state, ClusterServer.shown_eq_some_iff.mpr ⟨cluster, found, rfl⟩⟩
  · rintro (⟨shown, started⟩ | ⟨state, other, shown⟩)
    · obtain ⟨cluster, found, state⟩ := ClusterServer.shown_eq_some_iff.mp shown
      refine ⟨0, (clusterVerdict_eq_iff (by simp)).mpr ⟨cluster, found, ?_⟩⟩
      exact clusterStateVerdict_again_iff.mpr (.inl ⟨state, started, rfl⟩)
    · obtain ⟨cluster, found, rfl⟩ := ClusterServer.shown_eq_some_iff.mp shown
      refine ⟨millis 5000, (clusterVerdict_eq_iff (by simp)).mpr ⟨cluster, found, ?_⟩⟩
      exact clusterStateVerdict_again_iff.mpr (.inr ⟨other, rfl⟩)

/-- How many of the first polls find the cluster terminated, and start it. -/
def ClusterServer.restarts (server : ClusterServer) : Nat → Nat
  | 0 => 0
  | index + 1 => server.restarts index + if server.shown index = some "TERMINATED" then 1 else 0

/-- All polls but those that start the cluster come after a pause. -/
theorem ClusterServer.clock_le {limit : Nat} (goes : (server.polling clusterId).Goes limit index) :
    index * millis 5000 ≤ (server.polling clusterId).clock index + server.restarts index * millis 5000 := by
  induction index with
  | zero => simp
  | succ index ih =>
      have before := ih goes.pred
      obtain ⟨_, pause, again⟩ := goes index (Nat.lt_succ_self index)
      rw [Polling.clock, again, Verdict.pause, restarts, Nat.succ_mul, Nat.add_mul]
      rw [clusterVerdict_eq_iff (by simp)] at again
      obtain ⟨cluster, found, again⟩ := again
      obtain ⟨state, _, rfl⟩ | ⟨_, rfl⟩ := clusterStateVerdict_again_iff.mp again
      · rw [if_pos (shown_eq_some_iff.mpr ⟨cluster, found, state⟩)]
        omega
      · omega

theorem ClusterServer.index_le {restarts : Nat} (few : ∀ index, server.restarts index ≤ restarts)
    (goes : (server.polling clusterId).Goes clusterTimeout index)
    (early : (server.polling clusterId).clock index ≤ clusterTimeout) : index ≤ 180 + restarts := by
  have spread := clock_le goes
  have bounded := few index
  simp only [clusterTimeout, millis] at early spread
  omega

theorem ClusterServer.goes_le {restarts : Nat} (few : ∀ index, server.restarts index ≤ restarts)
    (goes : (server.polling clusterId).Goes clusterTimeout index) : index ≤ 181 + restarts := by
  cases index with
  | zero => exact Nat.zero_le _
  | succ index =>
      have := index_le few goes.pred (goes index (Nat.lt_succ_self index)).1
      omega

theorem ClusterServer.polls_le {restarts : Nat} (few : ∀ index, server.restarts index ≤ restarts)
    {ended : Ended (Except String Unit)} (stops : (server.polling clusterId).Stops clusterTimeout ended) :
    ended.polls ≤ 181 + restarts := by
  cases stops with
  | decided goes early _ =>
      have := index_le few goes early
      change _ + 1 ≤ _
      omega
  | gaveUp goes _ => exact goes_le few goes

/-- A cluster that is found terminated only so often is running for the adapter exactly if some poll within a quarter
of an hour shows it running, and each poll before that one shows it on its way, or terminated and is followed by a
request to start it that is accepted. The polls are at most 181 more than these requests. -/
theorem cluster_running_iff (server : ClusterServer) (clusterId : String) (restarts : Nat)
    (few : ∀ index, server.restarts index ≤ restarts) :
    ∃ result, (∀ fuel, 181 + restarts < fuel → server.ensureClusterRunning clusterId fuel = some result) ∧
      (result = .ok () ↔ ∃ last, (server.polling clusterId).clock last ≤ clusterTimeout ∧
        server.shown last = some "RUNNING" ∧ ∀ earlier < last, server.Waits earlier) := by
  have bounded : ∀ index, (server.polling clusterId).Goes clusterTimeout index → index ≤ 181 + restarts :=
    fun _ goes => ClusterServer.goes_le few goes
  obtain ⟨ended, stops⟩ := Polling.exists_stops_of_le bounded
  refine ⟨concluded s!"Timed out waiting for Databricks cluster {clusterId} to become RUNNING" ended, ?_, ?_⟩
  · intro fuel enough
    rw [ClusterServer.ensureClusterRunning, stops.wait_eq (lt_of_le_of_lt (ClusterServer.polls_le few stops) enough),
      Option.map_some]
  · rw [concluded_eq_ok_iff, stops.result_iff]
    simp only [clusterVerdict_ok_iff, clusterVerdict_again_iff]

/-- The sample cluster is terminated, is started and is running after a while. -/
def sampleCluster : ClusterServer where
  get index := .ok ⟨200, "200 OK", "", .ok ⟨"c1", "bench",
    some (match index with | 0 => "TERMINATED" | 1 => "PENDING" | _ => "RUNNING")⟩⟩
  start _ := .ok ⟨200, "200 OK", "", .ok ()⟩
  roundTime _ := millis 10

theorem sampleCluster_restarts (index : Nat) : sampleCluster.restarts index ≤ 1 := by
  have once : ∀ more, sampleCluster.restarts (more + 1) = 1 := by
    intro more
    induction more with
    | zero => decide
    | succ more ih =>
        have other : sampleCluster.shown (more + 1) ≠ some "TERMINATED" := by
          cases more with
          | zero => decide
          | succ more =>
              change some "RUNNING" ≠ some "TERMINATED"
              decide
        rw [ClusterServer.restarts, ih, if_neg other]
  cases index with
  | zero => decide
  | succ index => exact (once index).le

theorem cluster_running_iff_sample : ∃ result,
    (∀ fuel, 182 < fuel → sampleCluster.ensureClusterRunning "c1" fuel = some result) ∧ result = .ok () := by
  obtain ⟨result, ran, running⟩ := cluster_running_iff sampleCluster "c1" 1 sampleCluster_restarts
  refine ⟨result, ran, running.mpr ⟨2, by decide, by decide, ?_⟩⟩
  intro earlier less
  match earlier, less with
  | 0, _ => exact .inl ⟨by decide, _, rfl, rfl, rfl⟩
  | 1, _ => exact .inr ⟨"PENDING", by decide, by decide⟩

end Clusters

section SyncedTables

variable {server : SyncedTableServer} {tableName : String}

/-- This attempt creates the table. -/
def SyncedTableServer.Accepts (server : SyncedTableServer) (attempt : Nat) : Prop :=
  ∃ response, server.create attempt = .ok response ∧ isSuccess response.code = true

/-- This attempt fails with an error of the server. -/
def SyncedTableServer.Stumbles (server : SyncedTableServer) (attempt : Nat) : Prop :=
  ∃ response, server.create attempt = .ok response ∧ isServerError response.code = true

theorem not_isSuccess_of_isServerError {code : Nat} (failed : isServerError code = true) : isSuccess code = false := by
  simp only [isServerError, isSuccess, Bool.and_eq_true, decide_eq_true_eq] at failed ⊢
  simp only [Bool.and_eq_false_iff, decide_eq_false_iff_not]
  omega

/-- Some attempt succeeds, and those from the first one to it stumble. -/
def SyncedTableServer.Creates (server : SyncedTableServer) (first left : Nat) : Prop :=
  ∃ last, first ≤ last ∧ last ≤ first + left ∧ server.Accepts last ∧
    ∀ earlier, first ≤ earlier → earlier < last → server.Stumbles earlier

theorem SyncedTableServer.creates_of_accepts {first left : Nat} (accepts : server.Accepts first) :
    server.Creates first left :=
  ⟨first, le_refl _, Nat.le_add_right _ _, accepts, fun _ late early => absurd early (Nat.not_lt.mpr late)⟩

/-- An attempt that does not succeed is followed by another one only if it stumbles. -/
theorem SyncedTableServer.creates_iff {first left : Nat} (refused : ¬ server.Accepts first) :
    server.Creates first left ↔ server.Stumbles first ∧ ∃ rest, left = rest + 1 ∧ server.Creates (first + 1) rest := by
  constructor
  · rintro ⟨last, late, near, accepts, stumbles⟩
    have after : first < last := by
      refine lt_of_le_of_ne late ?_
      rintro rfl
      exact refused accepts
    refine ⟨stumbles first (le_refl _) after, left - 1, by omega, last, after, by omega, accepts, ?_⟩
    intro earlier late early
    exact stumbles earlier (Nat.le_of_succ_le late) early
  · rintro ⟨stumbled, rest, rfl, last, late, near, accepts, stumbles⟩
    refine ⟨last, Nat.le_of_succ_le late, by omega, accepts, ?_⟩
    intro earlier late early
    obtain rfl | after := Nat.eq_or_lt_of_le late
    · exact stumbled
    · exact stumbles earlier after early

theorem SyncedTableServer.attemptCreate_ok_iff (left first : Nat) :
    (server.attemptCreate tableName (left + 1) first).1 = .ok () ↔ server.Creates first left := by
  induction left generalizing first with
  | zero =>
      unfold attemptCreate
      cases reply : server.create first with
      | error message =>
          have refused : ¬ server.Accepts first := by simp [Accepts, reply]
          simp [creates_iff refused]
      | ok response =>
          cases success : isSuccess response.code with
          | true => simpa [success] using creates_of_accepts ⟨response, reply, success⟩
          | false =>
              have refused : ¬ server.Accepts first := by simp [Accepts, reply, success]
              simp [creates_iff refused, success]
  | succ left ih =>
      unfold attemptCreate
      cases reply : server.create first with
      | error message =>
          have refused : ¬ server.Accepts first := by simp [Accepts, reply]
          simp [creates_iff refused, Stumbles, reply]
      | ok response =>
          cases success : isSuccess response.code with
          | true => simpa [success] using creates_of_accepts ⟨response, reply, success⟩
          | false =>
              have refused : ¬ server.Accepts first := by simp [Accepts, reply, success]
              cases failed : isServerError response.code <;>
                simp [creates_iff refused, Stumbles, reply, success, failed, ih]

/-- The attempts are never more than those that are left. -/
theorem SyncedTableServer.attempts_le (left first : Nat) :
    (server.attemptCreate tableName left first).2 ≤ first + left := by
  induction left generalizing first with
  | zero => exact le_refl _
  | succ left ih =>
      unfold attemptCreate
      have later := ih (first + 1)
      split
      · change first + 1 ≤ _
        omega
      · split
        · change first + 1 ≤ _
          omega
        · split
          · omega
          · change first + 1 ≤ _
            omega

def onlineStates : List String := ["SYNCED_TABLE_ONLINE_NO_PENDING_UPDATE", "SYNCED_TABLE_ONLINE_CONTINUOUS_UPDATE"]

def offlineStates : List String := ["SYNCED_TABLE_OFFLINE_FAILED", "OFFLINE_FAILED"]

theorem syncedTableVerdict_ok_iff {reply : Reply SyncedTableStatus} :
    syncedTableVerdict tableName reply = .decided (.ok ()) ↔
      ∃ body, Answers isSuccess reply body ∧ body.detailedState.getD "" ∈ onlineStates := by
  rw [syncedTableVerdict, pollVerdict_eq_iff (by simp)]
  refine exists_congr fun body => and_congr_right fun _ => ?_
  split
  · rename_i state
    simp [state, onlineStates]
  · rename_i state
    simp [state, onlineStates]
  · rename_i state
    simp [state, onlineStates]
  · rename_i state
    simp [state, onlineStates]
  · rename_i first second _ _
    simp only [onlineStates, List.mem_cons, List.not_mem_nil, or_false]
    exact ⟨nofun, fun state => absurd state (by tauto)⟩

theorem syncedTableVerdict_again_iff {reply : Reply SyncedTableStatus} {pause : Nat} :
    syncedTableVerdict tableName reply = .again pause ↔ pause = millis 5000 ∧
      ∃ body, Answers isSuccess reply body ∧ body.detailedState.getD "" ∉ onlineStates ++ offlineStates := by
  rw [syncedTableVerdict, pollVerdict_eq_iff (by simp), ← exists_and_left]
  refine exists_congr fun body => ?_
  split
  · rename_i state
    simp [state, onlineStates]
  · rename_i state
    simp [state, onlineStates]
  · rename_i state
    simp [state, onlineStates, offlineStates]
  · rename_i state
    simp [state, onlineStates, offlineStates]
  · rename_i first second third fourth
    have other : body.detailedState.getD "" ∉ onlineStates ++ offlineStates := by
      simp only [onlineStates, offlineStates, List.cons_append, List.nil_append, List.mem_cons, List.not_mem_nil,
        or_false, not_or]
      exact ⟨first, second, third, fourth⟩
    simp only [Verdict.again.injEq]
    tauto

/-- A synced table is created for the adapter exactly if one of at most three attempts succeeds, where only errors of
the server come before it, and the first status request to find the table neither offline nor on its way starts within
ten minutes and finds it online. -/
theorem synced_table_created_iff (server : SyncedTableServer) (tableName : String) :
    (server.attemptCreate tableName 3 0).2 ≤ 3 ∧
      ∃ result, (∀ fuel, 121 < fuel → server.createSyncedTable tableName fuel = some result) ∧
        (result = .ok () ↔ server.Creates 0 2 ∧ ∃ last, (server.polling tableName).clock last ≤ syncedTableTimeout ∧
          (∃ body, Answers isSuccess (server.status last) body ∧ body.detailedState.getD "" ∈ onlineStates) ∧
          ∀ earlier < last, ∃ body, Answers isSuccess (server.status earlier) body ∧
            body.detailedState.getD "" ∉ onlineStates ++ offlineStates) := by
  refine ⟨SyncedTableServer.attempts_le 3 0, ?_⟩
  have created : (server.attemptCreate tableName 3 0).1 = .ok () ↔ server.Creates 0 2 :=
    SyncedTableServer.attemptCreate_ok_iff 2 0
  cases attempted : (server.attemptCreate tableName 3 0).1 with
  | error message =>
      rw [attempted] at created
      refine ⟨.error message, ?_, nofun, fun all => absurd (created.mpr all.1) nofun⟩
      intro fuel _
      simp only [SyncedTableServer.createSyncedTable, attempted]
  | ok done =>
      have paced : (server.polling tableName).Paced (millis 5000) :=
        fun _ _ again => (Iff.mp syncedTableVerdict_again_iff again).1.ge
      obtain ⟨ended, stops⟩ := Polling.exists_stops syncedTableTimeout (by decide) paced
      refine ⟨concluded s!"Timed out waiting for synced table '{tableName}' to come ONLINE" ended, ?_, ?_⟩
      · intro fuel enough
        have few : ended.polls ≤ 121 := stops.polls_le (by decide) paced
        simp only [SyncedTableServer.createSyncedTable, attempted, stops.wait_eq (lt_of_le_of_lt few enough),
          Option.map_some]
      · rw [and_iff_right (created.mp attempted), concluded_eq_ok_iff, stops.result_iff]
        refine exists_congr fun last => and_congr_right fun _ => and_congr syncedTableVerdict_ok_iff ?_
        refine forall_congr' fun earlier => forall_congr' fun less => ?_
        constructor
        · rintro ⟨pause, again⟩
          exact (Iff.mp syncedTableVerdict_again_iff again).2
        · intro found
          exact ⟨_, Iff.mpr syncedTableVerdict_again_iff ⟨rfl, found⟩⟩

end SyncedTables

end Spicebench.Databricks
