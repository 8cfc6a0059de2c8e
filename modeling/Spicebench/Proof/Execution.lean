import Spicebench.Construction.Execution

namespace Spicebench.Execution

open Library

variable {server : Server}

/-- A query is over in one of these states. -/
def terminalStates : List String := ["succeeded", "failed", "cancelled", "closed"]

/-- What a query that is over means for its execution. -/
def verdictOf (final : Json) : Except String Unit :=
  match stateOf final with
  | "succeeded" => .ok ()
  | "failed" => .error s!"Query distributed execution failed: {errorOf final}"
  | "cancelled" => .error "Query was cancelled"
  | _ => .error "Query results expired before retrieval"

/-- A status response that was read shows this body. -/
def Shows (status : Reply) (body : Json) : Prop :=
  ∃ response, status = .ok response ∧ response.isSuccess = true ∧ response.json = .ok body

/-- A query that is over decides the wait. -/
theorem statusVerdict_terminal {interval : Nat} {status : Reply} {body : Json} (answer : Shows status body)
    (terminal : stateOf body ∈ terminalStates) : statusVerdict interval status = .decided (verdictOf body) := by
  obtain ⟨response, rfl, success, read⟩ := answer
  simp only [terminalStates, List.mem_cons, List.not_mem_nil, or_false] at terminal
  unfold statusVerdict verdictOf
  rcases terminal with state | state | state | state <;> simp [success, read, state]

/-- Any other state, known or not, asks for another poll. -/
theorem statusVerdict_open {interval : Nat} {status : Reply} {body : Json} (answer : Shows status body)
    (unfinished : stateOf body ∉ terminalStates) : statusVerdict interval status = .again interval := by
  obtain ⟨response, rfl, success, read⟩ := answer
  simp only [terminalStates, List.mem_cons, List.not_mem_nil, or_false, not_or] at unfinished
  obtain ⟨succeeded, failed, cancelled, closed⟩ := unfinished
  unfold statusVerdict
  simp only [success, read, Bool.not_true, Bool.false_eq_true, if_false]
  split <;> first | contradiction | rfl

/-- Only the answer to the poll before it makes a wait go on. -/
theorem statusVerdict_again {interval pause : Nat} {status : Reply}
    (again : statusVerdict interval status = .again pause) :
    pause = interval ∧ ∃ body, Shows status body ∧ stateOf body ∉ terminalStates := by
  cases status with
  | error message => exact nomatch again
  | ok response =>
      cases success : response.isSuccess with
      | false => simp [statusVerdict, success] at again
      | true =>
          cases read : response.json with
          | error message => simp [statusVerdict, success, read] at again
          | ok body =>
              have answer : Shows (.ok response) body := ⟨response, rfl, success, read⟩
              by_cases terminal : stateOf body ∈ terminalStates
              · exact nomatch (statusVerdict_terminal answer terminal).symm.trans again
              · have same := (statusVerdict_open answer terminal).symm.trans again
                exact ⟨(Verdict.again.inj same).symm, body, answer, terminal⟩

/-- The wait succeeds only by an answer that says so. -/
theorem statusVerdict_ok {interval : Nat} {status : Reply}
    (decided : statusVerdict interval status = .decided (.ok ())) :
    ∃ body, Shows status body ∧ stateOf body = "succeeded" := by
  cases status with
  | error message => exact nomatch decided
  | ok response =>
      cases success : response.isSuccess with
      | false => simp [statusVerdict, success] at decided
      | true =>
          cases read : response.json with
          | error message => simp [statusVerdict, success, read] at decided
          | ok body =>
              have answer : Shows (.ok response) body := ⟨response, rfl, success, read⟩
              refine ⟨body, answer, ?_⟩
              by_cases terminal : stateOf body ∈ terminalStates
              · have same := (statusVerdict_terminal answer terminal).symm.trans decided
                have good : verdictOf body = .ok () := Verdict.decided.inj same
                unfold verdictOf at good
                split at good
                · assumption
                all_goals exact nomatch good
              · exact nomatch (statusVerdict_open answer terminal).symm.trans decided

section Schedule

theorem millis_le_pollInterval (index : Nat) : millis 100 ≤ pollInterval index := by
  induction index with
  | zero => exact le_refl _
  | succ index ih =>
      rw [pollInterval, Nat.le_min]
      exact ⟨by omega, by decide⟩

theorem pollInterval_late (index : Nat) : pollInterval (index + 6) = maxPollInterval := by
  induction index with
  | zero => decide
  | succ index ih =>
      rw [Nat.add_right_comm, pollInterval, ih]
      decide

theorem paced (server : Server) : server.polling.Paced (millis 100) := by
  intro index pause again
  rw [(statusVerdict_again again).1]
  exact millis_le_pollInterval index

/-- The clock moves by at least the interval after each poll. -/
theorem clock_succ {limit index : Nat} (goes : server.polling.Goes limit (index + 1)) :
    server.polling.clock index + pollInterval index ≤ server.polling.clock (index + 1) := by
  obtain ⟨_, pause, again⟩ := goes index (Nat.lt_succ_self index)
  rw [Polling.clock, again, Verdict.pause, (statusVerdict_again again).1]
  omega

/-- After the first six intervals all others have the full length. -/
theorem clock_late {limit index : Nat} (goes : server.polling.Goes limit (index + 6)) :
    millis 6300 + index * maxPollInterval ≤ server.polling.clock (index + 6) := by
  induction index with
  | zero =>
      have moved : ∀ earlier < 6, server.polling.clock earlier + pollInterval earlier ≤
          server.polling.clock (earlier + 1) := by
        intro earlier less
        refine clock_succ fun other before => goes other ?_
        omega
      have total : pollInterval 0 + pollInterval 1 + pollInterval 2 + pollInterval 3 + pollInterval 4 +
          pollInterval 5 = millis 6300 := by
        decide
      have first := moved 0 (by decide)
      have second := moved 1 (by decide)
      have third := moved 2 (by decide)
      have fourth := moved 3 (by decide)
      have fifth := moved 4 (by decide)
      have sixth := moved 5 (by decide)
      simp only [Nat.zero_add, Nat.reduceAdd] at first second third fourth fifth sixth
      rw [Nat.zero_mul, ← total, Nat.zero_add 6]
      omega
  | succ index ih =>
      rw [Nat.add_right_comm] at goes ⊢
      have before := ih goes.pred
      have moved := clock_succ goes
      rw [pollInterval_late] at moved
      rw [Nat.succ_mul]
      omega

/-- No poll starts in time after this many. -/
theorem index_le {index : Nat} (goes : server.polling.Goes pollTimeout index)
    (early : server.polling.clock index ≤ pollTimeout) : index ≤ 724 := by
  by_contra more
  obtain ⟨rest, rfl⟩ := Nat.exists_eq_add_of_le' (Nat.le_of_lt (Nat.lt_of_lt_of_le (by decide : 6 < 725)
    (Nat.not_le.mp more)))
  have late := clock_late goes
  simp only [millis, maxPollInterval, pollTimeout] at late early
  omega

theorem polls_le {ended : Ended (Except String Unit)} (stops : server.polling.Stops pollTimeout ended) :
    ended.polls ≤ 725 := by
  cases stops with
  | decided goes early _ => exact Nat.succ_le_succ (index_le goes early)
  | @gaveUp index goes _ =>
      cases index with
      | zero => exact Nat.zero_le _
      | succ index => exact Nat.succ_le_succ (index_le goes.pred (goes index (Nat.lt_succ_self index)).1)

end Schedule

/-- The server tracks a query that is over at some time: what is asked after that time shows how the query ended,
and what was answered before it does not say that the query is over. -/
structure Tracks (server : Server) (time : Nat) (final : Json) : Prop where
  terminal : stateOf final ∈ terminalStates
  shown : ∀ index, ∃ body, Shows (server.status index) body ∧ (body = final ∨ stateOf body ∉ terminalStates)
  before : ∀ index body, server.polling.clock index + server.statusTime index < time →
    Shows (server.status index) body → stateOf body ∉ terminalStates
  after : ∀ index, time ≤ server.polling.clock index → Shows (server.status index) final

theorem Tracks.settles {time : Nat} {final : Json} (tracks : Tracks server time final) :
    server.polling.Settles time (verdictOf final) := by
  refine ⟨?_, ?_, ?_⟩
  · intro index early
    obtain ⟨body, answer, _⟩ := tracks.shown index
    exact ⟨_, statusVerdict_open answer (tracks.before index body early answer)⟩
  · intro index late
    exact statusVerdict_terminal (tracks.after index late) tracks.terminal
  · intro index found decided
    obtain ⟨body, answer, rfl | unfinished⟩ := tracks.shown index
    · exact Verdict.decided.inj (decided.symm.trans (statusVerdict_terminal answer tracks.terminal))
    · exact nomatch decided.symm.trans (statusVerdict_open answer unfinished)

/-- An accepted query is executed as its wait ends. -/
theorem execute_of_stops {Batch : Type} {queryId : String} (accepted : queryIdOf server.submit = .ok queryId)
    {ended : Ended (Except String Unit)} (stops : server.polling.Stops pollTimeout ended) {fuel : Nat}
    (enough : 725 < fuel) : (server.execute fuel : Option (Executed Batch)) =
      some ⟨server.resultOf ended, ended.polls⟩ := by
  have ran := stops.wait_eq (lt_of_le_of_lt (polls_le stops) enough)
  simp only [Server.execute, accepted, ran, Option.map_some]

/-- An execution asks for the status at most 725 times, whatever the server answers. It returns a row count exactly
if the query was accepted, some status request within the hour was the first to find the query over and found that
it succeeded, and the results name their row count. -/
theorem distributed_query_returns {Batch : Type} (server : Server) :
    ∃ executed : Executed Batch, (∀ fuel, 725 < fuel → server.execute fuel = some executed) ∧
      executed.statusPolls ≤ 725 ∧ ((∃ result, executed.result = .ok result) ↔
        (∃ queryId, queryIdOf server.submit = .ok queryId) ∧ (∃ count, rowCountOf server.results = .ok count) ∧
          ∃ last final, server.polling.clock last ≤ pollTimeout ∧ Shows (server.status last) final ∧
            stateOf final = "succeeded" ∧ ∀ earlier < last, ∃ body, Shows (server.status earlier) body ∧
              stateOf body ∉ terminalStates) := by
  cases submitted : queryIdOf server.submit with
  | error message =>
      refine ⟨⟨.error message, 0⟩, ?_, Nat.zero_le _, ?_⟩
      · intro fuel _
        simp only [Server.execute, submitted]
      · simp
  | ok queryId =>
      obtain ⟨ended, stops⟩ := Polling.exists_stops pollTimeout (by decide) (paced server)
      refine ⟨⟨server.resultOf ended, ended.polls⟩, fun _ => execute_of_stops submitted stops, polls_le stops, ?_⟩
      have waited := stops.result_iff (.ok ())
      constructor
      · rintro ⟨result, succeeded⟩
        cases outcome : ended.result with
        | none => simp [Server.resultOf, outcome] at succeeded
        | some found =>
            cases found with
            | error message => simp [Server.resultOf, outcome] at succeeded
            | ok done =>
                obtain ⟨last, early, decided, others⟩ := waited.mp outcome
                obtain ⟨final, answer, state⟩ := statusVerdict_ok decided
                cases counted : rowCountOf server.results with
                | error message => simp [Server.resultOf, outcome, counted] at succeeded
                | ok count =>
                    refine ⟨⟨queryId, rfl⟩, ⟨count, rfl⟩, last, final, early, answer, state, ?_⟩
                    intro earlier less
                    obtain ⟨pause, again⟩ := others earlier less
                    exact (statusVerdict_again again).2
      · rintro ⟨_, ⟨count, counted⟩, last, final, early, answer, state, others⟩
        have verdict : server.polling.verdict last = .decided (.ok ()) := by
          have found : server.polling.verdict last = .decided (verdictOf final) :=
            statusVerdict_terminal answer (by simp [terminalStates, state])
          simp only [found, verdictOf, state]
        have outcome : ended.result = some (.ok ()) := by
          refine waited.mpr ⟨last, early, verdict, ?_⟩
          intro earlier less
          obtain ⟨body, shown, unfinished⟩ := others earlier less
          exact ⟨_, statusVerdict_open shown unfinished⟩
        refine ⟨⟨server.submitTime + ended.clock + server.resultsTime, count, none⟩, ?_⟩
        simp only [Server.resultOf, outcome, counted]

end Spicebench.Execution
