import Spicebench.Construction.SpiceTest

namespace Spicebench.SpiceTest
open Library Commands

/-- The status that a worker has not stored yet. -/
def Phase.pending : Phase → Option (String × QueryStatus)
  | .counting query _ _ status => some (query.name, status)
  | .measuring query _ _ status => some (query.name, status)
  | _ => none

/-- The map holds a failure of the query. -/
def HasFailed (queryStatuses : OrderedMap String QueryStatus) (name : String) : Prop :=
  ∃ message, queryStatuses.get? name = some (.failed message)

/-- The worker holds a failure of the query, in its map or on its way there. -/
def Worker.FailedOn (worker : Worker) (name : String) : Prop :=
  HasFailed worker.queryStatuses name ∨ ∃ message, worker.phase.pending = some (name, .failed message)

/-- A status may be stored where it does not replace a failure by a pass. -/
def Worker.mayStore (worker : Worker) (query : Query) (status : QueryStatus) : Bool :=
  status.isFailed || !(worker.queryStatuses.get? query.name).any QueryStatus.isFailed

/-- No connection fails, no execution of a warm-up round fails, and no pass replaces a failure. -/
def Test.careful (test : Test) (state : State) : Action → Bool
  | .cancel => true
  | .work id answers =>
      match state.workers[id]? with
      | none => true
      | some worker =>
          let result := runSingleQuery state.cancelled answers.execution
          match worker.phase with
          | .executing _ _ _ => !result.connectionFailed
          | .warmingUp _ _ => !result.connectionFailed && result.queryFailure.isNone
          | .counting query _ count status =>
              (count < test.targetCount && !state.cancelled) || worker.mayStore query status
          | .measuring query _ _ status =>
              !result.connectionFailed && (!result.shutdown || worker.mayStore query status)
          | _ => true

section Worker

variable {worker next : Worker} {query : Query} {status : QueryStatus} {name : String}

theorem QueryStatus.isFailed_iff : status.isFailed = true ↔ ∃ message, status = .failed message := by
  cases status <;> simp [QueryStatus.isFailed]

theorem hasFailed_iff {queryStatuses : OrderedMap String QueryStatus} :
    HasFailed queryStatuses name ↔ (queryStatuses.get? name).any QueryStatus.isFailed = true := by
  unfold HasFailed
  cases queryStatuses.get? name with
  | none => simp
  | some status => cases status <;> simp [QueryStatus.isFailed]

/-- A careful step keeps the failures that a worker holds, and holds the failures that it sees. -/
structure Progress (worker next : Worker) : Prop where
  kept : ∀ {name : String}, worker.FailedOn name → next.FailedOn name
  held : ∀ name ∈ next.failures, name ∈ worker.failures ∨ next.FailedOn name
  refused : next.refused = worker.refused

/-- Nothing but the place of the worker changes. -/
theorem Progress.moveTo {phase : Phase}
    (same : ∀ entry, worker.phase.pending = some entry → phase.pending = some entry) :
    Progress worker (worker.moveTo phase) where
  kept := by
    rintro name (stored | ⟨message, isPending⟩)
    · exact .inl stored
    · exact .inr ⟨message, same _ isPending⟩
  held name seen := .inl seen
  refused := rfl

theorem Progress.leave {phase : Phase} (nothing : worker.phase.pending = none) :
    Progress worker (worker.moveTo phase) := by
  refine .moveTo fun entry isPending => ?_
  rw [nothing] at isPending
  cases isPending

/-- The pending status goes into the map. -/
theorem Progress.store {rest : List Query} (isPending : worker.phase.pending = some (query.name, status))
    (mayStore : worker.mayStore query status = true) :
    Progress worker ((worker.insertStatus query status).moveTo (.between rest)) where
  kept {name} failed := by
    refine .inl ?_
    by_cases same : name = query.name
    · subst same
      have isFailed : status.isFailed = true := by
        rcases failed with stored | ⟨message, pending⟩
        · simpa [Worker.mayStore, hasFailed_iff.mp stored] using mayStore
        · rw [isPending] at pending
          simp only [Option.some.injEq, Prod.mk.injEq] at pending
          exact QueryStatus.isFailed_iff.mpr ⟨message, pending.2⟩
      obtain ⟨message, rfl⟩ := QueryStatus.isFailed_iff.mp isFailed
      exact ⟨message, OrderedMap.get?_alter_self ..⟩
    · rcases failed with ⟨message, stored⟩ | ⟨message, pending⟩
      · exact ⟨message, (OrderedMap.get?_alter_ne _ same _).trans stored⟩
      · rw [isPending] at pending
        simp only [Option.some.injEq, Prod.mk.injEq] at pending
        exact absurd pending.1.symm same
  held name seen := .inl seen
  refused := rfl

/-- What the worker has seen after an execution. -/
theorem mem_failures_observe {result : QueryRunResult} (seen : name ∈ (worker.observe query result).failures) :
    name ∈ worker.failures ∨ (name = query.name ∧ result.queryFailure.isSome = true) := by
  unfold Worker.observe at seen
  by_cases failed : result.queryFailure.isSome = true
  · rw [if_pos failed] at seen
    simpa [failed] using seen
  · rw [if_neg failed] at seen
    exact .inl seen

theorem get?_updateStatus_self : (worker.updateStatus query status).queryStatuses.get? query.name =
    some (match worker.queryStatuses.get? query.name with
      | some existing => if status.isFailed then status else existing
      | none => status) := by
  unfold Worker.updateStatus
  rw [OrderedMap.get?_alter_self]
  cases worker.queryStatuses.get? query.name <;> rfl

/-- The status of an execution goes into the map at once. -/
theorem Progress.update {result : QueryRunResult} {querySetCount : Nat} {rest : List Query}
    (nothing : worker.phase.pending = none) (connected : result.connectionFailed = false) :
    Progress worker (((worker.observe query result).updateStatus query (statusOf result.queryFailure)).moveTo
      (.inSet querySetCount rest)) where
  kept {name} failed := by
    rcases failed with ⟨message, stored⟩ | ⟨message, pending⟩
    · refine .inl ?_
      by_cases same : name = query.name
      · subst same
        have self := @get?_updateStatus_self (worker.observe query result) query (statusOf result.queryFailure)
        have before : (worker.observe query result).queryStatuses.get? query.name = some (.failed message) := stored
        rw [before] at self
        cases failure : result.queryFailure with
        | none =>
            rw [failure] at self
            exact ⟨message, self⟩
        | some text =>
            rw [failure] at self
            exact ⟨some text, self⟩
      · exact ⟨message, (OrderedMap.get?_alter_ne _ same _).trans stored⟩
    · rw [nothing] at pending
      cases pending
  held name seen := by
    refine (mem_failures_observe seen).imp_right ?_
    rintro ⟨rfl, failed⟩
    obtain ⟨text, failure⟩ := Option.isSome_iff_exists.mp failed
    have self := @get?_updateStatus_self (worker.observe query result) query (statusOf result.queryFailure)
    refine .inl ⟨some text, self.trans ?_⟩
    split <;> simp [failure, statusOf, QueryStatus.isFailed]
  refused := by simp [Worker.updateStatus, Worker.observe, Worker.moveTo, connected]

/-- A failure of a measured execution becomes the pending status of its query. -/
theorem Progress.measure {result : QueryRunResult} {rest : List Query} {count : Nat}
    (isPending : worker.phase.pending = some (query.name, status)) (connected : result.connectionFailed = false) :
    Progress worker ((worker.observe query result).moveTo (.counting query rest count
      (match result.queryFailure with
        | some failure => .failed (some failure)
        | none => status))) where
  kept {name} failed := by
    rcases failed with stored | ⟨message, pending⟩
    · exact .inl stored
    · rw [isPending, Option.some.injEq, Prod.mk.injEq] at pending
      obtain ⟨rfl, rfl⟩ := pending
      refine .inr ?_
      cases failure : result.queryFailure with
      | none => exact ⟨message, rfl⟩
      | some text => exact ⟨some text, rfl⟩
  held name seen := by
    refine (mem_failures_observe seen).imp_right ?_
    rintro ⟨rfl, failed⟩
    obtain ⟨text, failure⟩ := Option.isSome_iff_exists.mp failed
    exact .inr ⟨some text, by simp [Worker.moveTo, Phase.pending, failure]⟩
  refused := by simp [Worker.observe, Worker.moveTo, connected]

/-- A warm-up round without a failure leaves nothing behind. -/
theorem Progress.warmUp {result : QueryRunResult} {phase : Phase} (nothing : worker.phase.pending = none)
    (connected : result.connectionFailed = false) (passed : result.queryFailure.isNone = true) :
    Progress worker ((worker.observe query result).moveTo phase) where
  kept {name} failed := by
    rcases failed with stored | ⟨message, pending⟩
    · exact .inl stored
    · rw [nothing] at pending
      cases pending
  held name seen := by
    refine (mem_failures_observe seen).imp_right ?_
    rintro ⟨rfl, failed⟩
    rw [← Option.not_isNone, passed] at failed
    cases failed
  refused := by simp [Worker.observe, Worker.moveTo, connected]

end Worker

section Steps

variable {test : Test} {state next : State}

theorem workerStep_progress {id : Nat} {worker after : Worker} {answers : Answers}
    (found : state.workers[id]? = some worker) (allowed : test.careful state (.work id answers) = true)
    (stepped : test.workerStep state.cancelled id worker answers = some after) : Progress worker after := by
  simp only [Test.careful, found] at allowed
  simp only [Test.workerStep] at stepped
  cases phase : worker.phase with
  | iterating querySetCount =>
      simp only [phase] at stepped
      split at stepped <;> obtain rfl := Option.some.inj stepped <;> exact .leave (by simp [phase, Phase.pending])
  | inSet querySetCount queries =>
      have nothing : worker.phase.pending = none := by rw [phase]; rfl
      simp only [phase] at stepped
      cases queries with
      | nil =>
          obtain rfl := Option.some.inj stepped
          exact .leave nothing
      | cons query rest =>
          simp only at stepped
          split at stepped <;> obtain rfl := Option.some.inj stepped <;> exact .leave nothing
  | executing querySetCount query rest =>
      have nothing : worker.phase.pending = none := by rw [phase]; rfl
      simp only [phase, Bool.not_eq_true'] at stepped allowed
      split at stepped
      · rename_i stops
        obtain rfl := Option.some.inj stepped
        refine .warmUp nothing allowed ?_
        cases execution : answers.execution <;> cases cancelled : state.cancelled <;>
          simp_all [runSingleQuery]
      · obtain rfl := Option.some.inj stepped
        exact .update nothing allowed
  | leaving =>
      simp only [phase] at stepped
      obtain rfl := Option.some.inj stepped
      exact .leave (by rw [phase]; rfl)
  | between queries =>
      have nothing : worker.phase.pending = none := by rw [phase]; rfl
      simp only [phase] at stepped
      cases queries with
      | nil =>
          obtain rfl := Option.some.inj stepped
          exact .leave nothing
      | cons query rest =>
          simp only at stepped
          split at stepped
          · obtain rfl := Option.some.inj stepped
            exact .leave nothing
          · split at stepped <;> obtain rfl := Option.some.inj stepped <;> exact .leave nothing
  | warmingUp query rest =>
      have nothing : worker.phase.pending = none := by rw [phase]; rfl
      simp only [phase, Bool.and_eq_true, Bool.not_eq_true'] at stepped allowed
      split at stepped
      · obtain rfl := Option.some.inj stepped
        exact .leave nothing
      · rw [if_neg (by simp [allowed.1])] at stepped
        obtain rfl := Option.some.inj stepped
        exact .warmUp nothing allowed.1 allowed.2
  | counting query rest count status =>
      have isPending : worker.phase.pending = some (query.name, status) := by rw [phase]; rfl
      simp only [phase, Bool.or_eq_true, Bool.and_eq_true, decide_eq_true_eq] at stepped allowed
      split at stepped
      · obtain rfl := Option.some.inj stepped
        exact .moveTo fun entry isEntry => isEntry ▸ isPending.symm ▸ rfl
      · rename_i stored
        obtain rfl := Option.some.inj stepped
        exact .store isPending (allowed.resolve_left fun goesOn => stored (by simpa using goesOn))
  | measuring query rest count status =>
      have isPending : worker.phase.pending = some (query.name, status) := by rw [phase]; rfl
      simp only [phase, Bool.and_eq_true, Bool.not_eq_true', Bool.or_eq_true] at stepped allowed
      split at stepped
      · rename_i shutdown
        obtain rfl := Option.some.inj stepped
        exact .store isPending (allowed.2.resolve_left (by simp [shutdown]))
      · rw [if_neg (by simp [allowed.1])] at stepped
        obtain rfl := Option.some.inj stepped
        exact .measure isPending allowed.1
  | finished result =>
      simp only [phase] at stepped
      cases stepped

/-- A worker that has returned has returned its map. -/
def Worker.Coherent (worker : Worker) : Prop :=
  ∀ result, worker.phase = .finished (.ok result) → result.queryStatuses = worker.queryStatuses

theorem coherent_finish {worker : Worker} {connectionFailed : Bool} : (worker.finish connectionFailed).Coherent := by
  rintro result ⟨⟩
  rfl

theorem coherent_moveTo {worker : Worker} {phase : Phase} (going : ∀ result, phase ≠ .finished result) :
    (worker.moveTo phase).Coherent := by
  rintro result isPhase
  exact absurd isPhase (going _)

theorem workerStep_coherent {cancelled : Bool} {id : Nat} {worker after : Worker} {answers : Answers}
    (stepped : test.workerStep cancelled id worker answers = some after) : after.Coherent := by
  simp only [Test.workerStep] at stepped
  split at stepped <;> try split at stepped
  all_goals try split at stepped
  all_goals first
    | (obtain rfl := Option.some.inj stepped; exact coherent_finish)
    | (obtain rfl := Option.some.inj stepped; exact coherent_moveTo (by simp))
    | cases stepped

/-- Every worker holds the failures that it has seen, and none has lost its connection. -/
structure Accounted (state : State) : Prop where
  held : ∀ worker ∈ state.workers, ∀ name ∈ worker.failures, worker.FailedOn name
  unrefused : ∀ worker ∈ state.workers, worker.refused = false
  coherent : ∀ worker ∈ state.workers, worker.Coherent

theorem initial_accounted : Accounted test.initial := by
  refine ⟨?_, ?_, ?_⟩
  all_goals
    intro worker member
    obtain ⟨id, _, rfl⟩ := List.mem_map.mp member
  · intro name seen
    cases seen
  · rfl
  · intro result finished
    unfold Test.startPhase at finished
    split at finished
    · cases finished
    · split at finished <;> cases finished

/-- A step cancels the test or moves one worker. -/
theorem step_cases {action : Action} (stepped : test.step state action = some next) :
    (action = .cancel ∧ next.workers = state.workers) ∨
    ∃ id answers worker after, action = .work id answers ∧ state.workers[id]? = some worker ∧
      test.workerStep state.cancelled id worker answers = some after ∧ next.workers = state.workers.set id after := by
  cases action with
  | cancel =>
      obtain rfl := Option.some.inj stepped
      exact .inl ⟨rfl, rfl⟩
  | work id answers =>
      simp only [Test.step] at stepped
      split at stepped
      · rename_i worker found
        obtain ⟨after, moved, rfl⟩ := Option.map_eq_some_iff.mp stepped
        exact .inr ⟨id, answers, worker, after, rfl, found, moved, rfl⟩
      · cases stepped

theorem Accounted.step (accounted : Accounted state) {action : Action} (allowed : test.careful state action = true)
    (stepped : test.step state action = some next) : Accounted next := by
  rcases step_cases stepped with ⟨_, same⟩ | ⟨id, answers, worker, after, rfl, found, moved, changed⟩
  · exact ⟨same ▸ accounted.held, same ▸ accounted.unrefused, same ▸ accounted.coherent⟩
  · have progress := workerStep_progress found allowed moved
    have member := List.mem_of_getElem? found
    refine ⟨?_, ?_, ?_⟩
    all_goals
      intro other isOther
      rw [changed] at isOther
      rcases List.mem_or_eq_of_mem_set isOther with old | rfl
    · exact accounted.held other old
    · intro name seen
      rcases progress.held name seen with before | failed
      · exact progress.kept (accounted.held worker member name before)
      · exact failed
    · exact accounted.unrefused other old
    · exact progress.refused.trans (accounted.unrefused worker member)
    · exact accounted.coherent other old
    · exact workerStep_coherent moved

theorem Accounted.of_reaches (reached : test.machine.ReachesWhen test.careful test.initial state) :
    Accounted state := by
  refine reached.invariant Accounted ?_ initial_accounted
  rintro state next accounted ⟨action, _, allowed, stepped⟩
  exact accounted.step allowed stepped

/-- Some worker holds a failure of the query. -/
def State.FailedOn (state : State) (name : String) : Prop := ∃ worker ∈ state.workers, worker.FailedOn name

/-- A failure that a worker holds stays until the end of the run. -/
theorem State.FailedOn.of_reaches {name : String} (reached : test.machine.ReachesWhen test.careful state next)
    (failed : state.FailedOn name) : next.FailedOn name := by
  refine reached.invariant (State.FailedOn · name) ?_ failed
  rintro state next ⟨worker, member, failed⟩ ⟨action, _, allowed, stepped⟩
  rcases step_cases stepped with ⟨_, same⟩ | ⟨id, answers, moving, after, rfl, found, moved, changed⟩
  · exact ⟨worker, same ▸ member, failed⟩
  · obtain ⟨place, located⟩ := List.mem_iff_getElem?.mp member
    have inside := (List.getElem?_eq_some_iff.mp found).1
    by_cases here : place = id
    · subst here
      obtain rfl := Option.some.inj (located.symm.trans found)
      have put : next.workers[place]? = some after := by rw [changed, List.getElem?_set_self inside]
      exact ⟨after, List.mem_of_getElem? put, (workerStep_progress found allowed moved).kept failed⟩
    · have stays : next.workers[place]? = some worker := by
        rw [changed, List.getElem?_set_ne (Ne.symm here), located]
      exact ⟨worker, List.mem_of_getElem? stays, failed⟩

end Steps

theorem Worker.phase_of_result {worker : Worker} {result : Except String SpiceTestQueryWorkerResult}
    (returned : worker.result = some result) : worker.phase = .finished result := by
  unfold Worker.result at returned
  split at returned
  · rename_i finished
    rw [finished, Option.some.inj returned]
  · cases returned

section Merge

variable {name : String} {merged : OrderedMap String QueryStatus}

theorem hasFailed_mergeStatus_of_merged {entry : String × QueryStatus} (failed : HasFailed merged name) :
    HasFailed (mergeStatus merged entry) name := by
  obtain ⟨message, stored⟩ := failed
  by_cases same : name = entry.1
  · subst same
    exact ⟨message, by simp [mergeStatus, stored, QueryStatus.isFailed]⟩
  · exact ⟨message, (OrderedMap.get?_alter_ne _ same _).trans stored⟩

theorem hasFailed_mergeStatus_of_entry {message : Option String} :
    HasFailed (mergeStatus merged (name, .failed message)) name := by
  unfold mergeStatus HasFailed
  rw [OrderedMap.get?_alter_self]
  cases existing : merged.get? name with
  | none => exact ⟨message, rfl⟩
  | some status =>
      cases status with
      | passed => exact ⟨message, rfl⟩
      | failed first => exact ⟨first, rfl⟩

/-- A failure on one side of the merge of a worker's statuses is a failure of the result. -/
theorem hasFailed_foldl {entries : List (String × QueryStatus)}
    (failed : HasFailed merged name ∨ ∃ message, (name, .failed message) ∈ entries) :
    HasFailed (entries.foldl mergeStatus merged) name := by
  induction entries generalizing merged with
  | nil =>
      rcases failed with failed | ⟨message, member⟩
      · exact failed
      · cases member
  | cons entry rest ih =>
      refine ih ?_
      rcases failed with failed | ⟨message, member⟩
      · exact .inl (hasFailed_mergeStatus_of_merged failed)
      · rcases List.mem_cons.mp member with rfl | later
        · exact .inl hasFailed_mergeStatus_of_entry
        · exact .inr ⟨message, later⟩

/-- A failure in the result of any worker is a failure of the merged statuses. -/
theorem hasFailed_wait {results : List (Except String SpiceTestQueryWorkerResult)} (waited : wait results = .ok merged)
    {result : SpiceTestQueryWorkerResult} (member : .ok result ∈ results)
    (failed : HasFailed result.queryStatuses name) : HasFailed merged name := by
  suffices general : ∀ start, results.foldlM mergeResult start = .ok merged →
      (HasFailed start name ∨ .ok result ∈ results) → HasFailed merged name from
    general _ waited (.inr member)
  clear waited member
  induction results with
  | nil =>
      intro start same either
      obtain rfl : start = merged := Except.ok.inj same
      exact either.resolve_right (by simp)
  | cons first rest ih =>
      intro start waited either
      rw [List.foldlM_cons] at waited
      cases first with
      | error message => cases waited
      | ok workerResult =>
          refine ih _ waited ?_
          rcases either with failed | member
          · exact .inl (hasFailed_foldl (.inl failed))
          · rcases List.mem_cons.mp member with isFirst | later
            · obtain rfl := Except.ok.inj isFirst
              obtain ⟨message, stored⟩ := failed
              exact .inl (hasFailed_foldl (.inr ⟨message, OrderedMap.get?_eq_some_iff.mp stored⟩))
            · exact .inr later

theorem all_ok_of_wait {results : List (Except String SpiceTestQueryWorkerResult)} (waited : wait results = .ok merged)
    {result : Except String SpiceTestQueryWorkerResult} (member : result ∈ results) :
    ∃ workerResult, result = .ok workerResult := by
  unfold wait at waited
  generalize (OrderedMap.empty : OrderedMap String QueryStatus) = start at waited
  induction results generalizing start with
  | nil => cases member
  | cons first rest ih =>
      rw [List.foldlM_cons] at waited
      cases first with
      | error message => cases waited
      | ok workerResult =>
          rcases List.mem_cons.mp member with rfl | later
          · exact ⟨workerResult, rfl⟩
          · exact ih later _ waited

theorem not_hasFailed_of_succeeded (success : succeeded merged = true) : ¬ HasFailed merged name := by
  rintro ⟨message, stored⟩
  have passed := List.all_eq_true.mp success _ (OrderedMap.get?_eq_some_iff.mp stored)
  simp at passed

end Merge

/-- In a run of careful steps whose workers have all returned, a failure that any worker held at any
time is a failure of the merged statuses, in whatever order the results are merged; and a successful
verdict means that no worker has seen a failure or lost its connection. -/
theorem success_means_no_failure (test : Test) {state : State}
    (reached : test.machine.ReachesWhen test.careful test.initial state)
    {results : List (Except String SpiceTestQueryWorkerResult)} {merged : OrderedMap String QueryStatus}
    (returned : (state.workers.map Worker.result).Perm (results.map some)) (waited : wait results = .ok merged) :
    (∀ middle name, test.machine.ReachesWhen test.careful test.initial middle →
      test.machine.ReachesWhen test.careful middle state → middle.FailedOn name → HasFailed merged name) ∧
    (∀ runOutcome, runOutcome ≠ some .success → outcome runOutcome merged = .success → succeeded merged = true) ∧
    (succeeded merged = true → ∀ worker ∈ state.workers, worker.failures = [] ∧ worker.refused = false) := by
  have accounted := Accounted.of_reaches reached
  have kept : ∀ name, state.FailedOn name → HasFailed merged name := by
    rintro name ⟨worker, member, failed⟩
    have listed := returned.mem_iff.mp (List.mem_map_of_mem member)
    obtain ⟨result, isResult, same⟩ := List.mem_map.mp listed
    obtain ⟨workerResult, rfl⟩ := all_ok_of_wait waited isResult
    have finished := Worker.phase_of_result same.symm
    refine hasFailed_wait waited isResult ?_
    rw [accounted.coherent worker member workerResult finished]
    refine failed.resolve_right ?_
    rintro ⟨message, pending⟩
    rw [finished] at pending
    cases pending
  refine ⟨fun middle name _ rest failed => kept name (failed.of_reaches rest), ?_, ?_⟩
  · intro runOutcome notSuccess success
    cases runOutcome with
    | some outcome =>
        obtain rfl : outcome = .success := success
        exact absurd rfl notSuccess
    | none =>
        by_contra fails
        simp [outcome, fails] at success
  · intro success worker member
    refine ⟨?_, accounted.unrefused worker member⟩
    rw [List.eq_nil_iff_forall_not_mem]
    intro name seen
    exact not_hasFailed_of_succeeded success (kept name ⟨worker, member, accounted.held worker member name seen⟩)

/-- One worker runs one query until the test is cancelled. -/
def sampleTest : Test where
  querySet := [⟨"q1", "SELECT 1"⟩]
  endCondition := .unlimited
  parallelCount := 1
  validate := false
  explainPlanSnapshot := false
  groupOrder := fun _ => ["q1"]

/-- The first query has two variations, and each is run once. -/
def sampleVariations : Test :=
  { sampleTest with querySet := [⟨"q1", "SELECT 1"⟩, ⟨"q1", "SELECT 2"⟩], endCondition := .querySetCompleted 1 }

def work (execution : Execution) : Action := .work 0 ⟨false, execution, true⟩

/-- What a worker has seen and returned. -/
structure Summary where
  failures : List String
  refused : Bool
  returned : Option (List (String × QueryStatus))
  deriving DecidableEq

def summary (state : State) : List Summary :=
  state.workers.map fun worker => ⟨worker.failures, worker.refused, match worker.result with
    | some (.ok result) => some result.queryStatuses.entries
    | _ => none⟩

theorem waited_of_summary {state : State} {failures : List String} {refused : Bool}
    {entries : List (String × QueryStatus)} (isSummary : summary state = [⟨failures, refused, some entries⟩]) :
    ∃ worker results, state.workers = [worker] ∧ worker.failures = failures ∧ worker.refused = refused ∧
      (state.workers.map Worker.result).Perm (results.map some) ∧
      wait results = .ok (entries.foldl mergeStatus .empty) := by
  obtain ⟨worker, rest, isState, first, none⟩ := List.map_eq_cons_iff.mp isSummary
  obtain rfl := List.map_eq_nil_iff.mp none
  simp only [Summary.mk.injEq] at first
  obtain ⟨isFailures, isRefused, returned⟩ := first
  split at returned
  · rename_i result isResult
    refine ⟨worker, [.ok result], isState, isFailures, isRefused, ?_, ?_⟩
    · simp [isState, isResult]
    · rw [← Option.some.inj returned]
      rfl
  · cases returned

theorem success_means_no_failure_sample : ∃ state results merged,
    sampleTest.machine.ReachesWhen sampleTest.careful sampleTest.initial state ∧
    (state.workers.map Worker.result).Perm (results.map some) ∧ wait results = .ok merged ∧
    succeeded merged = true ∧ ∀ worker ∈ state.workers, worker.failures = [] ∧ worker.refused = false := by
  have ran : (sampleTest.machine.runWhen sampleTest.careful sampleTest.initial
      [work .completed, work .completed, work .completed, .cancel, work .completed, work .completed]).map summary =
      some [⟨[], false, some [("q1", .passed)]⟩] := by decide
  obtain ⟨state, isState, isSummary⟩ := Option.map_eq_some_iff.mp ran
  have reached := sampleTest.machine.reachesWhen_of_runWhen (fun _ _ => trivial) isState
  obtain ⟨worker, results, _, _, _, returned, waited⟩ := waited_of_summary isSummary
  have success : succeeded ([("q1", .passed)].foldl mergeStatus .empty) = true := by decide
  exact ⟨state, results, _, reached, returned, waited, success,
    (success_means_no_failure sampleTest reached returned waited).2.2 success⟩

/-- A lost connection and a replaced failure are followed by a successful verdict. -/
theorem success_despite_failure :
    (∃ state results merged worker, sampleTest.machine.Reaches sampleTest.initial state ∧
      (state.workers.map Worker.result).Perm (results.map some) ∧ wait results = .ok merged ∧
      outcome none merged = .success ∧ worker ∈ state.workers ∧ worker.refused = true) ∧
    ∃ state results merged worker, sampleVariations.machine.Reaches sampleVariations.initial state ∧
      (state.workers.map Worker.result).Perm (results.map some) ∧ wait results = .ok merged ∧
      succeeded merged = true ∧ worker ∈ state.workers ∧ worker.failures = ["q1"] := by
  constructor
  · have ran : (sampleTest.machine.run sampleTest.initial
        [work .completed, work .completed, work (.unreachable "refused"), work .completed]).map summary =
        some [⟨[], true, some []⟩] := by decide
    obtain ⟨state, isState, isSummary⟩ := Option.map_eq_some_iff.mp ran
    obtain ⟨worker, results, isWorkers, _, refused, returned, waited⟩ := waited_of_summary isSummary
    exact ⟨state, results, _, worker, sampleTest.machine.reaches_of_run (fun _ _ => trivial) isState, returned, waited,
      rfl, by simp [isWorkers], refused⟩
  · have ran : (sampleVariations.machine.run sampleVariations.initial
        [work .completed, work .completed, work .completed, work (.failed "timeout"), work .completed,
          work .completed, work .completed, work .completed, work .completed, work .completed, work .completed]).map
        summary = some [⟨["q1"], false, some [("q1", .passed)]⟩] := by decide
    obtain ⟨state, isState, isSummary⟩ := Option.map_eq_some_iff.mp ran
    obtain ⟨worker, results, isWorkers, failures, _, returned, waited⟩ := waited_of_summary isSummary
    have success : succeeded ([("q1", .passed)].foldl mergeStatus .empty) = true := by decide
    exact ⟨state, results, _, worker, sampleVariations.machine.reaches_of_run (fun _ _ => trivial) isState, returned,
      waited, success, by simp [isWorkers], failures⟩

end Spicebench.SpiceTest
