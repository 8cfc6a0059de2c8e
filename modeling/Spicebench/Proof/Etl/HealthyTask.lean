import Spicebench.Proof.Etl.TableTask

namespace Spicebench.Etl
open Library DataGeneration

variable {Table Key Data : Type} [DecidableEq Table]

/-- The read returns data: a logical batch with at least one record batch. -/
def Delivers (outcome : ReadOutcome Key Data) : Prop :=
  ∃ result, outcome = .ok (some result) ∧ result.batches ≠ []

/-- The action reports no failure, and every read in it returns data. -/
def TaskAction.Healthy : TaskAction Key Data → Prop
  | .firstRead _ outcome => Delivers outcome
  | .join _ outcome => Delivers outcome
  | .writeChunk _ outcome => outcome = .ok ()
  | _ => True

/-- The reads in flight and the completed reads are together the scheduled ones. -/
structure ReadLoop.Tracked (scheduled : List Nat) (reads : ReadLoop Key Data) : Prop where
  scheduled : (reads.inFlight ++ reads.completed.map Prod.fst).Perm scheduled
  delivered : ∀ entry ∈ reads.completed, ∃ result, entry.2 = some result ∧ result.batches ≠ []
  gathered : reads.consumed ≠ [] → reads.allBatches ≠ []

def TaskState.Healthy : TaskState Key Data → Prop
  | .initial _ => True
  | .reading reads => reads.Tracked reads.scheduled ∧ reads.inFlight ≠ []
  | .writing writes => writes.report.tableFinished = false
  | .done result => ∃ report, result = .ok report ∧ report.tableFinished = false

/-- This is the id whose read the action completes. -/
def TaskAction.readId : TaskAction Key Data → Option Nat
  | .firstRead batchId _ => some batchId
  | .join batchId _ => some batchId
  | _ => none

/-- A healthy task reads only ids that it holds. -/
theorem taskStep_reads {config : EtlConfig Key Data} {maxBatchId : Option Nat} {table : Table}
    {shared : Shared Table Key Data} {task : TaskState Key Data} {action : TaskAction Key Data}
    {result : Shared Table Key Data × TaskState Key Data} (healthy : task.Healthy)
    (stepped : taskStep config maxBatchId table shared task action = some result) :
    ∀ batchId, action.readId = some batchId → batchId ∈ task.held := by
  intro batchId reads
  cases action with
  | firstRead readId outcome =>
      obtain rfl := Option.some.inj reads
      cases task with
      | initial firstId =>
          simp only [taskStep] at stepped
          split_ifs at stepped with same
          rw [same]
          exact List.mem_singleton_self firstId
      | _ => simp [taskStep] at stepped
  | join readId outcome =>
      obtain rfl := Option.some.inj reads
      cases task with
      | reading reads =>
          simp only [taskStep] at stepped
          split_ifs at stepped with wanted flying
          have scheduled := healthy.1.scheduled.subset (List.mem_append_left _ flying)
          exact List.mem_append_right _ scheduled
      | _ => simp [taskStep] at stepped
  | _ => simp [TaskAction.readId] at reads

theorem mem_completed_of_lookup {Value : Type} {entries : List (Nat × Value)} {batchId : Nat} {value : Value}
    (found : entries.lookup batchId = some value) : (batchId, value) ∈ entries := by
  obtain ⟨before, after, split, _⟩ := List.lookup_eq_some_iff.mp found
  simp [split]

/-- Merging a completed read takes its id from the scheduled ones. -/
theorem ReadLoop.Tracked.merge {batchId : Nat} {rest : List Nat} {reads : ReadLoop Key Data}
    (tracked : reads.Tracked (batchId :: rest)) (nodup : (batchId :: rest).Nodup)
    {result : ReadResult Key Data} (found : (batchId, some result) ∈ reads.completed) :
    (reads.merge batchId result).Tracked rest := by
  obtain ⟨read, same, nonempty⟩ := tracked.delivered _ found
  obtain rfl : result = read := Option.some.inj same
  have distinct := tracked.scheduled.nodup_iff.mpr nodup
  have member : batchId ∈ reads.completed.map Prod.fst := List.mem_map.mpr ⟨_, found, rfl⟩
  have grounded : batchId ∉ reads.inFlight := by
    intro flying
    exact (List.nodup_append.mp distinct).2.2 _ flying _ member rfl
  have erased : (reads.completed.filter (·.1 ≠ batchId)).map Prod.fst =
      (reads.completed.map Prod.fst).erase batchId := by
    rw [(List.nodup_append.mp distinct).2.1.erase_eq_filter, List.filter_map]
    congr 1
    apply List.filter_congr
    intro entry _
    simp [bne, beq_eq_decide]
  constructor
  · have removed := tracked.scheduled.erase batchId
    rw [List.erase_append_right _ grounded, List.erase_cons_head, ← erased] at removed
    exact removed
  · intro entry kept
    exact tracked.delivered entry (List.mem_of_mem_filter kept)
  · intro _
    simp [ReadLoop.merge, nonempty]

/-- After draining, the first scheduled read is still in flight. -/
theorem drain_again_tracked {target : Nat} {scheduled : List Nat} {reads next : ReadLoop Key Data}
    (tracked : reads.Tracked scheduled) (nodup : scheduled.Nodup)
    (drained : reads.drain target scheduled = .again next) :
    next.Tracked next.scheduled ∧
      ∀ batchId ∈ next.scheduled.head?, batchId ∉ next.completed.map Prod.fst := by
  induction scheduled generalizing reads with
  | nil =>
      obtain rfl : _ = next := Drained.again.inj drained
      exact ⟨⟨tracked.scheduled, tracked.delivered, tracked.gathered⟩, by simp⟩
  | cons batchId rest ih =>
      simp only [ReadLoop.drain] at drained
      split at drained
      · rename_i missing
        obtain rfl : _ = next := Drained.again.inj drained
        refine ⟨⟨tracked.scheduled, tracked.delivered, tracked.gathered⟩, ?_⟩
        intro first same
        obtain rfl : batchId = first := by simpa using same
        intro inside
        obtain ⟨entry, member, rfl⟩ := List.mem_map.mp inside
        simpa using List.lookup_eq_none_iff.mp missing entry member
      · split at drained <;> simp at drained
      · rename_i result found
        split at drained
        · simp at drained
        · have member := mem_completed_of_lookup found
          exact ih (tracked.merge nodup member) (List.nodup_cons.mp nodup).2 drained

/-- A healthy loop leaves with every id of its line handed over or restored. -/
theorem drain_leave_tracked {target : Nat} {scheduled : List Nat} {reads : ReadLoop Key Data}
    {returned : ReadReturn Key Data} (tracked : reads.Tracked scheduled) (nodup : scheduled.Nodup)
    (drained : reads.drain target scheduled = .leave returned) :
    returned.tableFinished = false ∧ returned.batches ≠ [] ∧
      returned.consumed ++ returned.restored = reads.consumed ++ scheduled := by
  induction scheduled generalizing reads with
  | nil => simp [ReadLoop.drain] at drained
  | cons batchId rest ih =>
      simp only [ReadLoop.drain] at drained
      split at drained
      · simp at drained
      · rename_i found
        have member := mem_completed_of_lookup found
        obtain ⟨result, same, _⟩ := tracked.delivered _ member
        simp at same
      · rename_i result found
        have merged := tracked.merge nodup (mem_completed_of_lookup found)
        split at drained
        · obtain rfl : _ = returned := Drained.leave.inj drained
          refine ⟨rfl, merged.gathered ?_, ?_⟩
          · simp [ReadLoop.merge]
          · simp [ReadLoop.toReturn, ReadLoop.merge]
        · obtain ⟨unfinished, nonempty, line⟩ := ih merged (List.nodup_cons.mp nodup).2 drained
          refine ⟨unfinished, nonempty, ?_⟩
          rw [line]
          simp [ReadLoop.merge]

/-- A healthy step keeps the task healthy, and loses none of the ids that the task holds. -/
def Conserves (table : Table) (shared : Shared Table Key Data) (held : List Nat)
    (result : Shared Table Key Data × TaskState Key Data) : Prop :=
  result.2.Healthy ∧ ∃ handed : List Nat, result.1.history = shared.history ++ handed.map (Event.handed table) ∧
    ∀ batchId ∈ held, batchId ∈ handed ∨ batchId ∈ result.2.held ∨
      result.1.work.steps.Pending table batchId

theorem leaveReads_conserves (config : EtlConfig Key Data) (table : Table) (batchId : Nat)
    (shared : Shared Table Key Data) {returned : ReadReturn Key Data}
    (unfinished : returned.tableFinished = false) (nonempty : returned.batches ≠ []) :
    Conserves table shared (returned.consumed ++ returned.restored)
      (leaveReads config table batchId shared returned) := by
  unfold leaveReads
  simp only [List.isEmpty_iff, nonempty, if_false]
  refine ⟨unfinished, returned.consumed, rfl, ?_⟩
  intro other member
  rcases List.mem_append.mp member with consumed | restored
  · exact .inl consumed
  · exact .inr (.inr (WorkPlan.pending_restore.mpr (.inl ⟨rfl, restored⟩)))

theorem joinRead_conserves (config : EtlConfig Key Data) (table : Table) (shared : Shared Table Key Data)
    {reads : ReadLoop Key Data} {batchId : Nat} (member : batchId ∈ reads.inFlight)
    (tracked : reads.Tracked reads.scheduled) (nodup : (reads.consumed ++ reads.scheduled).Nodup)
    {outcome : ReadOutcome Key Data} (delivers : Delivers outcome) :
    Conserves table shared (reads.consumed ++ reads.scheduled)
      (joinRead config table shared reads batchId outcome) := by
  obtain ⟨result, rfl, nonempty⟩ := delivers
  have distinct := (List.nodup_append.mp nodup).2.1
  unfold joinRead
  dsimp only
  -- The joined read moves from the reads in flight to the completed ones.
  have joined : ReadLoop.Tracked reads.scheduled { reads with
      inFlight := reads.inFlight.erase batchId
      completed := (batchId, some result) :: reads.completed } := by
    constructor
    · have moved : (reads.inFlight.erase batchId ++
          batchId :: reads.completed.map Prod.fst).Perm
          (batchId :: reads.inFlight.erase batchId ++ reads.completed.map Prod.fst) :=
        List.perm_middle
      exact (moved.trans ((List.perm_cons_erase member).symm.append_right _)).trans tracked.scheduled
    · intro entry inside
      rcases List.mem_cons.mp inside with rfl | inside
      · exact ⟨result, rfl, nonempty⟩
      · exact tracked.delivered entry inside
    · exact tracked.gathered
  split
  · rename_i returned drained
    obtain ⟨unfinished, gathered, line⟩ := drain_leave_tracked joined distinct drained
    have left := leaveReads_conserves config table reads.startBatchId shared unfinished gathered
    rw [line] at left
    exact left
  · rename_i next drained
    obtain ⟨line, _, _, _⟩ := drain_again drained
    obtain ⟨still, grounded⟩ := drain_again_tracked joined distinct drained
    have empties : next.inFlight = [] → next.completed = [] := by
      intro landed
      by_contra remaining
      obtain ⟨entry, others, listed⟩ := List.exists_cons_of_ne_nil remaining
      have perm := still.scheduled
      rw [landed, List.nil_append] at perm
      cases found : next.scheduled with
      | nil => simp [found, listed] at perm
      | cons first later =>
          have inside : first ∈ next.completed.map Prod.fst := by
            rw [perm.mem_iff, found]
            exact List.mem_cons_self
          exact grounded first (by simp [found]) inside
    split
    · rename_i idle
      simp only [Bool.and_eq_true, List.isEmpty_iff] at idle
      have unscheduled : next.scheduled = [] := by
        have perm := still.scheduled
        simpa [idle.1, idle.2] using perm
      have everything : next.consumed = reads.consumed ++ reads.scheduled := by
        simpa [unscheduled] using line
      have some : next.consumed ≠ [] := by
        have inside : batchId ∈ reads.scheduled := tracked.scheduled.subset (List.mem_append_left _ member)
        rw [everything]
        exact List.append_ne_nil_of_right_ne_nil _ (List.ne_nil_of_mem inside)
      have gathered : (next.toReturn false []).batches ≠ [] := still.gathered some
      have left := leaveReads_conserves config table next.startBatchId shared rfl gathered
      simpa [ReadLoop.toReturn, everything] using left
    · rename_i busy
      refine ⟨⟨still, ?_⟩, [], by simp, ?_⟩
      · intro landed
        exact busy (by simp [landed, empties landed])
      · intro other inside
        rw [← line] at inside
        exact .inr (.inl inside)

/-- Every step of a healthy task on a healthy action is healthy and loses no id. -/
theorem taskStep_conserves {config : EtlConfig Key Data} {maxBatchId : Option Nat} {table : Table}
    {shared : Shared Table Key Data} {task : TaskState Key Data} {action : TaskAction Key Data}
    {result : Shared Table Key Data × TaskState Key Data} (healthy : task.Healthy)
    (nodup : task.held.Nodup) (fine : action.Healthy)
    (stepped : taskStep config maxBatchId table shared task action = some result) :
    Conserves table shared task.held result := by
  unfold taskStep at stepped
  split at stepped
  · split at stepped
    · rename_i batchId outcome _ _
      obtain ⟨read, rfl, nonempty⟩ := fine
      obtain rfl := Option.some.inj stepped
      exact ⟨rfl, [batchId], rfl, by simp [TaskState.held]⟩
    · simp at stepped
  · split at stepped
    · split at stepped
      · obtain rfl := Option.some.inj stepped
        obtain ⟨tracked, flying⟩ := healthy
        exact ⟨⟨⟨tracked.scheduled, tracked.delivered, tracked.gathered⟩, flying⟩, [], by simp,
          fun other inside => .inr (.inl inside)⟩
      · rename_i reads _ _ batchId steps reserved
        obtain rfl := Option.some.inj stepped
        obtain ⟨tracked, flying⟩ := healthy
        refine ⟨⟨⟨?_, tracked.delivered, tracked.gathered⟩, by simp⟩, [], by simp [Shared.withSteps], ?_⟩
        · have moved : (reads.inFlight ++ [batchId] ++ reads.completed.map Prod.fst).Perm
              (reads.inFlight ++ reads.completed.map Prod.fst ++ [batchId]) := by
            rw [List.append_assoc, List.append_assoc]
            exact List.perm_append_comm.append_left reads.inFlight
          exact moved.trans (tracked.scheduled.append_right _)
        · intro other inside
          refine .inr (.inl ?_)
          simp only [TaskState.held, ← List.append_assoc]
          exact List.mem_append_left _ inside
    · simp at stepped
  · split at stepped
    · simp at stepped
    · split at stepped
      · rename_i member
        obtain rfl := Option.some.inj stepped
        exact joinRead_conserves config table shared member healthy.1 nodup fine
      · simp at stepped
  · split at stepped
    · simp at stepped
    · split at stepped
      · rename_i idle
        exact absurd (List.isEmpty_iff.mp idle) healthy.2
      · simp at stepped
  · split at stepped
    · obtain rfl := Option.some.inj stepped
      exact ⟨healthy, [], by simp, by simp [TaskState.held]⟩
    · simp at stepped
  · split at stepped
    · obtain rfl := Option.some.inj stepped
      exact ⟨healthy, [], by simp, by simp [TaskState.held]⟩
    · simp at stepped
  · split at stepped
    · obtain rfl := Option.some.inj stepped
      exact ⟨healthy, [], by simp, by simp [TaskState.held]⟩
    · simp [TaskAction.Healthy] at fine
    · simp at stepped
  · split at stepped
    · obtain rfl := Option.some.inj stepped
      exact ⟨⟨_, rfl, healthy⟩, [], by simp, by simp [TaskState.held]⟩
    · simp at stepped
  · simp at stepped

end Spicebench.Etl
