import Spicebench.Construction.Etl.ReadBatches
import Spicebench.Proof.Etl.ReadLoop
import Mathlib.Data.List.Induction

namespace Spicebench.Etl
open Library DataGeneration

variable {Table Key Data : Type} [DecidableEq Table]

/-- The task goes on with what its read loop has done. -/
def continueTask (config : EtlConfig Key Data) (table : Table) (batchId : Nat) (shared : Shared Table Key Data) :
    WorkPlan Table × ReadProgress Key Data → Shared Table Key Data × TaskState Key Data
  | (plan, .reading reads) => (shared.withSteps plan, .reading reads)
  | (_, .failed message) => (shared.fail, .done (.error message))
  | (plan, .returned result) =>
      if result.batches.isEmpty then
        (shared.withSteps plan, .done (.ok ⟨true, result.consumedWorkUnits, result.rowsRead⟩))
      else ((shared.withSteps plan).hand table result.consumed,
        startWrites config batchId result.keyColumns result.batches
          ⟨result.tableFinished, result.consumedWorkUnits, result.rowsRead⟩)

theorem leaveReads_eq (config : EtlConfig Key Data) (table : Table) (batchId : Nat) (shared : Shared Table Key Data)
    (result : ReadReturn Key Data) : leaveReads config table batchId shared result =
      continueTask config table batchId shared (returnReads table shared.work.steps result) := rfl

omit [DecidableEq Table] in
theorem drain_startBatchId {target : Nat} {scheduled : List Nat} {reads next : ReadLoop Key Data}
    (drained : reads.drain target scheduled = .again next) : next.startBatchId = reads.startBatchId := by
  induction scheduled generalizing reads with
  | nil =>
      obtain rfl : _ = next := Drained.again.inj drained
      rfl
  | cons batchId rest ih =>
      simp only [ReadLoop.drain] at drained
      split at drained
      · obtain rfl : _ = next := Drained.again.inj drained
        rfl
      · split at drained <;> simp at drained
      · split at drained
        · simp at drained
        · exact (ih drained).trans rfl

theorem joinRead_eq (config : EtlConfig Key Data) (table : Table) (shared : Shared Table Key Data)
    (reads : ReadLoop Key Data) (batchId : Nat) (outcome : ReadOutcome Key Data) :
    joinRead config table shared reads batchId outcome = continueTask config table reads.startBatchId shared
      (joinBatch config.targetBatchRows table shared.work.steps reads batchId outcome) := by
  unfold joinRead joinBatch
  cases outcome with
  | error message => rfl
  | ok result =>
      dsimp only
      generalize drained : ReadLoop.drain config.targetBatchRows reads.scheduled _ = outcome
      cases outcome with
      | leave returned => rfl
      | again next =>
          have start : next.startBatchId = reads.startBatchId := (drain_startBatchId drained).trans rfl
          dsimp only
          by_cases idle : (next.inFlight.isEmpty && next.completed.isEmpty) = true
          · rw [if_pos idle, if_pos idle, leaveReads_eq, start]
          · rw [if_neg idle, if_neg idle]
            rfl

/-- The steps of a reading task are those of its read loop. -/
theorem taskStep_reading (config : EtlConfig Key Data) (maxBatchId : Option Nat) (table : Table)
    (shared : Shared Table Key Data) (reads : ReadLoop Key Data) (action : TaskAction Key Data) :
    taskStep config maxBatchId table shared (.reading reads) action =
      (readStep config.targetBatchRows maxBatchId table shared.work.steps reads action).map
        (continueTask config table reads.startBatchId shared) := by
  cases action with
  | reserve =>
      simp only [taskStep, readStep]
      split
      · cases shared.work.steps.reserveNextBatchIdForTable table reads.reserveCursor maxBatchId with
        | none => rfl
        | some reserved => rfl
      · rfl
  | join batchId outcome =>
      simp only [taskStep, readStep]
      split
      · rfl
      · split
        · rw [joinRead_eq]
          rfl
        · rfl
  | joinNone =>
      simp only [taskStep, readStep]
      split
      · rfl
      · split
        · rw [leaveReads_eq]
          rfl
        · rfl
  | _ => rfl

/-- These ids of a table are pending within the boundary, in ascending order. -/
def WorkPlan.pendingWithin (plan : WorkPlan Table) (table : Table) (maxBatchId : Option Nat) : List Nat :=
  (plan.entries.filter fun entry => table ∈ entry.2.tables ∧ maxBatchId.all (entry.1 ≤ ·)).map Prod.fst

/-- Sequential reading takes the first id and then those that are pending within the boundary. -/
def readableIds (plan : WorkPlan Table) (table : Table) (maxBatchId : Option Nat) (startBatchId : Nat) : List Nat :=
  startBatchId :: plan.pendingWithin table maxBatchId

namespace WorkPlan

variable {plan : WorkPlan Table} {table : Table} {maxBatchId : Option Nat}

theorem mem_pendingWithin {batchId : Nat} : batchId ∈ plan.pendingWithin table maxBatchId ↔
    plan.Pending table batchId ∧ ∀ boundary ∈ maxBatchId, batchId ≤ boundary := by
  rw [pending_iff_entry, pendingWithin, List.mem_map]
  constructor
  · rintro ⟨⟨_, step⟩, member, rfl⟩
    obtain ⟨entry, accepted⟩ := List.mem_filter.mp member
    obtain ⟨inside, within⟩ := of_decide_eq_true accepted
    exact ⟨⟨step, entry, inside⟩, by simpa [Option.all_eq_true] using within⟩
  · rintro ⟨⟨step, entry, inside⟩, within⟩
    refine ⟨(batchId, step), List.mem_filter.mpr ⟨entry, decide_eq_true ⟨inside, ?_⟩⟩, rfl⟩
    simpa [Option.all_eq_true] using within

theorem pendingWithin_ascending (plan : WorkPlan Table) (table : Table) (maxBatchId : Option Nat) :
    (plan.pendingWithin table maxBatchId).Pairwise (· < ·) :=
  List.pairwise_map.mpr (plan.ascending.filter _)

end WorkPlan

/-- The prefix of some ids that sequential reading takes: the shortest one that reaches the target, or all of
them. -/
structure ShortestReach (target : Nat) (rows : Nat → Nat) (ids taken : List Nat) : Prop where
  within : taken <+: ids
  reached : target ≤ (taken.map rows).sum ∨ taken = ids
  shortest : ∀ shorter, shorter <+: taken → shorter ≠ taken → (shorter.map rows).sum < target

/-- The function has returned what sequential reading returns, and its plan holds what was not taken. -/
structure ReadsPrefix (target : Nat) (table : Table) (storage : Nat → ReadResult Key Data) (start : WorkPlan Table)
    (ids : List Nat) (plan : WorkPlan Table) (result : ReadReturn Key Data) (taken : List Nat) : Prop where
  shortest : ShortestReach target (fun batchId => (storage batchId).numRows) ids taken
  batches : result.batches = taken.flatMap fun batchId => (storage batchId).batches
  units : result.consumedWorkUnits = taken.length
  rows : result.rowsRead = (taken.map fun batchId => (storage batchId).numRows).sum
  unfinished : result.tableFinished = false
  pending : ∀ batchId, plan.Pending table batchId ↔ start.Pending table batchId ∧ batchId ∉ taken

/-- While the loop reads, its consumed and scheduled ids are a prefix of those that it may read. -/
structure Speculating (target : Nat) (table : Table) (storage : Nat → ReadResult Key Data) (start : WorkPlan Table)
    (ids : List Nat) (plan : WorkPlan Table) (reads : ReadLoop Key Data) : Prop where
  accounted : reads.Accounted (fun batchId result => result = storage batchId) reads.scheduled
  flying : reads.inFlight ≠ []
  line : reads.consumed ++ reads.scheduled <+: ids
  batches : reads.allBatches = reads.consumed.flatMap fun batchId => (storage batchId).batches
  rows : reads.totalRows = (reads.consumed.map fun batchId => (storage batchId).numRows).sum
  rowsRead : reads.rowsRead = reads.totalRows
  short : reads.totalRows < target
  units : reads.consumedWorkUnits = (reads.consumed ++ reads.scheduled).length
  cursor : (reads.consumed ++ reads.scheduled).getLast? = some reads.reserveCursor
  pending : ∀ batchId, plan.Pending table batchId ↔
    start.Pending table batchId ∧ batchId ∉ reads.consumed ++ reads.scheduled
  exhausted : reads.canReserveMore = false → reads.consumed ++ reads.scheduled = ids

/-- These many steps of its own the loop can still take. -/
def ReadProgress.fuel (ids : List Nat) : ReadProgress Key Data → Nat
  | .reading reads => 2 * (ids.length - (reads.consumed ++ reads.scheduled).length) + reads.inFlight.length +
      reads.canReserveMore.toNat
  | _ => 0

/-- The loop is reading in line, or has returned what sequential reading returns. -/
def SoundRead (target : Nat) (table : Table) (storage : Nat → ReadResult Key Data) (start : WorkPlan Table)
    (ids : List Nat) (plan : WorkPlan Table) : ReadProgress Key Data → Prop
  | .reading reads => Speculating target table storage start ids plan reads
  | .returned result => ∃ taken, ReadsPrefix target table storage start ids plan result taken
  | .failed _ => False

section Loop

variable {target : Nat} {table : Table} {maxBatchId : Option Nat} {storage : Nat → ReadResult Key Data}
  {start plan next : WorkPlan Table} {startBatchId : Nat} {reads : ReadLoop Key Data}

/-- The ids ascend when the first one comes before those that are pending. -/
theorem readableIds_ascending (maxBatchId : Option Nat)
    (later : ∀ batchId, start.Pending table batchId → startBatchId < batchId) :
    (readableIds start table maxBatchId startBatchId).Pairwise (· < ·) := by
  refine List.pairwise_cons.mpr ⟨?_, start.pendingWithin_ascending table maxBatchId⟩
  intro batchId member
  exact later batchId (WorkPlan.mem_pendingWithin.mp member).1

/-- Every id after the first ones is pending within the boundary. -/
theorem pending_of_rest {line rest : List Nat} (whole : line ++ rest = readableIds start table maxBatchId startBatchId)
    (nonempty : line ≠ []) {batchId : Nat} (member : batchId ∈ rest) :
    start.Pending table batchId ∧ ∀ boundary ∈ maxBatchId, batchId ≤ boundary := by
  cases line with
  | nil => exact absurd rfl nonempty
  | cons first others =>
      obtain ⟨_, same⟩ := List.cons.inj whole
      exact WorkPlan.mem_pendingWithin.mp (same ▸ List.mem_append_right _ member)

/-- The loop starts with its first id in flight. -/
theorem speculating_start (positive : 0 < target)
    (later : ∀ batchId, start.Pending table batchId → startBatchId < batchId) :
    Speculating target table storage start (readableIds start table maxBatchId startBatchId) start
      (.start startBatchId) where
  accounted := ⟨List.Perm.refl _, by simp [ReadLoop.start]⟩
  flying := by simp [ReadLoop.start]
  line := ⟨start.pendingWithin table maxBatchId, rfl⟩
  batches := rfl
  rows := rfl
  rowsRead := rfl
  short := positive
  units := rfl
  cursor := rfl
  pending batchId := by
    constructor
    · intro pending
      have less := later batchId pending
      refine ⟨pending, ?_⟩
      simp only [ReadLoop.start, List.nil_append, List.mem_singleton]
      omega
    · exact fun pending => pending.1
  exhausted := by simp [ReadLoop.start]

section Steps

variable (later : ∀ batchId, start.Pending table batchId → startBatchId < batchId)
  (speculating : Speculating target table storage start (readableIds start table maxBatchId startBatchId) plan reads)

include later speculating

/-- The next readable id is pending after the cursor. -/
theorem Speculating.pending_next {batchId : Nat} {rest : List Nat}
    (whole : (reads.consumed ++ reads.scheduled) ++ rest = readableIds start table maxBatchId startBatchId)
    (member : batchId ∈ rest) :
    plan.Pending table batchId ∧ reads.reserveCursor < batchId ∧ ∀ boundary ∈ maxBatchId, batchId ≤ boundary := by
  have last := speculating.cursor
  have nonempty : reads.consumed ++ reads.scheduled ≠ [] := by
    intro empty
    simp [empty] at last
  obtain ⟨pending, within⟩ := pending_of_rest whole nonempty member
  have ascending := readableIds_ascending maxBatchId later
  rw [← whole, List.pairwise_append] at ascending
  have after := ascending.2.2 _ (List.mem_of_getLast? last) batchId member
  refine ⟨(speculating.pending batchId).mpr ⟨pending, ?_⟩, after, within⟩
  intro inside
  exact Nat.lt_irrefl _ (ascending.2.2 batchId inside batchId member)

/-- Without a reservation every readable id was taken. -/
theorem Speculating.exhaust
    (reserved : plan.reserveNextBatchIdForTable table reads.reserveCursor maxBatchId = none) :
    Speculating target table storage start (readableIds start table maxBatchId startBatchId) plan
      { reads with canReserveMore := false } := by
  have everything : reads.consumed ++ reads.scheduled = readableIds start table maxBatchId startBatchId := by
    obtain ⟨rest, whole⟩ := speculating.line
    cases rest with
    | nil => rw [← whole, List.append_nil]
    | cons batchId more =>
        obtain ⟨pending, after, within⟩ := speculating.pending_next later whole List.mem_cons_self
        obtain ⟨boundary, bounded, beyond⟩ := WorkPlan.reserve_none reserved pending after
        have inside := within boundary bounded
        omega
  exact { speculating with
    accounted := ⟨speculating.accounted.scheduled, speculating.accounted.accepted⟩
    exhausted := fun _ => everything }

/-- A reservation takes the next readable id. -/
theorem Speculating.reserve {batchId : Nat}
    (reserved : plan.reserveNextBatchIdForTable table reads.reserveCursor maxBatchId = some (batchId, next)) :
    Speculating target table storage start (readableIds start table maxBatchId startBatchId) next { reads with
      reserveCursor := batchId
      consumedWorkUnits := reads.consumedWorkUnits + 1
      scheduled := reads.scheduled ++ [batchId]
      inFlight := reads.inFlight ++ [batchId] } := by
  obtain ⟨pending, within, least, rfl⟩ := WorkPlan.reserve_some reserved
  obtain ⟨planned, fresh⟩ := (speculating.pending batchId).mp pending
  obtain ⟨rest, whole⟩ := speculating.line
  have ascending := readableIds_ascending maxBatchId later
  have inside : batchId ∈ rest := by
    have readable : batchId ∈ readableIds start table maxBatchId startBatchId :=
      List.mem_cons_of_mem _ (WorkPlan.mem_pendingWithin.mpr ⟨planned, within⟩)
    rw [← whole, List.mem_append] at readable
    exact readable.resolve_left fresh
  -- The reserved id is the least one that is left, so it comes next in line.
  have extended : (reads.consumed ++ reads.scheduled) ++ [batchId] <+:
      readableIds start table maxBatchId startBatchId := by
    cases rest with
    | nil => simp at inside
    | cons first more =>
        obtain ⟨waiting, after, _⟩ := speculating.pending_next later whole List.mem_cons_self
        have atMost := least first waiting after
        rw [← whole, List.pairwise_append, List.pairwise_cons] at ascending
        obtain rfl : batchId = first := by
          rcases List.mem_cons.mp inside with same | member
          · exact same
          · have above := ascending.2.1.1 batchId member
            omega
        exact ⟨more, by rw [← whole, List.append_assoc]; rfl⟩
  constructor
  · exact speculating.accounted.reserve batchId _ _
  · simp
  · rw [List.append_assoc] at extended
    exact extended
  · exact speculating.batches
  · exact speculating.rows
  · exact speculating.rowsRead
  · exact speculating.short
  · simp [speculating.units, Nat.add_assoc]
  · simp
  · intro otherId
    rw [WorkPlan.pending_remove, speculating.pending otherId]
    simp only [List.mem_append, List.mem_singleton, not_or]
    tauto
  · intro none
    have everything := speculating.exhausted none
    rw [everything] at extended
    have longer := extended.length_le
    simp at longer

omit later speculating

/-- The rows and batches of accepted results are those of the storage. -/
theorem merged_of_storage {merged : List (Nat × ReadResult Key Data)}
    (fine : ∀ entry ∈ merged, entry.2 = storage entry.1) :
    mergedRows merged = ((merged.map Prod.fst).map fun batchId => (storage batchId).numRows).sum ∧
      (merged.flatMap fun entry => entry.2.batches) =
        (merged.map Prod.fst).flatMap fun batchId => (storage batchId).batches := by
  constructor
  · rw [mergedRows, List.map_map]
    congr 1
    apply List.map_congr_left
    intro entry member
    simp [fine entry member]
  · rw [List.flatMap_map]
    apply List.flatMap_congr
    intro entry member
    rw [fine entry member]

/-- A prefix of a list with one more element is the whole list or a prefix of the rest. -/
theorem rows_short {rows : Nat → Nat} {line : List Nat} {last : Nat} (short : (line.map rows).sum < target)
    {shorter : List Nat} (before : shorter <+: line ++ [last]) (differ : shorter ≠ line ++ [last]) :
    (shorter.map rows).sum < target := by
  rcases List.prefix_concat_iff.mp before with same | inside
  · exact absurd same differ
  · obtain ⟨more, rfl⟩ := inside
    rw [List.map_append, List.sum_append] at short
    omega

include later speculating

/-- The loop that reaches the target returns the shortest prefix, and restores the rest. -/
theorem Speculating.leave {merged : List (Nat × ReadResult Key Data)} {last : Nat × ReadResult Key Data}
    {rest inFlight : List Nat} {completed : List (Nat × Option (ReadResult Key Data))}
    (line : reads.scheduled = (merged ++ [last]).map Prod.fst ++ rest)
    (fine : ∀ entry ∈ merged ++ [last], entry.2 = storage entry.1)
    (short : reads.totalRows + mergedRows merged < target)
    (enough : target ≤ reads.totalRows + mergedRows (merged ++ [last])) :
    ReadsPrefix target table storage start (readableIds start table maxBatchId startBatchId)
      (plan.restoreUnconsumedReservations table rest)
      ((ReadLoop.mergeAll { reads with inFlight, completed } (merged ++ [last])).toReturn false rest)
      (reads.consumed ++ (merged ++ [last]).map Prod.fst) := by
  obtain ⟨rowsOf, batchesOf⟩ := merged_of_storage fine
  have rowsShort : mergedRows merged = ((merged.map Prod.fst).map fun batchId => (storage batchId).numRows).sum :=
    (merged_of_storage fun entry member => fine entry (List.mem_append_left _ member)).1
  have whole : reads.consumed ++ reads.scheduled = (reads.consumed ++ (merged ++ [last]).map Prod.fst) ++ rest := by
    rw [line, List.append_assoc]
  have rows : ((reads.consumed ++ (merged ++ [last]).map Prod.fst).map fun batchId => (storage batchId).numRows).sum =
      reads.totalRows + mergedRows (merged ++ [last]) := by
    rw [List.map_append, List.sum_append, ← speculating.rows, ← rowsOf]
  constructor
  · refine ⟨?_, .inl ?_, ?_⟩
    · have inLine := speculating.line
      rw [whole] at inLine
      exact (List.prefix_append _ _).trans inLine
    · rw [rows]
      exact enough
    · intro shorter before differ
      rw [List.map_append, List.map_singleton, ← List.append_assoc] at before differ
      refine rows_short ?_ before differ
      rw [List.map_append, List.sum_append, ← speculating.rows, ← rowsShort]
      exact short
  · simp only [ReadLoop.toReturn, mergeAll_allBatches]
    rw [batchesOf, speculating.batches, List.flatMap_append]
  · simp only [ReadLoop.toReturn, mergeAll_consumedWorkUnits, speculating.units, whole, List.length_append]
    omega
  · simp only [ReadLoop.toReturn, mergeAll_rowsRead]
    rw [rows, speculating.rowsRead]
  · rfl
  · intro batchId
    rw [WorkPlan.pending_restore, speculating.pending batchId, whole]
    obtain ⟨more, all⟩ := speculating.line
    rw [whole] at all
    have ascending := readableIds_ascending maxBatchId later
    rw [← all, List.append_assoc, List.pairwise_append] at ascending
    constructor
    · rintro (⟨_, inside⟩ | ⟨planned, absent⟩)
      · have planned := pending_of_rest ((List.append_assoc _ _ _).symm.trans all) (by simp)
          (List.mem_append_left _ inside)
        refine ⟨planned.1, ?_⟩
        intro taken
        exact Nat.lt_irrefl _ (ascending.2.2 batchId taken batchId (List.mem_append_left _ inside))
      · exact ⟨planned, fun taken => absent (List.mem_append_left _ taken)⟩
    · rintro ⟨planned, absent⟩
      by_cases inside : batchId ∈ rest
      · exact .inl ⟨rfl, inside⟩
      · right
        refine ⟨planned, ?_⟩
        rw [List.mem_append, not_or]
        exact ⟨absent, inside⟩

omit later in
/-- The loop whose last read is joined returns everything that it may read. -/
theorem Speculating.drained {merged : List (Nat × ReadResult Key Data)} {scheduled inFlight : List Nat}
    {completed : List (Nat × Option (ReadResult Key Data))}
    (everything : reads.consumed ++ reads.scheduled = readableIds start table maxBatchId startBatchId)
    (line : reads.scheduled = merged.map Prod.fst) (fine : ∀ entry ∈ merged, entry.2 = storage entry.1)
    (short : reads.totalRows + mergedRows merged < target) :
    ReadsPrefix target table storage start (readableIds start table maxBatchId startBatchId) plan
      ({ ReadLoop.mergeAll { reads with inFlight, completed } merged with scheduled }.toReturn false [])
      (reads.consumed ++ merged.map Prod.fst) := by
  obtain ⟨rowsOf, batchesOf⟩ := merged_of_storage fine
  have rows : ((reads.consumed ++ merged.map Prod.fst).map fun batchId => (storage batchId).numRows).sum =
      reads.totalRows + mergedRows merged := by
    rw [List.map_append, List.sum_append, ← speculating.rows, ← rowsOf]
  constructor
  · rw [← line]
    refine ⟨?_, .inr everything, ?_⟩
    · exact everything ▸ List.prefix_refl _
    · intro shorter before _
      obtain ⟨more, whole⟩ := before
      rw [← line, ← whole, List.map_append, List.sum_append] at rows
      omega
  · simp only [ReadLoop.toReturn, mergeAll_allBatches]
    rw [batchesOf, speculating.batches, List.flatMap_append]
  · simp [ReadLoop.toReturn, speculating.units, line]
  · simp only [ReadLoop.toReturn, mergeAll_rowsRead]
    rw [rows, speculating.rowsRead]
  · rfl
  · rw [← line]
    exact speculating.pending

/-- Joining a read keeps the loop in line, or returns what sequential reading returns. -/
theorem Speculating.join {batchId : Nat} (enough : reads.wantsMore target = false) (member : batchId ∈ reads.inFlight)
    {progress : ReadProgress Key Data}
    (joined : joinBatch target table plan reads batchId (.ok (some (storage batchId))) = (next, progress)) :
    SoundRead target table storage start (readableIds start table maxBatchId startBatchId) next progress ∧
      progress.fuel (readableIds start table maxBatchId startBatchId) <
        (ReadProgress.reading reads).fuel (readableIds start table maxBatchId startBatchId) := by
  have flying : 0 < reads.inFlight.length := List.length_pos_of_mem member
  have fewer := List.length_erase_of_mem member
  have distinct : reads.scheduled.Nodup := by
    have ascending := (readableIds_ascending maxBatchId later).sublist speculating.line.sublist
    exact (List.pairwise_append.mp ascending).2.1.imp Nat.ne_of_lt
  have drains := drain_drainsTo (speculating.accounted.join member rfl) distinct speculating.short
  simp only [joinBatch] at joined
  generalize ReadLoop.drain target reads.scheduled _ = outcome at drains joined
  cases drains with
  | leave merged last rest line fine short reached =>
      obtain ⟨rfl, rfl⟩ := Prod.mk.inj joined
      refine ⟨⟨_, speculating.leave later line fine short reached⟩, ?_⟩
      simp only [ReadProgress.fuel]
      omega
  | again merged rest line fine taken accounted waits short =>
      dsimp only at joined
      split at joined
      · rename_i idle
        simp only [mergeAll_inFlight, Bool.and_eq_true, List.isEmpty_iff] at idle
        obtain ⟨rfl, rfl⟩ := Prod.mk.inj joined
        obtain ⟨_, rfl⟩ := accounted.idle waits ((mergeAll_inFlight _ _).trans idle.1)
        have single : reads.inFlight.length < maxInFlightSourceBatchReads := by
          rw [idle.1, List.length_nil] at fewer
          simp only [maxInFlightSourceBatchReads]
          omega
        have spent : reads.canReserveMore = false := by
          simpa [ReadLoop.wantsMore, single, speculating.short] using enough
        refine ⟨⟨_, speculating.drained (speculating.exhausted spent) (line.trans (List.append_nil _)) fine short⟩, ?_⟩
        simp only [ReadProgress.fuel]
        omega
      · rename_i busy
        obtain ⟨rfl, rfl⟩ := Prod.mk.inj joined
        obtain ⟨rowsOf, batchesOf⟩ := merged_of_storage fine
        have whole : reads.consumed ++ reads.scheduled = (reads.consumed ++ merged.map Prod.fst) ++ rest := by
          rw [line, List.append_assoc]
        constructor
        · constructor
          · exact ⟨accounted.scheduled, accounted.accepted⟩
          · intro landed
            obtain ⟨nothing, _⟩ := accounted.idle waits landed
            apply busy
            dsimp only at landed
            rw [landed, nothing]
            rfl
          · simpa [whole] using speculating.line
          · simp only [mergeAll_allBatches, mergeAll_consumed]
            rw [batchesOf, speculating.batches, List.flatMap_append]
          · simp only [mergeAll_totalRows, mergeAll_consumed]
            rw [List.map_append, List.sum_append, ← rowsOf, ← speculating.rows]
          · simp [speculating.rowsRead]
          · simpa using short
          · simp [speculating.units, whole]
          · simpa [whole] using speculating.cursor
          · simpa [whole] using speculating.pending
          · simpa [whole] using speculating.exhausted
        · simp [ReadProgress.fuel, whole, fewer]
          omega

/-- Every step of the loop keeps it in line, or returns what sequential reading returns. -/
theorem Speculating.step {action : TaskAction Key Data} {progress : ReadProgress Key Data}
    (answers : ∀ batchId outcome, action = .join batchId outcome → outcome = .ok (some (storage batchId)))
    (stepped : readStep target maxBatchId table plan reads action = some (next, progress)) :
    SoundRead target table storage start (readableIds start table maxBatchId startBatchId) next progress ∧
      progress.fuel (readableIds start table maxBatchId startBatchId) <
        (ReadProgress.reading reads).fuel (readableIds start table maxBatchId startBatchId) := by
  cases action with
  | reserve =>
      simp only [readStep] at stepped
      rw [Option.ite_none_right_eq_some] at stepped
      obtain ⟨wants, stepped⟩ := stepped
      have more : reads.canReserveMore = true := by
        simp only [ReadLoop.wantsMore, Bool.and_eq_true] at wants
        exact wants.1.1
      cases reserved : plan.reserveNextBatchIdForTable table reads.reserveCursor maxBatchId with
      | none =>
          simp only [reserved, Option.some.injEq, Prod.mk.injEq] at stepped
          obtain ⟨rfl, rfl⟩ := stepped
          refine ⟨speculating.exhaust later reserved, ?_⟩
          simp [ReadProgress.fuel, more]
      | some found =>
          obtain ⟨batchId, steps⟩ := found
          simp only [reserved, Option.some.injEq, Prod.mk.injEq] at stepped
          obtain ⟨rfl, rfl⟩ := stepped
          have extended := speculating.reserve later reserved
          refine ⟨extended, ?_⟩
          have within := extended.line.length_le
          simp only [ReadProgress.fuel, List.length_append, List.length_singleton] at within ⊢
          omega
  | join batchId outcome =>
      obtain rfl := answers batchId outcome rfl
      simp only [readStep] at stepped
      split at stepped
      · simp at stepped
      · rename_i enough
        rw [Option.ite_none_right_eq_some, Option.some_inj] at stepped
        exact speculating.join later (by simpa using enough) stepped.1 stepped.2
  | joinNone =>
      simp only [readStep] at stepped
      split at stepped
      · simp at stepped
      · rw [Option.ite_none_right_eq_some] at stepped
        exact absurd (List.isEmpty_iff.mp stepped.1) speculating.flying
  | _ => simp [readStep] at stepped

omit later in
/-- A loop that still reads can always take a step. -/
theorem Speculating.progress : ∃ action, (readMachine target maxBatchId table storage).admits (.own action) ∧
    (readStep target maxBatchId table plan reads action).isSome = true := by
  by_cases wants : reads.wantsMore target = true
  · refine ⟨.reserve, trivial, ?_⟩
    simp only [readStep, wants, if_true]
    cases plan.reserveNextBatchIdForTable table reads.reserveCursor maxBatchId with
    | none => rfl
    | some found => rfl
  · obtain ⟨batchId, others, listed⟩ := List.exists_cons_of_ne_nil speculating.flying
    exact ⟨.join batchId (.ok (some (storage batchId))), rfl, by simp [readStep, wants, listed]⟩

end Steps

end Loop

namespace WorkPlan

variable {plan other : WorkPlan Table} {table : Table}

/-- A reservation takes the first pending id in its range. -/
theorem reserve_eq (plan : WorkPlan Table) (table : Table) (afterBatchId : Nat) (maxBatchId : Option Nat) :
    plan.reserveNextBatchIdForTable table afterBatchId maxBatchId =
      ((plan.pendingWithin table maxBatchId).find? (min (afterBatchId + 1) (2 ^ 64 - 1) ≤ ·)).map
        fun batchId => (batchId, plan.remove table batchId) := by
  rw [reserveNextBatchIdForTable, pendingWithin, List.find?_map, List.find?_filter, Option.map_map]
  congr 2
  funext entry
  simp only [Function.comp_apply, decide_eq_decide, decide_eq_true_eq]
  tauto

/-- The pending ids of a table are a list that its entries determine. -/
theorem pendingWithin_congr (same : ∀ batchId, plan.Pending table batchId ↔ other.Pending table batchId)
    (maxBatchId : Option Nat) : plan.pendingWithin table maxBatchId = other.pendingWithin table maxBatchId := by
  refine (plan.pendingWithin_ascending table maxBatchId).eq_of_mem_iff
    (other.pendingWithin_ascending table maxBatchId) ?_
  intro batchId
  rw [mem_pendingWithin, mem_pendingWithin, same]

end WorkPlan

section Others

variable {plan other : WorkPlan Table} {table : Table} {action : ReadAction Table Key Data}

/-- An operation of another table leaves the entries of this table alone. -/
theorem pending_operate_of_ne (differ : action.table? ≠ some table) (batchId : Nat) :
    (action.operate plan).Pending table batchId ↔ plan.Pending table batchId := by
  cases action with
  | own action => rfl
  | reserve owner afterBatchId maxBatchId =>
      have apart : table ≠ owner := by
        rintro rfl
        exact differ rfl
      simp only [ReadAction.operate]
      cases reserved : plan.reserveNextBatchIdForTable owner afterBatchId maxBatchId with
      | none => rfl
      | some found =>
          obtain ⟨reservedId, next⟩ := found
          obtain ⟨_, _, _, rfl⟩ := WorkPlan.reserve_some reserved
          simp [WorkPlan.pending_remove, apart]
  | restore owner batchIds =>
      have apart : table ≠ owner := by
        rintro rfl
        exact differ rfl
      simp [ReadAction.operate, WorkPlan.pending_restore, apart]

/-- What an operation of a table makes of its entries depends on these entries only. -/
theorem pending_operate_congr (same : ∀ batchId, plan.Pending table batchId ↔ other.Pending table batchId)
    (batchId : Nat) :
    (action.operate plan).Pending table batchId ↔ (action.operate other).Pending table batchId := by
  by_cases differ : action.table? = some table
  · cases action with
    | own action => exact same batchId
    | reserve owner afterBatchId maxBatchId =>
        obtain rfl := Option.some.inj differ
        simp only [ReadAction.operate, WorkPlan.reserve_eq, WorkPlan.pendingWithin_congr same maxBatchId]
        cases (other.pendingWithin owner maxBatchId).find? (min (afterBatchId + 1) (2 ^ 64 - 1) ≤ ·) with
        | none => exact same batchId
        | some reservedId => simp [WorkPlan.pending_remove, same]
    | restore owner batchIds => simp [ReadAction.operate, WorkPlan.pending_restore, same]
  · rw [pending_operate_of_ne differ, pending_operate_of_ne differ]
    exact same batchId

end Others

section Runs

variable {target : Nat} {table : Table} {maxBatchId : Option Nat} {storage : Nat → ReadResult Key Data}
  {start : WorkPlan Table} {startBatchId : Nat} {ids : List Nat} {state next : SharedRead Table Key Data}
  {action : ReadAction Table Key Data}

/-- This is everything that one step of the machine can do. -/
theorem readMachine_step (stepped : (readMachine target maxBatchId table storage).step state action = some next) :
    (∃ taskAction reads, action = .own taskAction ∧ state.progress = .reading reads ∧
        readStep target maxBatchId table state.plan reads taskAction = some (next.plan, next.progress)) ∨
      (∀ taskAction, action ≠ .own taskAction) ∧ next = { state with plan := action.operate state.plan } := by
  simp only [readMachine] at stepped
  split at stepped
  · rename_i taskAction reads reading
    obtain ⟨⟨plan, progress⟩, taken, rfl⟩ := Option.map_eq_some_iff.mp stepped
    exact .inl ⟨taskAction, reads, rfl, reading, taken⟩
  · simp at stepped
  · rename_i other _
    exact .inr ⟨other, (Option.some.inj stepped).symm⟩

/-- The steps of the loop leave the entries of other tables alone. -/
theorem readStep_pending_other {other : Table} (differ : other ≠ table) {plan after : WorkPlan Table}
    {reads : ReadLoop Key Data} {taskAction : TaskAction Key Data} {progress : ReadProgress Key Data}
    (stepped : readStep target maxBatchId table plan reads taskAction = some (after, progress)) (batchId : Nat) :
    after.Pending other batchId ↔ plan.Pending other batchId := by
  have returned : ∀ result : ReadReturn Key Data, (returnReads table plan result).1.Pending other batchId ↔
      plan.Pending other batchId := by
    intro result
    simp [returnReads, WorkPlan.pending_restore, differ]
  cases taskAction with
  | reserve =>
      simp only [readStep] at stepped
      rw [Option.ite_none_right_eq_some] at stepped
      obtain ⟨_, stepped⟩ := stepped
      split at stepped
      · obtain ⟨rfl, _⟩ := Prod.mk.inj (Option.some.inj stepped)
        rfl
      · rename_i reservedId steps reserved
        obtain ⟨rfl, _⟩ := Prod.mk.inj (Option.some.inj stepped)
        obtain ⟨_, _, _, rfl⟩ := WorkPlan.reserve_some reserved
        simp [WorkPlan.pending_remove, differ]
  | join readId outcome =>
      simp only [readStep] at stepped
      split at stepped
      · simp at stepped
      · rw [Option.ite_none_right_eq_some, Option.some_inj] at stepped
        obtain ⟨_, stepped⟩ := stepped
        unfold joinBatch at stepped
        split at stepped
        · obtain ⟨rfl, _⟩ := Prod.mk.inj stepped
          rfl
        · dsimp only at stepped
          split at stepped
          · rw [← (Prod.mk.inj stepped).1]
            exact returned _
          · split at stepped
            · rw [← (Prod.mk.inj stepped).1]
              exact returned _
            · obtain ⟨rfl, _⟩ := Prod.mk.inj stepped
              rfl
  | joinNone =>
      simp only [readStep] at stepped
      split at stepped
      · simp at stepped
      · rw [Option.ite_none_right_eq_some, Option.some_inj] at stepped
        rw [← (Prod.mk.inj stepped.2).1]
        exact returned _
  | _ => simp [readStep] at stepped

omit [DecidableEq Table] in
/-- An operation of another table keeps the loop sound. -/
theorem SoundRead.operate {progress : ReadProgress Key Data} {plan after : WorkPlan Table}
    (sound : SoundRead target table storage start ids plan progress)
    (same : ∀ batchId, after.Pending table batchId ↔ plan.Pending table batchId) :
    SoundRead target table storage start ids after progress := by
  cases progress with
  | reading reads =>
      exact { sound with pending := fun batchId => (same batchId).trans (sound.pending batchId) }
  | returned result =>
      obtain ⟨taken, reads⟩ := sound
      exact ⟨taken, { reads with pending := fun batchId => (same batchId).trans (reads.pending batchId) }⟩
  | failed message => exact sound

/-- The plan that the operations of one table alone would leave. -/
def operatedBy (other : Table) (start : WorkPlan Table) (actions : List (ReadAction Table Key Data)) : WorkPlan Table :=
  (actions.filter fun action => action.table? = some other).foldl ReadAction.operate start

/-- Along a run the loop stays sound, spends its fuel and leaves the other tables alone. -/
structure ReadRun (target : Nat) (table : Table) (storage : Nat → ReadResult Key Data) (start : WorkPlan Table)
    (ids : List Nat) (actions : List (ReadAction Table Key Data)) (state : SharedRead Table Key Data) : Prop where
  sound : SoundRead target table storage start ids state.plan state.progress
  fuel : (actions.countP fun action => action.table?.isNone) + state.progress.fuel ids ≤ 2 * ids.length
  others : ∀ other, other ≠ table → ∀ batchId,
    state.plan.Pending other batchId ↔ (operatedBy other start actions).Pending other batchId

theorem operatedBy_concat (other : Table) (start : WorkPlan Table) (actions : List (ReadAction Table Key Data))
    (action : ReadAction Table Key Data) : operatedBy other start (actions ++ [action]) =
      if action.table? = some other then action.operate (operatedBy other start actions)
      else operatedBy other start actions := by
  by_cases own : action.table? = some other
  · simp [operatedBy, own]
  · simp [operatedBy, own]

/-- One more action keeps the run. -/
theorem ReadRun.step {actions : List (ReadAction Table Key Data)}
    (later : ∀ batchId, start.Pending table batchId → startBatchId < batchId)
    (ran : ReadRun target table storage start (readableIds start table maxBatchId startBatchId) actions state)
    (admitted : (readMachine target maxBatchId table storage).admits action)
    (stepped : (readMachine target maxBatchId table storage).step state action = some next) :
    ReadRun target table storage start (readableIds start table maxBatchId startBatchId) (actions ++ [action]) next := by
  have spent := ran.fuel
  rcases readMachine_step stepped with ⟨taskAction, reads, rfl, reading, taken⟩ | ⟨foreign, rfl⟩
  · have sound := ran.sound
    rw [reading] at sound spent
    have answers : ∀ batchId outcome, taskAction = .join batchId outcome → outcome = .ok (some (storage batchId)) := by
      rintro batchId outcome rfl
      exact admitted
    obtain ⟨after, lowered⟩ := Speculating.step later sound answers taken
    refine ⟨after, ?_, ?_⟩
    · have counted : [ReadAction.own taskAction].countP (fun action : ReadAction Table Key Data =>
          action.table?.isNone) = 1 := rfl
      rw [List.countP_append, counted]
      omega
    · intro other differ batchId
      rw [operatedBy_concat, if_neg (by simp [ReadAction.table?]), ← ran.others other differ batchId]
      exact readStep_pending_other differ taken batchId
  · have owned : ∃ owner, action.table? = some owner ∧ owner ≠ table := by
      cases action with
      | own taskAction => exact absurd rfl (foreign taskAction)
      | reserve owner _ _ => exact ⟨owner, rfl, admitted⟩
      | restore owner _ => exact ⟨owner, rfl, admitted⟩
    obtain ⟨owner, owns, apart⟩ := owned
    refine ⟨?_, ?_, ?_⟩
    · exact ran.sound.operate (pending_operate_of_ne (by simp [owns, apart]))
    · simpa [List.countP_append, owns] using spent
    · intro other differ batchId
      rw [operatedBy_concat]
      by_cases mine : action.table? = some other
      · rw [if_pos mine]
        exact pending_operate_congr (ran.others other differ) batchId
      · rw [if_neg mine, ← ran.others other differ batchId]
        exact pending_operate_of_ne mine batchId

/-- Every run keeps the loop sound. -/
theorem ReadRun.of_run (positive : 0 < target)
    (later : ∀ batchId, start.Pending table batchId → startBatchId < batchId)
    {actions : List (ReadAction Table Key Data)}
    (admitted : ∀ action ∈ actions, (readMachine target maxBatchId table storage).admits action)
    (ran : (readMachine target maxBatchId table storage).run (.start start startBatchId) actions = some state) :
    ReadRun target table storage start (readableIds start table maxBatchId startBatchId) actions state := by
  induction actions using List.reverseRecOn generalizing state with
  | nil =>
      obtain rfl := Option.some.inj ran
      refine ⟨speculating_start positive later, ?_, fun _ _ _ => Iff.rfl⟩
      simp [SharedRead.start, ReadProgress.fuel, ReadLoop.start, readableIds]
      omega
  | append_singleton actions action ih =>
      rw [Machine.run_append, Option.bind_eq_some_iff] at ran
      obtain ⟨before, ran, last⟩ := ran
      have stepped : (readMachine target maxBatchId table storage).step before action = some state := by
        simpa [Machine.run] using last
      have earlier := ih (fun other member => admitted other (List.mem_append_left _ member)) ran
      exact earlier.step later (admitted action (by simp)) stepped

end Runs

/-- Whatever the order in which the reads complete, and whatever the tasks of other tables do to the plan meanwhile,
the loop takes at most two steps for each readable id, is never stuck, and returns the batches of the shortest prefix
that reaches the target. The plan keeps exactly what was not taken, and the entries of the other tables are those
that their own operations leave. -/
theorem speculative_reading_sequential (target : Nat) (positive : 0 < target) (maxBatchId : Option Nat) (table : Table)
    (storage : Nat → ReadResult Key Data) (plan : WorkPlan Table) (startBatchId : Nat)
    (later : ∀ batchId, plan.Pending table batchId → startBatchId < batchId)
    (actions : List (ReadAction Table Key Data)) (state : SharedRead Table Key Data)
    (admitted : ∀ action ∈ actions, (readMachine target maxBatchId table storage).admits action)
    (ran : (readMachine target maxBatchId table storage).run (.start plan startBatchId) actions = some state) :
    ((∃ action next, (readMachine target maxBatchId table storage).admits (.own action) ∧
          (readMachine target maxBatchId table storage).step state (.own action) = some next) ∨
        ∃ result taken, state.progress = .returned result ∧ ReadsPrefix target table storage plan
          (readableIds plan table maxBatchId startBatchId) state.plan result taken) ∧
      (actions.countP fun action => action.table?.isNone) ≤
        2 * (readableIds plan table maxBatchId startBatchId).length ∧
      ∀ other, other ≠ table → ∀ batchId,
        state.plan.Pending other batchId ↔ (operatedBy other plan actions).Pending other batchId := by
  have run := ReadRun.of_run positive later admitted ran
  refine ⟨?_, (Nat.le_add_right _ _).trans run.fuel, run.others⟩
  have sound := run.sound
  cases progress : state.progress with
  | reading reads =>
      rw [progress] at sound
      obtain ⟨action, allowed, moves⟩ := Speculating.progress sound
      obtain ⟨result, taken⟩ := Option.isSome_iff_exists.mp moves
      exact .inl ⟨action, ⟨result.1, result.2⟩, allowed, by simp [readMachine, progress, taken]⟩
  | returned result =>
      rw [progress] at sound
      obtain ⟨taken, reads⟩ := sound
      exact .inr ⟨result, taken, rfl, reads⟩
  | failed message =>
      rw [progress] at sound
      exact sound.elim

/-- Every batch holds one row. -/
def oneRowEach (batchId : Nat) : ReadResult Nat Unit :=
  ⟨[⟨changeSchema, [⟨batchId, (), some .create, 0⟩]⟩], ["key"]⟩

/-- Three batches of one table are planned, and the other table needs the second one too. -/
def twoTablePlan : WorkPlan Bool := (((WorkPlan.push .empty true 0).push true 1).push false 1).push true 2

/-- The second read completes before the first one, and a third one is in flight when the target is reached. -/
def secondReadFirst : List (ReadAction Bool Nat Unit) :=
  [.own .reserve, .own (.join 1 (.ok (some (oneRowEach 1)))), .reserve false 0 none, .own .reserve,
    .own (.join 0 (.ok (some (oneRowEach 0))))]

theorem speculative_reading_sequential_sample :
    ∃ tables plan state, twoTablePlan.popStep none = some (0, tables, plan) ∧
      (readMachine 2 none true oneRowEach).run (.start plan 0) secondReadFirst = some state ∧
      ∃ result taken, state.progress = .returned result ∧ result.rowsRead = 2 ∧
        ReadsPrefix 2 true oneRowEach plan (readableIds plan true none 0) state.plan result taken := by
  have popped : (twoTablePlan.popStep none).map Prod.fst = some 0 := by
    decide +kernel
  obtain ⟨⟨batchId, tables, plan⟩, pops, rfl⟩ := Option.map_eq_some_iff.mp popped
  have ended : (twoTablePlan.popStep none).bind (fun popped =>
      ((readMachine 2 none true oneRowEach).run (.start popped.2.2 0) secondReadFirst).map fun state =>
        match state.progress with
        | .returned result => some result.rowsRead
        | _ => none) = some (some 2) := by
    decide +kernel
  rw [pops, Option.bind_some, Option.map_eq_some_iff] at ended
  obtain ⟨state, ran, rows⟩ := ended
  have later : ∀ batchId, plan.Pending true batchId → 0 < batchId := by
    intro batchId pending
    obtain ⟨_, _, _, _, least, remaining⟩ := WorkPlan.pop_some pops
    obtain ⟨_, differ⟩ := (remaining true batchId).mp pending
    exact Nat.pos_of_ne_zero differ
  have admitted : ∀ action ∈ secondReadFirst, (readMachine 2 none true oneRowEach).admits action := by
    simp [secondReadFirst, readMachine]
  obtain ⟨moves | ⟨result, taken, returned, reads⟩, _⟩ :=
    speculative_reading_sequential 2 (by decide) none true oneRowEach plan 0 later secondReadFirst state admitted ran
  · obtain ⟨action, next, _, moves⟩ := moves
    cases progress : state.progress with
    | reading reads => simp [progress] at rows
    | returned result => simp [readMachine, progress] at moves
    | failed message => simp [progress] at rows
  · simp only [returned, Option.some.injEq] at rows
    exact ⟨tables, plan, state, pops, ran, result, taken, returned, rows, reads⟩

end Spicebench.Etl
