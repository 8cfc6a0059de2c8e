import Spicebench.Construction.Etl.LogicalBatch
import Spicebench.Proof.Dataset.Recording
import Spicebench.Proof.Dataset.S3Storage

namespace Spicebench.Etl

open Library DataGeneration

variable {Source Key Data : Type}

/-- A storage serves a batch when it lists its parts and returns the object of each of them, in every state of its
caches that is ready. -/
structure SourceStorage.Serves (storage : SourceStorage Source Key Data) (Ready : Source → Prop) (tableName : String)
    (batchId : Nat) (partIds : List Nat) (whole : DataGeneration.ReadResult Key Data)
    (part : Nat → DataGeneration.ReadResult Key Data) : Prop where
  listed : ∀ {source}, Ready source →
    ∃ next, storage.readBatchParts tableName batchId source = (.ok partIds, next) ∧ Ready next
  whole : partIds = [] → ∀ {source}, Ready source →
    ∃ next, storage.readBatch tableName batchId none source = (.ok (some whole), next) ∧ Ready next
  part : ∀ partId ∈ partIds, ∀ {source}, Ready source →
    ∃ next, storage.readBatch tableName batchId (some partId) source = (.ok (some (part partId)), next) ∧ Ready next

section Ordered

variable (part : Nat → DataGeneration.ReadResult Key Data)

/-- The results of some parts in order. -/
def mergedResult (partIds : List Nat) : DataGeneration.ReadResult Key Data where
  batches := partIds.flatMap fun partId => (part partId).batches
  rowsRead := (partIds.map fun partId => (part partId).rowsRead).sum
  bytesRead := (partIds.map fun partId => (part partId).bytesRead).sum
  keyColumns := (partIds.head?.map fun partId => (part partId).keyColumns).getD []

/-- The parts are merged in order, scheduled, or remaining, and each scheduled one is in one place. -/
structure PartReads.Ordered (partIds merged : List Nat) (reads : PartReads Key Data) : Prop where
  split : partIds = merged ++ reads.scheduled ++ reads.remaining
  placed : reads.scheduled.Perm (reads.running ++ reads.done.map Prod.fst ++ reads.completed.keys)
  done : ∀ entry ∈ reads.done, entry.2 = .ok (part entry.1)
  completed : ∀ {partId result}, reads.completed.lookup partId = some result → result = part partId
  batches : reads.mergedBatches = (mergedResult part merged).batches
  rowsRead : reads.rowsRead = (mergedResult part merged).rowsRead
  bytesRead : reads.bytesRead = (mergedResult part merged).bytesRead
  keyColumns : reads.keyColumns = merged.head?.map fun partId => (part partId).keyColumns

/-- The first scheduled part is not completed. -/
def PartReads.Drained (reads : PartReads Key Data) : Prop :=
  ∀ partId ∈ reads.scheduled.head?, reads.completed.lookup partId = none

variable {part} {partIds merged : List Nat} {reads : PartReads Key Data}

namespace PartReads

theorem Ordered.start (partIds : List Nat) : Ordered part partIds [] (start partIds) where
  split := rfl
  placed := .refl _
  done := by simp [PartReads.start]
  completed := by simp [PartReads.start]
  batches := rfl
  rowsRead := rfl
  bytesRead := rfl
  keyColumns := rfl

theorem Ordered.spawn {partId : Nat} {rest : List Nat}
    (ordered : Ordered part partIds merged { reads with remaining := partId :: rest }) :
    Ordered part partIds merged { reads.spawn partId with remaining := rest } where
  split := by
    rw [ordered.split]
    simp [PartReads.spawn]
  placed := by
    have placed := (ordered.placed.append_right [partId]).trans (List.perm_append_comm)
    refine placed.trans ?_
    simp only [PartReads.spawn, List.append_assoc, List.singleton_append]
    exact (List.perm_middle).symm
  done := ordered.done
  completed := ordered.completed
  batches := ordered.batches
  rowsRead := ordered.rowsRead
  bytesRead := ordered.bytesRead
  keyColumns := ordered.keyColumns

/-- A part is completed only while it is scheduled. -/
theorem Ordered.lookup_of_empty (ordered : Ordered part partIds merged reads) (idle : reads.scheduled = [])
    (partId : Nat) : reads.completed.lookup partId = none := by
  have placed := ordered.placed
  rw [idle, List.nil_perm, List.append_eq_nil_iff] at placed
  rw [AList.lookup_eq_none, AList.mem_keys, placed.2]
  exact List.not_mem_nil

theorem Ordered.fill {waiting : List Nat}
    (ordered : Ordered part partIds merged { reads with remaining := waiting }) (drained : reads.Drained) :
    Ordered part partIds merged (reads.fill waiting) ∧ (reads.fill waiting).Drained := by
  induction waiting generalizing reads with
  | nil => exact ⟨ordered, drained⟩
  | cons partId rest ih =>
      rw [PartReads.fill]
      split_ifs
      · refine ih ordered.spawn ?_
        intro first found
        cases idle : reads.scheduled with
        | nil => exact ordered.lookup_of_empty idle first
        | cons head tail =>
            apply drained
            simpa [PartReads.spawn, idle] using found
      · exact ⟨ordered, drained⟩

/-- The first reads are spawned in order. -/
theorem Ordered.fill_start (partIds : List Nat) :
    Ordered part partIds [] ((PartReads.start partIds).fill partIds) ∧
      ((PartReads.start partIds : PartReads Key Data).fill partIds).Drained := by
  have drained : (PartReads.start partIds : PartReads Key Data).Drained := by
    intro first found
    cases found
  exact Ordered.fill (Ordered.start partIds : Ordered part partIds [] (PartReads.start partIds)) drained

theorem inFlight_fill {waiting : List Nat} (busy : 0 < reads.inFlight ∨ waiting ≠ []) :
    0 < (reads.fill waiting).inFlight := by
  induction waiting generalizing reads with
  | nil =>
      rcases busy with busy | absent
      · exact busy
      · exact absurd rfl absent
  | cons partId rest ih =>
      rw [PartReads.fill]
      split_ifs with room
      · apply ih
        left
        simp [PartReads.inFlight, PartReads.spawn]
      · have positive : 0 < max maxInFlightSourcePartReads 1 := by decide
        exact lt_of_lt_of_le positive (not_lt.mp room)

theorem Ordered.merge {partId : Nat} {rest : List Nat} {result : DataGeneration.ReadResult Key Data}
    (ordered : Ordered part partIds merged { reads with scheduled := partId :: rest })
    (found : reads.completed.lookup partId = some result) :
    Ordered part partIds (merged ++ [partId]) { reads.merge partId result with scheduled := rest } := by
  obtain rfl : result = part partId := ordered.completed found
  have member : partId ∈ reads.completed.keys := by
    rw [← AList.mem_keys, ← AList.lookup_isSome, found, Option.isSome_some]
  constructor
  · rw [ordered.split]
    simp [PartReads.merge]
  · have placed : (partId :: rest).Perm
        (partId :: (reads.running ++ reads.done.map Prod.fst ++ reads.completed.keys.erase partId)) :=
      ordered.placed.trans
        (((List.perm_cons_erase member).append_left _).trans List.perm_middle)
    simpa only [PartReads.merge, AList.keys_erase] using placed.cons_inv
  · exact ordered.done
  · intro other result merged
    apply ordered.completed
    by_cases same : other = partId
    · subst same
      simp [PartReads.merge] at merged
    · simpa [PartReads.merge, AList.lookup_erase_ne same] using merged
  · simpa [PartReads.merge, mergedResult] using ordered.batches
  · simpa [PartReads.merge, mergedResult] using ordered.rowsRead
  · simpa [PartReads.merge, mergedResult] using ordered.bytesRead
  · have before := ordered.keyColumns
    cases merged with
    | nil => simp_all [PartReads.merge]
    | cons first others => simp_all [PartReads.merge]

theorem Ordered.drain {waiting : List Nat}
    (ordered : Ordered part partIds merged { reads with scheduled := waiting }) :
    ∃ longer, Ordered part partIds longer (reads.drain waiting) ∧ (reads.drain waiting).Drained := by
  induction waiting generalizing reads merged with
  | nil => exact ⟨merged, ordered, by simp [PartReads.Drained, PartReads.drain]⟩
  | cons partId rest ih =>
      rw [PartReads.drain]
      cases found : reads.completed.lookup partId with
      | none => exact ⟨merged, ordered, by simpa [PartReads.Drained] using found⟩
      | some result => exact ih (ordered.merge found)

theorem Ordered.scheduled_nodup (ordered : Ordered part partIds merged reads) (distinct : partIds.Nodup) :
    reads.scheduled.Nodup := by
  rw [ordered.split, List.append_assoc] at distinct
  exact distinct.of_append_right.of_append_left

/-- A read that is done moves from the running ones. -/
theorem Ordered.read (ordered : Ordered part partIds merged reads) {partId : Nat} (running : partId ∈ reads.running) :
    Ordered part partIds merged { reads with
      running := reads.running.erase partId
      done := reads.done ++ [(partId, .ok (part partId))] } where
  split := ordered.split
  placed := by
    refine ordered.placed.trans (.append_right _ ?_)
    have moved : reads.running.Perm (reads.running.erase partId ++ [partId]) :=
      (List.perm_cons_erase running).trans (List.perm_append_singleton _ _).symm
    refine (moved.append_right _).trans ?_
    rw [List.map_append, List.append_assoc]
    exact List.perm_append_comm.append_left _
  done := by
    intro entry member
    rcases List.mem_append.mp member with before | last
    · exact ordered.done entry before
    · rw [List.mem_singleton.mp last]
  completed := ordered.completed
  batches := ordered.batches
  rowsRead := ordered.rowsRead
  bytesRead := ordered.bytesRead
  keyColumns := ordered.keyColumns

theorem perm_eraseP {Value : Type} {entries : List (Nat × Value)} {key : Nat} {value : Value}
    (found : entries.lookup key = some value) :
    (entries.map Prod.fst).Perm (key :: (entries.eraseP (·.1 = key)).map Prod.fst) := by
  induction entries with
  | nil => cases found
  | cons entry rest ih =>
      obtain ⟨name, stored⟩ := entry
      by_cases same : name = key
      · simp [same]
      · have later : rest.lookup key = some value := by
          rwa [List.lookup_cons, beq_eq_false_iff_ne.mpr (Ne.symm same)] at found
        simpa [same] using ((ih later).cons name).trans (.swap key name _)

/-- A joined read is completed. -/
theorem Ordered.join (ordered : Ordered part partIds merged reads) (distinct : partIds.Nodup) {partId : Nat}
    {outcome : Except String (DataGeneration.ReadResult Key Data)} (found : reads.done.lookup partId = some outcome) :
    outcome = .ok (part partId) ∧
      Ordered part partIds merged { reads with
        done := reads.done.eraseP (·.1 = partId)
        completed := reads.completed.insert partId (part partId) } := by
  have moved := perm_eraseP found
  have nodup := ordered.placed.nodup_iff.mp (ordered.scheduled_nodup distinct)
  have absent : partId ∉ reads.completed.keys := by
    intro completed
    have member : partId ∈ reads.running ++ reads.done.map Prod.fst :=
      List.mem_append_right _ (moved.mem_iff.mpr List.mem_cons_self)
    exact (List.nodup_append'.mp nodup).2.2 member completed
  refine ⟨?_, ordered.split, ?_, ?_, ?_, ordered.batches, ordered.rowsRead, ordered.bytesRead, ordered.keyColumns⟩
  · obtain ⟨before, after, done, -⟩ := List.lookup_eq_some_iff.mp found
    exact ordered.done (partId, outcome) (by simp [done])
  · rw [AList.keys_insert, List.erase_of_not_mem absent]
    refine ordered.placed.trans ?_
    rw [List.append_assoc, List.append_assoc]
    refine .append_left _ ((moved.append_right _).trans ?_)
    exact List.perm_middle.symm
  · intro entry member
    exact ordered.done entry (List.mem_of_mem_eraseP member)
  · intro other result inserted
    by_cases same : other = partId
    · subst same
      rw [AList.lookup_insert] at inserted
      exact (Option.some.inj inserted).symm
    · rw [AList.lookup_insert_ne same] at inserted
      exact ordered.completed inserted

/-- When nothing is in flight and nothing remains, all parts are merged. -/
theorem Ordered.toResult (ordered : Ordered part partIds merged reads) (drained : reads.Drained)
    (idle : reads.inFlight = 0) (last : reads.remaining = []) : reads.toResult = mergedResult part partIds := by
  have unread : reads.running = [] ∧ reads.done = [] := by
    simpa [PartReads.inFlight] using idle
  have finished : reads.scheduled = [] := by
    have placed := ordered.placed
    rw [unread.1, unread.2, List.map_nil, List.nil_append, List.nil_append] at placed
    cases scheduled : reads.scheduled with
    | nil => rfl
    | cons first rest =>
        have missing := drained first (by simp [scheduled])
        have member : first ∈ reads.completed.keys := placed.mem_iff.mp (by simp [scheduled])
        rw [AList.lookup_eq_none, AList.mem_keys] at missing
        exact absurd member missing
  have all : partIds = merged := by
    rw [ordered.split, finished, last, List.append_nil, List.append_nil]
  simp only [PartReads.toResult, ordered.batches, ordered.rowsRead, ordered.bytesRead, ordered.keyColumns, all,
    mergedResult]

/-- The steps that are still to come. -/
def weight (reads : PartReads Key Data) : Nat :=
  3 * reads.remaining.length + 2 * reads.running.length + reads.done.length

theorem weight_fill (waiting : List Nat) :
    (reads.fill waiting).weight ≤ 3 * waiting.length + 2 * reads.running.length + reads.done.length := by
  induction waiting generalizing reads with
  | nil => exact le_rfl
  | cons partId rest ih =>
      rw [PartReads.fill]
      split_ifs
      · have spawned : ((reads.spawn partId).fill rest).weight ≤ _ := ih
        simp only [PartReads.spawn, List.length_append, List.length_cons, List.length_nil] at spawned ⊢
        omega
      · exact le_rfl

theorem drain_frame (waiting : List Nat) :
    (reads.drain waiting).running = reads.running ∧ (reads.drain waiting).done = reads.done ∧
      (reads.drain waiting).remaining = reads.remaining := by
  induction waiting generalizing reads with
  | nil => exact ⟨rfl, rfl, rfl⟩
  | cons partId rest ih =>
      rw [PartReads.drain]
      cases reads.completed.lookup partId with
      | none => exact ⟨rfl, rfl, rfl⟩
      | some result => exact ih

end PartReads

end Ordered

section Machine

variable {storage : SourceStorage Source Key Data} {Ready : Source → Prop} {tableName : String} {batchId : Nat}
  {partIds : List Nat} {whole : DataGeneration.ReadResult Key Data} {part : Nat → DataGeneration.ReadResult Key Data}

/-- What the function returns for a batch with or without parts. -/
def servedResult (partIds : List Nat) (whole : DataGeneration.ReadResult Key Data)
    (part : Nat → DataGeneration.ReadResult Key Data) : DataGeneration.ReadResult Key Data :=
  if partIds = [] then whole else mergedResult part (partIds.insertionSort (· ≤ ·))

/-- The state of a read is sound when its parts are in order, or when it has returned the batch. -/
def LogicalRead.Sound (Ready : Source → Prop) (partIds : List Nat) (whole : DataGeneration.ReadResult Key Data)
    (part : Nat → DataGeneration.ReadResult Key Data) (state : LogicalRead Source Key Data) : Prop :=
  Ready state.source ∧
    match state.progress with
    | .listing => True
    | .whole => partIds = []
    | .parts reads => partIds ≠ [] ∧ reads.Drained ∧ 0 < reads.inFlight ∧
        ∃ merged, reads.Ordered part (partIds.insertionSort (· ≤ ·)) merged
    | .returned outcome => outcome = .ok (some (servedResult partIds whole part))

/-- The steps that are still to come. -/
def LogicalRead.rank (partIds : List Nat) (state : LogicalRead Source Key Data) : Nat :=
  match state.progress with
  | .listing => 3 * partIds.length + 2
  | .whole => 1
  | .parts reads => reads.weight
  | .returned _ => 0

/-- What is settled is sound and no further from the end. -/
theorem settle_sound {reads : PartReads Key Data} {merged : List Nat} {source : Source} (ready : Ready source)
    (split : partIds ≠ []) (ordered : reads.Ordered part (partIds.insertionSort (· ≤ ·)) merged) :
    (LogicalRead.mk source reads.settle).Sound Ready partIds whole part ∧
      (LogicalRead.mk source reads.settle).rank partIds ≤ reads.weight := by
  obtain ⟨longer, drainedOrder, drained⟩ := PartReads.Ordered.drain ordered
  obtain ⟨running, done, remaining⟩ := @PartReads.drain_frame Key Data reads reads.scheduled
  have same : 3 * (reads.drain reads.scheduled).remaining.length + 2 * (reads.drain reads.scheduled).running.length +
      (reads.drain reads.scheduled).done.length = reads.weight := by
    rw [running, done, remaining, PartReads.weight]
  dsimp only [PartReads.settle]
  split_ifs with finished
  · refine ⟨⟨ready, ?_⟩, Nat.zero_le _⟩
    show _ = Except.ok (some (servedResult partIds whole part))
    rw [drainedOrder.toResult drained finished.1 finished.2, servedResult, if_neg split]
  · obtain ⟨filled, still⟩ := PartReads.Ordered.fill drainedOrder drained
    refine ⟨⟨ready, split, still, ?_, longer, filled⟩, (PartReads.weight_fill _).trans same.le⟩
    apply PartReads.inFlight_fill
    by_contra idle
    rw [not_or, not_lt, Nat.le_zero, not_not] at idle
    exact finished idle

theorem joinPart_sound {reads : PartReads Key Data} {partId : Nat} {merged : List Nat} {source : Source}
    {outcome : Except String (DataGeneration.ReadResult Key Data)} (ready : Ready source) (split : partIds ≠ [])
    (distinct : partIds.Nodup) (ordered : reads.Ordered part (partIds.insertionSort (· ≤ ·)) merged)
    (found : reads.done.lookup partId = some outcome) :
    (LogicalRead.mk source (joinPart reads partId outcome)).Sound Ready partIds whole part ∧
      (LogicalRead.mk source (joinPart reads partId outcome)).rank partIds < reads.weight := by
  have sorted : (partIds.insertionSort (· ≤ ·)).Nodup := (List.perm_insertionSort _ _).nodup_iff.mpr distinct
  have shorter := (PartReads.perm_eraseP found).length_eq
  obtain ⟨rfl, joined⟩ := ordered.join sorted found
  have settled : (LogicalRead.mk source (PartReads.settle _)).Sound Ready partIds whole part ∧ _ :=
    settle_sound ready split joined
  obtain ⟨sound, nearer⟩ := settled
  refine ⟨sound, lt_of_le_of_lt nearer ?_⟩
  rw [List.length_map, List.length_cons, List.length_map] at shorter
  simp only [PartReads.weight]
  omega

/-- Every step keeps the soundness of a read and brings it closer to its end. -/
theorem logicalStep_sound (serves : storage.Serves Ready tableName batchId partIds whole part)
    (distinct : partIds.Nodup) {state next : LogicalRead Source Key Data} {action : LogicalAction}
    (sound : state.Sound Ready partIds whole part)
    (stepped : logicalStep storage tableName batchId state action = some next) :
    next.Sound Ready partIds whole part ∧ next.rank partIds < state.rank partIds := by
  obtain ⟨source, progress⟩ := state
  obtain ⟨ready, holds⟩ := sound
  unfold logicalStep at stepped
  split at stepped
  · next listing =>
      obtain rfl : progress = .listing := listing
      obtain ⟨after, listed, still⟩ := serves.listed ready
      simp only [listed] at stepped
      cases partIds with
      | nil =>
          obtain rfl := Option.some.inj stepped
          exact ⟨⟨still, rfl⟩, by simp [LogicalRead.rank]⟩
      | cons first rest =>
          obtain rfl := Option.some.inj stepped
          obtain ⟨ordered, drained⟩ := PartReads.Ordered.fill_start ((first :: rest).insertionSort (· ≤ ·))
          refine ⟨⟨still, List.cons_ne_nil _ _, drained, ?_, [], ordered⟩, ?_⟩
          · apply PartReads.inFlight_fill
            right
            intro empty
            exact absurd ((List.perm_insertionSort _ _).symm.trans (.of_eq empty)).eq_nil (List.cons_ne_nil first rest)
          · refine lt_of_le_of_lt (PartReads.weight_fill _) ?_
            simp only [PartReads.start, LogicalRead.rank, List.length_insertionSort, List.length_nil]
            omega
  · next progressed =>
      obtain rfl : progress = .whole := progressed
      obtain ⟨after, read, still⟩ := serves.whole holds ready
      simp only [read] at stepped
      obtain rfl := Option.some.inj stepped
      refine ⟨⟨still, ?_⟩, by simp [LogicalRead.rank]⟩
      show _ = Except.ok (some (servedResult partIds whole part))
      rw [servedResult, if_pos holds]
  · next partId reads progressed =>
      obtain rfl : progress = .parts reads := progressed
      obtain ⟨split, drained, busy, merged, ordered⟩ := holds
      rw [Option.ite_none_right_eq_some] at stepped
      obtain ⟨running, stepped⟩ := stepped
      have listed : partId ∈ partIds := by
        have scheduled : partId ∈ reads.scheduled :=
          ordered.placed.mem_iff.mpr (List.mem_append_left _ (List.mem_append_left _ running))
        have member : partId ∈ partIds.insertionSort (· ≤ ·) := by
          rw [ordered.split]
          exact List.mem_append_left _ (List.mem_append_right _ scheduled)
        exact (List.perm_insertionSort _ _).mem_iff.mp member
      obtain ⟨after, read, still⟩ := serves.part partId listed ready
      simp only [read, partOutcome] at stepped
      obtain rfl := Option.some.inj stepped
      have shorter := List.length_erase_of_mem running
      have positive := List.length_pos_of_mem running
      refine ⟨⟨still, split, drained, ?_, merged, ordered.read running⟩, ?_⟩
      · simp [PartReads.inFlight]
      · simp only [LogicalRead.rank, PartReads.weight, List.length_append, List.length_cons, List.length_nil]
        omega
  · next partId reads progressed =>
      obtain rfl : progress = .parts reads := progressed
      obtain ⟨split, -, -, merged, ordered⟩ := holds
      split at stepped
      · next outcome found =>
          obtain rfl := Option.some.inj stepped
          exact joinPart_sound ready split distinct ordered found
      · cases stepped
  · cases stepped

/-- A sound read that has not returned can go on. -/
theorem returned_of_stuck (serves : storage.Serves Ready tableName batchId partIds whole part)
    {state : LogicalRead Source Key Data} (sound : state.Sound Ready partIds whole part)
    (stuck : (readLogicalBatch storage tableName batchId).Stuck state) :
    state.progress = .returned (.ok (some (servedResult partIds whole part))) := by
  have blocked : ∀ action, logicalStep storage tableName batchId state action = none := by
    intro action
    rw [Option.eq_none_iff_forall_ne_some]
    intro next stepped
    exact stuck next ⟨action, trivial, stepped⟩
  obtain ⟨source, progress⟩ := state
  obtain ⟨ready, holds⟩ := sound
  cases progress with
  | listing =>
      obtain ⟨after, listed, -⟩ := serves.listed ready
      have free := blocked .list
      simp only [logicalStep, listed] at free
      cases partIds <;> cases free
  | whole =>
      obtain ⟨after, read, -⟩ := serves.whole holds ready
      have free := blocked .readWhole
      simp only [logicalStep, read] at free
      cases free
  | parts reads =>
      obtain ⟨-, -, busy, -⟩ := holds
      cases running : reads.running with
      | cons partId rest =>
          have free := blocked (.read partId)
          simp [logicalStep, running] at free
      | nil =>
          cases done : reads.done with
          | nil => simp [PartReads.inFlight, running, done] at busy
          | cons entry rest =>
              obtain ⟨partId, outcome⟩ := entry
              have free := blocked (.join partId)
              simp only [logicalStep, done, List.lookup_cons_self] at free
              cases free
  | returned outcome => rw [show outcome = _ from holds]

/-- Under every order of reads and joins, the function ends and returns the parts in order. -/
theorem readLogicalBatch_serves (serves : storage.Serves Ready tableName batchId partIds whole part)
    (distinct : partIds.Nodup) {source : Source} (ready : Ready source) :
    (readLogicalBatch storage tableName batchId).Terminates ⟨source, .listing⟩ ∧
      ∀ final, (readLogicalBatch storage tableName batchId).Reaches ⟨source, .listing⟩ final →
        (readLogicalBatch storage tableName batchId).Stuck final →
        final.progress = .returned (.ok (some (servedResult partIds whole part))) := by
  have initial : LogicalRead.Sound Ready partIds whole part ⟨source, .listing⟩ := ⟨ready, trivial⟩
  refine ⟨?_, ?_⟩
  · apply Machine.terminates_of_rank Nat.lt_wfRel.wf (LogicalRead.rank partIds)
      (LogicalRead.Sound Ready partIds whole part)
    · rintro state next sound ⟨action, -, stepped⟩
      exact (logicalStep_sound serves distinct sound stepped).1
    · rintro state next sound ⟨action, -, stepped⟩
      exact (logicalStep_sound serves distinct sound stepped).2
    · exact initial
  · intro final reached stuck
    apply returned_of_stuck serves _ stuck
    refine reached.invariant _ ?_ initial
    rintro state next sound ⟨action, -, stepped⟩
    exact (logicalStep_sound serves distinct sound stepped).1

end Machine

section RoundTrip

open Checkpointer (ObjectPath ObjectStore)

variable {Bytes : Type} {parquet : Parquet Key Data Bytes} {json : MetadataJson Bytes} {root : List String}

/-- What a read of the object of a chunk returns. -/
def chunkResult (parquet : Parquet Key Data Bytes) (keyColumns : List String) (chunk : RecordBatch Key Data) :
    DataGeneration.ReadResult Key Data :=
  let batches := match parquet.decode (parquet.encode chunk) with
    | .ok file => file.batches
    | .error _ => []
  ⟨batches, (batches.map RecordBatch.numRows).sum, parquet.size (parquet.encode chunk), keyColumns⟩

theorem chunkResult_eq {chunk : RecordBatch Key Data} {file : ParquetFile Key Data}
    (decoded : parquet.decode (parquet.encode chunk) = .ok file) (keyColumns : List String) :
    chunkResult parquet keyColumns chunk =
      ⟨file.batches, (file.batches.map RecordBatch.numRows).sum, parquet.size (parquet.encode chunk), keyColumns⟩ := by
  rw [chunkResult, decoded]

theorem chunkResult_rows (faithful : parquet.Faithful) (keyColumns : List String) (chunk : RecordBatch Key Data) :
    (chunkResult parquet keyColumns chunk).rows = chunk.rows := by
  obtain ⟨file, decoded, whole⟩ := faithful chunk
  rw [chunkResult_eq decoded]
  exact congrArg RecordBatch.rows whole

theorem chunkResult_rowsRead (faithful : parquet.Faithful) (keyColumns : List String) (chunk : RecordBatch Key Data) :
    (chunkResult parquet keyColumns chunk).rowsRead = chunk.numRows := by
  obtain ⟨file, decoded, whole⟩ := faithful chunk
  rw [chunkResult_eq decoded, RecordBatch.numRows, ← whole]
  show _ = file.rows.length
  rw [ParquetFile.rows, List.length_flatMap]
  rfl

/-- The result of the part with a number. -/
def partResult (parquet : Parquet Key Data Bytes) (keyColumns : List String) (call : S3Write Key Data) (partId : Nat) :
    DataGeneration.ReadResult Key Data :=
  chunkResult parquet keyColumns (call.chunks.getD partId call.batch)

/-- The storage serves a batch that is recorded. -/
theorem serves_s3 (faithful : parquet.Faithful) {call : S3Write Key Data}
    {state : ObjectStore Bytes × WrittenBatches} (placed : call.Recorded parquet root state) {store : ObjectStore Bytes}
    (kept : ∀ path, path ≠ S3Storage.versionMetadataObjectPath root → store.objects path = state.1.objects path)
    (reading : ∀ path, store.failing path = none) {recorded : TableMetadata}
    (noted : (recorded.batchParts.lookup call.batchId).getD [] =
      (S3Storage.partIds call.chunks).insertionSort (· ≤ ·)) :
    (s3Source parquet json store).Serves (S3Storage.Ready json store root call.tableName recorded) call.tableName
      call.batchId (S3Storage.partIds call.chunks) (partResult parquet recorded.keyColumns call 0)
      (partResult parquet recorded.keyColumns call) := by
  have sorted : (S3Storage.partIds call.chunks).Pairwise (· ≤ ·) := by
    unfold S3Storage.partIds
    split_ifs
    · exact List.pairwise_le_range
    · exact .nil
  have read : ∀ partId < call.chunks.length, ∀ chosen path,
      call.path root partId = path →
      chosen.elim (S3Storage.batchObjectPath root call.tableName call.batchId)
        (S3Storage.batchPartObjectPath root call.tableName call.batchId) = path →
      ∀ {storage : S3Storage}, storage.Ready json store root call.tableName recorded →
        ∃ next, S3Storage.readBatch parquet json store call.tableName call.batchId chosen storage =
            (.ok (some (partResult parquet recorded.keyColumns call partId)), next) ∧
          next.Ready json store root call.tableName recorded := by
    intro partId inside chosen path stored located storage ready
    have member : (call.chunks[partId], partId) ∈ call.chunks.zipIdx := by
      rw [List.mem_zipIdx_iff_getElem?]
      exact List.getElem?_eq_getElem inside
    have found := placed.stored _ member
    have owned : ObjectOf root call.tableName call.batchId (call.path root partId) :=
      objectOf_chunkPath root call.tableName call.batchId call.chunks partId
    have got : store.get path = .ok (parquet.encode call.chunks[partId]) := by
      rw [← stored, ObjectStore.get, reading, kept _ owned.ne_version, found]
    obtain ⟨file, decoded, -⟩ := faithful call.chunks[partId]
    rw [partResult, List.getD_eq_getElem?_getD, List.getElem?_eq_getElem inside, Option.getD_some,
      chunkResult_eq decoded]
    cases chosen with
    | none => exact readBatch_ready ready (by rw [← got, ← located]; rfl) decoded
    | some chosenId => exact readBatch_ready ready (by rw [← got, ← located]; rfl) decoded
  constructor
  · intro storage ready
    obtain ⟨next, listed, still⟩ := readBatchParts_ready ready call.batchId
    refine ⟨next, ?_, still⟩
    rw [noted, sorted.insertionSort_eq, sorted.insertionSort_eq] at listed
    exact listed
  · intro unsplit storage ready
    have single : call.chunks.length = 1 := by
      have nonempty := List.length_pos_iff.mpr (splitRecordBatch_ne_nil call.batch (maxRowsPerFile call.setting))
      have few : ¬ 1 < call.chunks.length := by
        intro many
        rw [S3Storage.partIds, if_pos many, List.range_eq_nil] at unsplit
        omega
      exact le_antisymm (not_lt.mp few) nonempty
    refine read 0 (by omega) none _ ?_ rfl ready
    rw [S3Write.path, S3Storage.chunkPath, if_pos single]
    rfl
  · intro partId listed storage ready
    unfold S3Storage.partIds at listed
    split_ifs at listed with many
    · refine read partId (List.mem_range.mp listed) (some partId) _ ?_ rfl ready
      rw [S3Write.path, S3Storage.chunkPath, if_neg (by omega)]
      rfl
    · cases listed

theorem map_getD_range {Item : Type} (items : List Item) (default : Item) :
    (List.range items.length).map (items.getD · default) = items := by
  apply List.ext_getElem
  · simp
  · intro index _ inside
    simp [inside]

/-- The parts of a batch hold its rows in order. -/
theorem servedResult_rows (faithful : parquet.Faithful) (keyColumns : List String) (call : S3Write Key Data) :
    (servedResult (S3Storage.partIds call.chunks) (partResult parquet keyColumns call 0)
      (partResult parquet keyColumns call)).rows = call.batch.rows := by
  have nonempty : call.chunks ≠ [] := splitRecordBatch_ne_nil call.batch (maxRowsPerFile call.setting)
  have rows : call.chunks.flatMap RecordBatch.rows = call.batch.rows :=
    splitRecordBatch_rows call.batch (maxRowsPerFile call.setting)
  unfold S3Storage.partIds servedResult
  by_cases many : 1 < call.chunks.length
  · have listed : List.range call.chunks.length ≠ [] := by
      rw [ne_eq, List.range_eq_nil]
      omega
    rw [if_pos many, if_neg listed, List.pairwise_le_range.insertionSort_eq, ← rows]
    show List.flatMap RecordBatch.rows (List.flatMap _ _) = _
    rw [List.flatMap_assoc]
    have each : ∀ partId, (partResult parquet keyColumns call partId).batches.flatMap RecordBatch.rows =
        (call.chunks.getD partId call.batch).rows := fun partId => chunkResult_rows faithful keyColumns _
    simp only [each]
    conv_rhs => rw [← map_getD_range call.chunks call.batch]
    rw [List.flatMap_map]
  · obtain ⟨chunk, single⟩ := List.length_eq_one_iff.mp
      (le_antisymm (not_lt.mp many) (List.length_pos_iff.mpr nonempty))
    rw [if_neg many, if_pos rfl, ← rows, single, partResult, single]
    simpa using chunkResult_rows faithful keyColumns chunk

theorem servedResult_rowsRead (faithful : parquet.Faithful) (keyColumns : List String) (call : S3Write Key Data)
    (result : DataGeneration.ReadResult Key Data)
    (served : result = servedResult (S3Storage.partIds call.chunks) (partResult parquet keyColumns call 0)
      (partResult parquet keyColumns call)) : result.rowsRead = result.rows.length := by
  have each : ∀ partId, (partResult parquet keyColumns call partId).rowsRead =
      (partResult parquet keyColumns call partId).rows.length := by
    intro partId
    rw [partResult, chunkResult_rowsRead faithful, chunkResult_rows faithful]
    rfl
  subst served
  unfold servedResult
  split_ifs
  · exact each 0
  · simp only [mergedResult, DataGeneration.ReadResult.rows, List.flatMap_assoc, List.length_flatMap, each]

theorem servedResult_keyColumns (keyColumns : List String) (call : S3Write Key Data) :
    (servedResult (S3Storage.partIds call.chunks) (partResult parquet keyColumns call 0)
      (partResult parquet keyColumns call)).keyColumns = keyColumns := by
  unfold servedResult
  split_ifs with unsplit
  · rfl
  · have sorted : (S3Storage.partIds call.chunks).insertionSort (· ≤ ·) ≠ [] := by
      intro empty
      exact unsplit ((List.perm_insertionSort _ _).symm.trans (.of_eq empty)).eq_nil
    obtain ⟨partId, rest, listed⟩ := List.exists_cons_of_ne_nil sorted
    rw [listed]
    rfl

/-- What is recorded of a batch can be read by the storage that wrote it, and by a new one. -/
theorem ready_of_saved (readable : json.Faithful) {faults : ObjectPath → Option String}
    (accepting : ∀ path, faults path = none) {metadata : VersionMetadata} {store saved : ObjectStore Bytes}
    {writer reader : S3Storage} (reading : ∀ path, saved.failing path = none)
    (wrote : S3Storage.writeVersionMetadata json faults metadata (.new root, store) = (.ok (), writer, saved))
    (reader_eq : reader = writer ∨ metadata.Finite ∧ reader = .new root) {tableName : String}
    {recorded : TableMetadata} (found : metadata.tables.lookup tableName = some recorded) :
    reader.Ready json saved root tableName recorded := by
  simp only [S3Storage.writeVersionMetadata, S3Storage.new, accepting, Option.none_or, Prod.mk.injEq, true_and] at wrote
  obtain ⟨rfl, rfl⟩ := wrote
  rcases reader_eq with rfl | ⟨finite, rfl⟩
  · refine ⟨rfl, fun cached => ?_, metadata, ⟨recorded, found, rfl, rfl, rfl, rfl, rfl, fun _ => rfl⟩, .inl rfl⟩
    rw [AList.lookup_empty] at cached
    cases cached
  · obtain ⟨read, decoded, describes⟩ := readable metadata finite
    refine ⟨rfl, fun cached => ?_, read, describes tableName recorded found, .inr ⟨rfl, _, ?_, decoded⟩⟩
    · rw [S3Storage.new, AList.lookup_empty] at cached
      cases cached
    · rw [ObjectStore.get, reading]
      simp [ObjectStore.put]

/-- A batch that is written, with whatever row limit, and recorded in the metadata is read back with the same rows in
order and the recorded key columns, in whatever order the reads of its parts are done and joined. -/
theorem split_parts_round_trip (faithful : parquet.Faithful) (readable : json.Faithful)
    {faults : ObjectPath → Option String} (accepting : ∀ path, faults path = none)
    {start written : ObjectStore Bytes × WrittenBatches} (reading : ∀ path, start.1.failing path = none)
    {first later : List (S3Write Key Data)} {call : S3Write Key Data}
    (others : ∀ other ∈ later, other.tableName ≠ call.tableName ∨ other.batchId ≠ call.batchId)
    (ran : (first ++ call :: later).foldl (fun state call => S3Write.record parquet faults root state call) start =
      written)
    {config : VersionConfig} {dataset : DatasetTables} {writer reader : S3Storage} {saved : ObjectStore Bytes}
    (wrote : S3Storage.writeVersionMetadata json faults (versionMetadata config dataset written.2)
      (.new root, written.1) = (.ok (), writer, saved))
    (reader_eq : reader = writer ∨ (versionMetadata config dataset written.2).Finite ∧ reader = .new root) :
    (readLogicalBatch (s3Source parquet json saved) call.tableName call.batchId).Terminates ⟨reader, .listing⟩ ∧
      ∀ final, (readLogicalBatch (s3Source parquet json saved) call.tableName call.batchId).Reaches
          ⟨reader, .listing⟩ final →
        (readLogicalBatch (s3Source parquet json saved) call.tableName call.batchId).Stuck final →
        ∃ result, final.progress = .returned (.ok (some result)) ∧ result.rows = call.batch.rows ∧
          result.rowsRead = call.batch.numRows ∧ result.keyColumns = dataset.primaryKey call.tableName := by
  have placed : call.Recorded parquet root written := ran ▸ recorded_run accepting others reading
  obtain ⟨batchParts, entry, parts⟩ := Option.bind_eq_some_iff.mp placed.noted
  have found : (versionMetadata config dataset written.2).tables.lookup call.tableName =
      some (tableMetadata dataset call.tableName batchParts) := by
    rw [versionMetadata, KeyedMap.lookup_rebuild, entry, Option.bind_some]
  have stored := wrote
  simp only [S3Storage.writeVersionMetadata, S3Storage.new, accepting, Prod.mk.injEq, true_and] at stored
  have kept : ∀ path, path ≠ S3Storage.versionMetadataObjectPath root →
      saved.objects path = written.1.objects path := by
    intro path differ
    rw [← stored.2]
    exact if_neg differ
  have silent : ∀ path, saved.failing path = none := by
    intro path
    rw [← stored.2]
    exact placed.reading path
  have serves := @serves_s3 _ _ _ _ json _ faithful _ _ placed _ kept silent _
    (lookup_batchParts dataset call.tableName parts)
  have distinct : (S3Storage.partIds call.chunks).Nodup := by
    unfold S3Storage.partIds
    split_ifs
    · exact List.nodup_range
    · exact .nil
  obtain ⟨ends, returns⟩ := readLogicalBatch_serves serves distinct
    (ready_of_saved readable accepting silent wrote reader_eq found)
  refine ⟨ends, fun final reached stuck => ⟨_, returns final reached stuck, ?_, ?_, ?_⟩⟩
  · exact servedResult_rows faithful _ call
  · rw [servedResult_rowsRead faithful _ call _ rfl, servedResult_rows faithful]
    rfl
  · exact servedResult_keyColumns _ call

def sampleJson : MetadataJson SampleFile where
  encode := .inr
  decode
    | .inl _ => .error "not a text"
    | .inr metadata => .ok metadata

theorem sampleJson_faithful : sampleJson.Faithful := by
  intro metadata _
  refine ⟨metadata, rfl, fun tableName recorded found => ⟨recorded, found, ?_⟩⟩
  exact ⟨rfl, rfl, rfl, rfl, rfl, fun _ => rfl⟩

/-- A batch of more rows than ten files hold. -/
def sampleCall : S3Write Nat Nat where
  setting := some "32000"
  tableName := "a"
  batchId := 7
  batch := ⟨changeSchema, (List.range 350000).map fun key => ⟨key, 0, some .create, key⟩⟩

theorem split_parts_round_trip_sample :
    ∃ saved final result,
      (readLogicalBatch (s3Source sampleParquet sampleJson saved) "a" 7).Reaches ⟨S3Storage.new ["v"], .listing⟩ final ∧
      final.progress = .returned (.ok (some result)) ∧ result.rows = sampleCall.batch.rows ∧
      result.keyColumns = ["key"] := by
  have readable : (versionMetadata sampleConfig ⟨∅, fun _ => ["key"]⟩
      (([] ++ [sampleCall]).foldl (fun state call => S3Write.record sampleParquet (fun _ => none) ["v"] state call)
        (⟨fun _ => none, fun _ => none⟩, ∅)).2).Finite :=
    ⟨by decide +kernel, ⟨0, rfl⟩, ⟨0, rfl⟩, ⟨0, rfl⟩⟩
  have alone : ∀ other ∈ ([] : List (S3Write Nat Nat)),
      other.tableName ≠ sampleCall.tableName ∨ other.batchId ≠ sampleCall.batchId := by simp
  have trip := split_parts_round_trip sampleParquet_faithful sampleJson_faithful (fun _ => rfl) (fun _ => rfl) alone rfl
    rfl (.inr ⟨readable, rfl⟩)
  obtain ⟨ends, returns⟩ := trip
  obtain ⟨final, reached, stuck⟩ := ends.exists_stuck
  obtain ⟨result, returned, rows, -, keys⟩ := returns final reached stuck
  exact ⟨_, final, result, reached, returned, rows, keys⟩

end RoundTrip

end Spicebench.Etl
