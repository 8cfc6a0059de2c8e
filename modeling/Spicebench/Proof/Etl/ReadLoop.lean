import Spicebench.Proof.Etl.HealthyTask

namespace Spicebench.Etl
open Library DataGeneration

variable {Key Data : Type}

/-- The reads in flight and the completed reads are together the scheduled ones, and every completed read has
returned an accepted result. -/
structure ReadLoop.Accounted (accepts : Nat → ReadResult Key Data → Prop) (scheduled : List Nat)
    (reads : ReadLoop Key Data) : Prop where
  scheduled : (reads.inFlight ++ reads.completed.map Prod.fst).Perm scheduled
  accepted : ∀ entry ∈ reads.completed, ∃ result, entry.2 = some result ∧ accepts entry.1 result

/-- Several read results join the accumulated batches one after the other. -/
def ReadLoop.mergeAll (reads : ReadLoop Key Data) (merged : List (Nat × ReadResult Key Data)) : ReadLoop Key Data :=
  merged.foldl (fun reads entry => reads.merge entry.1 entry.2) reads

/-- These are the rows of several read results. -/
def mergedRows (merged : List (Nat × ReadResult Key Data)) : Nat := (merged.map fun entry => entry.2.numRows).sum

section MergeAll

variable (reads : ReadLoop Key Data) (merged : List (Nat × ReadResult Key Data))

@[simp] theorem mergeAll_nil : reads.mergeAll [] = reads := rfl

@[simp] theorem mergeAll_cons (entry : Nat × ReadResult Key Data) :
    reads.mergeAll (entry :: merged) = (reads.merge entry.1 entry.2).mergeAll merged := rfl

@[simp] theorem mergeAll_inFlight : (reads.mergeAll merged).inFlight = reads.inFlight := by
  induction merged generalizing reads with
  | nil => rfl
  | cons entry rest ih => exact ih _

@[simp] theorem mergeAll_startBatchId : (reads.mergeAll merged).startBatchId = reads.startBatchId := by
  induction merged generalizing reads with
  | nil => rfl
  | cons entry rest ih => exact ih _

@[simp] theorem mergeAll_canReserveMore : (reads.mergeAll merged).canReserveMore = reads.canReserveMore := by
  induction merged generalizing reads with
  | nil => rfl
  | cons entry rest ih => exact ih _

@[simp] theorem mergeAll_reserveCursor : (reads.mergeAll merged).reserveCursor = reads.reserveCursor := by
  induction merged generalizing reads with
  | nil => rfl
  | cons entry rest ih => exact ih _

@[simp] theorem mergeAll_consumedWorkUnits :
    (reads.mergeAll merged).consumedWorkUnits = reads.consumedWorkUnits := by
  induction merged generalizing reads with
  | nil => rfl
  | cons entry rest ih => exact ih _

@[simp] theorem mergeAll_consumed : (reads.mergeAll merged).consumed = reads.consumed ++ merged.map Prod.fst := by
  induction merged generalizing reads with
  | nil => simp
  | cons entry rest ih => simp [ih, ReadLoop.merge]

@[simp] theorem mergeAll_allBatches :
    (reads.mergeAll merged).allBatches = reads.allBatches ++ merged.flatMap fun entry => entry.2.batches := by
  induction merged generalizing reads with
  | nil => simp
  | cons entry rest ih => simp [ih, ReadLoop.merge]

@[simp] theorem mergeAll_totalRows : (reads.mergeAll merged).totalRows = reads.totalRows + mergedRows merged := by
  induction merged generalizing reads with
  | nil => simp [mergedRows]
  | cons entry rest ih =>
      rw [mergeAll_cons, ih]
      simp [mergedRows, ReadLoop.merge, Nat.add_assoc]

@[simp] theorem mergeAll_rowsRead : (reads.mergeAll merged).rowsRead = reads.rowsRead + mergedRows merged := by
  induction merged generalizing reads with
  | nil => simp [mergedRows]
  | cons entry rest ih =>
      rw [mergeAll_cons, ih]
      simp [mergedRows, ReadLoop.merge, Nat.add_assoc]

@[simp] theorem mergeAll_keyColumns : (reads.mergeAll merged).keyColumns =
    reads.keyColumns.or (merged.head?.map fun entry => entry.2.keyColumns) := by
  induction merged generalizing reads with
  | nil => simp
  | cons entry rest ih =>
      rw [mergeAll_cons, ih]
      cases columns : reads.keyColumns with
      | none => simp [ReadLoop.merge, columns]
      | some first => simp [ReadLoop.merge, columns]

end MergeAll

section Accounts

variable {accepts : Nat → ReadResult Key Data → Prop} {scheduled : List Nat} {reads : ReadLoop Key Data}

/-- Merging a completed read takes its id from the scheduled ones. -/
theorem ReadLoop.Accounted.merge {batchId : Nat} {rest : List Nat}
    (accounted : reads.Accounted accepts (batchId :: rest)) (nodup : (batchId :: rest).Nodup)
    {result : ReadResult Key Data} (found : (batchId, some result) ∈ reads.completed) :
    (reads.merge batchId result).Accounted accepts rest := by
  have distinct := accounted.scheduled.nodup_iff.mpr nodup
  have member : batchId ∈ reads.completed.map Prod.fst := List.mem_map.mpr ⟨_, found, rfl⟩
  have grounded : batchId ∉ reads.inFlight := by
    intro flying
    exact (List.nodup_append.mp distinct).2.2 _ flying _ member rfl
  have erased : (reads.completed.filter (·.1 ≠ batchId)).map Prod.fst =
      (reads.completed.map Prod.fst).erase batchId := by
    rw [(List.nodup_append.mp distinct).2.1.erase_eq_filter, List.filter_map]
    congr 1
    apply List.filter_congr
    intro entry _
    simp [bne, beq_eq_decide]
  constructor
  · have removed := accounted.scheduled.erase batchId
    rw [List.erase_append_right _ grounded, List.erase_cons_head, ← erased] at removed
    exact removed
  · intro entry kept
    exact accounted.accepted entry (List.mem_of_mem_filter kept)

/-- A joined read moves from the reads in flight to the completed ones. -/
theorem ReadLoop.Accounted.join (accounted : reads.Accounted accepts scheduled) {batchId : Nat}
    (member : batchId ∈ reads.inFlight) {result : ReadResult Key Data} (fine : accepts batchId result) :
    ReadLoop.Accounted accepts scheduled { reads with
      inFlight := reads.inFlight.erase batchId
      completed := (batchId, some result) :: reads.completed } := by
  constructor
  · have moved : (reads.inFlight.erase batchId ++ batchId :: reads.completed.map Prod.fst).Perm
        (batchId :: reads.inFlight.erase batchId ++ reads.completed.map Prod.fst) := List.perm_middle
    exact (moved.trans ((List.perm_cons_erase member).symm.append_right _)).trans accounted.scheduled
  · intro entry inside
    rcases List.mem_cons.mp inside with rfl | inside
    · exact ⟨result, rfl, fine⟩
    · exact accounted.accepted entry inside

/-- A reservation is scheduled and put in flight. -/
theorem ReadLoop.Accounted.reserve (accounted : reads.Accounted accepts reads.scheduled) (batchId cursor units : Nat) :
    ReadLoop.Accounted accepts (reads.scheduled ++ [batchId]) { reads with
      reserveCursor := cursor
      consumedWorkUnits := units
      scheduled := reads.scheduled ++ [batchId]
      inFlight := reads.inFlight ++ [batchId] } := by
  refine ⟨?_, accounted.accepted⟩
  have moved : (reads.inFlight ++ [batchId] ++ reads.completed.map Prod.fst).Perm
      (reads.inFlight ++ reads.completed.map Prod.fst ++ [batchId]) := by
    rw [List.append_assoc, List.append_assoc]
    exact List.perm_append_comm.append_left reads.inFlight
  exact moved.trans (accounted.scheduled.append_right _)

/-- The loop merges a prefix of the scheduled reads, and leaves when this prefix is the first one that reaches the
target. -/
inductive DrainsTo (accepts : Nat → ReadResult Key Data → Prop) (target : Nat) (scheduled : List Nat)
    (reads : ReadLoop Key Data) : Drained Key Data → Prop where
  | again (merged : List (Nat × ReadResult Key Data)) (rest : List Nat)
      (line : scheduled = merged.map Prod.fst ++ rest) (fine : ∀ entry ∈ merged, accepts entry.1 entry.2)
      (taken : ∀ entry ∈ reads.completed, entry ∈ (reads.mergeAll merged).completed ∨
        ∃ result, (entry.1, result) ∈ merged ∧ entry.2 = some result)
      (accounted : (reads.mergeAll merged).Accounted accepts rest)
      (waits : ∀ batchId ∈ rest.head?, batchId ∉ (reads.mergeAll merged).completed.map Prod.fst)
      (short : reads.totalRows + mergedRows merged < target) :
      DrainsTo accepts target scheduled reads (.again { reads.mergeAll merged with scheduled := rest })
  | leave (merged : List (Nat × ReadResult Key Data)) (last : Nat × ReadResult Key Data) (rest : List Nat)
      (line : scheduled = (merged ++ [last]).map Prod.fst ++ rest)
      (fine : ∀ entry ∈ merged ++ [last], accepts entry.1 entry.2)
      (short : reads.totalRows + mergedRows merged < target)
      (enough : target ≤ reads.totalRows + mergedRows (merged ++ [last])) :
      DrainsTo accepts target scheduled reads (.leave ((reads.mergeAll (merged ++ [last])).toReturn false rest))

/-- The first completed read goes before those that are drained after it. -/
theorem DrainsTo.merge {target batchId : Nat} {rest : List Nat} {result : ReadResult Key Data}
    {outcome : Drained Key Data} (drains : DrainsTo accepts target rest (reads.merge batchId result) outcome)
    (accounted : reads.Accounted accepts (batchId :: rest)) (nodup : (batchId :: rest).Nodup)
    (found : (batchId, some result) ∈ reads.completed) (fine : accepts batchId result) :
    DrainsTo accepts target (batchId :: rest) reads outcome := by
  have rows : ∀ merged, (reads.merge batchId result).totalRows + mergedRows merged =
      reads.totalRows + mergedRows ((batchId, result) :: merged) := by
    intro merged
    simp [mergedRows, ReadLoop.merge, Nat.add_assoc]
  cases drains with
  | again merged later line accepted taken after waits short =>
      refine .again ((batchId, result) :: merged) later ?_ ?_ ?_ after waits ?_
      · rw [line, List.map_cons, List.cons_append]
      · intro entry member
        rcases List.mem_cons.mp member with rfl | member
        · exact fine
        · exact accepted entry member
      · intro entry member
        by_cases same : entry.1 = batchId
        · have distinct := (accounted.scheduled.nodup_iff.mpr nodup).of_append_right
          obtain rfl := List.inj_on_of_nodup_map distinct member found same
          exact .inr ⟨result, by simp, rfl⟩
        · have kept : entry ∈ (reads.merge batchId result).completed :=
            List.mem_filter.mpr ⟨member, by simpa using same⟩
          rcases taken entry kept with still | ⟨other, inside, value⟩
          · exact .inl still
          · exact .inr ⟨other, List.mem_cons_of_mem _ inside, value⟩
      · rw [← rows]
        exact short
  | leave merged last later line accepted short enough =>
      refine .leave ((batchId, result) :: merged) last later ?_ ?_ ?_ ?_
      · rw [line, List.cons_append, List.map_cons, List.cons_append]
      · intro entry member
        rcases List.mem_cons.mp member with rfl | member
        · exact fine
        · exact accepted entry member
      · rw [← rows]
        exact short
      · rw [List.cons_append, ← rows]
        exact enough

/-- A loop whose completed reads were all accepted drains as far as it can. -/
theorem drain_drainsTo {target : Nat} (accounted : reads.Accounted accepts scheduled) (nodup : scheduled.Nodup)
    (short : reads.totalRows < target) :
    DrainsTo accepts target scheduled reads (reads.drain target scheduled) := by
  induction scheduled generalizing reads with
  | nil =>
      exact .again [] [] rfl (by simp) (fun entry member => .inl member) accounted (by simp) (by simpa [mergedRows])
  | cons batchId rest ih =>
      cases found : reads.completed.lookup batchId with
      | none =>
          have waits : ∀ first ∈ (batchId :: rest).head?, first ∉ reads.completed.map Prod.fst := by
            intro first same inside
            obtain rfl : batchId = first := by simpa using same
            obtain ⟨entry, member, rfl⟩ := List.mem_map.mp inside
            simpa using List.lookup_eq_none_iff.mp found entry member
          have stops : DrainsTo accepts target (batchId :: rest) reads
              (.again { reads with scheduled := batchId :: rest }) :=
            .again [] (batchId :: rest) rfl (by simp) (fun entry member => .inl member) accounted waits
              (by simpa [mergedRows])
          simpa [ReadLoop.drain, found] using stops
      | some answer =>
          have member := mem_completed_of_lookup found
          obtain ⟨result, same, fine⟩ := accounted.accepted _ member
          dsimp only at same fine
          subst same
          by_cases enough : target ≤ (reads.merge batchId result).totalRows
          · have stops : DrainsTo accepts target (batchId :: rest) reads
                (.leave ((reads.merge batchId result).toReturn false rest)) :=
              .leave [] (batchId, result) rest rfl (by simpa using fine) (by simpa [mergedRows])
                (by simpa [mergedRows, ReadLoop.merge] using enough)
            simpa [ReadLoop.drain, found, enough] using stops
          · have further := ih (accounted.merge nodup member) (List.nodup_cons.mp nodup).2 (by omega)
            have drained : reads.drain target (batchId :: rest) =
                (reads.merge batchId result).drain target rest := by
              simp [ReadLoop.drain, found, enough]
            rw [drained]
            exact further.merge accounted nodup member fine

/-- A loop without reads in flight has drained everything when its first scheduled read was not completed. -/
theorem ReadLoop.Accounted.idle (accounted : reads.Accounted accepts scheduled)
    (waits : ∀ batchId ∈ scheduled.head?, batchId ∉ reads.completed.map Prod.fst) (landed : reads.inFlight = []) :
    reads.completed = [] ∧ scheduled = [] := by
  have perm := accounted.scheduled
  rw [landed, List.nil_append] at perm
  cases scheduled with
  | nil => exact ⟨List.map_eq_nil_iff.mp perm.eq_nil, rfl⟩
  | cons first later =>
      have inside : first ∈ reads.completed.map Prod.fst := perm.mem_iff.mpr List.mem_cons_self
      exact absurd inside (waits first rfl)

end Accounts

end Spicebench.Etl
