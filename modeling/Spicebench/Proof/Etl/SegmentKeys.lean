import Spicebench.Proof.Etl.Operations
import Mathlib.Data.List.Infix

namespace Spicebench.Etl

open Library DataGeneration

variable {Key Data : Type}

section Runs

/-- A run is a block of the rows. -/
theorem opRuns_infix {rows : List (Row Key Data)} {run : Op × List (Row Key Data)}
    (member : run ∈ opRuns rows) : ∃ before after, rows = before ++ run.2 ++ after := by
  obtain ⟨earlier, later, split⟩ := List.append_of_mem member
  refine ⟨earlier.flatMap Prod.snd, later.flatMap Prod.snd, ?_⟩
  rw [← opRuns_rows rows, split]
  simp

/-- A row in front leaves every run of the rest within some run. -/
theorem opRuns_cons {rows : List (Row Key Data)} {run : Op × List (Row Key Data)}
    (member : run ∈ opRuns rows) (first : Row Key Data) :
    ∃ wider ∈ opRuns (first :: rows), run.2.Sublist wider.2 := by
  rw [opRuns]
  split
  · rename_i none
    simp [none] at member
  · rename_i op block others found
    rw [found] at member
    split_ifs
    · rcases List.mem_cons.mp member with rfl | later
      · exact ⟨_, List.mem_cons_self, List.sublist_cons_self _ _⟩
      · exact ⟨run, List.mem_cons_of_mem _ later, List.Sublist.refl _⟩
    · exact ⟨run, List.mem_cons_of_mem _ member, List.Sublist.refl _⟩

/-- The rows of one operation at the front share the first run. -/
theorem opRuns_block {block after : List (Row Key Data)} {op : Op} (nonempty : block ≠ [])
    (same : ∀ row ∈ block, opValue row = op) :
    ∃ run others, opRuns (block ++ after) = (op, run) :: others ∧ block.Sublist run := by
  induction block with
  | nil => exact absurd rfl nonempty
  | cons row rest ih =>
      have own : opValue row = op := same row List.mem_cons_self
      rw [List.cons_append, opRuns, own]
      by_cases last : rest = []
      · subst last
        rw [List.nil_append]
        split
        · exact ⟨[row], [], rfl, List.Sublist.refl _⟩
        · rename_i other run others _
          split_ifs with joined
          · exact ⟨row :: run, others, by rw [joined], by simp⟩
          · exact ⟨[row], (other, run) :: others, rfl, List.Sublist.refl _⟩
      · obtain ⟨run, others, found, held⟩ :=
          ih last fun row member => same row (List.mem_cons_of_mem _ member)
        rw [found]
        exact ⟨row :: run, others, if_pos rfl, held.cons_cons row⟩

/-- Consecutive rows of one operation share a run. -/
theorem exists_run_of_block {before block after : List (Row Key Data)} {op : Op}
    (nonempty : block ≠ []) (same : ∀ row ∈ block, opValue row = op) :
    ∃ run ∈ opRuns (before ++ (block ++ after)), block.Sublist run.2 := by
  induction before with
  | nil =>
      obtain ⟨run, others, found, held⟩ := opRuns_block nonempty same
      exact ⟨(op, run), by rw [List.nil_append, found]; exact List.mem_cons_self, held⟩
  | cons row rest ih =>
      obtain ⟨run, member, held⟩ := ih
      obtain ⟨wider, inside, wide⟩ := opRuns_cons member row
      exact ⟨wider, inside, held.trans wide⟩

end Runs

section RankedSort

/-- Rows are ordered by op index, and a rank settles ties. -/
def rankedLe (rank : Row Key Data → Nat) (first second : Row Key Data) : Prop :=
  first.opIndex < second.opIndex ∨ (first.opIndex = second.opIndex ∧ rank first ≤ rank second)

instance (rank : Row Key Data → Nat) : DecidableRel (rankedLe rank) := fun _ _ =>
  inferInstanceAs (Decidable (_ ∨ _))

theorem pairwise_rankedSort (rank : Row Key Data → Nat) (rows : List (Row Key Data)) :
    (rows.insertionSort (rankedLe rank)).Pairwise (rankedLe rank) := by
  have total : Std.Total (rankedLe rank) := ⟨fun first second => by unfold rankedLe; omega⟩
  have trans : IsTrans (Row Key Data) (rankedLe rank) :=
    ⟨fun first second third => by unfold rankedLe; omega⟩
  exact List.pairwise_insertionSort _ rows

/-- The order of equal op indices is open, so every rank gives an admissible sort. -/
def rankedSort (rank : Row Key Data → Nat) : OpIndexSort Key Data where
  sort := List.insertionSort (rankedLe rank)
  perm := List.perm_insertionSort _
  sorted rows := (pairwise_rankedSort rank rows).imp fun le => by
    unfold rankedLe at le
    omega

end RankedSort

/-- Every row creates, updates or deletes, and no key is created twice or deleted twice. -/
structure SoundRows (rows : List (Row Key Data)) : Prop where
  known : ∀ row ∈ rows, row.op = some .create ∨ row.op = some .update ∨ row.op = some .delete
  created : rows.Pairwise fun first second =>
    first.op = some .create → second.op = some .create → first.key ≠ second.key
  deleted : rows.Pairwise fun first second =>
    first.op = some .delete → second.op = some .delete → first.key ≠ second.key

theorem SoundRows.sublist {rows some_rows : List (Row Key Data)} (sound : SoundRows rows)
    (held : some_rows.Sublist rows) : SoundRows some_rows :=
  ⟨fun row member => sound.known row (held.subset member), sound.created.sublist held,
    sound.deleted.sublist held⟩

theorem SoundRows.perm {rows others : List (Row Key Data)} (sound : SoundRows rows)
    (perm : others.Perm rows) : SoundRows others := by
  refine ⟨fun row member => sound.known row (perm.mem_iff.mp member), ?_, ?_⟩
  · exact sound.created.perm perm.symm fun apart first second => (apart second first).symm
  · exact sound.deleted.perm perm.symm fun apart first second => (apart second first).symm

/-- A row that does not update stands strictly between the two op indices. -/
def Separated (rows : List (Row Key Data)) (first second : Row Key Data) : Prop :=
  ∃ row ∈ rows, row.op ≠ some .update ∧
    min first.opIndex second.opIndex < row.opIndex ∧ row.opIndex < max first.opIndex second.opIndex

/-- No mutation repeats a key: with zero ratios none of any other row, and otherwise no update the
key of another update without a create or a delete in between. -/
def KeysApart (config : MutationConfig) (rows : List (Row Key Data)) : Prop :=
  if config.zeroRatios = true then
    rows.Pairwise fun first second =>
      first.op ≠ some .create ∨ second.op ≠ some .create → first.key ≠ second.key
  else
    rows.Pairwise fun first second => first.op = some .update → second.op = some .update →
      first.key = second.key → Separated rows first second

/-- Where equal keys are separated, every run of a sort has distinct keys. -/
theorem nodup_run {rows : List (Row Key Data)} (sound : SoundRows rows)
    (apart : rows.Pairwise fun first second => first.op = some .update → second.op = some .update →
      first.key = second.key → Separated rows first second)
    (sort : OpIndexSort Key Data) {run : Op × List (Row Key Data)}
    (member : run ∈ opRuns (sort.sort rows)) : (run.2.map Row.key).Nodup := by
  have perm := sort.perm rows
  obtain ⟨before, after, split⟩ := opRuns_infix member
  have held : run.2.Sublist (sort.sort rows) := by
    rw [split]
    exact (List.sublist_append_right before run.2).trans (List.sublist_append_left _ after)
  have sorted := sort.sorted rows
  have parts := (sound.perm perm).sublist held
  have updates : run.2.Pairwise fun first second => first.op = some .update →
      second.op = some .update → first.key = second.key → Separated rows first second := by
    have symmetric := apart.perm perm.symm fun apart first second equal => by
      obtain ⟨row, inside, other, between⟩ := apart second first equal.symm
      exact ⟨row, inside, other, by rwa [min_comm, max_comm]⟩
    exact symmetric.sublist held
  rw [List.Nodup, List.pairwise_map]
  have facts := parts.created.and (parts.deleted.and (updates.and (sorted.sublist held)))
  refine facts.imp_of_mem ?_
  rintro first second atFirst atSecond ⟨created, deleted, updated, ordered⟩ equal
  have sameOp : first.op = second.op := by
    have one := opValue_of_mem_opRuns member atFirst
    have two := opValue_of_mem_opRuns member atSecond
    rw [← two] at one
    rcases parts.known first atFirst with op | op | op <;>
      rcases parts.known second atSecond with other | other | other <;>
      simp [opValue, op, other] at one ⊢
  rcases parts.known first atFirst with create | update | delete
  · exact created create (sameOp ▸ create) equal
  · -- a separating row lies inside the run, where every row updates
    obtain ⟨row, inside, other, above, below⟩ := updated update (sameOp ▸ update) equal
    rw [min_eq_left ordered, max_eq_right ordered] at *
    have stands : row ∈ before ++ run.2 ++ after := split ▸ perm.mem_iff.mpr inside
    rw [split, List.pairwise_append, List.pairwise_append] at sorted
    obtain ⟨⟨_, _, early⟩, _, late⟩ := sorted
    rcases List.mem_append.mp stands with left | right
    · rcases List.mem_append.mp left with front | middle
      · have := early row front first atFirst
        omega
      · have one := opValue_of_mem_opRuns member atFirst
        have two := opValue_of_mem_opRuns member middle
        rw [← two] at one
        apply other
        rcases parts.known row middle with op | op | op <;> simp [opValue, update, op] at one ⊢
    · have := late second (List.mem_append_right _ atSecond) row right
      omega
  · exact deleted delete (sameOp ▸ delete) equal

/-- Two updates of one key without a separating row share a run in some admissible sort. -/
theorem exists_clashing_run {rows : List (Row Key Data)} {first second : Row Key Data}
    (held : [first, second].Sublist rows) (firstUpdate : first.op = some .update)
    (secondUpdate : second.op = some .update) (equal : first.key = second.key)
    (joined : ¬ Separated rows first second) :
    ∃ (sort : OpIndexSort Key Data) (run : Op × List (Row Key Data)),
      run ∈ opRuns (sort.sort rows) ∧ ¬ (run.2.map Row.key).Nodup := by
  let low := min first.opIndex second.opIndex
  let high := max first.opIndex second.opIndex
  -- at the lower index the other rows come first, and at the upper index they come last
  let rank : Row Key Data → Nat := fun row =>
    if row.op = some .update then 1 else if row.opIndex = high ∧ low < high then 2 else 0
  refine ⟨rankedSort rank, ?_⟩
  have sorted := pairwise_rankedSort rank rows
  have perm : ((rankedSort rank).sort rows).Perm rows := (rankedSort rank).perm rows
  change ((rankedSort rank).sort rows).Pairwise (rankedLe rank) at sorted
  generalize (rankedSort rank).sort rows = ordered at sorted perm
  obtain ⟨pair, both, inside⟩ := held.subperm.trans perm.symm.subperm
  obtain ⟨left, right, rfl⟩ := List.length_eq_two.mp both.length_eq
  have ends : ∀ row ∈ [left, right], row.op = some .update ∧ row.key = first.key ∧
      low ≤ row.opIndex ∧ row.opIndex ≤ high := by
    intro row member
    have either : row = first ∨ row = second := by simpa using both.mem_iff.mp member
    rcases either with rfl | rfl
    · exact ⟨firstUpdate, rfl, min_le_left _ _, le_max_left _ _⟩
    · exact ⟨secondUpdate, equal.symm, min_le_right _ _, le_max_right _ _⟩
  obtain ⟨leftUpdate, leftKey, leftLow, leftHigh⟩ := ends left (by simp)
  obtain ⟨rightUpdate, rightKey, rightLow, rightHigh⟩ := ends right (by simp)
  obtain ⟨front, back, rfl, atLeft, later⟩ := List.cons_sublist_iff.mp inside
  obtain ⟨before, middle, rfl⟩ := List.append_of_mem atLeft
  obtain ⟨rest, after, rfl⟩ := List.append_of_mem (List.singleton_sublist.mp later)
  let block := left :: (middle ++ rest) ++ [right]
  have shape : before ++ left :: middle ++ (rest ++ right :: after) = before ++ (block ++ after) := by
    simp [block]
  rw [shape] at sorted perm ⊢
  have bounded : ∀ row ∈ block, row ≠ left → row ≠ right →
      rankedLe rank left row ∧ rankedLe rank row right := by
    rw [List.pairwise_append, List.pairwise_append] at sorted
    obtain ⟨-, ⟨inner, -, -⟩, -⟩ := sorted
    rw [List.pairwise_append, List.pairwise_cons] at inner
    obtain ⟨⟨fromLeft, -⟩, -, toRight⟩ := inner
    intro row member notLeft notRight
    have inMiddle : row ∈ middle ++ rest := by
      simpa [block, notLeft, notRight] using member
    exact ⟨fromLeft row inMiddle,
      toRight row (List.mem_cons_of_mem _ inMiddle) right List.mem_cons_self⟩
  have updates : ∀ row ∈ block, row.op = some .update := by
    intro row member
    by_contra other
    obtain ⟨above, below⟩ := bounded row member
      (fun same => other (same ▸ leftUpdate)) (fun same => other (same ▸ rightUpdate))
    have known : row ∈ rows := by
      rw [← perm.mem_iff]
      exact List.mem_append_right _ (List.mem_append_left _ member)
    have outside : ¬ (low < row.opIndex ∧ row.opIndex < high) :=
      fun between => joined ⟨row, known, other, between⟩
    have leftRank : rank left = 1 := if_pos leftUpdate
    have rightRank : rank right = 1 := if_pos rightUpdate
    have rowRank : rank row = if row.opIndex = high ∧ low < high then 2 else 0 := if_neg other
    unfold rankedLe at above below
    rw [leftRank, rowRank] at above
    rw [rightRank, rowRank] at below
    split at above <;> simp_all <;> omega
  have values : ∀ row ∈ block, opValue row = .update := by
    intro row inside
    rw [opValue, updates row inside]
    rfl
  obtain ⟨run, member, covered⟩ : ∃ run ∈ opRuns (before ++ (block ++ after)), block.Sublist run.2 :=
    exists_run_of_block (by simp [block]) values
  refine ⟨run, member, fun nodup => ?_⟩
  have twice : [left, right].Sublist run.2 := by
    refine List.Sublist.trans ?_ covered
    exact (List.sublist_append_right (middle ++ rest) [right]).cons_cons left
  have keys := nodup.sublist (twice.map Row.key)
  simp [leftKey, rightKey] at keys

theorem nodup_keys_iff (rows : List (Row Key Data)) :
    ((stripInternalColumns rows).map Prod.fst).Nodup ↔
      rows.Pairwise fun first second => first.key ≠ second.key := by
  rw [stripInternalColumns, List.map_map, List.Nodup, List.pairwise_map]
  rfl

/-- The segments of a batch have distinct keys in every admissible sort exactly when no mutation
repeats a key. -/
theorem nodup_segments_iff {batch : RecordBatch Key Data} (schema : batch.schema = changeSchema)
    (sound : SoundRows batch.rows) (keyColumns : List String) (config : MutationConfig) :
    (∀ sort, ∀ segment ∈ buildSegmentsForBatch sort batch keyColumns config,
        (segment.rows.map Prod.fst).Nodup) ↔ KeysApart config batch.rows := by
  unfold KeysApart
  cases zero : config.zeroRatios with
  | true =>
      have whole : ∀ sort, buildSegmentsForBatch sort batch keyColumns config =
          [⟨.insert, stripInternalColumns batch.rows⟩] := by
        intro sort
        simp [buildSegmentsForBatch, batchIsInsertOnly, zero]
      simp only [whole, List.mem_singleton, forall_eq, if_true]
      constructor
      · intro distinct
        refine ((nodup_keys_iff _).mp (distinct .stable)).imp ?_
        intro first second apart _
        exact apart
      · intro apart _
        rw [nodup_keys_iff]
        refine (apart.and sound.created).imp ?_
        rintro first second ⟨mutated, created⟩
        by_cases both : first.op = some .create ∧ second.op = some .create
        · exact created both.1 both.2
        · exact mutated (not_and_or.mp both)
  | false =>
      by_cases creates : ∀ row ∈ batch.rows, row.op = some .create
      · have whole : ∀ sort, buildSegmentsForBatch sort batch keyColumns config =
            [⟨.insert, stripInternalColumns batch.rows⟩] := by
          intro sort
          have all : (batch.rows.all fun row => row.op = some .create) = true := by simpa using creates
          simp only [buildSegmentsForBatch, batchIsInsertOnly, all, Bool.or_true, if_true]
        simp only [whole, List.mem_singleton, forall_eq, Bool.false_eq_true, if_false]
        constructor
        · intro _
          refine sound.created.imp_of_mem ?_
          intro first second member _ _ update
          simp [creates first member] at update
        · intro _ _
          rw [nodup_keys_iff]
          refine sound.created.imp_of_mem ?_
          intro first second atFirst atSecond apart
          exact apart (creates first atFirst) (creates second atSecond)
      · have split : ∀ sort, buildSegmentsForBatch sort batch keyColumns config =
            (opRuns (sort.sort batch.rows)).map fun run =>
              ⟨opStrToInsertOp run.1 keyColumns, stripInternalColumns run.2⟩ := by
          intro sort
          have some_other : (batch.rows.all fun row => row.op = some .create) = false := by
            simpa using creates
          simp only [buildSegmentsForBatch, batchIsInsertOnly, zero, some_other, schema, changeSchema,
            Bool.not_true, Bool.or_self, Bool.false_eq_true, if_false, splitBatchByOp, if_true]
        have runs : (∀ sort, ∀ segment ∈ buildSegmentsForBatch sort batch keyColumns config,
            (segment.rows.map Prod.fst).Nodup) ↔
            ∀ sort : OpIndexSort Key Data, ∀ run ∈ opRuns (sort.sort batch.rows),
              (run.2.map Row.key).Nodup := by
          simp only [split, List.forall_mem_map, stripInternalColumns, List.map_map]
          rfl
        rw [runs]
        simp only [Bool.false_eq_true, if_false]
        constructor
        · intro distinct
          rw [List.pairwise_iff_forall_sublist]
          intro first second held firstUpdate secondUpdate equal
          by_contra joined
          obtain ⟨sort, run, member, clash⟩ :=
            exists_clashing_run held firstUpdate secondUpdate equal joined
          exact clash (distinct sort run member)
        · intro apart sort run member
          exact nodup_run sound apart sort member

/-- A stream without a repeated create has no repeated delete. -/
theorem StreamValid.sound [DecidableEq Key] {emitted : List (RecordBatch Key Data)} {live : Finset Key}
    (stream : StreamValid emitted live) (created : ((createdRows emitted).map Prod.fst).Nodup)
    (known : ∀ batch ∈ emitted, ∀ row ∈ batch.rows,
      row.op = some .create ∨ row.op = some .update ∨ row.op = some .delete) :
    SoundRows (emitted.flatMap RecordBatch.rows) := by
  have log : streamLog emitted = keyLog (emitted.flatMap RecordBatch.rows) := by
    simp only [streamLog, keyLog, List.filterMap_flatMap]
  rw [← created_streamLog] at created
  have deleted := KeyLog.nodup_deleted stream.valid created (by simp)
  rw [log] at created deleted
  rw [KeyLog.created, keyLog, List.filterMap_filterMap, List.Nodup, List.pairwise_filterMap] at created
  rw [KeyLog.deleted, keyLog, List.filterMap_filterMap, List.Nodup, List.pairwise_filterMap] at deleted
  constructor
  · intro row member
    obtain ⟨batch, inside, held⟩ := List.mem_flatMap.mp member
    exact known batch inside row held
  · refine created.imp ?_
    intro first second apart firstOp secondOp
    exact apart first.key (by simp [Row.change?, firstOp, Change.createdKey?]) second.key
      (by simp [Row.change?, secondOp, Change.createdKey?])
  · refine deleted.imp ?_
    intro first second apart firstOp secondOp
    exact apart first.key (by simp [Row.change?, firstOp, Change.deletedKey?]) second.key
      (by simp [Row.change?, secondOp, Change.deletedKey?])

/-- The keys of every segment are distinct exactly when no mutation of the coalesced batch repeats a
key, for the batches of both datasets. -/
theorem segment_keys_distinct_iff (keyColumns : List String) :
    (∀ {Key Data : Type} [DecidableEq Key] (dataset : TpchDataset) (gen : TpchGen Key Data) state table
      (batch : RecordBatch Key Data), dataset.DistinctKeys gen →
      Generates (dataset.tpch gen) state → DrawnFrom (state.emitted table) batch →
        ((∀ sort, ∀ segment ∈ buildSegmentsForBatch sort batch keyColumns dataset.mutations,
          (segment.rows.map Prod.fst).Nodup) ↔ KeysApart dataset.mutations batch.rows)) ∧
      ∀ (dataset : SimpleSequenceDataset) state (batch : RecordBatch Int (Option Int)),
        Generates dataset.simpleSequence state → DrawnFrom (state.emitted ()) batch →
          ((∀ sort, ∀ segment ∈ buildSegmentsForBatch sort batch keyColumns dataset.mutations,
            (segment.rows.map Prod.fst).Nodup) ↔ KeysApart dataset.mutations batch.rows) := by
  constructor
  · intro Key Data _ dataset gen state table batch distinct generated drawn
    have steps := TpchDataset.steps_of_generates generated table
    obtain ⟨live, keys⟩ := TpchDataset.keys_of_generates distinct generated table
    have created : ((createdRows (state.emitted table)).map Prod.fst).Nodup := by
      rw [TpchDataset.createdRows_eq steps.batches]
      exact distinct.created steps.bound
    have sound := StreamValid.sound keys.stream created (by
      intro source member row held
      obtain ⟨step, found⟩ := List.mem_iff_getElem?.mp member
      obtain ⟨changes, opBase, emitted⟩ := steps.batches step source found
      rw [emitted.shape] at held
      exact changes.op_of_mem_rows held)
    exact nodup_segments_iff drawn.schema (sound.sublist drawn.rows) keyColumns dataset.mutations
  · intro dataset state batch generated drawn
    have keys := SimpleSequenceDataset.keys_of_generates generated
    have sound := StreamValid.sound keys.stream keys.created (by
      intro source member row held
      obtain ⟨changes, opBase, rfl, _⟩ := keys.batches source member
      exact changes.op_of_mem_rows held)
    exact nodup_segments_iff drawn.schema (sound.sublist drawn.rows) keyColumns dataset.mutations

/-- A bootstrap run with updates only has one base step and two mutation steps. -/
def updateBootstrap : TpchDataset :=
  ⟨.finite (1 / 4096), 1, ⟨.finite 1, .finite 0, true, 2, .finite 1⟩⟩

/-- Both mutation steps of the sample update the key of the first supplier. -/
def updateEmitted : List (RecordBatch Nat Unit) :=
  [⟨changeSchema, [⟨2, (), some .create, 0⟩, ⟨3, (), some .create, 1⟩]⟩,
    ⟨changeSchema, [⟨2, (), some .update, 2⟩]⟩, ⟨changeSchema, [⟨2, (), some .update, 3⟩]⟩]

theorem updateBootstrap_emitted : ∃ state, Generates (updateBootstrap.tpch sampleGen) state ∧
    state.emitted .supplier = updateEmitted := by
  have ran : (runCalls (updateBootstrap.tpch sampleGen) [(.supplier, sampleDraws),
      (.supplier, sampleDraws), (.supplier, sampleDraws)]).map
        (fun state => state.emitted .supplier) = some updateEmitted := by
    decide +kernel
  exact generates_of_runCalls ran

/-- The two updates coalesce into one batch. -/
def updateCoalesced : RecordBatch Nat Unit :=
  ⟨changeSchema, [⟨2, (), some .update, 2⟩, ⟨2, (), some .update, 3⟩]⟩

/-- The two updates of the sample repeat a key with nothing in between. -/
theorem segment_keys_distinct_iff_updates :
    ∃ state, Generates (updateBootstrap.tpch sampleGen) state ∧
      ((∀ sort, ∀ segment ∈ buildSegmentsForBatch sort updateCoalesced ["s_suppkey", "s_nationkey"]
        updateBootstrap.mutations, (segment.rows.map Prod.fst).Nodup) ↔
          KeysApart updateBootstrap.mutations updateCoalesced.rows) := by
  obtain ⟨state, generated, emitted⟩ := updateBootstrap_emitted
  have distinct : updateBootstrap.DistinctKeys sampleGen := by
    intro table
    cases table <;> decide
  have drawn : DrawnFrom (state.emitted .supplier) updateCoalesced := by
    have held : updateCoalesced ∈ coalesceBatches 2 (updateEmitted.drop 1) := by decide
    rw [emitted]
    exact drawnFrom_coalesceBatches (by decide) (List.drop_suffix 1 _).isInfix (by decide) rfl held
  exact ⟨state, generated, (segment_keys_distinct_iff _).1 _ _ _ _ _ distinct generated drawn⟩

/-- The sink receives one update segment that names the key of the sample twice. -/
theorem segment_keys_repeated : ∃ state, Generates (updateBootstrap.tpch sampleGen) state ∧
    ∃ window, window <:+: state.emitted .supplier ∧ ∃ batch ∈ coalesceBatches 2 window,
      ∃ segment ∈ buildSegmentsForBatch .stable batch ["s_suppkey", "s_nationkey"]
        updateBootstrap.mutations, ¬ (segment.rows.map Prod.fst).Nodup := by
  obtain ⟨state, generated, emitted⟩ := updateBootstrap_emitted
  refine ⟨state, generated, updateEmitted.drop 1, ?_, updateCoalesced, by decide, ?_⟩
  · rw [emitted]
    exact (List.drop_suffix 1 _).isInfix
  · refine ⟨⟨.update ["s_suppkey", "s_nationkey"], [(2, ()), (2, ())]⟩, ?_, by decide⟩
    decide

end Spicebench.Etl
