import Spicebench.Proof.Dataset.Validity

namespace Spicebench.DataGeneration

open Library

/-- Reading a prefix of the parts, each up to a size, gives every item exactly when no part is
longer and no part follows an empty one. -/
theorem taken_eq_flatten_iff {Item : Type} {parts : List (List Item)} {size count : Nat}
    (nonempty : ∀ part ∈ parts.take count, part.take size ≠ [])
    (stopped : ∀ part, parts[count]? = some part → part.take size = []) :
    (parts.take count).flatMap (List.take size) = parts.flatten ↔
      (∀ part ∈ parts, part.length ≤ size) ∧
        parts.Pairwise fun earlier later => earlier = [] → later = [] := by
  induction parts generalizing count with
  | nil => simp
  | cons part rest ih =>
      cases count with
      | zero =>
          -- the reading stops before the first part, so there must be nothing to read
          have empty : part.take size = [] := stopped part rfl
          simp only [List.take_zero, List.flatMap_nil, List.flatten_cons, List.mem_cons,
            forall_eq_or_imp, List.pairwise_cons]
          constructor
          · intro nothing
            obtain ⟨first, others⟩ := List.append_eq_nil_iff.mp nothing.symm
            have all_empty : ∀ other ∈ rest, other = [] := List.flatten_eq_nil_iff.mp others
            refine ⟨⟨by simp [first], ?_⟩, ?_, ?_⟩
            · intro other member
              simp [all_empty other member]
            · intro other member _
              exact all_empty other member
            · refine List.pairwise_of_forall_mem_list ?_
              intro earlier _ later member _
              exact all_empty later member
          · rintro ⟨⟨short, _⟩, later, _⟩
            have first : part = [] := by rwa [List.take_of_length_le short] at empty
            have others : rest.flatten = [] :=
              List.flatten_eq_nil_iff.mpr fun other member => later other member first
            rw [first, others]
            rfl
      | succ count =>
          have head : part.take size ≠ [] := nonempty part (by simp)
          have filled : part ≠ [] := fun empty => head (by simp [empty])
          have tail : ∀ other ∈ rest.take count, other.take size ≠ [] :=
            fun other member => nonempty other (by simp [member])
          have rest_iff := ih tail fun other found => stopped other (by simpa using found)
          have shorter : ((rest.take count).flatMap (List.take size)).length ≤ rest.flatten.length :=
            (taken_sublist_flatten rest size count).length_le
          simp only [List.take_succ_cons, List.flatMap_cons, List.flatten_cons, List.mem_cons,
            forall_eq_or_imp, List.pairwise_cons]
          constructor
          · intro equal
            have lengths := congrArg List.length equal
            simp only [List.length_append, List.length_take] at lengths
            have short : part.length ≤ size := by omega
            rw [List.take_of_length_le short, List.append_cancel_left_eq] at equal
            obtain ⟨bounded, ordered⟩ := rest_iff.mp equal
            exact ⟨⟨short, bounded⟩, fun _ _ empty => absurd empty filled, ordered⟩
          · rintro ⟨⟨short, bounded⟩, _, ordered⟩
            rw [List.take_of_length_le short, rest_iff.mpr ⟨bounded, ordered⟩]

namespace TpchDataset

variable {Key Data : Type} [DecidableEq Key] {dataset : TpchDataset} {gen : TpchGen Key Data}

/-- A part is read whole, and no rows come after an empty part. -/
def Complete (dataset : TpchDataset) (gen : TpchGen Key Data) (table : TpchTable) : Prop :=
  (∀ part ∈ dataset.parts gen table, part.length ≤ table.totalRowsForTable dataset.scaleFactor) ∧
    (dataset.parts gen table).Pairwise fun earlier later => earlier = [] → later = []

theorem base_rows_complete_iff {state : GeneratorState TpchTable (TpchState Key) Key Data}
    (generated : Generates (dataset.tpch gen) state) (table : TpchTable)
    (finished : state.finished table = true) :
    createdRows (state.emitted table) = (dataset.parts gen table).flatten ↔
      dataset.Complete gen table := by
  have steps := steps_of_generates generated table
  have base := dataset.baseSteps_le_totalSteps table
  have count : (dataset.parts gen table).length = dataset.baseSteps table := by simp [parts]
  rw [createdRows_eq steps.batches, flatMap_createsOf steps.bound]
  apply taken_eq_flatten_iff
  · intro part member
    obtain ⟨step, inside, found⟩ := List.mem_take_iff_getElem.mp member
    have present : (dataset.parts gen table)[step]? = some part := by
      rw [List.getElem?_eq_getElem (by omega), found]
    have within : step < dataset.totalSteps table := by omega
    obtain ⟨batch, emitted⟩ : ∃ batch, (state.emitted table)[step]? = some batch :=
      ⟨_, List.getElem?_eq_getElem (by omega)⟩
    obtain ⟨changes, opBase, emission⟩ := steps.batches step batch emitted
    have phase : dataset.inMutationPhase table step = false := by
      rw [← Bool.not_eq_true, dataset.inMutationPhase_iff within]
      omega
    have filled := emission.base phase
    rw [emission.creates, createsOf_eq within, present] at filled
    simpa using filled
  · intro part present
    have inside := (List.getElem?_eq_some_iff.mp present).1
    rcases steps.ended finished with beyond | empty
    · omega
    · rw [createsOf_eq (by omega), present] at empty
      simpa using empty

/-- One supplier in two parts leaves the first part empty. -/
def sparseGen : TpchGen Nat Unit where
  rows table _ part _ :=
    if table.isDim then [(0, ()), (1, ())] else if part = 1 then [] else [(7, ())]
  nullData := ()

def sparseDataset : TpchDataset :=
  ⟨F64.ofRat (1 / 10000), 2, ⟨.finite 0, .finite 0, false, 0, .finite 0⟩⟩

theorem base_rows_lost : ∃ state : GeneratorState TpchTable (TpchState Nat) Nat Unit,
    Generates (sparseDataset.tpch sparseGen) state ∧ state.finished .supplier = true ∧
      createdRows (state.emitted .supplier) ≠ (sparseDataset.parts sparseGen .supplier).flatten := by
  have ran : (runCalls (sparseDataset.tpch sparseGen) [(.supplier, sampleDraws)]).map
      (fun state => (state.finished .supplier, state.emitted .supplier)) = some (true, []) := by
    decide +kernel
  obtain ⟨state, reached, final⟩ := generates_of_runCalls ran
  rw [Prod.mk.injEq] at final
  refine ⟨state, reached, final.1, ?_⟩
  rw [final.2]
  decide

/-- Both regions of the sample are emitted. -/
theorem base_rows_complete_region : ∃ state : GeneratorState TpchTable (TpchState Nat) Nat Unit,
    state.finished .region = true ∧
      (createdRows (state.emitted .region) = (sparseDataset.parts sparseGen .region).flatten ↔
        sparseDataset.Complete sparseGen .region) := by
  have ran : (runCalls (sparseDataset.tpch sparseGen)
      [(.region, sampleDraws), (.region, sampleDraws)]).map
        (fun state => state.finished .region) = some true := by
    decide +kernel
  obtain ⟨state, reached, finished⟩ := generates_of_runCalls ran
  exact ⟨state, finished, base_rows_complete_iff reached .region finished⟩

end TpchDataset

end Spicebench.DataGeneration
