import Spicebench.Proof.Snapshot.Subtrees

namespace Spicebench.Snapshot

open Library

section Claim

/-- The lines of the other text are those of the plan with the subtrees of its unions in another order. -/
def SameUpToOrder (text other : List Char) : Prop :=
  other = text ∨ containsUnion text ∧
    ∃ plan, Outline.Reordered containsUnion (planOf (lines text)) plan ∧ lines other = plan.lines

/-- The sorted text has the lines of the plan, keeps subtrees together and does not depend on their order. -/
structure Canonical (text : List Char) : Prop where
  sameLines : (lines (sortPartitionedUnionChildren text)).Perm (lines text)
  idempotent : sortPartitionedUnionChildren (sortPartitionedUnionChildren text) = sortPartitionedUnionChildren text
  together : ∃ plan, Outline.Shuffled containsUnion (planOf (lines text)) plan ∧
    lines (sortPartitionedUnionChildren text) = plan.lines
  orderFree : ∀ other, SameUpToOrder text other → sortPartitionedUnionChildren other = sortPartitionedUnionChildren text

end Claim

section Condition

/-- A line ends a plan once the subtrees of the outermost unions stand in the order of their texts. -/
inductive Closes : Outline Line → Line → Prop
  | single {line : Line} : Closes (.cons line .nil .nil) line
  | inside {line last : Line} {below : Outline Line} (plain : ¬containsUnion line) (closes : Closes below last) :
      Closes (.cons line below .nil) last
  | greatest {line last : Line} {below : Outline Line} {subtree : List Line} (union : containsUnion line)
      (member : subtree ∈ below.subtrees) (above : ∀ other ∈ below.subtrees, join other ≤ join subtree)
      (ends : subtree.getLast? = some last) : Closes (.cons line below .nil) last
  | beside {line last : Line} {below beside : Outline Line} (closes : Closes beside last) :
      Closes (.cons line below beside) last

/-- The last line is not empty, only the line that ends the plan may keep a carriage return, and the plan is settled. -/
structure Orderly (text : List Char) : Prop where
  lastLine : (lines text).getLast? ≠ some []
  returns : ((lines text).filter endsInReturn).length ≤ 1
  closing : ∀ line ∈ lines text, endsInReturn line → Closes (planOf (lines text)) line
  settled : Settled (planOf (lines text))

variable {plan : Outline Line} {last : Line}

theorem exists_greatest {subtrees : List (List Line)} (nonempty : subtrees ≠ []) :
    ∃ init greatest, sortSubtrees subtrees = init ++ [greatest] ∧ greatest ∈ subtrees ∧
      ∀ other ∈ subtrees, join other ≤ join greatest := by
  have permuted := perm_sortSubtrees subtrees
  have sorted : (sortSubtrees subtrees).Pairwise fun one two => join one ≤ join two :=
    List.pairwise_insertionSort _ subtrees
  cases parts : sortSubtrees subtrees using List.reverseRecOn with
  | nil => exact absurd (parts ▸ permuted).nil_eq.symm nonempty
  | append_singleton init greatest =>
      rw [parts] at permuted sorted
      refine ⟨init, greatest, rfl, permuted.subset (by simp), fun other member => ?_⟩
      rcases List.mem_append.mp (permuted.symm.subset member) with before | same
      · exact (List.pairwise_append.mp sorted).2.2 other before greatest List.mem_cons_self
      · rw [List.mem_singleton.mp same]

theorem mem_of_closes (closes : Closes plan last) : last ∈ plan.lines := by
  induction closes with
  | single => simp
  | inside _ _ inner => simp [inner]
  | greatest _ member _ ends => simp [mem_lines_of_subtrees member (List.mem_of_getLast? ends)]
  | beside _ inner => simp [inner]

theorem ne_nil_of_closes (closes : Closes plan last) : plan.lines ≠ [] :=
  List.ne_nil_of_mem (mem_of_closes closes)

theorem sortedPlan_ne_nil (nonempty : plan.lines ≠ []) : (sortedPlan plan).lines ≠ [] := by
  cases plan with
  | nil => exact absurd rfl nonempty
  | cons => simp [sortedPlan]

theorem exists_closes (nonempty : plan.lines ≠ []) : ∃ last, Closes plan last := by
  induction plan with
  | nil => exact absurd rfl nonempty
  | cons line below beside inner later =>
      cases beside with
      | cons next under others =>
          obtain ⟨last, closes⟩ := later (by simp)
          exact ⟨last, .beside closes⟩
      | nil =>
          cases below with
          | nil => exact ⟨line, .single⟩
          | cons first under others =>
              by_cases union : containsUnion line
              · have some : (Outline.cons first under others).subtrees ≠ [] := List.cons_ne_nil _ _
                obtain ⟨_, greatest, _, member, above⟩ := exists_greatest some
                have nonempty := Outline.ne_nil_of_mem_subtrees member
                exact ⟨_, .greatest union member above (List.getLast?_eq_some_getLast nonempty)⟩
              · obtain ⟨last, closes⟩ := inner (by simp)
                exact ⟨last, .inside union closes⟩

/-- The line that closes a plan is the last one of the sorted plan. -/
theorem getLast_of_closes (whole : Whole plan.lines) (closes : Closes plan last) :
    (sortedPlan plan).lines.getLast? = some last := by
  induction closes with
  | single => simp [sortedPlan, Outline.trees, sortTrees, Outline.ofTrees]
  | @inside line last below plain closes ends =>
      have ends := ends (List.forall_mem_append.mp (List.forall_mem_cons.mp whole).2).1
      have nonempty := sortedPlan_ne_nil (ne_nil_of_closes closes)
      rw [sortedPlan, if_neg plain, sortedPlan, Outline.lines_cons, Outline.lines_nil, List.append_nil,
        List.getLast?_cons_of_ne_nil nonempty, ends]
  | @greatest line last below subtree union member above ends =>
      have wholeBelow := (List.forall_mem_append.mp (List.forall_mem_cons.mp whole).2).1
      have wholeSubtree (subtree : List Line) (inside : subtree ∈ below.subtrees) : Whole subtree := fun line lineMem =>
        wholeBelow line (mem_lines_of_subtrees inside lineMem)
      obtain ⟨init, top, sorted, topMem, upper⟩ := exists_greatest (List.ne_nil_of_mem member)
      have same : top = subtree :=
        join_injective (wholeSubtree top topMem) (wholeSubtree subtree member) (Outline.ne_nil_of_mem_subtrees topMem)
          (Outline.ne_nil_of_mem_subtrees member) (le_antisymm (above top topMem) (upper subtree member))
      have nonempty : subtree ≠ [] := Outline.ne_nil_of_mem_subtrees member
      rw [sortedPlan, if_pos union, sortedPlan, Outline.lines_cons, Outline.lines_nil, List.append_nil, lines_sortTrees,
        sorted, same, List.flatten_append, List.flatten_singleton, List.getLast?_cons_of_ne_nil (by simp [nonempty]),
        List.getLast?_append_of_ne_nil _ nonempty, ends]
  | @beside line last below beside closes ends =>
      have ends := ends (List.forall_mem_append.mp (List.forall_mem_cons.mp whole).2).2
      have nonempty := sortedPlan_ne_nil (ne_nil_of_closes closes)
      rw [sortedPlan, Outline.lines_cons, List.getLast?_cons_of_ne_nil (by simp [nonempty]),
        List.getLast?_append_of_ne_nil _ nonempty, ends]

theorem deeper_nil (line : Line) : deeper line [] = false := rfl

/-- An empty line ends the sorted plan only where it ends the plan. -/
theorem closes_nil_iff (nested : plan.Nested deeper) : Closes plan [] ↔ plan.lines.getLast? = some [] := by
  induction plan with
  | nil => exact ⟨fun closes => absurd rfl (ne_nil_of_closes closes), fun ends => by simp at ends⟩
  | cons line below beside _ later =>
      cases beside with
      | cons next under others =>
          rw [Outline.lines_cons, List.getLast?_cons_of_ne_nil (by simp), List.getLast?_append_of_ne_nil _ (by simp),
            ← later nested.2.2.2]
          constructor
          · rintro (_ | _ | _ | closes)
            exact closes
          · exact .beside
      | nil =>
          have inner (member : [] ∈ below.lines) : False := by
            have lower := nested.1 [] member
            rw [deeper_nil] at lower
            contradiction
          rw [Outline.lines_cons, Outline.lines_nil, List.append_nil]
          constructor
          · intro closes
            cases closes with
            | single => rfl
            | inside _ closes => exact (inner (mem_of_closes closes)).elim
            | greatest _ member _ ends => exact (inner (mem_lines_of_subtrees member (List.mem_of_getLast? ends))).elim
            | beside closes => exact absurd rfl (ne_nil_of_closes closes)
          · intro ends
            cases below with
            | nil =>
                obtain rfl : line = [] := by simpa using ends
                exact .single
            | cons first under others =>
                rw [List.getLast?_cons_of_ne_nil (by simp)] at ends
                exact (inner (List.mem_of_getLast? ends)).elim

/-- The sorted lines are read back as they are exactly if the end of the text is in order. -/
theorem readable_iff {content init : List Line} (whole : Whole content) (settled : Settled (planOf content))
    (sorted : sortLines content = init ++ [last]) :
    (last ≠ [] ∧ init.filter endsInReturn = []) ↔
      content.getLast? ≠ some [] ∧ (content.filter endsInReturn).length ≤ 1 ∧
        ∀ line ∈ content, endsInReturn line → Closes (planOf content) line := by
  have permuted : (init ++ [last]).Perm content := sorted ▸ perm_sortLines content
  have wholePlan : Whole (planOf content).lines := by rwa [lines_planOf]
  have sortedLines : (sortedPlan (planOf content)).lines = init ++ [last] := by
    rw [← sorted, ← sortLines_of_reordered (.refl _) (nested_planOf content) wholePlan settled, lines_planOf]
  have closes_iff (line : Line) : Closes (planOf content) line ↔ line = last := by
    have nonempty : (planOf content).lines ≠ [] := by
      rw [lines_planOf]
      rintro rfl
      simpa using permuted.length_eq
    obtain ⟨final, closes⟩ := exists_closes nonempty
    have unique (line : Line) (closes : Closes (planOf content) line) : line = last := by
      have ends := getLast_of_closes wholePlan closes
      rw [sortedLines] at ends
      simpa using ends.symm
    exact ⟨unique line, fun same => by rwa [same, ← unique final closes]⟩
  have empty : last = [] ↔ content.getLast? = some [] := by
    rw [eq_comm, ← closes_iff, closes_nil_iff (nested_planOf content), lines_planOf]
  have count : (content.filter endsInReturn).length = (init.filter endsInReturn).length +
      ([last].filter endsInReturn).length := by
    rw [← (permuted.filter endsInReturn).length_eq, List.filter_append, List.length_append]
  constructor
  · rintro ⟨nonempty, plain⟩
    refine ⟨fun ends => nonempty (empty.mpr ends), ?_, fun line member returns => ?_⟩
    · rw [count, plain]
      simpa using List.length_filter_le endsInReturn [last]
    · rw [closes_iff]
      rcases List.mem_append.mp (permuted.symm.subset member) with before | same
      · exact absurd returns (List.filter_eq_nil_iff.mp plain line before)
      · exact List.mem_singleton.mp same
  · rintro ⟨nonempty, single, closing⟩
    refine ⟨fun ends => nonempty (empty.mp ends), List.filter_eq_nil_iff.mpr fun line before returns => ?_⟩
    obtain rfl := (closes_iff line).mp (closing line (permuted.subset (List.mem_append_left _ before)) returns)
    have inside : 0 < (init.filter endsInReturn).length :=
      List.length_pos_iff.mpr (List.ne_nil_of_mem (List.mem_filter.mpr ⟨before, returns⟩))
    rw [count, List.filter_cons_of_pos returns, List.length_cons] at single
    omega

end Condition

section Sorting

variable {text : List Char}

theorem sortPartitionedUnionChildren_union (union : containsUnion text) :
    sortPartitionedUnionChildren text = join (sortLines (lines text)) := if_pos union

theorem sortPartitionedUnionChildren_plain (plain : ¬containsUnion text) : sortPartitionedUnionChildren text = text :=
  if_neg plain

theorem sortLines_ne_nil (union : containsUnion text) : sortLines (lines text) ≠ [] := by
  obtain ⟨line, member, _⟩ := containsUnion_iff.mp union
  exact List.ne_nil_of_mem ((perm_sortLines _).symm.subset member)

theorem whole_sortLines (text : List Char) : Whole (sortLines (lines text)) := fun line member =>
  whole_lines text line ((perm_sortLines _).subset member)

theorem containsUnion_of_perm {other : List Char} (union : containsUnion text)
    (permuted : (lines text).Perm (lines other)) : containsUnion other := by
  obtain ⟨line, member, inLine⟩ := containsUnion_iff.mp union
  exact containsUnion_iff.mpr ⟨line, permuted.subset member, inLine⟩

/-- What differs from a settled plan in the order of its subtrees is sorted to the same text. -/
theorem orderFree_of_settled (settled : Settled (planOf (lines text))) {other : List Char}
    (same : SameUpToOrder text other) : sortPartitionedUnionChildren other = sortPartitionedUnionChildren text := by
  rcases same with rfl | ⟨union, plan, reordered, read⟩
  · rfl
  · have wholePlan : Whole (planOf (lines text)).lines := by
      rw [lines_planOf]
      exact whole_lines text
    have sorted := sortLines_of_reordered (.refl _) (nested_planOf (lines text)) wholePlan settled
    have moved := sortLines_of_reordered reordered (nested_planOf (lines text)) wholePlan settled
    have permuted := reordered.perm_lines
    rw [lines_planOf] at sorted permuted
    rw [← read] at moved permuted
    rw [sortPartitionedUnionChildren_union union,
      sortPartitionedUnionChildren_union (containsUnion_of_perm union permuted), moved, sorted]

/-- A plan that is sorted to one text in all orders of its subtrees is settled. -/
theorem settled_of_orderFree (union : containsUnion text)
    (orderFree : ∀ other, SameUpToOrder text other →
      sortPartitionedUnionChildren other = sortPartitionedUnionChildren text) : Settled (planOf (lines text)) := by
  refine settled_of_fixed (nested_planOf _) fun plan reordered => ?_
  have permuted := reordered.perm_lines
  rw [lines_planOf] at permuted ⊢
  obtain ⟨other, read⟩ := exists_text fun line member => whole_lines text line (permuted.symm.subset member)
  have unionOther := containsUnion_of_perm union (read ▸ permuted)
  have same := orderFree other (.inr ⟨union, plan, reordered, read⟩)
  rw [sortPartitionedUnionChildren_union union, sortPartitionedUnionChildren_union unionOther] at same
  rw [← read]
  exact join_injective (whole_sortLines other) (whole_sortLines text) (sortLines_ne_nil unionOther)
    (sortLines_ne_nil union) same

/-- A text is sorted as claimed exactly if it names no union or is orderly. -/
theorem sortPartitionedUnionChildren_canonical_iff (text : List Char) :
    Canonical text ↔ (containsUnion text → Orderly text) := by
  have whole := whole_lines text
  by_cases union : containsUnion text
  case neg =>
      refine ⟨fun _ named => absurd named union, fun _ => ?_⟩
      have kept := sortPartitionedUnionChildren_plain union
      refine ⟨by rw [kept], by rw [kept, kept], ⟨_, Outline.Shuffled.refl _, by rw [kept, lines_planOf]⟩, ?_⟩
      rintro other (rfl | ⟨named, _⟩)
      · rfl
      · exact absurd named union
  case pos =>
      have sorted : sortLines (lines text) = (sortLines (lines text)).dropLast ++
          [(sortLines (lines text)).getLast (sortLines_ne_nil union)] := (List.dropLast_append_getLast _).symm
      have wholeSorted := whole_sortLines text
      rw [sorted] at wholeSorted
      constructor
      · intro canonical _
        have settled := settled_of_orderFree union canonical.orderFree
        have permuted := canonical.sameLines.trans (perm_sortLines (lines text)).symm
        rw [sortPartitionedUnionChildren_union union, sorted] at permuted
        obtain ⟨lastLine, returns, closing⟩ :=
          (readable_iff whole settled sorted).mp (readable_of_perm wholeSorted permuted)
        exact ⟨lastLine, returns, closing, settled⟩
      · intro orderly
        obtain ⟨lastLine, returns, closing, settled⟩ := orderly union
        obtain ⟨nonempty, plain⟩ := (readable_iff whole settled sorted).mpr ⟨lastLine, returns, closing⟩
        have read : lines (sortPartitionedUnionChildren text) = sortLines (lines text) := by
          rw [sortPartitionedUnionChildren_union union, sorted, lines_join_eq wholeSorted nonempty plain]
        have together : ∃ plan, Outline.Shuffled containsUnion (planOf (lines text)) plan ∧
            lines (sortPartitionedUnionChildren text) = plan.lines := by
          refine ⟨_, shuffled_sortedPlan _, ?_⟩
          rw [read, ← sortLines_of_reordered (.refl _) (nested_planOf _) (by rwa [lines_planOf]) settled, lines_planOf]
        obtain ⟨plan, shuffled, same⟩ := together
        exact ⟨read ▸ perm_sortLines _, orderFree_of_settled settled (.inr ⟨union, plan, shuffled.reordered, same⟩),
          ⟨plan, shuffled, same⟩, fun other => orderFree_of_settled settled⟩

/-- The children of a union below another union stand in one order. -/
def nestedUnions : List Char := "PartitionedUnionExec\n PartitionedUnionExec\n  b\n  a".toList

def nestedUnionsSwapped : List Char := "PartitionedUnionExec\n PartitionedUnionExec\n  a\n  b".toList

/-- The loop goes on behind the region of the outer union, so that the inner one keeps its order. -/
theorem nestedUnions_not_canonical : ¬Canonical nestedUnions := by
  intro canonical
  let union : Line := "PartitionedUnionExec".toList
  let inner (below : Outline Line) : Outline Line := .cons union (.cons (' ' :: union) below .nil) .nil
  let first : Line := "  b".toList
  let second : Line := "  a".toList
  have plan : planOf (lines nestedUnions) = inner (.cons first .nil (.cons second .nil .nil)) := by rfl
  have swapped : lines nestedUnionsSwapped = (inner (.cons second .nil (.cons first .nil .nil))).lines := by rfl
  have reordered : Outline.Reordered containsUnion (planOf (lines nestedUnions))
      (inner (.cons second .nil (.cons first .nil .nil))) := by
    rw [plan]
    refine .cons (.cons (.refl _) (.inr ⟨by decide, ?_⟩) .nil) (.inl rfl) .nil
    exact .swap _ _ _
  have same := canonical.orderFree nestedUnionsSwapped (.inr ⟨by decide, _, reordered, swapped⟩)
  exact absurd same (by decide +kernel)

end Sorting

end Spicebench.Snapshot
