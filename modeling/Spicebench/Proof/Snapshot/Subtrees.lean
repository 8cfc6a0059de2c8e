import Spicebench.Proof.Snapshot.Lines
import Spicebench.Library.Outline

namespace Spicebench.Snapshot

open Library

/-- A line belongs to the subtree of a line in front of it if it is deeper and not empty. -/
def deeper (line other : Line) : Bool := isChildLine (getIndentLevel line) other

theorem deeper_irreflexive (line : Line) : deeper line line = false := by
  simp [deeper, isChildLine]

theorem deeper_transitive (first second third : Line) (one : deeper first second) (two : deeper second third) :
    deeper first third := by
  simp only [deeper, isChildLine, Bool.and_eq_true, decide_eq_true_eq] at *
  exact ⟨two.1, one.2.trans two.2⟩

/-- The tree of a plan text. -/
def planOf (lines : List Line) : Outline Line := Outline.recover deeper lines

theorem lines_planOf (lines : List Line) : (planOf lines).lines = lines := Outline.lines_recover deeper lines

theorem nested_planOf (lines : List Line) : (planOf lines).Nested deeper :=
  Outline.nested_recover deeper_transitive lines

section Loop

/-- The lines below a union are split at the indentation of the first one and sorted. -/
def sortChildren : List Line → List Line
  | [] => []
  | first :: rest => (sortSubtrees (splitSubtrees (getIndentLevel first) [] (first :: rest))).flatten

/-- One step of the loop takes a line, and behind a union all the lines below it. -/
theorem sortLines_cons (line : Line) (rest : List Line) :
    sortLines (line :: rest) =
      if containsUnion line then
        line :: (sortChildren (rest.takeWhile (deeper line)) ++ sortLines (rest.dropWhile (deeper line)))
      else line :: sortLines rest := by
  cases rest with
  | nil => simp [sortLines, sortChildren]
  | cons firstChild later =>
      rw [sortLines]
      by_cases union : containsUnion line
      · rw [if_pos union, if_pos union]
        by_cases inside : deeper line firstChild
        · have lower : getIndentLevel line < getIndentLevel firstChild := by
            simp only [deeper, isChildLine, Bool.and_eq_true, decide_eq_true_eq] at inside
            exact inside.2
          rw [if_neg (Nat.not_le_of_lt lower)]
          simp only [List.takeWhile_cons_of_pos inside]
          rw [sortChildren, ← List.takeWhile_cons_of_pos inside]
          rfl
        · have outside : isChildLine (getIndentLevel line) firstChild = false := by simpa [deeper] using inside
          rw [List.takeWhile_cons_of_neg inside, List.dropWhile_cons_of_neg inside, sortChildren, List.nil_append]
          split
          · rfl
          · simp [List.takeWhile_cons_of_neg, List.dropWhile_cons_of_neg, outside, splitSubtrees_nil, sortSubtrees]
      · rw [if_neg union, if_neg union]

theorem span_append {Item : Type} {member : Item → Bool} {back : List Item}
    (stops : ∀ next ∈ back.head?, member next = false) (front : List Item) :
    (front ++ back).takeWhile member = front.takeWhile member ∧
      (front ++ back).dropWhile member = front.dropWhile member ++ back := by
  induction front with
  | nil =>
      cases back with
      | nil => exact ⟨rfl, rfl⟩
      | cons next back => simp [stops next rfl]
  | cons first front later => by_cases inside : member first <;> simp [inside, later]

/-- Two lists of lines are sorted on their own if the second one starts outside of all subtrees of the first one. -/
theorem sortLines_append {front back : List Line}
    (outside : ∀ line ∈ front, ∀ next ∈ back.head?, deeper line next = false) :
    sortLines (front ++ back) = sortLines front ++ sortLines back := by
  induction length : front.length using Nat.strong_induction_on generalizing front with
  | _ size shorter =>
      cases front with
      | nil => simp [sortLines]
      | cons line rest =>
          obtain ⟨first, others⟩ := List.forall_mem_cons.mp outside
          obtain ⟨taken, dropped⟩ := span_append first rest
          rw [List.cons_append, sortLines_cons, sortLines_cons]
          by_cases union : containsUnion line
          · have shrinks : (rest.dropWhile (deeper line)).length < size := by
              rw [← length]
              exact Nat.lt_succ_of_le (List.dropWhile_suffix _).length_le
            have behind := shorter _ shrinks
              (fun inner member => others inner ((List.dropWhile_suffix _).subset member)) rfl
            rw [if_pos union, if_pos union, taken, dropped, behind, List.cons_append, List.append_assoc]
          · rw [if_neg union, if_neg union, shorter _ (by simp [← length]) others rfl, List.cons_append]

end Loop

theorem perm_sortSubtrees (subtrees : List (List Line)) : (sortSubtrees subtrees).Perm subtrees :=
  List.perm_insertionSort _ subtrees

section Splitting

variable {indent : Nat}

/-- A subtree starts at the given indentation, and no other line of it is there. -/
def IsSubtree (indent : Nat) (subtree : List Line) : Prop :=
  ∃ first rest, subtree = first :: rest ∧ getIndentLevel first = indent ∧ ∀ line ∈ rest, getIndentLevel line ≠ indent

theorem splitSubtrees_rest {rest : List Line} (other : ∀ line ∈ rest, getIndentLevel line ≠ indent)
    (current : List Line) (behind : List Line) :
    splitSubtrees indent current (rest ++ behind) = splitSubtrees indent (current ++ rest) behind := by
  induction rest generalizing current with
  | nil => simp
  | cons line rest later =>
      obtain ⟨differs, others⟩ := List.forall_mem_cons.mp other
      rw [List.cons_append, splitSubtrees_cons, if_neg fun starts => differs starts.1, later others, List.append_assoc,
        List.singleton_append]

theorem splitSubtrees_behind {subtrees : List (List Line)} (separate : ∀ subtree ∈ subtrees, IsSubtree indent subtree)
    {current : List Line} (started : current ≠ []) :
    splitSubtrees indent current subtrees.flatten = current :: subtrees := by
  induction subtrees generalizing current with
  | nil => simp [splitSubtrees_nil, started]
  | cons subtree subtrees later =>
      obtain ⟨⟨first, rest, rfl, same, other⟩, others⟩ := List.forall_mem_cons.mp separate
      rw [List.flatten_cons, List.cons_append, splitSubtrees_cons, if_pos ⟨same, started⟩, splitSubtrees_rest other,
        List.singleton_append, later others (List.cons_ne_nil _ _)]

/-- The split gives back subtrees that follow each other. -/
theorem splitSubtrees_flatten {subtrees : List (List Line)}
    (separate : ∀ subtree ∈ subtrees, IsSubtree indent subtree) :
    splitSubtrees indent [] subtrees.flatten = subtrees := by
  cases subtrees with
  | nil => simp [splitSubtrees_nil]
  | cons subtree subtrees =>
      obtain ⟨⟨first, rest, rfl, _, other⟩, others⟩ := List.forall_mem_cons.mp separate
      rw [List.flatten_cons, List.cons_append, splitSubtrees_cons, if_neg fun starts => starts.2 rfl,
        splitSubtrees_rest other]
      exact splitSubtrees_behind others (by simp)

theorem flatten_splitSubtrees (current lines : List Line) :
    (splitSubtrees indent current lines).flatten = current ++ lines := by
  induction lines generalizing current with
  | nil =>
      rw [splitSubtrees_nil]
      split
      case isTrue empty => simp [empty]
      case isFalse => simp
  | cons line lines later =>
      rw [splitSubtrees_cons]
      split
      · rw [List.flatten_cons, later, List.singleton_append]
      · rw [later, List.append_assoc, List.singleton_append]

/-- Each part of a split starts at the indentation that it was split at. -/
theorem splitSubtrees_head {first : Line} (same : getIndentLevel first = indent) (current lines : List Line) :
    ∀ subtree ∈ splitSubtrees indent (first :: current) lines,
      ∃ head rest, subtree = head :: rest ∧ getIndentLevel head = indent := by
  induction lines generalizing first current with
  | nil =>
      intro subtree member
      rw [splitSubtrees_nil, if_neg (List.cons_ne_nil _ _), List.mem_singleton] at member
      exact ⟨first, current, member, same⟩
  | cons line lines later =>
      rw [splitSubtrees_cons]
      by_cases starts : getIndentLevel line = indent ∧ first :: current ≠ []
      · rw [if_pos starts]
        exact List.forall_mem_cons.mpr ⟨⟨first, current, rfl, same⟩, later starts.1 []⟩
      · rw [if_neg starts]
        exact later same (current ++ [line])

theorem splitSubtrees_ne_nil {current : List Line} (started : current ≠ []) (lines : List Line) :
    splitSubtrees indent current lines ≠ [] := by
  induction lines generalizing current with
  | nil => simp [splitSubtrees_nil, started]
  | cons line lines later =>
      rw [splitSubtrees_cons]
      split
      · exact List.cons_ne_nil _ _
      · exact later (by simp)

/-- The sorted lines below a union start at the indentation of its first child. -/
theorem head_sortChildren (first : Line) (rest : List Line) :
    ∃ head behind, sortChildren (first :: rest) = head :: behind ∧ getIndentLevel head = getIndentLevel first := by
  have start : splitSubtrees (getIndentLevel first) [] (first :: rest) =
      splitSubtrees (getIndentLevel first) [first] rest := by
    rw [splitSubtrees_cons, if_neg fun starts => starts.2 rfl, List.nil_append]
  rw [sortChildren, start]
  cases sorted : sortSubtrees (splitSubtrees (getIndentLevel first) [first] rest) with
  | nil =>
      have empty := (perm_sortSubtrees _).symm.trans (.of_eq sorted)
      exact absurd empty.eq_nil (splitSubtrees_ne_nil (List.cons_ne_nil _ _) rest)
  | cons subtree others =>
      have member : subtree ∈ splitSubtrees (getIndentLevel first) [first] rest :=
        (perm_sortSubtrees _).subset (sorted ▸ List.mem_cons_self)
      obtain ⟨head, behind, rfl, same⟩ := splitSubtrees_head rfl [] rest subtree member
      exact ⟨head, behind ++ others.flatten, rfl, same⟩

theorem perm_sortChildren (lines : List Line) : (sortChildren lines).Perm lines := by
  cases lines with
  | nil => exact .refl _
  | cons first rest =>
      have split := (perm_sortSubtrees (splitSubtrees (getIndentLevel first) [] (first :: rest))).flatten
      rwa [flatten_splitSubtrees, List.nil_append] at split

/-- The loop drops no line and adds none. -/
theorem perm_sortLines (lines : List Line) : (sortLines lines).Perm lines := by
  induction length : lines.length using Nat.strong_induction_on generalizing lines with
  | _ size shorter =>
      cases lines with
      | nil => simp [sortLines]
      | cons line rest =>
          rw [sortLines_cons]
          by_cases union : containsUnion line
          · have shrinks : (rest.dropWhile (deeper line)).length < size := by
              rw [← length]
              exact Nat.lt_succ_of_le (List.dropWhile_suffix _).length_le
            have parts := (perm_sortChildren (rest.takeWhile (deeper line))).append (shorter _ shrinks _ rfl)
            rw [List.takeWhile_append_dropWhile] at parts
            rw [if_pos union]
            exact parts.cons line
          · rw [if_neg union]
            exact (shorter rest.length (by simp [← length]) rest rfl).cons line

end Splitting

section Sorting

/-- The order of the subtrees does not matter to the sorted ones. -/
theorem sortSubtrees_eq_of_perm {first second : List (List Line)} (same : first.Perm second)
    (whole : ∀ subtree ∈ first, subtree ≠ [] ∧ Whole subtree) : sortSubtrees first = sortSubtrees second := by
  have sorted (subtrees : List (List Line)) : (sortSubtrees subtrees).Pairwise fun one two => join one ≤ join two :=
    List.pairwise_insertionSort _ subtrees
  have permuted : (sortSubtrees first).Perm (sortSubtrees second) :=
    (perm_sortSubtrees first).trans (same.trans (perm_sortSubtrees second).symm)
  refine List.Perm.eq_of_pairwise (fun one two oneMem twoMem below above => ?_) (sorted first) (sorted second) permuted
  obtain ⟨oneNonempty, oneWhole⟩ := whole one ((perm_sortSubtrees first).subset oneMem)
  obtain ⟨twoNonempty, twoWhole⟩ := whole two (same.symm.subset ((perm_sortSubtrees second).subset twoMem))
  exact join_injective oneWhole twoWhole oneNonempty twoNonempty (le_antisymm below above)

theorem sortChildren_flatten {indent : Nat} {subtrees : List (List Line)}
    (separate : ∀ subtree ∈ subtrees, IsSubtree indent subtree) :
    sortChildren subtrees.flatten = (sortSubtrees subtrees).flatten := by
  cases subtrees with
  | nil => rfl
  | cons subtree subtrees =>
      have split := splitSubtrees_flatten separate
      obtain ⟨first, rest, rfl, same, _⟩ := separate subtree List.mem_cons_self
      rw [List.flatten_cons, List.cons_append] at split ⊢
      rw [sortChildren, same, split]

end Sorting

section Plans

/-- All the trees at the top start at one indentation. -/
def Aligned (plan : Outline Line) : Prop :=
  ∀ first ∈ plan.trees, ∀ second ∈ plan.trees, getIndentLevel first.1 = getIndentLevel second.1

/-- Below each outermost union the subtrees are aligned, and below each union in one of them they are equal. -/
def Settled : Outline Line → Prop
  | .nil => True
  | .cons line below beside =>
      (containsUnion line → Aligned below ∧ below.Uniform containsUnion) ∧ (¬containsUnion line → Settled below) ∧
        Settled beside

def sortTrees (trees : List (Line × Outline Line)) : List (Line × Outline Line) :=
  trees.insertionSort fun first second => join (Outline.treeLines first) ≤ join (Outline.treeLines second)

/-- The subtrees below each outermost union are sorted. -/
def sortedPlan : Outline Line → Outline Line
  | .nil => .nil
  | .cons line below beside =>
      .cons line (if containsUnion line then .ofTrees (sortTrees below.trees) else sortedPlan below) (sortedPlan beside)

theorem perm_sortTrees (trees : List (Line × Outline Line)) : (sortTrees trees).Perm trees :=
  List.perm_insertionSort _ trees

theorem lines_sortTrees (plan : Outline Line) :
    (Outline.ofTrees (sortTrees plan.trees)).lines = (sortSubtrees plan.subtrees).flatten := by
  rw [← Outline.flatten_subtrees, Outline.subtrees, Outline.trees_ofTrees, Outline.subtrees, sortSubtrees]
  exact congrArg List.flatten (List.map_insertionSort _ _ _ _ fun _ _ _ _ => Iff.rfl)

variable {plan other : Outline Line}

theorem isSubtree_of_nested (nested : plan.Nested deeper) {indent : Nat}
    (aligned : ∀ tree ∈ plan.trees, getIndentLevel tree.1 = indent) :
    ∀ subtree ∈ plan.subtrees, IsSubtree indent subtree := by
  intro subtree member
  obtain ⟨tree, treeMem, rfl⟩ := List.mem_map.mp member
  refine ⟨tree.1, tree.2.lines, rfl, aligned tree treeMem, fun line lineMem => ?_⟩
  have lower := Outline.forall_of_nested nested tree treeMem line lineMem
  simp only [deeper, isChildLine, aligned tree treeMem, Bool.and_eq_true, decide_eq_true_eq] at lower
  exact Nat.ne_of_gt lower.2

theorem exists_indent (aligned : Aligned plan) : ∃ indent, ∀ tree ∈ plan.trees, getIndentLevel tree.1 = indent := by
  cases trees : plan.trees with
  | nil => exact ⟨0, by simp⟩
  | cons first rest =>
      refine ⟨getIndentLevel first.1, fun tree member => ?_⟩
      exact aligned tree (trees ▸ member) first (trees ▸ List.mem_cons_self)

theorem mem_lines_of_subtrees {subtree : List Line} (member : subtree ∈ plan.subtrees) : subtree ⊆ plan.lines := by
  intro line inside
  rw [← Outline.flatten_subtrees]
  exact List.mem_flatten_of_mem member inside

/-- The loop sorts the lines of a union whose subtrees are aligned, in whatever order they stand. -/
theorem sortChildren_of_perm (nested : plan.Nested deeper) (whole : Whole plan.lines) (aligned : Aligned plan)
    (placed : plan.subtrees.Perm other.subtrees) : sortChildren other.lines = (sortSubtrees plan.subtrees).flatten := by
  obtain ⟨indent, same⟩ := exists_indent aligned
  have separate := isSubtree_of_nested nested same
  have wholeSubtrees : ∀ subtree ∈ plan.subtrees, subtree ≠ [] ∧ Whole subtree := fun subtree member =>
    ⟨Outline.ne_nil_of_mem_subtrees member, fun line inside => whole line (mem_lines_of_subtrees member inside)⟩
  rw [← Outline.flatten_subtrees,
    sortChildren_flatten fun subtree member => separate subtree (placed.symm.subset member),
    sortSubtrees_eq_of_perm placed wholeSubtrees]

theorem outside_of_nested {line : Line} {below beside : Outline Line}
    (nested : (Outline.cons line below beside).Nested deeper) :
    ∀ inner ∈ below.lines, ∀ next ∈ beside.lines.head?, deeper inner next = false := by
  intro inner member next isNext
  refine Bool.eq_false_iff.mpr fun lower => ?_
  have through := deeper_transitive line inner next (nested.1 inner member) lower
  rw [nested.2.1 next isNext] at through
  contradiction

/-- The loop sorts the lines below a line on their own, whatever their order is. -/
theorem sortLines_outline {line : Line} {below beside moved others : Outline Line}
    (nested : (Outline.cons line below beside).Nested deeper) (permuted : below.lines.Perm moved.lines)
    (head : others.lines.head? = beside.lines.head?) :
    sortLines (Outline.cons line moved others).lines =
      line :: ((if containsUnion line then sortChildren moved.lines else sortLines moved.lines) ++
        sortLines others.lines) := by
  have outside := outside_of_nested nested
  obtain ⟨isDeeper, next, _, _⟩ := nested
  rw [← head] at next outside
  rw [Outline.lines_cons, sortLines_cons]
  by_cases union : containsUnion line
  · obtain ⟨taken, dropped⟩ := span_append next moved.lines
    have inside : ∀ inner ∈ moved.lines, deeper line inner := fun inner member =>
      isDeeper inner (permuted.symm.subset member)
    rw [if_pos union, if_pos union, taken, dropped, List.takeWhile_eq_self_iff.mpr inside,
      List.dropWhile_eq_nil_iff.mpr inside, List.nil_append]
  · rw [if_neg union, if_neg union, sortLines_append fun inner member => outside inner (permuted.symm.subset member)]

/-- The loop sorts the lines of a settled plan, in whatever order the subtrees of its unions stand. -/
theorem sortLines_of_reordered (reordered : Outline.Reordered containsUnion plan other) (nested : plan.Nested deeper)
    (whole : Whole plan.lines) (settled : Settled plan) : sortLines other.lines = (sortedPlan plan).lines := by
  induction reordered with
  | nil => simp [sortLines, sortedPlan]
  | @cons line below between moved beside others reordered placed rest inner later =>
      have permuted : below.lines.Perm moved.lines := Outline.perm_moved reordered.perm_lines placed
      obtain ⟨wholeBelow, wholeBeside⟩ := List.forall_mem_append.mp (List.forall_mem_cons.mp whole).2
      obtain ⟨atUnion, elsewhere, settledBeside⟩ := settled
      rw [sortLines_outline nested permuted rest.head, later nested.2.2.2 wholeBeside settledBeside, sortedPlan,
        Outline.lines_cons]
      by_cases union : containsUnion line
      · obtain ⟨aligned, uniform⟩ := atUnion union
        have subtrees : below.subtrees.Perm moved.subtrees := by
          rw [← reordered.subtrees_eq uniform]
          rcases placed with rfl | ⟨_, placed⟩
          · exact .refl _
          · exact Outline.perm_subtrees placed
        rw [if_pos union, if_pos union, lines_sortTrees, sortChildren_of_perm nested.2.2.1 wholeBelow aligned subtrees]
      · obtain rfl : between = moved := placed.resolve_right fun moves => union moves.1
        rw [if_neg union, if_neg union, inner nested.2.2.1 wholeBelow (elsewhere union)]

/-- The sorted plan moves whole subtrees of unions. -/
theorem shuffled_sortedPlan (plan : Outline Line) : Outline.Shuffled containsUnion plan (sortedPlan plan) := by
  induction plan with
  | nil => exact .nil
  | cons line below beside inner later =>
      rw [sortedPlan]
      by_cases union : containsUnion line
      · rw [if_pos union]
        exact .moved union (by simpa using (perm_sortTrees below.trees).symm) later
      · rw [if_neg union]
        exact .kept inner later

/-- Subtrees that are sorted to the same lines in every order start at one indentation. -/
theorem aligned_of_fixed
    (fixed : ∀ other : Outline Line, plan.trees.Perm other.trees → sortChildren other.lines = sortChildren plan.lines) :
    Aligned plan := by
  have head (tree : Line × Outline Line) (member : tree ∈ plan.trees) :
      ∃ head behind, sortChildren plan.lines = head :: behind ∧ getIndentLevel head = getIndentLevel tree.1 := by
    obtain ⟨rest, placed⟩ := Outline.exists_perm_front member
    obtain ⟨head, behind, sorted, same⟩ := head_sortChildren tree.1 (tree.2.lines ++ (Outline.ofTrees rest).lines)
    refine ⟨head, behind, ?_, same⟩
    rw [← fixed (.ofTrees (tree :: rest)) (by simpa using placed)]
    exact sorted
  intro first firstMem second secondMem
  obtain ⟨one, _, sortedOne, sameOne⟩ := head first firstMem
  obtain ⟨two, _, sortedTwo, sameTwo⟩ := head second secondMem
  obtain ⟨rfl, _⟩ := List.cons.inj (sortedOne.symm.trans sortedTwo)
  exact sameOne.symm.trans sameTwo

theorem isSubtree_of_reordered (reordered : Outline.Reordered containsUnion plan other) (nested : plan.Nested deeper)
    {indent : Nat} (aligned : ∀ tree ∈ plan.trees, getIndentLevel tree.1 = indent) :
    ∀ subtree ∈ other.subtrees, IsSubtree indent subtree := by
  intro subtree member
  obtain ⟨tree, treeMem, rfl⟩ := List.mem_map.mp member
  obtain ⟨origin, originMem, root, permuted⟩ := reordered.exists_tree tree treeMem
  obtain ⟨first, rest, same, starts, others⟩ :=
    isSubtree_of_nested nested aligned _ (List.mem_map_of_mem (f := Outline.treeLines) originMem)
  obtain ⟨rfl, rfl⟩ := List.cons.inj same
  exact ⟨tree.1, tree.2.lines, rfl, root ▸ starts, fun line inside => others line (permuted.symm.subset inside)⟩

/-- Subtrees that are sorted to the same lines in every order have equal subtrees below each union in them. -/
theorem uniform_of_fixed (nested : plan.Nested deeper) (aligned : Aligned plan)
    (fixed : ∀ other, Outline.Reordered containsUnion plan other →
      sortChildren other.lines = sortChildren plan.lines) : plan.Uniform containsUnion := by
  obtain ⟨indent, same⟩ := exists_indent aligned
  have sorted (other : Outline Line) (reordered : Outline.Reordered containsUnion plan other) :
      splitSubtrees indent [] (sortChildren other.lines) = sortSubtrees other.subtrees := by
    have separate := isSubtree_of_reordered reordered nested same
    rw [← Outline.flatten_subtrees, sortChildren_flatten separate]
    exact splitSubtrees_flatten fun subtree member => separate subtree ((perm_sortSubtrees _).subset member)
  have permuted (other : Outline Line) (reordered : Outline.Reordered containsUnion plan other) :
      other.subtrees.Perm plan.subtrees := by
    refine (perm_sortSubtrees _).symm.trans (.trans (.of_eq ?_) (perm_sortSubtrees _))
    rw [← sorted other reordered, ← sorted plan (.refl plan), fixed other reordered]
  refine Outline.uniform_of_lines deeper_irreflexive nested fun other reordered => ?_
  rw [← Outline.flatten_subtrees, ← Outline.flatten_subtrees, Outline.subtrees_eq_of_perm permuted reordered]

/-- A plan whose sorted lines do not depend on the order of the subtrees is settled. -/
theorem settled_of_fixed (nested : plan.Nested deeper)
    (fixed : ∀ other, Outline.Reordered containsUnion plan other → sortLines other.lines = sortLines plan.lines) :
    Settled plan := by
  induction plan with
  | nil => trivial
  | cons line below beside inner later =>
      have start := sortLines_outline nested (.refl below.lines) (rfl : beside.lines.head? = beside.lines.head?)
      have kept (moved others : Outline Line) (permuted : below.lines.Perm moved.lines)
          (head : others.lines.head? = beside.lines.head?)
          (reordered : Outline.Reordered containsUnion (.cons line below beside) (.cons line moved others)) :
          (if containsUnion line then sortChildren moved.lines else sortLines moved.lines) ++ sortLines others.lines =
            (if containsUnion line then sortChildren below.lines else sortLines below.lines) ++
              sortLines beside.lines := by
        have same := fixed _ reordered
        rw [sortLines_outline nested permuted head, start] at same
        exact (List.cons.inj same).2
      have besideFixed (other : Outline Line) (reordered : Outline.Reordered containsUnion beside other) :
          sortLines other.lines = sortLines beside.lines :=
        List.append_cancel_left (kept below other (.refl _) reordered.head (.cons (.refl below) (.inl rfl) reordered))
      refine ⟨fun union => ?_, fun plain => ?_, later nested.2.2.2 besideFixed⟩
      · have belowFixed (between moved : Outline Line) (reordered : Outline.Reordered containsUnion below between)
            (placed : between.trees.Perm moved.trees) : sortChildren moved.lines = sortChildren below.lines := by
          have same := kept moved beside (Outline.perm_moved reordered.perm_lines (.inr ⟨union, placed⟩)) rfl
            (.cons reordered (.inr ⟨union, placed⟩) (.refl beside))
          rw [if_pos union, if_pos union] at same
          exact List.append_cancel_right same
        have aligned : Aligned below := aligned_of_fixed fun other placed => belowFixed below other (.refl below) placed
        exact ⟨aligned, uniform_of_fixed nested.2.2.1 aligned fun other reordered =>
          belowFixed other other reordered (.refl _)⟩
      · refine inner nested.2.2.1 fun other reordered => ?_
        have same := kept other beside reordered.perm_lines rfl (.cons reordered (.inl rfl) (.refl beside))
        rw [if_neg plain, if_neg plain] at same
        exact List.append_cancel_right same

end Plans

end Spicebench.Snapshot
