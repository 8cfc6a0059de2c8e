/-
This file recovers trees from a list of lines and moves the trees that stand below a line.
-/

import Mathlib.Data.List.Perm.Basic
import Mathlib.Data.List.Flatten

namespace Spicebench.Library

/-- An outline is empty, or a line with the outline below it and the outline beside it. -/
inductive Outline (Line : Type) where
  | nil
  | cons (line : Line) (below beside : Outline Line)

namespace Outline

variable {Line : Type}

def lines : Outline Line → List Line
  | nil => []
  | cons line below beside => line :: (below.lines ++ beside.lines)

/-- The trees at the top. -/
def trees : Outline Line → List (Line × Outline Line)
  | nil => []
  | cons line below beside => (line, below) :: beside.trees

def ofTrees : List (Line × Outline Line) → Outline Line
  | [] => nil
  | (line, below) :: rest => cons line below (ofTrees rest)

def treeLines (tree : Line × Outline Line) : List Line := tree.1 :: tree.2.lines

/-- The lines of each tree at the top. -/
def subtrees (outline : Outline Line) : List (List Line) := outline.trees.map treeLines

@[simp] theorem lines_nil : (nil : Outline Line).lines = [] := rfl

@[simp] theorem lines_cons (line : Line) (below beside : Outline Line) :
    (cons line below beside).lines = line :: (below.lines ++ beside.lines) := rfl

@[simp] theorem subtrees_nil : (nil : Outline Line).subtrees = [] := rfl

@[simp] theorem subtrees_cons (line : Line) (below beside : Outline Line) :
    (cons line below beside).subtrees = (line :: below.lines) :: beside.subtrees := rfl

@[simp] theorem trees_ofTrees (trees : List (Line × Outline Line)) : (ofTrees trees).trees = trees := by
  induction trees with
  | nil => rfl
  | cons tree rest same => exact congrArg (tree :: ·) same

theorem flatten_subtrees (outline : Outline Line) : outline.subtrees.flatten = outline.lines := by
  induction outline with
  | nil => rfl
  | cons line below beside _ same => rw [subtrees_cons, List.flatten_cons, same, lines_cons, List.cons_append]

theorem ne_nil_of_mem_subtrees {outline : Outline Line} {subtree : List Line} (member : subtree ∈ outline.subtrees) :
    subtree ≠ [] := by
  obtain ⟨tree, _, rfl⟩ := List.mem_map.mp member
  exact List.cons_ne_nil _ _

theorem perm_subtrees {first second : Outline Line} (moved : first.trees.Perm second.trees) :
    first.subtrees.Perm second.subtrees := moved.map treeLines

theorem perm_lines {first second : Outline Line} (moved : first.trees.Perm second.trees) :
    first.lines.Perm second.lines := by
  rw [← flatten_subtrees, ← flatten_subtrees]
  exact (perm_subtrees moved).flatten

section Recovery

variable (deeper : Line → Line → Bool)

def takeWhile (member : Line → Bool) : Outline Line → Outline Line
  | nil => nil
  | cons line below beside => if member line then cons line below (beside.takeWhile member) else nil

def dropWhile (member : Line → Bool) : Outline Line → Outline Line
  | nil => nil
  | cons line below beside => if member line then beside.dropWhile member else cons line below beside

@[simp] theorem takeWhile_nil (member : Line → Bool) : takeWhile member nil = nil := rfl

@[simp] theorem takeWhile_cons (member : Line → Bool) (line : Line) (below beside : Outline Line) :
    (cons line below beside).takeWhile member =
      if member line then cons line below (beside.takeWhile member) else nil := rfl

@[simp] theorem dropWhile_nil (member : Line → Bool) : dropWhile member nil = nil := rfl

@[simp] theorem dropWhile_cons (member : Line → Bool) (line : Line) (below beside : Outline Line) :
    (cons line below beside).dropWhile member =
      if member line then beside.dropWhile member else cons line below beside := rfl

/-- The trees behind a line stand below it as long as their first lines are deeper. -/
def recover : List Line → Outline Line
  | [] => nil
  | line :: rest => cons line ((recover rest).takeWhile (deeper line)) ((recover rest).dropWhile (deeper line))

/-- All the lines below a line are deeper, and the next line beside it is not. -/
def Nested : Outline Line → Prop
  | nil => True
  | cons line below beside =>
      (∀ inner ∈ below.lines, deeper line inner) ∧ (∀ next ∈ beside.lines.head?, deeper line next = false) ∧
        below.Nested ∧ beside.Nested

theorem takeWhile_append_dropWhile (member : Line → Bool) (outline : Outline Line) :
    (outline.takeWhile member).lines ++ (outline.dropWhile member).lines = outline.lines := by
  induction outline with
  | nil => rfl
  | cons line below beside _ same =>
      by_cases inside : member line
      · simp [inside, same]
      · simp [inside]

/-- The outline of a list of lines has these lines. -/
theorem lines_recover (lines : List Line) : (recover deeper lines).lines = lines := by
  induction lines with
  | nil => rfl
  | cons line rest same => rw [recover, lines_cons, takeWhile_append_dropWhile, same]

variable {deeper}

theorem Nested.takeWhile {outline : Outline Line} (nested : outline.Nested deeper) (member : Line → Bool) :
    (outline.takeWhile member).Nested deeper := by
  induction outline with
  | nil => trivial
  | cons line below beside _ later =>
      obtain ⟨inner, next, under, others⟩ := nested
      by_cases inside : member line
      · rw [takeWhile_cons, if_pos inside]
        refine ⟨inner, fun first isFirst => next first ?_, under, later others⟩
        cases beside with
        | nil => exact isFirst
        | cons second below beside =>
            by_cases inside : member second <;> simp_all
      · rw [takeWhile_cons, if_neg inside]
        trivial

theorem Nested.dropWhile {outline : Outline Line} (nested : outline.Nested deeper) (member : Line → Bool) :
    (outline.dropWhile member).Nested deeper := by
  induction outline with
  | nil => trivial
  | cons line below beside _ later =>
      by_cases inside : member line
      · rw [dropWhile_cons, if_pos inside]
        exact later nested.2.2.2
      · rw [dropWhile_cons, if_neg inside]
        exact nested

theorem head_dropWhile {member : Line → Bool} {outline : Outline Line} :
    ∀ next ∈ (outline.dropWhile member).lines.head?, member next = false := by
  induction outline with
  | nil => simp
  | cons line below beside _ later =>
      by_cases inside : member line
      · rw [dropWhile_cons, if_pos inside]
        exact later
      · simp [inside]

variable (transitive : ∀ first second third, deeper first second → deeper second third → deeper first third)

include transitive

theorem mem_takeWhile {line : Line} {outline : Outline Line} (nested : outline.Nested deeper) :
    ∀ inner ∈ (outline.takeWhile (deeper line)).lines, deeper line inner := by
  induction outline with
  | nil => simp
  | cons first below beside _ later =>
      by_cases inside : deeper line first
      · rw [takeWhile_cons, if_pos inside, lines_cons]
        have under : ∀ inner ∈ below.lines, deeper line inner := fun inner member =>
          transitive line first inner inside (nested.1 inner member)
        exact List.forall_mem_cons.mpr ⟨inside, List.forall_mem_append.mpr ⟨under, later nested.2.2.2⟩⟩
      · simp [inside]

/-- The outline that is recovered from lines is nested by their depths. -/
theorem nested_recover (lines : List Line) : (recover deeper lines).Nested deeper := by
  induction lines with
  | nil => trivial
  | cons line rest nested =>
      exact ⟨mem_takeWhile transitive nested, head_dropWhile, nested.takeWhile _, nested.dropWhile _⟩

end Recovery

section Reordering

variable (movable : Line → Prop)

/-- The trees below movable lines stand in another order, at any depth. -/
inductive Reordered : Outline Line → Outline Line → Prop
  | nil : Reordered nil nil
  | cons {line : Line} {below between moved beside others : Outline Line} (inner : Reordered below between)
      (placed : between = moved ∨ movable line ∧ between.trees.Perm moved.trees) (later : Reordered beside others) :
      Reordered (cons line below beside) (cons line moved others)

/-- The trees below movable lines stand in another order, and each tree that is moved is kept as it is. -/
inductive Shuffled : Outline Line → Outline Line → Prop
  | nil : Shuffled nil nil
  | kept {line : Line} {below under beside others : Outline Line} (inner : Shuffled below under)
      (later : Shuffled beside others) : Shuffled (cons line below beside) (cons line under others)
  | moved {line : Line} {below moved beside others : Outline Line} (isMovable : movable line)
      (placed : below.trees.Perm moved.trees) (later : Shuffled beside others) :
      Shuffled (cons line below beside) (cons line moved others)

/-- Below each movable line all trees have the same lines. -/
def Uniform : Outline Line → Prop
  | nil => True
  | cons line below beside =>
      (movable line → ∀ first ∈ below.subtrees, ∀ second ∈ below.subtrees, first = second) ∧
        below.Uniform ∧ beside.Uniform

variable {movable} {outline other : Outline Line}

theorem Reordered.refl (outline : Outline Line) : Reordered movable outline outline := by
  induction outline with
  | nil => exact .nil
  | cons line below beside inner later => exact .cons inner (.inl rfl) later

theorem Shuffled.refl (outline : Outline Line) : Shuffled movable outline outline := by
  induction outline with
  | nil => exact .nil
  | cons line below beside inner later => exact .kept inner later

theorem Shuffled.reordered (shuffled : Shuffled movable outline other) : Reordered movable outline other := by
  induction shuffled with
  | nil => exact .nil
  | kept _ _ inner later => exact .cons inner (.inl rfl) later
  | moved isMovable placed _ later => exact .cons (.refl _) (.inr ⟨isMovable, placed⟩) later

theorem perm_moved {line : Line} {below between moved : Outline Line} (inner : below.lines.Perm between.lines)
    (placed : between = moved ∨ movable line ∧ between.trees.Perm moved.trees) : below.lines.Perm moved.lines := by
  rcases placed with rfl | ⟨_, placed⟩
  · exact inner
  · exact inner.trans (perm_lines placed)

theorem Reordered.perm_lines (reordered : Reordered movable outline other) : outline.lines.Perm other.lines := by
  induction reordered with
  | nil => exact .nil
  | @cons line _ _ _ _ _ _ placed _ inner later => exact ((perm_moved inner placed).append later).cons line

/-- Each tree at the top of a reordered outline has the lines of a tree with the same first line. -/
theorem Reordered.exists_tree (reordered : Reordered movable outline other) :
    ∀ tree ∈ other.trees, ∃ origin ∈ outline.trees, origin.1 = tree.1 ∧ origin.2.lines.Perm tree.2.lines := by
  induction reordered with
  | nil => simp [trees]
  | @cons line below _ _ _ _ inner placed _ _ later =>
      refine List.forall_mem_cons.mpr ⟨⟨(line, below), List.mem_cons_self, rfl, ?_⟩, fun tree member => ?_⟩
      · exact perm_moved inner.perm_lines placed
      · obtain ⟨origin, originMem, same⟩ := later tree member
        exact ⟨origin, List.mem_cons_of_mem _ originMem, same⟩

theorem Reordered.head (reordered : Reordered movable outline other) : other.lines.head? = outline.lines.head? := by
  cases reordered with
  | nil => rfl
  | cons => rfl

theorem eq_of_perm_constant {Item : Type} {first second : List Item} (same : first.Perm second)
    (constant : ∀ one ∈ first, ∀ two ∈ first, one = two) : second = first := by
  cases first with
  | nil => exact same.nil_eq.symm
  | cons item rest =>
      have copies : item :: rest = List.replicate (item :: rest).length item :=
        List.eq_replicate_iff.mpr ⟨rfl, fun one member => constant one member item List.mem_cons_self⟩
      rw [copies] at same ⊢
      exact List.perm_replicate.mp same.symm

/-- Moving equal trees changes no line. -/
theorem Reordered.subtrees_eq (reordered : Reordered movable outline other) (uniform : outline.Uniform movable) :
    other.subtrees = outline.subtrees := by
  induction reordered with
  | nil => rfl
  | @cons line below between moved beside others _ placed _ inner later =>
      obtain ⟨equal, under, rest⟩ := uniform
      have same : moved.subtrees = below.subtrees := by
        rcases placed with rfl | ⟨isMovable, placed⟩
        · exact inner under
        · have placed := perm_subtrees placed
          rw [inner under] at placed
          exact eq_of_perm_constant placed (equal isMovable)
      rw [subtrees_cons, subtrees_cons, later rest, ← flatten_subtrees, ← flatten_subtrees, same]

/-- If a reordering only moves the trees at the top as a whole, it leaves them where they are. -/
theorem subtrees_eq_of_perm
    (whole : ∀ other, Reordered movable outline other → other.subtrees.Perm outline.subtrees)
    (reordered : Reordered movable outline other) : other.subtrees = outline.subtrees := by
  induction outline generalizing other with
  | nil =>
      cases reordered
      rfl
  | cons line below beside _ later =>
      cases reordered with
      | @cons _ _ between moved _ others inner placed rest =>
          have first : List.Perm ([line :: moved.lines] ++ beside.subtrees)
              ([line :: below.lines] ++ beside.subtrees) := whole _ (.cons inner placed (.refl beside))
          have same : moved.lines = below.lines := by
            simpa using List.singleton_perm_singleton.mp ((List.perm_append_right_iff _).mp first)
          have tail : others.subtrees = beside.subtrees :=
            later (fun other reordered => by simpa using whole _ (.cons (.refl below) (.inl rfl) reordered)) rest
          rw [subtrees_cons, subtrees_cons, same, tail]

variable {deeper : Line → Line → Bool}

/-- Two trees beside each other are equal if they can change places. -/
theorem eq_of_append_comm (irreflexive : ∀ line, deeper line line = false) {line mark : Line} {first second : List Line}
    (belowLine : ∀ inner ∈ first, deeper line inner) (belowMark : ∀ inner ∈ second, deeper mark inner)
    {rest : List Line}
    (swapped : (line :: first) ++ ((mark :: second) ++ rest) = (mark :: second) ++ ((line :: first) ++ rest)) :
    line :: first = mark :: second := by
  obtain ⟨rfl, swapped⟩ := List.cons.inj swapped
  have notFirst : line ∉ first := fun member => by simpa [irreflexive] using belowLine line member
  have notSecond : line ∉ second := fun member => by simpa [irreflexive] using belowMark line member
  congr 1
  rcases List.append_eq_append_iff.mp swapped with ⟨part, rfl, later⟩ | ⟨part, rfl, later⟩
  · cases part with
    | nil => simp
    | cons next part =>
        obtain ⟨rfl, _⟩ := List.cons.inj later
        exact absurd (by simp) notSecond
  · cases part with
    | nil => simp
    | cons next part =>
        obtain ⟨rfl, _⟩ := List.cons.inj later
        exact absurd (by simp) notFirst

theorem exists_perm_front {Item : Type} {items : List Item} {item : Item} (member : item ∈ items) :
    ∃ rest, items.Perm (item :: rest) := by
  obtain ⟨front, back, rfl⟩ := List.append_of_mem member
  exact ⟨front ++ back, List.perm_middle⟩

/-- Two different trees of an outline stand in front of the others in one order and in the other order. -/
theorem exists_perm_pair {Item : Type} {items : List Item} {first second : Item} (one : first ∈ items)
    (two : second ∈ items) (different : first ≠ second) : ∃ rest, items.Perm (first :: second :: rest) := by
  obtain ⟨rest, front⟩ := exists_perm_front one
  rcases List.mem_cons.mp (front.subset two) with rfl | inRest
  · exact absurd rfl different
  · obtain ⟨others, next⟩ := exists_perm_front inRest
    exact ⟨others, front.trans (next.cons first)⟩

theorem forall_of_nested (nested : outline.Nested deeper) :
    ∀ tree ∈ outline.trees, ∀ inner ∈ tree.2.lines, deeper tree.1 inner := by
  induction outline with
  | nil => simp [trees]
  | cons line below beside _ later => exact List.forall_mem_cons.mpr ⟨nested.1, later nested.2.2.2⟩

/-- An outline whose lines stay the same in every order has equal trees below its movable lines. -/
theorem uniform_of_lines (irreflexive : ∀ line, deeper line line = false) (nested : outline.Nested deeper)
    (same : ∀ other, Reordered movable outline other → other.lines = outline.lines) : outline.Uniform movable := by
  induction outline with
  | nil => trivial
  | cons line below beside inner later =>
      obtain ⟨_, _, under, others⟩ := nested
      have inside (moved : Outline Line)
          (placed : below = moved ∨ movable line ∧ below.trees.Perm moved.trees) : moved.lines = below.lines := by
        simpa using same _ (.cons (.refl below) placed (.refl beside))
      refine ⟨fun isMovable first firstMem second secondMem => ?_, inner under fun other reordered => ?_,
        later others fun other reordered => ?_⟩
      · obtain ⟨one, oneMem, rfl⟩ := List.mem_map.mp firstMem
        obtain ⟨two, twoMem, rfl⟩ := List.mem_map.mp secondMem
        by_contra different
        obtain ⟨rest, placed⟩ := exists_perm_pair oneMem twoMem fun equal => different (congrArg treeLines equal)
        have placedBack : below.trees.Perm (two :: one :: rest) := placed.trans (.swap _ _ _)
        have front := inside (ofTrees (one :: two :: rest)) (.inr ⟨isMovable, by simpa using placed⟩)
        have back := inside (ofTrees (two :: one :: rest)) (.inr ⟨isMovable, by simpa using placedBack⟩)
        have swapped : treeLines one ++ (treeLines two ++ (ofTrees rest).lines) =
            treeLines two ++ (treeLines one ++ (ofTrees rest).lines) := front.trans back.symm
        exact different (eq_of_append_comm irreflexive (forall_of_nested under one oneMem)
          (forall_of_nested under two twoMem) swapped)
      · simpa using same _ (.cons reordered (.inl rfl) (.refl beside))
      · simpa using same _ (.cons (.refl below) (.inl rfl) reordered)

end Reordering

end Outline

end Spicebench.Library
