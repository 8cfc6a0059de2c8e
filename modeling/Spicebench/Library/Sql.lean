import Mathlib.Data.List.Find

namespace Spicebench.Library.Sql

/-- A condition of SQL is true, false or unknown. -/
inductive Truth where
  | yes
  | no
  | unknown
  deriving DecidableEq, Repr

namespace Truth

def ofBool (value : Bool) : Truth := if value then .yes else .no

def and : Truth → Truth → Truth
  | .no, _ => .no
  | _, .no => .no
  | .yes, .yes => .yes
  | _, _ => .unknown

def or : Truth → Truth → Truth
  | .yes, _ => .yes
  | _, .yes => .yes
  | .no, .no => .no
  | _, _ => .unknown

def all (truths : List Truth) : Truth := truths.foldr and .yes

def any (truths : List Truth) : Truth := truths.foldr or .no

@[simp] theorem ofBool_eq_yes (value : Bool) : ofBool value = .yes ↔ value = true := by
  cases value <;> simp [ofBool]

@[simp] theorem and_eq_yes (first second : Truth) : first.and second = .yes ↔ first = .yes ∧ second = .yes := by
  cases first <;> cases second <;> decide

@[simp] theorem or_eq_yes (first second : Truth) : first.or second = .yes ↔ first = .yes ∨ second = .yes := by
  cases first <;> cases second <;> decide

@[simp] theorem all_eq_yes (truths : List Truth) : all truths = .yes ↔ ∀ truth ∈ truths, truth = .yes := by
  induction truths with
  | nil => simp [all]
  | cons truth rest ih =>
      rw [all] at ih
      simp [all, ih]

@[simp] theorem any_eq_yes (truths : List Truth) : any truths = .yes ↔ .yes ∈ truths := by
  induction truths with
  | nil => simp [any]
  | cons truth rest ih =>
      rw [any] at ih
      rw [any, List.foldr_cons, or_eq_yes, ih, List.mem_cons, eq_comm]

end Truth

section Cells

variable {Value : Type} [DecidableEq Value]

/-- A comparison with a NULL is unknown. -/
def equal : Option Value → Option Value → Truth
  | some first, some second => .ofBool (first = second)
  | _, _ => .unknown

omit [DecidableEq Value] in
def isNull (cell : Option Value) : Truth := .ofBool cell.isNone

/-- A row comparison is the conjunction of the comparisons of its cells. -/
def equalTuple (first second : List (Option Value)) : Truth := .all (List.zipWith equal first second)

def isIn (cell : Option Value) (cells : List (Option Value)) : Truth := .any (cells.map (equal cell))

/-- This is `(a = b OR (a IS NULL AND b IS NULL))`. -/
def nullSafeEqual (first second : Option Value) : Truth :=
  (equal first second).or ((isNull first).and (isNull second))

@[simp] theorem equal_eq_yes (first second : Option Value) :
    equal first second = .yes ↔ first = second ∧ first ≠ none := by
  cases first with
  | none => simp [equal]
  | some one =>
      cases second with
      | none => simp [equal]
      | some two => simp [equal]

omit [DecidableEq Value] in
@[simp] theorem isNull_eq_yes (cell : Option Value) : isNull cell = .yes ↔ cell = none := by
  simp [isNull]

@[simp] theorem isIn_eq_yes (cell : Option Value) (cells : List (Option Value)) :
    isIn cell cells = .yes ↔ cell ∈ cells ∧ cell ≠ none := by
  simp only [isIn, Truth.any_eq_yes, List.mem_map]
  constructor
  · rintro ⟨other, member, same⟩
    obtain ⟨rfl, some⟩ := (equal_eq_yes _ _).mp same
    exact ⟨member, some⟩
  · rintro ⟨member, some⟩
    exact ⟨cell, member, (equal_eq_yes _ _).mpr ⟨rfl, some⟩⟩

@[simp] theorem nullSafeEqual_eq_yes (first second : Option Value) :
    nullSafeEqual first second = .yes ↔ first = second := by
  cases first with
  | none =>
      simp only [nullSafeEqual, Truth.or_eq_yes, equal_eq_yes, Truth.and_eq_yes, isNull_eq_yes]
      simp [eq_comm]
  | some one => simp [nullSafeEqual]

/-- Two rows of the same columns are equal exactly when their cells are, and none of them is NULL. -/
theorem equalTuple_eq_yes {Column : Type} (columns : List Column) (first second : Column → Option Value) :
    equalTuple (columns.map first) (columns.map second) = .yes ↔
      ∀ column ∈ columns, first column = second column ∧ first column ≠ none := by
  rw [equalTuple, List.zipWith_map, Truth.all_eq_yes]
  constructor
  · intro every column member
    apply (equal_eq_yes _ _).mp
    apply every
    rw [List.zipWith_self]
    exact List.mem_map_of_mem member
  · intro every truth member
    rw [List.zipWith_self] at member
    obtain ⟨column, inside, rfl⟩ := List.mem_map.mp member
    exact (equal_eq_yes _ _).mpr (every column inside)

end Cells

section Tables

variable {Row Staged : Type}

/-- `DELETE … WHERE` removes the rows whose condition is true. -/
def deleteWhere (condition : Row → Truth) (rows : List Row) : List Row :=
  rows.filter fun row => condition row ≠ .yes

/-- `UPDATE … WHERE` changes the rows whose condition is true. -/
def updateWhere (condition : Row → Truth) (change : Row → Row) (rows : List Row) : List Row :=
  rows.map fun row => if condition row = .yes then change row else row

/-- `DELETE … USING` removes the rows that match some row of the other table. -/
def deleteUsing (condition : Row → Staged → Truth) (staged : List Staged) (rows : List Row) : List Row :=
  rows.filter fun row => ∀ other ∈ staged, condition row other ≠ .yes

/-- `UPDATE … FROM` changes each row by a row of the other table that it matches. -/
def updateFrom (condition : Row → Staged → Truth) (change : Row → Staged → Row) (staged : List Staged)
    (rows : List Row) : List Row :=
  rows.map fun row =>
    match staged.find? fun other => condition row other = .yes with
    | some other => change row other
    | none => row

/-- `MERGE` fails, here `none`, when a row matches more than one row of the source. -/
def mergeInto (condition : Row → Staged → Truth) (change : Row → Staged → Row) (staged : List Staged)
    (rows : List Row) : Option (List Row) :=
  if rows.all fun row => (staged.filter fun other => condition row other = .yes).length ≤ 1 then
    some (updateFrom condition change staged rows)
  else none

/-- A condition that says whether some staged row matches is a join. -/
theorem deleteWhere_eq_deleteUsing {condition : Row → Truth} {join : Row → Staged → Truth} {staged : List Staged}
    (same : ∀ row, condition row = .yes ↔ ∃ other ∈ staged, join row other = .yes) (rows : List Row) :
    deleteWhere condition rows = deleteUsing join staged rows := by
  apply List.filter_congr
  intro row _
  simp [same]

@[simp] theorem deleteUsing_nil (condition : Row → Staged → Truth) (rows : List Row) :
    deleteUsing condition [] rows = rows := by
  simp [deleteUsing]

/-- Deletes in a row remove what any of them names. -/
theorem deleteUsing_append (condition : Row → Staged → Truth) (first second : List Staged) (rows : List Row) :
    deleteUsing condition (first ++ second) rows = deleteUsing condition second (deleteUsing condition first rows) := by
  rw [deleteUsing, deleteUsing, deleteUsing, List.filter_filter]
  apply List.filter_congr
  intro row _
  rw [← Bool.decide_and, decide_eq_decide, List.forall_mem_append, and_comm]

theorem foldl_deleteUsing (condition : Row → Staged → Truth) (parts : List (List Staged)) (rows : List Row) :
    parts.foldl (fun rows part => deleteUsing condition part rows) rows =
      deleteUsing condition parts.flatten rows := by
  induction parts generalizing rows with
  | nil => simp
  | cons part rest ih => rw [List.foldl_cons, ih, List.flatten_cons, deleteUsing_append]

/-- Two joins delete the same rows exactly when they find a match for the same rows. -/
theorem deleteUsing_eq_iff (first second : Row → Staged → Truth) (staged : List Staged) (rows : List Row) :
    deleteUsing first staged rows = deleteUsing second staged rows ↔
      ∀ row ∈ rows, (∃ other ∈ staged, first row other = .yes) ↔ ∃ other ∈ staged, second row other = .yes := by
  constructor
  · intro same row member
    have kept : row ∈ deleteUsing first staged rows ↔ row ∈ deleteUsing second staged rows := by rw [same]
    simpa [deleteUsing, member, not_iff_not] using not_congr kept
  · intro agree
    apply List.filter_congr
    intro row member
    rw [decide_eq_decide]
    simpa using not_congr (agree row member)

/-- Updates in a row are one update from a table, when no row matches two of them and no update changes what a row
matches. -/
theorem foldl_updateWhere (condition : Row → Staged → Truth) (change : Row → Staged → Row) (staged : List Staged)
    (rows : List Row) (kept : ∀ row other later, condition (change row other) later = condition row later)
    (apart : staged.Pairwise fun first second => ∀ row, condition row first = .yes → condition row second ≠ .yes) :
    staged.foldl (fun rows other => updateWhere (condition · other) (change · other) rows) rows =
      updateFrom condition change staged rows := by
  induction staged generalizing rows with
  | nil => simp [updateFrom]
  | cons other rest ih =>
      obtain ⟨alone, later⟩ := List.pairwise_cons.mp apart
      rw [List.foldl_cons, ih _ later, updateFrom, updateWhere, List.map_map, updateFrom]
      apply List.map_congr_left
      intro row _
      by_cases matched : condition row other = .yes
      · have others : rest.find? (fun other => decide (condition row other = .yes)) = none := by
          rw [List.find?_eq_none]
          intro second member
          simpa using alone second member row matched
        simp [matched, kept, others]
      · simp [matched]

/-- Two joins that match the same rows update the same rows. -/
theorem updateFrom_congr {first second : Row → Staged → Truth} {change : Row → Staged → Row} {staged : List Staged}
    {rows : List Row} (same : ∀ row ∈ rows, ∀ other ∈ staged, first row other = .yes ↔ second row other = .yes) :
    updateFrom first change staged rows = updateFrom second change staged rows := by
  apply List.map_congr_left
  intro row member
  have found : staged.find? (fun other => first row other = .yes) =
      staged.find? (fun other => second row other = .yes) :=
    List.find?_congr fun other inside => decide_eq_decide.mpr (same row member other inside)
  simp only [found]

/-- A merge goes through when no row matches two rows of the source. -/
theorem mergeInto_eq (condition : Row → Staged → Truth) (change : Row → Staged → Row) (staged : List Staged)
    (rows : List Row)
    (apart : staged.Pairwise fun first second => ∀ row, condition row first = .yes → condition row second ≠ .yes) :
    mergeInto condition change staged rows = some (updateFrom condition change staged rows) := by
  refine if_pos ?_
  rw [List.all_eq_true]
  intro row _
  rw [decide_eq_true_eq]
  have single := (apart.filter fun other => condition row other = .yes)
  cases matching : staged.filter fun other => condition row other = .yes with
  | nil => simp
  | cons first more =>
      cases more with
      | nil => simp
      | cons second others =>
          rw [matching] at single
          have both : ∀ other ∈ first :: second :: others, condition row other = .yes := by
            intro other member
            rw [← matching] at member
            simpa using (List.mem_filter.mp member).2
          have differ := (List.pairwise_cons.mp single).1 second (by simp) row (both first (by simp))
          exact absurd (both second (by simp)) differ

/-- An update that keeps what a row matches changes nothing for a later one. -/
theorem all_updateFrom {condition : Row → Staged → Truth} {change : Row → Staged → Row}
    (kept : ∀ row other later, condition (change row other) later = condition row later)
    (holds : (Staged → Truth) → Bool) (staged : List Staged) (rows : List Row) :
    ((updateFrom condition change staged rows).all fun row => holds (condition row)) =
      rows.all fun row => holds (condition row) := by
  rw [updateFrom, List.all_map]
  congr 1
  funext row
  rw [Function.comp_apply]
  cases staged.find? fun other => condition row other = .yes with
  | none => rfl
  | some other => exact congrArg holds (funext (kept row other))

/-- Updates that keep what a row matches can change places when no row matches both. -/
theorem updateFrom_comm {condition : Row → Staged → Truth} {first second : Row → Staged → Row}
    {ones others : List Staged} (keptFirst : ∀ row other later, condition (first row other) later = condition row later)
    (keptSecond : ∀ row other later, condition (second row other) later = condition row later)
    (apart : ∀ one ∈ ones, ∀ other ∈ others, ∀ row, condition row one = .yes → condition row other ≠ .yes)
    (rows : List Row) :
    updateFrom condition second others (updateFrom condition first ones rows) =
      updateFrom condition first ones (updateFrom condition second others rows) := by
  rw [updateFrom, updateFrom, updateFrom, updateFrom, List.map_map, List.map_map]
  apply List.map_congr_left
  intro row _
  rw [Function.comp_apply, Function.comp_apply]
  cases found : ones.find? fun one => condition row one = .yes with
  | none =>
      cases others.find? fun other => condition row other = .yes with
      | none => simp only [found]
      | some other => simp only [keptSecond, found]
  | some one =>
      have matched : condition row one = .yes := by simpa using List.find?_some found
      have missed : others.find? (fun other => condition row other = .yes) = none := by
        rw [List.find?_eq_none]
        intro other member
        simpa using apart one (List.mem_of_find?_eq_some found) other member row matched
      simp only [keptFirst, missed, found]

theorem mergeInto_result {condition : Row → Staged → Truth} {change : Row → Staged → Row} {staged : List Staged}
    {rows merged : List Row} (done : mergeInto condition change staged rows = some merged) :
    updateFrom condition change staged rows = merged := by
  obtain ⟨_, same⟩ := Option.ite_none_right_eq_some.mp done
  exact Option.some.inj same

/-- Merges that keep what a row matches can change places when no row matches both of their sources. -/
theorem mergeInto_comm {condition : Row → Staged → Truth} {first second : Row → Staged → Row}
    {ones others : List Staged} (keptFirst : ∀ row other later, condition (first row other) later = condition row later)
    (keptSecond : ∀ row other later, condition (second row other) later = condition row later)
    (apart : ∀ one ∈ ones, ∀ other ∈ others, ∀ row, condition row one = .yes → condition row other ≠ .yes)
    (rows : List Row) :
    (mergeInto condition first ones rows).bind (mergeInto condition second others) =
      (mergeInto condition second others rows).bind (mergeInto condition first ones) := by
  have after {change : Row → Staged → Row}
      (kept : ∀ row other later, condition (change row other) later = condition row later) (staged source : List Staged)
      (next : Row → Staged → Row) : mergeInto condition next source (updateFrom condition change staged rows) =
        (mergeInto condition next source rows).map fun _ =>
          updateFrom condition next source (updateFrom condition change staged rows) := by
    rw [mergeInto, mergeInto,
      all_updateFrom kept fun truth => (source.filter fun other => truth other = .yes).length ≤ 1]
    split <;> rfl
  cases one : mergeInto condition first ones rows with
  | none =>
      cases other : mergeInto condition second others rows with
      | none => rfl
      | some _ =>
          obtain rfl := mergeInto_result other
          rw [Option.bind_none, Option.bind_some, after keptSecond, one, Option.map_none]
  | some _ =>
      obtain rfl := mergeInto_result one
      rw [Option.bind_some, after keptFirst]
      cases other : mergeInto condition second others rows with
      | none => rfl
      | some _ =>
          obtain rfl := mergeInto_result other
          rw [Option.map_some, Option.bind_some, after keptSecond, one, Option.map_some,
            updateFrom_comm keptFirst keptSecond apart]

end Tables

end Spicebench.Library.Sql
