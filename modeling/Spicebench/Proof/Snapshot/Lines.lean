import Spicebench.Construction.Snapshot
import Spicebench.Library.Separator

namespace Spicebench.Snapshot

open Library

/-- No line holds a line feed. -/
def Whole (lines : List Line) : Prop := ∀ line ∈ lines, '\n' ∉ line

/-- A line keeps a carriage return that no line feed takes along. -/
def endsInReturn (line : Line) : Bool := line.getLast? == some '\r'

theorem join_injective {first second : List Line} (wholeFirst : Whole first) (wholeSecond : Whole second)
    (nonempty : first ≠ []) (nonemptySecond : second ≠ []) (same : join first = join second) : first = second := by
  rw [← List.splitOn_intercalate '\n' wholeFirst nonempty, ← List.splitOn_intercalate '\n' wholeSecond nonemptySecond]
  exact congrArg (List.splitOn '\n') same

theorem stripCarriageReturn_prefix (line : Line) : stripCarriageReturn line <+: line := by
  rw [stripCarriageReturn]
  split
  · exact List.dropLast_prefix line
  · exact List.prefix_refl line

theorem stripCarriageReturn_append (line : Line) : stripCarriageReturn (line ++ ['\r']) = line := by
  simp [stripCarriageReturn]

/-- Each line of a text is a front part of a text between line feeds. -/
theorem exists_piece_of_linesOf {pieces : List Line} : ∀ line ∈ linesOf pieces, ∃ piece ∈ pieces, line <+: piece := by
  induction pieces using linesOf.induct with
  | case1 => simp [linesOf]
  | case2 => simp [linesOf]
  | case3 last nonempty => simp [linesOf, nonempty]
  | case4 piece next rest later =>
      rw [linesOf]
      refine List.forall_mem_cons.mpr ⟨⟨piece, List.mem_cons_self, stripCarriageReturn_prefix piece⟩, ?_⟩
      intro line member
      obtain ⟨origin, originMem, inside⟩ := later line member
      exact ⟨origin, List.mem_cons_of_mem _ originMem, inside⟩

theorem whole_lines (text : List Char) : Whole (lines text) := by
  intro line member feed
  obtain ⟨piece, pieceMem, inside⟩ := exists_piece_of_linesOf line member
  exact not_mem_of_mem_splitOn piece pieceMem (inside.subset feed)

theorem linesOf_append (init : List Line) (last : Line) :
    linesOf (init ++ [last]) = init.map stripCarriageReturn ++ if last = [] then [] else [last] := by
  induction init with
  | nil => rfl
  | cons piece init later =>
      cases init with
      | nil => rfl
      | cons next init => exact congrArg (stripCarriageReturn piece :: ·) later

/-- Joined lines are read back without the carriage returns in front of a line feed and without an empty last line. -/
theorem lines_join {init : List Line} {last : Line} (whole : Whole (init ++ [last])) :
    lines (join (init ++ [last])) = init.map stripCarriageReturn ++ if last = [] then [] else [last] := by
  rw [lines, join, List.splitOn_intercalate '\n' whole (by simp), linesOf_append]

/-- Each list of lines is read from a text. -/
theorem exists_text {content : List Line} (whole : Whole content) : ∃ text, lines text = content := by
  refine ⟨join (content.map (· ++ ['\r']) ++ [[]]), ?_⟩
  rw [lines_join]
  · simp [Function.comp_def, stripCarriageReturn_append]
  · refine List.forall_mem_append.mpr ⟨fun line member => ?_, by simp⟩
    obtain ⟨origin, originMem, rfl⟩ := List.mem_map.mp member
    simpa using whole origin originMem

section Reading

variable {init : List Line} {last : Line}

theorem length_stripCarriageReturn (line : Line) :
    (stripCarriageReturn line).length + (if endsInReturn line then 1 else 0) = line.length := by
  by_cases returns : line.getLast? = some '\r'
  · have nonempty : 0 < line.length := List.length_pos_iff.mpr (by rintro rfl; simp at returns)
    simp only [stripCarriageReturn, endsInReturn, returns, if_true, BEq.rfl, List.length_dropLast]
    omega
  · simp [stripCarriageReturn, endsInReturn, returns]

theorem length_map_stripCarriageReturn (content : List Line) :
    (content.map stripCarriageReturn).flatten.length + (content.filter endsInReturn).length =
      content.flatten.length := by
  induction content with
  | nil => rfl
  | cons line content same =>
      have first := length_stripCarriageReturn line
      by_cases returns : endsInReturn line
      · rw [if_pos returns] at first
        rw [List.map_cons, List.flatten_cons, List.flatten_cons, List.filter_cons_of_pos returns, List.length_append,
          List.length_append, List.length_cons]
        omega
      · rw [if_neg returns] at first
        rw [List.map_cons, List.flatten_cons, List.flatten_cons, List.filter_cons_of_neg returns, List.length_append,
          List.length_append]
        omega

/-- Joined lines are read back as they are if the last one is not empty and no other one keeps a carriage return. -/
theorem lines_join_eq (whole : Whole (init ++ [last])) (nonempty : last ≠ [])
    (plain : init.filter endsInReturn = []) : lines (join (init ++ [last])) = init ++ [last] := by
  have kept : init.map stripCarriageReturn = init.map id := by
    refine List.map_congr_left fun line member => ?_
    have other : line.getLast? ≠ some '\r' := by simpa [endsInReturn] using List.filter_eq_nil_iff.mp plain line member
    rw [stripCarriageReturn, if_neg other, id_eq]
  rw [lines_join whole, if_neg nonempty, kept, List.map_id]

/-- If reading joined lines back gives the same lines in some order, none of them has lost anything. -/
theorem readable_of_perm (whole : Whole (init ++ [last]))
    (permuted : (lines (join (init ++ [last]))).Perm (init ++ [last])) : last ≠ [] ∧ init.filter endsInReturn = [] := by
  rw [lines_join whole] at permuted
  have nonempty : last ≠ [] := by
    rintro rfl
    simpa using permuted.length_eq
  refine ⟨nonempty, List.length_eq_zero_iff.mp ?_⟩
  rw [if_neg nonempty] at permuted
  have letters := permuted.flatten.length_eq
  have stripped := length_map_stripCarriageReturn init
  rw [List.flatten_append, List.flatten_append, List.length_append, List.length_append] at letters
  omega

end Reading

section Unions

/-- The name of the union node does not end in a carriage return, so that it stays when one is taken off. -/
theorem containsUnion_strip {piece : Line} (union : containsUnion piece) :
    containsUnion (stripCarriageReturn piece) := by
  rw [stripCarriageReturn]
  split
  case isFalse => exact union
  case isTrue returns =>
      obtain ⟨front, back, rfl⟩ := union
      cases back using List.reverseRecOn with
      | nil =>
          rw [List.append_nil, List.getLast?_append_of_ne_nil _ (by decide)] at returns
          exact absurd returns (by decide)
      | append_singleton back letter =>
          rw [← List.append_assoc, List.dropLast_concat]
          exact ⟨front, back, rfl⟩

theorem exists_line_of_piece {pieces : List Line} {piece : Line} (member : piece ∈ pieces)
    (union : containsUnion piece) : ∃ line ∈ linesOf pieces, containsUnion line := by
  induction pieces using linesOf.induct with
  | case1 => contradiction
  | case2 =>
      obtain rfl := List.mem_singleton.mp member
      exact absurd union (by decide)
  | case3 last nonempty =>
      obtain rfl := List.mem_singleton.mp member
      exact ⟨piece, by simp [linesOf, nonempty], union⟩
  | case4 first next rest later =>
      rw [linesOf]
      rcases List.mem_cons.mp member with rfl | behind
      · exact ⟨stripCarriageReturn piece, List.mem_cons_self, containsUnion_strip union⟩
      · obtain ⟨line, lineMem, inLine⟩ := later behind
        exact ⟨line, List.mem_cons_of_mem _ lineMem, inLine⟩

/-- A text names a union exactly if one of its lines does. -/
theorem containsUnion_iff {text : List Char} : containsUnion text ↔ ∃ line ∈ lines text, containsUnion line := by
  have joined : ['\n'].intercalate (text.splitOn '\n') = text := List.intercalate_splitOn '\n'
  constructor
  · intro union
    rw [containsUnion, ← joined] at union
    obtain ⟨piece, member, inside⟩ := exists_infix_of_intercalate (by decide) (List.splitOn_ne_nil '\n' text) union
    exact exists_line_of_piece member inside
  · rintro ⟨line, member, union⟩
    obtain ⟨piece, pieceMem, inside⟩ := exists_piece_of_linesOf line member
    rw [← joined]
    exact (union.trans inside.isInfix).trans (infix_intercalate pieceMem)

end Unions

end Spicebench.Snapshot
