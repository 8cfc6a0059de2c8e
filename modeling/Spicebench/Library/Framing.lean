import Mathlib.Data.List.Basic

namespace Spicebench.Library

variable {Symbol : Type}

/-- Every line is followed by a delimiter. -/
def frame (delimiter : Symbol) (lines : List (List Symbol)) : List Symbol :=
  lines.flatMap fun line => line ++ [delimiter]

section Frame

variable (delimiter : Symbol)

@[simp] theorem frame_nil : frame delimiter [] = [] := rfl

@[simp] theorem frame_cons (line : List Symbol) (lines : List (List Symbol)) :
    frame delimiter (line :: lines) = line ++ delimiter :: frame delimiter lines := by
  simp [frame]

theorem frame_append (first second : List (List Symbol)) :
    frame delimiter (first ++ second) = frame delimiter first ++ frame delimiter second := by
  simp [frame]

variable {delimiter}

/-- A piece without a delimiter stays behind in no framed stream. -/
theorem eq_nil_of_frame {piece : List Symbol} {lines : List (List Symbol)} (whole : delimiter ∉ piece)
    (framed : piece = frame delimiter lines) : lines = [] := by
  cases lines with
  | nil => rfl
  | cons line lines =>
      exfalso
      apply whole
      simp [framed]

/-- A stream is cut at its first delimiter in one way only. -/
theorem append_delimiter_inj {first second rest others : List Symbol} (firstWhole : delimiter ∉ first)
    (secondWhole : delimiter ∉ second) (same : first ++ delimiter :: rest = second ++ delimiter :: others) :
    first = second ∧ rest = others := by
  induction first generalizing second with
  | nil =>
      cases second with
      | nil => exact ⟨rfl, (List.cons.inj same).2⟩
      | cons symbol second =>
          have clash := (List.cons.inj same).1
          simp [clash] at secondWhole
  | cons symbol first ih =>
      cases second with
      | nil =>
          have clash := (List.cons.inj same).1
          simp [clash] at firstWhole
      | cons other second =>
          obtain ⟨rfl, tail⟩ := List.cons.inj same
          simp only [List.mem_cons, not_or] at firstWhole secondWhole
          obtain ⟨rfl, rest⟩ := ih firstWhole.2 secondWhole.2 tail
          exact ⟨rfl, rest⟩

/-- The first complete line of a framed stream is its first line. -/
theorem frame_first {line rest : List Symbol} {lines : List (List Symbol)} (whole : delimiter ∉ line)
    (wholes : ∀ other ∈ lines, delimiter ∉ other) (framed : line ++ delimiter :: rest = frame delimiter lines) :
    ∃ others, lines = line :: others ∧ rest = frame delimiter others := by
  cases lines with
  | nil => simp at framed
  | cons first others =>
      rw [frame_cons] at framed
      obtain ⟨rfl, rfl⟩ := append_delimiter_inj whole (wholes first List.mem_cons_self) framed
      exact ⟨others, rfl, rfl⟩

end Frame

section Split

variable [DecidableEq Symbol] {delimiter : Symbol}

/-- A line is taken from a stream once its delimiter has arrived. -/
def splitLine (delimiter : Symbol) : List Symbol → Option (List Symbol × List Symbol)
  | [] => none
  | symbol :: rest =>
      if symbol = delimiter then some ([], rest)
      else (splitLine delimiter rest).map fun pieces => (symbol :: pieces.1, pieces.2)

theorem splitLine_eq_some {stream line rest : List Symbol}
    (split : splitLine delimiter stream = some (line, rest)) :
    stream = line ++ delimiter :: rest ∧ delimiter ∉ line := by
  induction stream generalizing line with
  | nil => simp [splitLine] at split
  | cons symbol stream ih =>
      rw [splitLine] at split
      split_ifs at split with hit
      · obtain ⟨rfl, rfl⟩ := Prod.mk.inj (Option.some.inj split)
        simp [hit]
      · obtain ⟨⟨head, tail⟩, cut, same⟩ := Option.map_eq_some_iff.mp split
        obtain ⟨rfl, rfl⟩ := Prod.mk.inj same
        obtain ⟨rfl, whole⟩ := ih cut
        exact ⟨rfl, by simp [whole, Ne.symm hit]⟩

theorem splitLine_eq_none_iff {stream : List Symbol} :
    splitLine delimiter stream = none ↔ delimiter ∉ stream := by
  induction stream with
  | nil => simp [splitLine]
  | cons symbol stream ih =>
      rw [splitLine]
      split_ifs with hit
      · simp [hit]
      · simp [ih, Ne.symm hit]

/-- The line before the first delimiter is taken. -/
theorem splitLine_append {line : List Symbol} (whole : delimiter ∉ line) (rest : List Symbol) :
    splitLine delimiter (line ++ delimiter :: rest) = some (line, rest) := by
  cases split : splitLine delimiter (line ++ delimiter :: rest) with
  | none => simp [splitLine_eq_none_iff] at split
  | some pieces =>
      obtain ⟨same, other⟩ := splitLine_eq_some split
      obtain ⟨first, second⟩ := append_delimiter_inj whole other same
      exact congrArg some (Prod.ext first.symm second.symm)

end Split

end Spicebench.Library
