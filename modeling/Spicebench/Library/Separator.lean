/-
This file joins words with a separator and tells apart what was joined.
-/

import Mathlib.Data.List.Basic
import Mathlib.Data.List.Induction

namespace Spicebench.Library

variable {Letter : Type} {separator : Letter}

/-- Two words are told apart by a text that starts with one of them and the separator. -/
def ToldInFront (separator : Letter) (pair : List Letter × List Letter) : Prop :=
  ∀ rest tail, pair.1 ++ separator :: rest = pair.2 ++ separator :: tail → pair.1 = pair.2

/-- Two words are told apart by a text that ends with the separator and one of them. -/
def ToldBehind (separator : Letter) (pair : List Letter × List Letter) : Prop :=
  ∀ front lead, front ++ separator :: pair.1 = lead ++ separator :: pair.2 → pair.1 = pair.2

theorem front_inj {mark : Letter} {word other rest tail : List Letter} (noWord : mark ∉ word) (noOther : mark ∉ other)
    (same : word ++ mark :: rest = other ++ mark :: tail) : word = other ∧ rest = tail := by
  induction word generalizing other with
  | nil =>
      cases other with
      | nil => simpa using same
      | cons first other => exact absurd (by simp [(List.cons.inj same).1]) noOther
  | cons first word equal =>
      cases other with
      | nil => exact absurd (by simp [(List.cons.inj same).1]) noWord
      | cons second other =>
          obtain ⟨rfl, later⟩ := List.cons.inj same
          obtain ⟨rfl, rests⟩ :=
            equal (List.not_mem_of_not_mem_cons noWord) (List.not_mem_of_not_mem_cons noOther) later
          exact ⟨rfl, rests⟩

theorem behind_inj {mark : Letter} {front lead word other : List Letter} (noWord : mark ∉ word) (noOther : mark ∉ other)
    (same : front ++ mark :: word = lead ++ mark :: other) : front = lead ∧ word = other := by
  have reversed := congrArg List.reverse same
  simp only [List.reverse_append, List.reverse_cons, List.append_assoc, List.singleton_append] at reversed
  obtain ⟨words, fronts⟩ := front_inj (by simpa using noWord) (by simpa using noOther) reversed
  exact ⟨List.reverse_injective fronts, List.reverse_injective words⟩

section Plain

variable {word other : List Letter} (noWord : separator ∉ word) (noOther : separator ∉ other)

include noWord noOther

/-- Words without the separator are told apart on both sides. -/
theorem toldInFront_plain : ToldInFront separator (word, other) := fun _ _ same => (front_inj noWord noOther same).1

theorem toldBehind_plain : ToldBehind separator (word, other) := fun _ _ same => (behind_inj noWord noOther same).2

end Plain

section Quoted

variable {mark : Letter} {text other : List Letter} (noText : mark ∉ text) (noOther : mark ∉ other)
  (lead last : List Letter)

include noText noOther

/-- Words with the same text around the quoted part are told apart on both sides. -/
theorem toldInFront_quoted :
    ToldInFront separator (lead ++ mark :: (text ++ mark :: last), lead ++ mark :: (other ++ mark :: last)) := by
  intro rest tail same
  simp only [List.append_assoc, List.cons_append, List.append_cancel_left_eq, List.cons.injEq, true_and] at same
  rw [(front_inj noText noOther same).1]

theorem toldBehind_quoted :
    ToldBehind separator (lead ++ mark :: (text ++ mark :: last), lead ++ mark :: (other ++ mark :: last)) := by
  intro front head same
  have regroup (start text : List Letter) : start ++ separator :: (lead ++ mark :: (text ++ mark :: last)) =
      (start ++ separator :: lead) ++ mark :: text ++ mark :: last := by simp
  simp only [regroup, List.append_cancel_right_eq] at same
  rw [(behind_inj noText noOther same).2]

end Quoted

section Joined

/-- The words that are joined in front of and behind one of them. -/
theorem intercalate_around (front : List (List Letter)) (word : List Letter) (back : List (List Letter)) :
    List.intercalate [separator] (front ++ word :: back) =
      front.flatMap (fun part => part ++ [separator]) ++ word ++ back.flatMap (fun part => separator :: part) := by
  induction front with
  | nil =>
      induction back generalizing word with
      | nil => simp [List.intercalate]
      | cons next back same =>
          have later := same next
          simp only [List.nil_append, List.intercalate, List.flatMap_nil] at later ⊢
          simp [List.intersperse, later]
  | cons first front same =>
      rw [List.flatMap_cons, List.append_assoc, List.append_assoc, List.append_assoc, List.singleton_append,
        ← List.append_assoc (front.flatMap _), ← same, List.cons_append]
      cases front with
      | nil => simp [List.intercalate]
      | cons next front => simp [List.intercalate]

variable {front back : List (List Letter × List Letter)}

/-- Words in front of a text are told apart one after another. -/
theorem leading_inj {rest tail : List Letter} (told : ∀ pair ∈ front, ToldInFront separator pair)
    (same : front.flatMap (fun pair => pair.1 ++ [separator]) ++ rest =
      front.flatMap (fun pair => pair.2 ++ [separator]) ++ tail) :
    (∀ pair ∈ front, pair.1 = pair.2) ∧ rest = tail := by
  induction front with
  | nil => exact ⟨by simp, same⟩
  | cons pair front later =>
      simp only [List.flatMap_cons, List.append_assoc, List.singleton_append] at same
      have equal := told pair List.mem_cons_self _ _ same
      rw [equal, List.append_cancel_left_eq] at same
      obtain ⟨others, behind⟩ :=
        later (fun other member => told other (List.mem_cons_of_mem _ member)) (List.cons.inj same).2
      exact ⟨List.forall_mem_cons.mpr ⟨equal, others⟩, behind⟩

/-- Words behind a text are told apart from the last one on. -/
theorem trailing_inj {word other : List Letter} (told : ∀ pair ∈ back, ToldBehind separator pair)
    (same : word ++ back.flatMap (fun pair => separator :: pair.1) =
      other ++ back.flatMap (fun pair => separator :: pair.2)) :
    word = other ∧ ∀ pair ∈ back, pair.1 = pair.2 := by
  induction back using List.reverseRecOn with
  | nil => simpa using same
  | append_singleton back pair earlier =>
      simp only [List.flatMap_append, List.flatMap_cons, List.flatMap_nil, List.append_nil, ← List.append_assoc] at same
      have equal := told pair (by simp) _ _ same
      rw [equal, List.append_cancel_right_eq] at same
      obtain ⟨front, others⟩ := earlier (fun other member => told other (List.mem_append_left _ member)) same
      refine ⟨front, fun other member => ?_⟩
      rcases List.mem_append.mp member with inside | last
      · exact others other inside
      · rw [List.mem_singleton.mp last]
        exact equal

/-- Joined words are told apart if all but one of them are. -/
theorem intercalate_inj {pair : List Letter × List Letter} (inFront : ∀ pair ∈ front, ToldInFront separator pair)
    (behind : ∀ pair ∈ back, ToldBehind separator pair)
    (same : List.intercalate [separator] ((front ++ pair :: back).map Prod.fst) =
      List.intercalate [separator] ((front ++ pair :: back).map Prod.snd)) :
    ∀ words ∈ front ++ pair :: back, words.1 = words.2 := by
  simp only [List.map_append, List.map_cons, intercalate_around, List.flatMap_map, List.append_assoc] at same
  obtain ⟨fronts, rest⟩ := leading_inj inFront same
  obtain ⟨middle, backs⟩ := trailing_inj behind rest
  have later : ∀ other ∈ pair :: back, other.1 = other.2 := List.forall_mem_cons.mpr ⟨middle, backs⟩
  exact List.forall_mem_append.mpr ⟨fronts, later⟩

end Joined

section Pattern

variable {pattern : List Letter} (absent : separator ∉ pattern)

include absent

theorem infix_of_infix_mark {word rest : List Letter} (found : pattern <:+: word ++ separator :: rest) :
    pattern <:+: word ∨ pattern <:+: rest := by
  obtain ⟨front, back, same⟩ := found
  rcases List.append_eq_append_iff.mp same with ⟨middle, rfl, _⟩ | ⟨middle, front_eq, back_eq⟩
  · exact .inl ⟨front, middle, rfl⟩
  · cases middle with
    | nil => exact .inl ⟨front, [], by simpa using front_eq⟩
    | cons mark middle =>
        obtain ⟨rfl, rfl⟩ := List.cons.inj back_eq
        rcases List.append_eq_append_iff.mp front_eq with ⟨part, rfl, pattern_eq⟩ | ⟨part, rfl, part_eq⟩
        · exact absurd (by simp [pattern_eq]) absent
        · cases part with
          | nil =>
              obtain rfl : separator :: middle = pattern := part_eq
              exact absurd List.mem_cons_self absent
          | cons first part =>
              obtain ⟨rfl, rfl⟩ := List.cons.inj part_eq
              exact .inr ⟨part, back, rfl⟩

/-- A text without the separator that joined words hold is held by one of the words. -/
theorem exists_infix_of_intercalate {words : List (List Letter)} (nonempty : words ≠ [])
    (found : pattern <:+: List.intercalate [separator] words) : ∃ word ∈ words, pattern <:+: word := by
  induction words with
  | nil => exact absurd rfl nonempty
  | cons word words later =>
      cases words with
      | nil => exact ⟨word, List.mem_cons_self, by simpa using found⟩
      | cons next words =>
          rw [List.intercalate_cons_cons, List.append_assoc, List.singleton_append] at found
          rcases infix_of_infix_mark absent found with inWord | inRest
          · exact ⟨word, List.mem_cons_self, inWord⟩
          · obtain ⟨other, member, inOther⟩ := later (List.cons_ne_nil _ _) inRest
            exact ⟨other, List.mem_cons_of_mem _ member, inOther⟩

end Pattern

/-- No part of a split text holds the separator. -/
theorem not_mem_of_mem_splitOn [DecidableEq Letter] {text : List Letter} :
    ∀ word ∈ text.splitOn separator, separator ∉ word := by
  induction text with
  | nil => simp
  | cons letter text later =>
      rw [List.splitOn_cons_eq_if_modifyHead]
      cases parts : text.splitOn separator with
      | nil => exact absurd parts (List.splitOn_ne_nil separator text)
      | cons word words =>
          rw [parts] at later
          obtain ⟨first, others⟩ := List.forall_mem_cons.mp later
          split
          · exact List.forall_mem_cons.mpr ⟨List.not_mem_nil, later⟩
          case isFalse differs =>
              refine List.forall_mem_cons.mpr ⟨?_, others⟩
              have other : separator ≠ letter := fun same => differs (by simp [same])
              exact List.not_mem_cons_of_ne_of_not_mem other first

theorem infix_intercalate {word : List Letter} {words : List (List Letter)} (member : word ∈ words) :
    word <:+: List.intercalate [separator] words := by
  obtain ⟨front, back, rfl⟩ := List.append_of_mem member
  rw [intercalate_around]
  exact ⟨_, _, rfl⟩

/-- If at most one member is chosen, the others are around one of them. -/
theorem exists_around {Item : Type} {chosen : Item → Bool} {items : List Item} (nonempty : items ≠ [])
    (single : (items.filter chosen).length ≤ 1) :
    ∃ front item back, items = front ++ item :: back ∧ ∀ other ∈ front ++ back, chosen other = false := by
  induction items with
  | nil => exact absurd rfl nonempty
  | cons item items around =>
      by_cases isChosen : chosen item = true
      · refine ⟨[], item, items, rfl, ?_⟩
        rw [List.filter_cons_of_pos isChosen, List.length_cons] at single
        have none : items.filter chosen = [] := List.length_eq_zero_iff.mp (by omega)
        simpa using none
      · rw [List.filter_cons_of_neg isChosen] at single
        cases items with
        | nil => exact ⟨[], item, [], rfl, by simp⟩
        | cons next items =>
            obtain ⟨front, middle, back, same, others⟩ := around (by simp) single
            exact ⟨item :: front, middle, back, by rw [same]; rfl,
              List.forall_mem_cons.mpr ⟨Bool.eq_false_iff.mpr isChosen, others⟩⟩

/-- Two of the chosen items stand in a list one behind the other. -/
theorem exists_two {Item : Type} {chosen : Item → Bool} {items : List Item} (many : 1 < (items.filter chosen).length) :
    ∃ front first middle second back, items = front ++ first :: (middle ++ second :: back) ∧
      chosen first = true ∧ chosen second = true := by
  match filtered : items.filter chosen with
  | [] | [_] => simp [filtered] at many
  | first :: second :: rest =>
      have isFirst : chosen first = true := List.of_mem_filter (l := items) (by simp [filtered])
      have isSecond : chosen second = true := List.of_mem_filter (l := items) (by simp [filtered])
      have sublist : List.Sublist [first, second] items := by
        refine List.Sublist.trans ?_ (List.filter_sublist (p := chosen))
        rw [filtered]
        exact ((List.nil_sublist rest).cons_cons second).cons_cons first
      obtain ⟨lead, tail, rfl, inLead, inTail⟩ := List.cons_sublist_iff.mp sublist
      obtain ⟨front, middle, rfl⟩ := List.append_of_mem inLead
      obtain ⟨behind, back, rfl⟩ := List.append_of_mem (List.singleton_sublist.mp inTail)
      exact ⟨front, first, middle ++ behind, second, back, by simp, isFirst, isSecond⟩

end Spicebench.Library
