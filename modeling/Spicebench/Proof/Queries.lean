import Spicebench.Construction.Queries

namespace Spicebench.Queries
open Library

/-- A template is made of letters and of placeholders, which are counted from one. -/
inductive Piece where
  | letter (letter : Char)
  | placeholder (position : Nat)
  deriving DecidableEq

/-- The text of a template, in which placeholders are shown in some way. -/
def render (shown : Nat → List Char) (template : List Piece) : List Char :=
  template.flatMap fun
    | .letter letter => [letter]
    | .placeholder position => shown position

section Rendering

variable {shown : Nat → List Char} {template others : List Piece} {position : Nat}

@[simp]
theorem render_nil : render shown [] = [] := rfl

@[simp]
theorem render_letter (letter : Char) : render shown (.letter letter :: template) = letter :: render shown template :=
  rfl

@[simp]
theorem render_placeholder :
    render shown (.placeholder position :: template) = shown position ++ render shown template := by
  simp [render]

@[simp]
theorem render_append : render shown (template ++ others) = render shown template ++ render shown others := by
  simp [render]

@[simp]
theorem render_letters (text : List Char) : render shown (text.map .letter) = text := by
  induction text with
  | nil => rfl
  | cons letter text same => simp [same]

end Rendering

section Replacing

variable {placeholder literal text rest : List Char} {letter : Char}

theorem replaceFrom_skip (skipped : List Char) :
    replaceFrom placeholder literal skipped.length (skipped ++ rest) = replaceAll placeholder literal rest := by
  induction skipped with
  | nil => rfl
  | cons letter skipped same => exact same

/-- An occurrence at the start is replaced. -/
theorem replaceAll_match (nonempty : placeholder ≠ []) :
    replaceAll placeholder literal (placeholder ++ rest) = literal ++ replaceAll placeholder literal rest := by
  obtain ⟨first, others, rfl⟩ := List.exists_cons_of_ne_nil nonempty
  rw [replaceAll, List.cons_append, replaceFrom, if_pos ⟨rest, rfl⟩]
  simp [replaceFrom_skip]

/-- A letter at which no occurrence starts is kept. -/
theorem replaceAll_letter (none : ¬placeholder <+: letter :: rest) :
    replaceAll placeholder literal (letter :: rest) = letter :: replaceAll placeholder literal rest := by
  rw [replaceAll, replaceFrom, if_neg none]
  rfl

theorem not_prefix_of_ne {first : Char} {others : List Char} (different : letter ≠ first) :
    ¬first :: others <+: letter :: rest := by
  rintro ⟨_, same⟩
  exact different (List.cons.inj same).1.symm

/-- Text without the first letter of a placeholder is kept. -/
theorem replaceAll_free {first : Char} {others : List Char} (free : first ∉ text) :
    replaceAll (first :: others) literal (text ++ rest) = text ++ replaceAll (first :: others) literal rest := by
  induction text with
  | nil => rfl
  | cons letter text kept =>
      have different : letter ≠ first := fun same => free (same ▸ List.mem_cons_self)
      rw [List.cons_append, replaceAll_letter (not_prefix_of_ne different),
        kept fun member => free (List.mem_cons_of_mem _ member), List.cons_append]

end Replacing

section Numbered

variable {position : Nat} {literal tail : List Char} {template front : List Piece}

/-- One placeholder becomes the letters of its literal. -/
def fillOne (position : Nat) (literal : List Char) (template : List Piece) : List Piece :=
  template.flatMap fun
    | .letter letter => [.letter letter]
    | .placeholder other => if other = position then literal.map .letter else [.placeholder other]

@[simp]
theorem fillOne_nil : fillOne position literal [] = [] := rfl

@[simp]
theorem fillOne_letter (letter : Char) :
    fillOne position literal (.letter letter :: template) = .letter letter :: fillOne position literal template := rfl

@[simp]
theorem fillOne_append (others : List Piece) :
    fillOne position literal (template ++ others) =
      fillOne position literal template ++ fillOne position literal others := by
  simp [fillOne]

theorem fillOne_same : fillOne position literal (.placeholder position :: template) =
    literal.map .letter ++ fillOne position literal template := by
  simp [fillOne]

theorem fillOne_other {other : Nat} (different : other ≠ position) :
    fillOne position literal (.placeholder other :: template) =
      .placeholder other :: fillOne position literal template := by
  simp [fillOne, different]

/-- Nothing but the placeholder itself starts with its text. -/
def Clear (position : Nat) (template : List Piece) (tail : List Char) : Prop :=
  ∀ piece back, piece :: back <:+ template →
    placeholderText position <+: render placeholderText (piece :: back) ++ tail → piece = .placeholder position

theorem Clear.rest {piece : Piece} (clear : Clear position (piece :: template) tail) :
    Clear position template tail :=
  fun other back suffix => clear other back (suffix.trans (List.suffix_cons _ _))

theorem Clear.cons {piece : Piece} (clear : Clear position template tail)
    (own : placeholderText position <+: render placeholderText (piece :: template) ++ tail →
      piece = .placeholder position) : Clear position (piece :: template) tail := by
  intro other back suffix found
  rcases List.suffix_cons_iff.mp suffix with same | inner
  · obtain ⟨rfl, rfl⟩ := List.cons.inj same
    exact own found
  · exact clear other back inner found

theorem dollar_free_digits (number : Nat) : '$' ∉ Nat.toDigits 10 number := by
  intro member
  have digit := isDigit_of_mem_decimal member
  simp at digit

/-- Another placeholder is kept when the text from there on does not start with the one that is replaced. -/
theorem replaceAll_other {other : Nat} {text : List Char}
    (none : ¬placeholderText position <+: placeholderText other ++ text) :
    replaceAll (placeholderText position) literal (placeholderText other ++ text) =
      placeholderText other ++ replaceAll (placeholderText position) literal text := by
  unfold placeholderText at none ⊢
  rw [List.cons_append] at none ⊢
  rw [replaceAll_letter none, replaceAll_free (dollar_free_digits other), List.cons_append]

/-- A placeholder of one digit starts with no other one. -/
theorem digit_of_prefix {other : Nat} {text : List Char} (small : position < 10) (otherSmall : other < 10)
    (starts : placeholderText position <+: placeholderText other ++ text) : other = position := by
  obtain ⟨rest, same⟩ := starts
  rw [placeholderText, placeholderText, Nat.toDigits_of_lt_base small, Nat.toDigits_of_lt_base otherSmall] at same
  have digits : Nat.digitChar position = Nat.digitChar other := (List.cons.inj (List.cons.inj same).2).1
  have same := congrArg (fun digit => Nat.ofDigitChars 10 [digit] 0) digits
  simp only [Nat.ofDigitChars_cons_digitChar_of_lt_ten small, Nat.ofDigitChars_cons_digitChar_of_lt_ten otherSmall]
    at same
  simpa using same.symm

/-- A clear template is filled by the replacement. -/
theorem replaceAll_clear (clear : Clear position template tail) :
    replaceAll (placeholderText position) literal (render placeholderText template ++ tail) =
      render placeholderText (fillOne position literal template) ++
        replaceAll (placeholderText position) literal tail := by
  induction template with
  | nil => rfl
  | cons piece template filled =>
      have rest := filled clear.rest
      by_cases own : piece = .placeholder position
      · rw [own, fillOne_same, render_placeholder, List.append_assoc, replaceAll_match (by simp [placeholderText]), rest]
        simp
      · have none : ¬placeholderText position <+: render placeholderText (piece :: template) ++ tail :=
          fun found => own (clear piece template List.suffix_rfl found)
        cases piece with
        | letter letter =>
            rw [render_letter, List.cons_append] at none ⊢
            rw [replaceAll_letter none, rest]
            simp
        | placeholder other =>
            have different : other ≠ position := fun same => own (congrArg _ same)
            rw [render_placeholder, List.append_assoc] at none ⊢
            rw [replaceAll_other none, rest, fillOne_other different, render_placeholder, List.append_assoc]

/-- The text leaves the template at a letter that starts a placeholder by mistake. -/
def Diverges (template : List Piece) (text : List Char) : Prop :=
  ∃ front back letter rest, template = front ++ .letter '$' :: back ∧
    text = render placeholderText front ++ letter :: rest ∧ letter ≠ '$'

theorem Diverges.ne {text : List Char} (diverges : Diverges template text) : text ≠ render placeholderText template := by
  obtain ⟨front, back, letter, rest, rfl, rfl, different⟩ := diverges
  simp [different]

/-- The first mistake is at a letter, since placeholders of one digit do not start with each other. -/
theorem replaceAll_mistaken (single : ∀ other, .placeholder other ∈ template → position ≤ other ∧ other < 10)
    (mistaken : ¬Clear position template tail) :
    ∃ front back rest, template = front ++ .letter '$' :: back ∧
      replaceAll (placeholderText position) literal (render placeholderText template ++ tail) =
        render placeholderText (fillOne position literal front) ++ (literal ++ rest) := by
  induction template with
  | nil =>
      refine absurd ?_ mistaken
      intro piece back suffix
      simp at suffix
  | cons piece template found =>
      have inner : ∀ other, .placeholder other ∈ template → position ≤ other ∧ other < 10 :=
        fun other member => single other (List.mem_cons_of_mem _ member)
      by_cases own : piece = .placeholder position
      · have later : ¬Clear position template tail := fun clear => mistaken (clear.cons fun _ => own)
        obtain ⟨front, back, rest, rfl, replaced⟩ := found inner later
        refine ⟨.placeholder position :: front, back, rest, by rw [own]; rfl, ?_⟩
        rw [own, render_placeholder, List.append_assoc, replaceAll_match (by simp [placeholderText]), replaced,
          fillOne_same]
        simp
      by_cases starts : placeholderText position <+: render placeholderText (piece :: template) ++ tail
      · cases piece with
        | letter letter =>
            obtain ⟨rest, same⟩ := starts
            obtain rfl : letter = '$' := by
              have heads := congrArg List.head? same
              simpa [placeholderText] using heads.symm
            refine ⟨[], template, replaceAll (placeholderText position) literal rest, rfl, ?_⟩
            rw [← same, replaceAll_match (by simp [placeholderText])]
            simp
        | placeholder other =>
            have bounds := single other List.mem_cons_self
            rw [render_placeholder, List.append_assoc] at starts
            have equal := digit_of_prefix (bounds.1.trans_lt bounds.2) bounds.2 starts
            exact absurd (congrArg Piece.placeholder equal) own
      · have later : ¬Clear position template tail := fun clear =>
          mistaken (clear.cons fun starting => absurd starting starts)
        obtain ⟨front, back, rest, rfl, replaced⟩ := found inner later
        refine ⟨piece :: front, back, rest, rfl, ?_⟩
        cases piece with
        | letter letter =>
            rw [render_letter, List.cons_append] at starts ⊢
            rw [replaceAll_letter starts, replaced]
            simp
        | placeholder other =>
            have different : other ≠ position := fun same => own (congrArg _ same)
            rw [render_placeholder, List.append_assoc] at starts ⊢
            rw [replaceAll_other starts, replaced, fillOne_other different, render_placeholder, List.append_assoc]

/-- A text that has left the template does not come back. -/
theorem Diverges.replaced {text : List Char} {first : Char} {others : List Char} (literal : first ≠ '$')
    (single : ∀ other, .placeholder other ∈ template → position ≤ other ∧ other < 10)
    (diverges : Diverges template text) :
    Diverges (fillOne position (first :: others) template)
      (replaceAll (placeholderText position) (first :: others) text) := by
  obtain ⟨front, back, letter, rest, rfl, rfl, different⟩ := diverges
  by_cases clear : Clear position front (letter :: rest)
  · refine ⟨fillOne position (first :: others) front, fillOne position (first :: others) back, letter,
      replaceAll (placeholderText position) (first :: others) rest, by simp, ?_, different⟩
    have none : ¬placeholderText position <+: letter :: rest := not_prefix_of_ne different
    rw [replaceAll_clear clear, replaceAll_letter none]
  · obtain ⟨start, middle, later, rfl, replaced⟩ :=
      @replaceAll_mistaken _ (first :: others) _ _ (fun other member => single other (List.mem_append_left _ member))
        clear
    refine ⟨fillOne position (first :: others) start, fillOne position (first :: others) (middle ++ .letter '$' :: back),
      first, others ++ later, by simp, ?_, literal⟩
    rw [replaced]
    simp

/-- A replacement that makes a mistake leaves the template. -/
theorem diverges_of_not_clear {first : Char} {others : List Char} (literal : first ≠ '$')
    (single : ∀ other, .placeholder other ∈ template → position ≤ other ∧ other < 10)
    (mistaken : ¬Clear position template []) :
    Diverges (fillOne position (first :: others) template)
      (replaceAll (placeholderText position) (first :: others) (render placeholderText template)) := by
  obtain ⟨front, back, rest, rfl, replaced⟩ := @replaceAll_mistaken _ (first :: others) _ _ single mistaken
  rw [List.append_nil] at replaced
  refine ⟨fillOne position (first :: others) front, fillOne position (first :: others) back, first, others ++ rest,
    by simp, ?_, literal⟩
  rw [replaced]
  simp

/-- The literals are filled in one after the other, from a position on. -/
def fillFrom : Nat → List (List Char) → List Piece → List Piece
  | _, [], template => template
  | position, literal :: literals, template => fillFrom (position + 1) literals (fillOne position literal template)

def replaceInOrder : Nat → List (List Char) → List Char → List Char
  | _, [], text => text
  | position, literal :: literals, text =>
      replaceInOrder (position + 1) literals (replaceAll (placeholderText position) literal text)

/-- No replacement finds anything but its own placeholder in what the ones before it have left. -/
def ClearFrom : Nat → List (List Char) → List Piece → Prop
  | _, [], _ => True
  | position, literal :: literals, template =>
      Clear position template [] ∧ ClearFrom (position + 1) literals (fillOne position literal template)

theorem replaceInOrder_clear {literals : List (List Char)} (clear : ClearFrom position literals template) :
    replaceInOrder position literals (render placeholderText template) =
      render placeholderText (fillFrom position literals template) := by
  induction literals generalizing position template with
  | nil => rfl
  | cons literal literals filled =>
      obtain ⟨first, later⟩ := clear
      have replaced := @replaceAll_clear position literal [] template first
      have none : replaceAll (placeholderText position) literal [] = [] := rfl
      rw [List.append_nil, none, List.append_nil] at replaced
      rw [replaceInOrder, replaced, filled later, fillFrom]

/-- A literal does not start like a placeholder. -/
def Plain (literal : List Char) : Prop := ∃ first others, literal = first :: others ∧ first ≠ '$' ∧ first ≠ '?'

theorem placeholder_fillOne {other : Nat} (member : .placeholder other ∈ fillOne position literal template) :
    .placeholder other ∈ template ∧ other ≠ position := by
  obtain ⟨piece, listed, shown⟩ := List.mem_flatMap.mp member
  cases piece with
  | letter letter => simp at shown
  | placeholder position' =>
      dsimp only at shown
      split at shown
      · simp at shown
      · rename_i different
        obtain rfl : other = position' := by simpa using shown
        exact ⟨listed, different⟩

theorem single_fillOne (single : ∀ other, .placeholder other ∈ template → position ≤ other ∧ other < 10) :
    ∀ other, .placeholder other ∈ fillOne position literal template → position + 1 ≤ other ∧ other < 10 := by
  intro other member
  obtain ⟨listed, different⟩ := placeholder_fillOne member
  have bounds := single other listed
  omega

theorem Diverges.replacedInOrder {literals : List (List Char)} {text : List Char}
    (plain : ∀ literal ∈ literals, Plain literal)
    (single : ∀ other, .placeholder other ∈ template → position ≤ other ∧ other < 10)
    (diverges : Diverges template text) :
    Diverges (fillFrom position literals template) (replaceInOrder position literals text) := by
  induction literals generalizing position template text with
  | nil => exact diverges
  | cons literal literals kept =>
      obtain ⟨first, others, rfl, noDollar, _⟩ := plain literal List.mem_cons_self
      exact kept (fun other member => plain other (List.mem_cons_of_mem _ member)) (single_fillOne single)
        (diverges.replaced noDollar single)

/-- With placeholders of one digit, every mistake shows in the result. -/
theorem clearFrom_of_replaceInOrder {literals : List (List Char)} (plain : ∀ literal ∈ literals, Plain literal)
    (single : ∀ other, .placeholder other ∈ template → position ≤ other ∧ other < 10)
    (same : replaceInOrder position literals (render placeholderText template) =
      render placeholderText (fillFrom position literals template)) : ClearFrom position literals template := by
  induction literals generalizing position template with
  | nil => trivial
  | cons literal literals clear =>
      have others : ∀ other ∈ literals, Plain other := fun other member => plain other (List.mem_cons_of_mem _ member)
      by_cases first : Clear position template []
      · have replaced := @replaceAll_clear position literal [] template first
        have none : replaceAll (placeholderText position) literal [] = [] := rfl
        rw [List.append_nil, none, List.append_nil] at replaced
        rw [replaceInOrder, replaced, fillFrom] at same
        exact ⟨first, clear others (single_fillOne single) same⟩
      · obtain ⟨letter, rest, rfl, noDollar, _⟩ := plain literal List.mem_cons_self
        have diverges := @diverges_of_not_clear position template letter rest noDollar single first
        exact absurd same (diverges.replacedInOrder others (single_fillOne single)).ne

theorem render_congr {one other : Nat → List Char}
    (same : ∀ position, .placeholder position ∈ template → one position = other position) :
    render one template = render other template := by
  induction template with
  | nil => rfl
  | cons piece template rest =>
      have later := rest fun position member => same position (List.mem_cons_of_mem _ member)
      cases piece with
      | letter letter => simp [later]
      | placeholder position => simp [later, same position List.mem_cons_self]

theorem render_fillOne (shown : Nat → List Char) :
    render shown (fillOne position literal template) =
      render (fun other => if other = position then literal else shown other) template := by
  induction template with
  | nil => rfl
  | cons piece template rest =>
      cases piece with
      | letter letter => simp [rest]
      | placeholder other =>
          by_cases own : other = position
          · rw [own, fillOne_same, render_append, render_letters, rest]
            simp
          · rw [fillOne_other own, render_placeholder, rest]
            simp [own]

/-- Filling all placeholders shows each of them as its own literal. -/
theorem render_fillFrom {literals : List (List Char)}
    (inside : ∀ other, .placeholder other ∈ template → position ≤ other ∧ other < position + literals.length) :
    render placeholderText (fillFrom position literals template) =
      render (fun other => literals.getD (other - position) []) template := by
  induction literals generalizing position template with
  | nil =>
      apply render_congr
      intro other member
      have bounds := inside other member
      simp only [List.length_nil] at bounds
      omega
  | cons literal literals filled =>
      rw [fillFrom, filled, render_fillOne]
      · apply render_congr
        intro other member
        have bounds := inside other member
        by_cases own : other = position
        · simp [own]
        · have later : other - position = other - (position + 1) + 1 := by omega
          simp [own, later]
      · intro other member
        obtain ⟨listed, different⟩ := placeholder_fillOne member
        have bounds := inside other listed
        rw [List.length_cons] at bounds
        omega

end Numbered

section Questions

variable {position : Nat} {literal text rest front : List Char} {template : List Piece} {shown : Nat → List Char}

theorem replaceFirst_append (free : '?' ∉ front) :
    replaceFirst '?' literal (front ++ rest) = front ++ replaceFirst '?' literal rest := by
  induction front with
  | nil => rfl
  | cons letter front kept =>
      have different : letter ≠ '?' := fun same => free (same ▸ List.mem_cons_self)
      simp [replaceFirst, different, kept fun member => free (List.mem_cons_of_mem _ member)]

@[simp]
theorem replaceFirst_mark : replaceFirst '?' literal ('?' :: rest) = literal ++ rest := by
  simp [replaceFirst]

/-- The literals replace the first question mark that is left, one after the other. -/
def replaceQuestions (literals : List (List Char)) (text : List Char) : List Char :=
  literals.foldl (fun text literal => replaceFirst '?' literal text) text

/-- A text without a question mark stays in front. -/
theorem replaceQuestions_append (literals : List (List Char)) (free : '?' ∉ front) :
    ∃ later, replaceQuestions literals (front ++ rest) = front ++ later := by
  induction literals generalizing rest with
  | nil => exact ⟨rest, rfl⟩
  | cons literal literals kept =>
      obtain ⟨later, same⟩ := @kept (replaceFirst '?' literal rest)
      refine ⟨later, ?_⟩
      rw [← same, replaceQuestions, List.foldl_cons, replaceFirst_append free]
      rfl

/-- The positions of the placeholders, in order. -/
def placeholders (template : List Piece) : List Nat :=
  template.filterMap fun
    | .letter _ => none
    | .placeholder position => some position

theorem mem_placeholders : position ∈ placeholders template ↔ .placeholder position ∈ template := by
  unfold placeholders
  rw [List.mem_filterMap]
  constructor
  · rintro ⟨piece, member, found⟩
    cases piece with
    | letter letter => cases found
    | placeholder other =>
        obtain rfl := Option.some.inj found
        exact member
  · intro member
    exact ⟨_, member, rfl⟩

theorem placeholders_append (others : List Piece) :
    placeholders (template ++ others) = placeholders template ++ placeholders others := by
  simp [placeholders]

theorem placeholders_letters (text : List Char) : placeholders (text.map .letter) = [] := by
  simp [placeholders]

/-- The first placeholder has letters in front of it. -/
theorem exists_first_placeholder {positions : List Nat} (listed : placeholders template = position :: positions) :
    ∃ letters back, template = List.map .letter letters ++ .placeholder position :: back ∧
      placeholders back = positions := by
  induction template with
  | nil => cases listed
  | cons piece template found =>
      cases piece with
      | letter letter =>
          obtain ⟨letters, back, rfl, later⟩ := found listed
          exact ⟨letter :: letters, back, rfl, later⟩
      | placeholder other =>
          obtain ⟨rfl, later⟩ := List.cons.inj listed
          exact ⟨[], template, rfl, later⟩

theorem eq_letters (none : placeholders template = []) : ∃ letters, template = List.map .letter letters := by
  induction template with
  | nil => exact ⟨[], rfl⟩
  | cons piece template found =>
      cases piece with
      | letter letter =>
          obtain ⟨letters, rfl⟩ := found none
          exact ⟨letter :: letters, rfl⟩
      | placeholder other => cases none

/-- Nothing in front of a placeholder shows a question mark. -/
def Unquestioned (shown : Nat → List Char) (template : List Piece) : Prop :=
  ∀ front position back, template = front ++ .placeholder position :: back → '?' ∉ render shown front

/-- A placeholder behind letters is behind all of them. -/
theorem split_letters {letters : List Char} {others front back : List Piece}
    (same : List.map .letter letters ++ others = front ++ .placeholder position :: back) :
    ∃ inner, front = List.map .letter letters ++ inner ∧ others = inner ++ .placeholder position :: back := by
  induction letters generalizing front with
  | nil => exact ⟨front, rfl, same⟩
  | cons letter letters found =>
      cases front with
      | nil => simp at same
      | cons piece front =>
          obtain ⟨rfl, rest⟩ := List.cons.inj same
          obtain ⟨inner, rfl, later⟩ := found rest
          exact ⟨inner, rfl, later⟩

theorem unquestioned_letters_append {letters : List Char} {others : List Piece} :
    Unquestioned shown (List.map .letter letters ++ others) ↔
      ∀ front position back, others = front ++ .placeholder position :: back →
        '?' ∉ letters ++ render shown front := by
  constructor
  · intro free front position back same
    have inside := free (List.map .letter letters ++ front) position back (by rw [same, List.append_assoc])
    rwa [render_append, render_letters] at inside
  · intro free front position back same
    obtain ⟨inner, rfl, later⟩ := split_letters same
    rw [render_append, render_letters]
    exact free inner position back later

/-- The first placeholder may be filled in once the letters in front of it are free of question marks. -/
theorem unquestioned_first {letters : List Char} {back : List Piece} {other : Nat → List Char}
    (own : shown position = literal)
    (same : ∀ later, .placeholder later ∈ back → other later = shown later) :
    Unquestioned shown (List.map .letter letters ++ .placeholder position :: back) ↔
      '?' ∉ letters ∧ Unquestioned other (List.map .letter (letters ++ literal) ++ back) := by
  have equal {front later rest} (split : back = front ++ .placeholder later :: rest) :
      render other front = render shown front := by
    apply render_congr
    intro inner member
    apply same
    rw [split]
    exact List.mem_append_left _ member
  rw [unquestioned_letters_append, unquestioned_letters_append]
  constructor
  · intro free
    constructor
    · simpa using free [] position back rfl
    · intro front later rest split
      have inside := free (.placeholder position :: front) later rest (by rw [split]; rfl)
      rw [equal split]
      simpa [own, not_or, and_assoc] using inside
  · rintro ⟨free, later⟩ front next rest split
    cases front with
    | nil => simpa using free
    | cons piece front =>
        obtain ⟨rfl, inner⟩ := List.cons.inj split
        have inside := later front next rest inner
        rw [equal inner] at inside
        simpa [own, not_or, and_assoc] using inside

/-- A question mark in front of the first placeholder gets a literal, which does not start with one. -/
theorem replaceQuestions_mistaken {letters others : List Char} {literals : List (List Char)} (plain : Plain literal)
    (found : '?' ∈ letters) : replaceQuestions (literal :: literals) (letters ++ others) ≠ letters ++ rest := by
  obtain ⟨before, after, rfl, free⟩ := List.eq_append_cons_of_mem found
  obtain ⟨first, tail, rfl, _, different⟩ := plain
  have stays : '?' ∉ before ++ [first] := by
    simp [free, different.symm]
  have replaced : replaceFirst '?' (first :: tail) (before ++ '?' :: after ++ others) =
      (before ++ [first]) ++ (tail ++ (after ++ others)) := by
    rw [List.append_assoc, replaceFirst_append free, List.cons_append, replaceFirst_mark]
    simp
  obtain ⟨later, kept⟩ := @replaceQuestions_append (tail ++ (after ++ others)) _ literals stays
  rw [replaceQuestions, List.foldl_cons, replaced]
  intro same
  have result := kept.symm.trans same
  simp [different] at result

/-- With question marks the result is right exactly when nothing in front of a placeholder shows one. -/
theorem replaceQuestions_eq_iff {literals : List (List Char)} (plain : ∀ literal ∈ literals, Plain literal)
    (listed : placeholders template = List.range' position literals.length) :
    replaceQuestions literals (render (fun _ => ['?']) template) =
        render (fun other => literals.getD (other - position) []) template ↔
      Unquestioned (fun other => literals.getD (other - position) []) template := by
  induction literals generalizing position template with
  | nil =>
      obtain ⟨letters, rfl⟩ := eq_letters (by simpa using listed)
      refine iff_of_true (by simp [replaceQuestions]) ?_
      intro front position back same
      have member : .placeholder position ∈ List.map Piece.letter letters := by
        rw [same]
        simp
      simp at member
  | cons literal literals solved =>
      rw [List.length_cons, List.range'_succ] at listed
      obtain ⟨letters, back, rfl, later⟩ := exists_first_placeholder listed
      have shifted : ∀ inner, .placeholder inner ∈ back →
          literals.getD (inner - (position + 1)) [] = (literal :: literals).getD (inner - position) [] := by
        intro inner member
        rw [← mem_placeholders, later, List.mem_range'_1] at member
        have next : inner - position = inner - (position + 1) + 1 := by omega
        simp [next]
      have first : (literal :: literals).getD (position - position) [] = literal := by simp
      rw [@unquestioned_first position literal _ letters back (fun other => literals.getD (other - (position + 1)) [])
        first shifted]
      by_cases free : '?' ∈ letters
      · refine iff_of_false ?_ (fun both => both.1 free)
        rw [render_append, render_letters, render_append, render_letters]
        exact replaceQuestions_mistaken (plain literal List.mem_cons_self) free
      · have replaced : replaceFirst '?' literal (render (fun _ => ['?']) (List.map .letter letters ++
            .placeholder position :: back)) =
            render (fun _ => ['?']) (List.map .letter (letters ++ literal) ++ back) := by
          rw [render_append, render_letters, replaceFirst_append free, render_placeholder, List.singleton_append,
            replaceFirst_mark, render_append, render_letters, List.append_assoc]
        have shown : render (fun other => (literal :: literals).getD (other - position) [])
            (List.map .letter letters ++ .placeholder position :: back) =
            render (fun other => literals.getD (other - (position + 1)) [])
              (List.map .letter (letters ++ literal) ++ back) := by
          rw [render_append, render_append, render_letters, render_letters, render_placeholder, first,
            List.append_assoc, render_congr shifted]
        have next := @solved (position + 1) (List.map .letter (letters ++ literal) ++ back)
          (fun other member => plain other (List.mem_cons_of_mem _ member))
          (by rw [placeholders_append, placeholders_letters, later, List.nil_append])
        rw [shown, replaceQuestions, List.foldl_cons, replaced]
        simp only [free, not_false_eq_true, true_and]
        exact next

end Questions

section Inlining

theorem plain_of_digit {digit : Char} (isDigit : digit.isDigit = true) (rest : List Char) : Plain (digit :: rest) := by
  refine ⟨digit, rest, rfl, ?_, ?_⟩
  · rintro rfl
    cases isDigit
  · rintro rfl
    cases isDigit

theorem display_plain (value : Double) : Plain value.display := by
  cases value with
  | nan => exact ⟨'N', ['a', 'N'], rfl, by decide, by decide⟩
  | infinite negative =>
      cases negative with
      | false => exact ⟨'i', ['n', 'f'], rfl, by decide, by decide⟩
      | true => exact ⟨'-', ['i', 'n', 'f'], rfl, by decide, by decide⟩
  | finite negative magnitude nonneg rounded =>
      cases negative with
      | true => exact ⟨'-', _, rfl, by decide, by decide⟩
      | false =>
          obtain ⟨digit, rest, written, isDigit⟩ := DecimalNumber.exists_text_cons (shortest magnitude)
          have shown : (Double.finite false magnitude nonneg rounded).display = digit :: rest := written
          rw [shown]
          exact plain_of_digit isDigit rest

theorem integerText_plain (value : Int) : Plain (integerText value) := by
  unfold integerText
  split
  · exact ⟨'-', _, rfl, by decide, by decide⟩
  · obtain ⟨digit, digits, listed, isDigit⟩ := exists_decimal_cons value.natAbs
    rw [listed]
    exact plain_of_digit isDigit digits

/-- A literal starts with a quote, a sign, a digit or a letter. -/
theorem toSqlLiteral_plain (value : ParameterValue) : Plain value.toSqlLiteral := by
  cases value with
  | string value => exact ⟨apostrophe, _, rfl, by decide, by decide⟩
  | number value => exact integerText_plain value
  | float value => exact display_plain value

/-- The two kinds of placeholders. -/
inductive Style where
  | question
  | numbered

/-- How a placeholder is written. -/
def Style.shown : Style → Nat → List Char
  | question, _ => ['?']
  | numbered, position => placeholderText position

/-- Question marks stand for the parameters in order, and numbers for the parameters that they count. -/
def Style.Matches (style : Style) (template : List Piece) (count : Nat) : Prop :=
  match style with
  | question => placeholders template = List.range' 1 count
  | numbered => ∀ position, .placeholder position ∈ template → 1 ≤ position ∧ position ≤ count

variable (template : List Piece) (params : List ParameterValue)

def literals : List (List Char) := params.map ParameterValue.toSqlLiteral

/-- Every placeholder becomes the literal of its own parameter, and nothing else changes. -/
def substituted : List Char := render (fun position => (literals params).getD (position - 1) []) template

def inlined (style : Style) : List Char :=
  Query.toSqlWithInlinedParams ⟨render style.shown template, some params⟩

/-- A replacement finds its own placeholder only. With question marks, none stands in front of a placeholder; with
numbers, there is no question mark at all and each number is clear in what the parameters before it have left. -/
def Style.Safe (style : Style) : Prop :=
  match style with
  | question => Unquestioned (fun position => (literals params).getD (position - 1) []) template
  | numbered => params = [] ∨
      ('?' ∉ render placeholderText template ∧ ClearFrom 1 (literals params) template)

/-- No placeholder has a number with two digits. -/
def Style.SingleDigits (style : Style) : Prop :=
  match style with
  | question => True
  | numbered => ∀ position, .placeholder position ∈ template → position < 10

variable {template params}

theorem foldl_zipIdx (sql : List Char) (start : Nat) :
    (params.zipIdx start).foldl (fun sql entry => replaceAll (placeholderText (entry.2 + 1)) entry.1.toSqlLiteral sql)
      sql = replaceInOrder (start + 1) (literals params) sql := by
  induction params generalizing sql start with
  | nil => rfl
  | cons param params folded =>
      rw [List.zipIdx_cons, List.foldl_cons, folded]
      rfl

theorem inlined_questions {style : Style} (marked : '?' ∈ render style.shown template) :
    inlined template params style = replaceQuestions (literals params) (render style.shown template) := by
  unfold inlined Query.toSqlWithInlinedParams
  cases params with
  | nil => rfl
  | cons param params =>
      dsimp only
      rw [if_pos marked, replaceQuestions, literals, List.foldl_map]

theorem inlined_numbers {style : Style} (unmarked : '?' ∉ render style.shown template) :
    inlined template params style = replaceInOrder 1 (literals params) (render style.shown template) := by
  unfold inlined Query.toSqlWithInlinedParams
  cases params with
  | nil => rfl
  | cons param params =>
      dsimp only
      rw [if_neg unmarked]
      exact foldl_zipIdx _ 0

theorem literals_plain : ∀ literal ∈ literals params, Plain literal := by
  intro literal member
  obtain ⟨value, _, rfl⟩ := List.mem_map.mp member
  exact toSqlLiteral_plain value

theorem question_eq_iff (counted : Style.question.Matches template params.length) :
    inlined template params .question = substituted template params ↔ Style.question.Safe template params := by
  have listed : placeholders template = List.range' 1 (literals params).length := by
    rw [literals, List.length_map]
    exact counted
  have replaced : inlined template params .question =
      replaceQuestions (literals params) (render (fun _ => ['?']) template) := by
    cases params with
    | nil => rfl
    | cons param params =>
        apply inlined_questions
        obtain ⟨letters, back, rfl, _⟩ := exists_first_placeholder listed
        simp [Style.shown]
  rw [replaced]
  exact replaceQuestions_eq_iff literals_plain listed

/-- The text of a numbered template has no question mark of its own. -/
theorem question_in_letters (marked : '?' ∈ render placeholderText template) :
    ∃ front back, template = front ++ .letter '?' :: back ∧ '?' ∉ render placeholderText front := by
  induction template with
  | nil => cases marked
  | cons piece template found =>
      cases piece with
      | letter letter =>
          by_cases own : letter = '?'
          · exact ⟨[], template, by rw [own]; rfl, by simp⟩
          · rw [render_letter] at marked
            have later := (List.mem_cons.mp marked).resolve_left (Ne.symm own)
            obtain ⟨front, back, rfl, free⟩ := found later
            exact ⟨.letter letter :: front, back, rfl, by simp [free, Ne.symm own]⟩
      | placeholder position =>
          have none : '?' ∉ placeholderText position := by
            intro member
            rcases List.mem_cons.mp member with same | digit
            · cases same
            · have isDigit := isDigit_of_mem_decimal digit
              cases isDigit
          rw [render_placeholder] at marked
          have later := (List.mem_append.mp marked).resolve_left none
          obtain ⟨front, back, rfl, free⟩ := found later
          exact ⟨.placeholder position :: front, back, rfl, by simp [free, none]⟩

/-- A question mark in the text of a numbered template takes a parameter, and the result is wrong. -/
theorem numbered_marked (counted : Style.numbered.Matches template params.length) (some : params ≠ [])
    (marked : '?' ∈ render placeholderText template) :
    inlined template params .numbered ≠ substituted template params := by
  obtain ⟨front, back, rfl, free⟩ := question_in_letters marked
  obtain ⟨param, others, rfl⟩ := List.exists_cons_of_ne_nil some
  obtain ⟨first, tail, literal, _, noQuestion⟩ := toSqlLiteral_plain param
  have stays : '?' ∉ render placeholderText front ++ [first] := by
    simp [free, noQuestion.symm]
  have replaced : replaceFirst '?' param.toSqlLiteral (render placeholderText (front ++ .letter '?' :: back)) =
      (render placeholderText front ++ [first]) ++ (tail ++ render placeholderText back) := by
    rw [render_append, replaceFirst_append free, render_letter, replaceFirst_mark, literal]
    simp
  obtain ⟨later, kept⟩ := @replaceQuestions_append (tail ++ render placeholderText back) _ (literals others) stays
  have result : inlined (front ++ .letter '?' :: back) (param :: others) .numbered =
      render placeholderText front ++ [first] ++ later := by
    rw [← kept, ← replaced]
    exact inlined_questions marked
  rw [result, substituted, render_append, render_letter]
  match listed : placeholders front with
  | [] =>
      obtain ⟨letters, rfl⟩ := eq_letters listed
      simp [noQuestion]
  | position :: positions =>
      obtain ⟨letters, inner, rfl, _⟩ := exists_first_placeholder listed
      have bounds := counted position (by simp)
      have inside : position - 1 < (literals (param :: others)).length := by
        rw [literals, List.length_map]
        omega
      have member : (literals (param :: others)).getD (position - 1) [] ∈ literals (param :: others) := by
        rw [List.getD_eq_getElem?_getD, List.getElem?_eq_getElem inside]
        exact List.getElem_mem inside
      obtain ⟨head, rest, same, noDollar, _⟩ := literals_plain _ member
      rw [render_append, render_append, render_letters, render_letters, render_placeholder, render_placeholder, same]
      simp [placeholderText, Ne.symm noDollar]

theorem Style.Matches.inside (counted : Style.numbered.Matches template params.length) :
    ∀ other, .placeholder other ∈ template → 1 ≤ other ∧ other < 1 + (literals params).length := by
  intro other member
  have bounds := counted other member
  rw [literals, List.length_map]
  omega

theorem numbered_safe (counted : Style.numbered.Matches template params.length)
    (safe : Style.numbered.Safe template params) :
    inlined template params .numbered = substituted template params := by
  have filled := render_fillFrom counted.inside
  rcases safe with rfl | ⟨unmarked, clear⟩
  · exact filled
  · have replaced := @inlined_numbers template params .numbered unmarked
    rw [replaced, substituted, ← filled]
    exact replaceInOrder_clear clear

theorem numbered_exact (counted : Style.numbered.Matches template params.length)
    (single : Style.numbered.SingleDigits template)
    (same : inlined template params .numbered = substituted template params) :
    Style.numbered.Safe template params := by
  by_cases some : params = []
  · exact .inl some
  by_cases marked : '?' ∈ render placeholderText template
  · exact absurd same (numbered_marked counted some marked)
  refine .inr ⟨marked, ?_⟩
  apply clearFrom_of_replaceInOrder literals_plain fun other member => ⟨(counted other member).1, single other member⟩
  have replaced := @inlined_numbers template params .numbered marked
  rw [render_fillFrom counted.inside]
  exact replaced.symm.trans same

/-- Inlining is simultaneous substitution when every replacement finds its own placeholder only, and, apart from
placeholders with two digits, exactly then. -/
theorem inlining_exact_when (style : Style) (template : List Piece) (params : List ParameterValue)
    (counted : style.Matches template params.length) :
    (style.Safe template params → inlined template params style = substituted template params) ∧
    (style.SingleDigits template → inlined template params style = substituted template params →
      style.Safe template params) := by
  cases style with
  | question => exact ⟨(question_eq_iff counted).mpr, fun _ => (question_eq_iff counted).mp⟩
  | numbered => exact ⟨numbered_safe counted, numbered_exact counted⟩

/-- A string that contains an earlier placeholder is safe, and a later one is not. -/
theorem inlining_exact_when_sample :
    Style.numbered.Safe [.placeholder 1, .letter ' ', .placeholder 2] [.number 5, .string ['$', '1']] ∧
    ¬Style.numbered.Safe [.placeholder 1, .letter ' ', .placeholder 2] [.string ['$', '2'], .number 5] := by
  have counted (params : List ParameterValue) (two : params.length = 2) :
      Style.numbered.Matches [.placeholder 1, .letter ' ', .placeholder 2] params.length := by
    intro position member
    have listed : position = 1 ∨ position = 2 := by simpa using member
    omega
  have single : Style.numbered.SingleDigits [.placeholder 1, .letter ' ', .placeholder 2] := by
    intro position member
    have listed : position = 1 ∨ position = 2 := by simpa using member
    omega
  constructor
  · exact (inlining_exact_when .numbered _ _ (counted _ rfl)).2 single (by decide)
  · intro safe
    have same := (inlining_exact_when .numbered _ _ (counted _ rfl)).1 safe
    revert same
    decide

/-- The first parameter is taken for a part of the tenth placeholder. -/
theorem inlining_takes_ten_for_one :
    Style.numbered.Matches [.placeholder 10] 10 ∧
    inlined [.placeholder 10] (List.replicate 9 (.number 7) ++ [.number 3]) .numbered = ['7', '0'] ∧
    substituted [.placeholder 10] (List.replicate 9 (.number 7) ++ [.number 3]) = ['3'] := by
  refine ⟨?_, by decide, by decide +kernel⟩
  intro position member
  have listed : position = 10 := by simpa using member
  omega

end Inlining

end Spicebench.Queries
