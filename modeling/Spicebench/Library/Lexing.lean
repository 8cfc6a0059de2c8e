/-
This file reads quoted tokens back from a text in which a doubled quote denotes one quote.
-/

import Mathlib.Data.List.Basic

namespace Spicebench.Library

/-- A token in quotes has a value, and every other character stands for itself. -/
inductive Token where
  | quoted (mark : Char) (value : List Char)
  | symbol (letter : Char)
  deriving DecidableEq

/-- A quote inside of a token closes it, unless another one follows. -/
inductive LexState where
  | outside
  | inside (mark : Char) (value : List Char)
  | closing (mark : Char) (value : List Char)

/-- The tokens of a text, where `isMark` tells which characters are quotes; an open token is an error. -/
def lexFrom (isMark : Char → Bool) : LexState → List Char → Option (List Token)
  | .outside, [] => some []
  | .inside _ _, [] => none
  | .closing mark value, [] => some [.quoted mark value]
  | .outside, letter :: rest =>
      if isMark letter then lexFrom isMark (.inside letter []) rest
      else (lexFrom isMark .outside rest).map (.symbol letter :: ·)
  | .inside mark value, letter :: rest =>
      if letter = mark then lexFrom isMark (.closing mark value) rest
      else lexFrom isMark (.inside mark (value ++ [letter])) rest
  | .closing mark value, letter :: rest =>
      if letter = mark then lexFrom isMark (.inside mark (value ++ [letter])) rest
      else
        (if isMark letter then lexFrom isMark (.inside letter []) rest
          else (lexFrom isMark .outside rest).map (.symbol letter :: ·)).map (.quoted mark value :: ·)

def lex (isMark : Char → Bool) (text : List Char) : Option (List Token) := lexFrom isMark .outside text

example : lex (· == '"') ['a', '"', 'b', '"', '"', '"'] = some [.symbol 'a', .quoted '"' ['b', '"']] := by
  simp [lex, lexFrom]

/-- Every occurrence of the quote is doubled. -/
def doubleMarks (mark : Char) (text : List Char) : List Char :=
  text.flatMap fun letter => if letter = mark then [letter, letter] else [letter]

def quotedText (mark : Char) (text : List Char) : List Char := mark :: (doubleMarks mark text ++ [mark])

variable {isMark : Char → Bool} {mark : Char} {text value rest : List Char}

/-- A text with doubled quotes does not leave the token. -/
theorem lexFrom_doubleMarks :
    lexFrom isMark (.inside mark value) (doubleMarks mark text ++ rest) =
      lexFrom isMark (.inside mark (value ++ text)) rest := by
  induction text generalizing value with
  | nil => simp [doubleMarks]
  | cons letter text read =>
      have split : doubleMarks mark (letter :: text) ++ rest =
          (if letter = mark then [letter, letter] else [letter]) ++ (doubleMarks mark text ++ rest) := by
        simp [doubleMarks]
      rw [split]
      by_cases same : letter = mark
      · simp [same, lexFrom, read]
      · simp [same, lexFrom, read]

/-- A closing quote ends the token unless another quote follows. -/
theorem lexFrom_closing (stops : rest.head? ≠ some mark) :
    lexFrom isMark (.closing mark value) rest = (lex isMark rest).map (.quoted mark value :: ·) := by
  cases rest with
  | nil => simp [lex, lexFrom]
  | cons letter rest =>
      have other : letter ≠ mark := by simpa using stops
      simp [lex, lexFrom, other]

/-- A quoted text is one token, and the text behind it is read as if it stood alone. -/
theorem lex_quotedText_append (known : isMark mark = true) (stops : rest.head? ≠ some mark) :
    lex isMark (quotedText mark text ++ rest) = (lex isMark rest).map (.quoted mark text :: ·) := by
  have opened : lex isMark (quotedText mark text ++ rest) =
      lexFrom isMark (.inside mark []) (doubleMarks mark text ++ mark :: rest) := by
    simp [lex, lexFrom, quotedText, known]
  rw [opened, lexFrom_doubleMarks, lexFrom, if_pos rfl, List.nil_append, lexFrom_closing stops]

theorem lex_quotedText (known : isMark mark = true) :
    lex isMark (quotedText mark text) = some [.quoted mark text] := by
  have read := @lex_quotedText_append isMark mark text [] known (by simp)
  simpa [lex, lexFrom] using read

theorem quotedText_injective (mark : Char) : Function.Injective (quotedText mark) := by
  intro one other same
  let isMark : Char → Bool := fun letter => letter = mark
  have known : isMark mark = true := by simp [isMark]
  have tokens := congrArg (lex isMark) same
  rw [lex_quotedText known, lex_quotedText known] at tokens
  simpa using tokens

end Spicebench.Library
