import Spicebench.Construction.Queries
import Spicebench.Construction.Sink.Statements
import Spicebench.Library.Lexing

namespace Spicebench.Quoting
open Library Sink

/-- The quotes of SQL. -/
def isSqlMark (letter : Char) : Bool := letter = apostrophe ∨ letter = doubleQuote ∨ letter = backquote

/-- A quoted value is one token with that value, whatever stands behind it, and values stay apart. -/
structure Faithful (mark : Char) (quote : List Char → List Char) : Prop where
  single : ∀ value, lex isSqlMark (quote value) = some [.quoted mark value]
  contained : ∀ value rest, rest.head? ≠ some mark →
    lex isSqlMark (quote value ++ rest) = (lex isSqlMark rest).map (.quoted mark value :: ·)
  injective : Function.Injective quote

theorem quotedText_faithful {mark : Char} (known : isSqlMark mark = true) : Faithful mark (quotedText mark) where
  single _ := lex_quotedText known
  contained _ _ stops := lex_quotedText_append known stops
  injective := quotedText_injective mark

variable {Value : Type}

theorem toList_doubled (mark : Char) (text : String) : (doubled mark text).toList = doubleMarks mark text.toList := by
  rw [doubled, String.toList_ofList]
  rfl

theorem toList_quoteIdent (value : List Char) (mark : Char) :
    (quoteIdent (String.ofList value) mark).toList = quotedText mark value := by
  simp [quoteIdent, toList_doubled, quotedText]

/-- The types whose values are written in quotes. -/
def isQuoted : DataType → Bool
  | .utf8 | .largeUtf8 | .utf8View | .date32 | .date64 | .time32 _ | .time64 _ | .timestamp _ _ | .duration _
  | .interval _ => true
  | _ => false

/-- The literal of a value in quotes, whose text arrow renders. -/
theorem sqlLiteral_quoted {rendering : Rendering Value} {dataType : DataType} (quoted : isQuoted dataType = true)
    {value : Value} {raw : String} (rendered : rendering dataType value = .ok raw) (row : Nat) (bigintSuffix : Bool) :
    ∃ literal, sqlLiteral rendering dataType (some value) row bigintSuffix = .ok literal ∧
      literal.text.toList = quotedText apostrophe raw.toList := by
  have text : ("'" ++ doubled apostrophe raw ++ "'").toList = quotedText apostrophe raw.toList := by
    simp [toList_doubled, quotedText]
    decide
  unfold sqlLiteral
  dsimp only
  rw [rendered]
  cases dataType <;> simp only [isQuoted, Bool.false_eq_true] at quoted <;> exact ⟨_, rfl, text⟩

/-- No value can leave its quotes: every quoting function is read back as one token. -/
theorem quoting_faithful :
    (∀ driverName, Faithful (identifierQuoteStyle driverName) fun value =>
      (quoteIdent (String.ofList value) (identifierQuoteStyle driverName)).toList) ∧
    Faithful doubleQuote (fun value => (quoteIdentifier (String.ofList value)).toList) ∧
    (∃ quote, Faithful apostrophe quote ∧
      ∀ {Value : Type} (rendering : Rendering Value) (dataType : DataType) (value : Value) (raw : String) (row : Nat)
        (bigintSuffix : Bool), isQuoted dataType = true → rendering dataType value = .ok raw →
        ∃ literal, sqlLiteral rendering dataType (some value) row bigintSuffix = .ok literal ∧
          literal.text.toList = quote raw.toList) ∧
    Faithful apostrophe (fun value => (Queries.ParameterValue.string value).toSqlLiteral) := by
  have styled (driverName : String) : isSqlMark (identifierQuoteStyle driverName) = true := by
    unfold identifierQuoteStyle
    split <;> decide
  refine ⟨?_, ?_, ⟨quotedText apostrophe, quotedText_faithful (by decide), ?_⟩, quotedText_faithful (by decide)⟩
  · intro driverName
    simp only [toList_quoteIdent]
    exact quotedText_faithful (styled driverName)
  · have same : (fun value => (quoteIdentifier (String.ofList value)).toList) = quotedText doubleQuote := by
      funext value
      exact toList_quoteIdent value doubleQuote
    rw [same]
    exact quotedText_faithful (by decide)
  · intro Value rendering dataType value raw row bigintSuffix quoted rendered
    exact sqlLiteral_quoted quoted rendered row bigintSuffix

end Spicebench.Quoting
