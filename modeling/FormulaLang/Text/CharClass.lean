import FormulaLang.Text.Alphabetic
import FormulaLang.Text.Numeric
import FormulaLang.Text.Blank

/-!
# `Text.CharClass` — the character classes of the language

Names are written with letters and numbers of every script, blanks are the white space of every
script, and the digits of a number are the ten ASCII ones (`Char.isDigit`).
-/

namespace FormulaLang.Text

/-- A letter of any script. -/
def isLetter (c : Char) : Bool := alphabeticRanges.contains c.toNat

/-- A number sign of any script. -/
def isNumeric (c : Char) : Bool := numericRanges.contains c.toNat

/-- White space of any script. -/
def isBlank (c : Char) : Bool := blankRanges.contains c.toNat

/-- A character that may begin a name. -/
def isNameStart (c : Char) : Bool := isLetter c || c == '_'

/-- A character that may continue a name. -/
def isNamePart (c : Char) : Bool := isLetter c || isNumeric c || c == '_'

end FormulaLang.Text
