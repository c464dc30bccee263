import FormulaLang.Text.Ranges

/-!
# `Text.Blank` — white space of every script

Data of the Unicode standard, version 17.0, as ascending ranges.
-/

namespace FormulaLang.Text

/-- The code points with the property White_Space. -/
def blankRanges : Ranges :=
  [(0x9, 0xD), (0x20, 0x20), (0x85, 0x85), (0xA0, 0xA0), (0x1680, 0x1680), (0x2000, 0x200A),
   (0x2028, 0x2029), (0x202F, 0x202F), (0x205F, 0x205F), (0x3000, 0x3000)]

end FormulaLang.Text
