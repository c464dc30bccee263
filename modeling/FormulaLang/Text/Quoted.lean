import FormulaLang.Text.JoiningMark
import FormulaLang.Text.Unprintable

/-!
# `Text.Quoted` — text between quotes, with every invisible character spelled out

A quoted text shows on one line exactly which characters it holds. Six characters have a short
escape; a character without a glyph of its own, or one that would be drawn on its neighbour, is
written as its code point in hexadecimal; every other character stands for itself.
-/

namespace FormulaLang.Text

/-- The code point of `c` in hexadecimal, in braces. -/
def codePointEscape (c : Char) : List Char :=
  ['\\', 'u', '\x7b'] ++ Nat.toDigits 16 c.toNat ++ ['\x7d']

/-- How one character is written between double quotes. -/
def escape (c : Char) : List Char :=
  match c with
  | '\x00' => ['\\', '0']
  | '\t' => ['\\', 't']
  | '\r' => ['\\', 'r']
  | '\n' => ['\\', 'n']
  | '\\' => ['\\', '\\']
  | '\"' => ['\\', '\"']
  | c =>
    if joiningMarkRanges.contains c.toNat || unprintableRanges.contains c.toNat then
      codePointEscape c
    else [c]

/-- The text in double quotes, each character escaped. -/
def quoted (text : String) : String :=
  String.ofList ('\"' :: text.toList.flatMap escape ++ ['\"'])

end FormulaLang.Text
