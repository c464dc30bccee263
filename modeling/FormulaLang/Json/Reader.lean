import FormulaLang.Json.Basic
import FormulaLang.Json.Magnitude

/-!
# `Json.Reader` — JSON documents from text

A text is read from left to right and the first fault ends the reading. A text that ends too early
is told from one that breaks a rule.

A member that no one asks for is read by looser rules (`Scalars.loose`): its numbers may have any
size, its escapes need not name characters, it may nest without limit, and a number that the text
breaks off in breaks a rule.

## Contents
- Scalars: words, numbers and texts, by strict and by loose rules.
- `elements` and `members`, the loops of arrays and objects; each turn takes a character, so there
  are at most as many turns as characters.
- `value`, and `Json.parse` for a whole text.
-/

namespace FormulaLang.Json

/-- A reader: from the characters ahead to a result and the characters left. -/
abbrev Reader (α : Type) := List Char → Except Fault (α × List Char)

namespace Reader

/-- Whether `c` may stand between the parts of a document. -/
def isSpace (c : Char) : Bool := c == ' ' || c == '\n' || c == '\t' || c == '\r'

/-- The text from its next character that is no space on. -/
def skipSpace (cs : List Char) : List Char := cs.dropWhile isSpace

/-- The fault that the text goes on with something that is not allowed, or not at all. -/
def stop {α : Type} : List Char → Except Fault α
  | [] => .error .truncated
  | _ :: _ => .error .malformed

/-- Takes the given characters. -/
def word : List Char → Reader Unit
  | [], cs => .ok ((), cs)
  | w :: ws, c :: cs => if c = w then word ws cs else .error .malformed
  | _ :: _, [] => .error .truncated

/-! ## Numbers -/

/-- The parts of a number: its digits before and after the point, and its exponent. -/
structure Parts where
  whole : List Char
  fraction : Option (List Char)
  exponent : Option Int

/-- Takes at least one digit. -/
def digits : Reader (List Char) := fun cs =>
  match cs.takeWhile Char.isDigit with
  | [] => stop cs
  | ds => .ok (ds, cs.dropWhile Char.isDigit)

/-- Takes the digits before the point: a zero, or a run that begins with another digit. -/
def whole : Reader (List Char) := fun cs => do
  let (ds, cs) ← digits cs
  match ds with
  | '0' :: _ :: _ => .error .malformed
  | _ => .ok (ds, cs)

/-- Takes a point and the digits after it, if a point comes next. -/
def fraction : Reader (Option (List Char))
  | '.' :: cs => do
    let (ds, cs) ← digits cs
    .ok (some ds, cs)
  | cs => .ok (none, cs)

/-- Takes the number after the letter of an exponent. -/
def signedDigits : Reader Int
  | '+' :: cs => do
    let (ds, cs) ← digits cs
    .ok (Numeral.value ds, cs)
  | '-' :: cs => do
    let (ds, cs) ← digits cs
    .ok (-Numeral.value ds, cs)
  | cs => do
    let (ds, cs) ← digits cs
    .ok (Numeral.value ds, cs)

/-- Takes an exponent, if one comes next. -/
def exponent : Reader (Option Int)
  | 'e' :: cs | 'E' :: cs => do
    let (n, cs) ← signedDigits cs
    .ok (some n, cs)
  | cs => .ok (none, cs)

/-- Takes a number without its sign. -/
def unsigned : Reader Parts := fun cs => do
  let (whole, cs) ← whole cs
  let (fraction, cs) ← fraction cs
  let (exponent, cs) ← exponent cs
  .ok (⟨whole, fraction, exponent⟩, cs)

/-- Whether a number is too large to be read. -/
def Parts.isTooLarge (parts : Parts) : Bool :=
  let (significand, dropped) := Magnitude.absorb 0 parts.whole
  let ds := parts.fraction.getD []
  let (significand, left) := Magnitude.absorb significand ds
  Magnitude.isTooLarge significand
    (dropped - ((ds.length : Int) - left) + parts.exponent.getD 0)

/-- The number with the given digits; `negative` says that a minus sign stands before them. -/
def Parts.number (negative : Bool) (parts : Parts) : Number :=
  let n := Numeral.value parts.whole
  if parts.fraction.isSome || parts.exponent.isSome then .other
  else if negative then
    if 0 < n ∧ Integer.InRange (-n) then .integer (-n) else .other
  else if n ≤ wordMax then .integer n else .other

/-- Takes a number after its sign. -/
def strictNumber (negative : Bool) : Reader Number := fun cs => do
  let (parts, cs) ← unsigned cs
  let n := parts.number negative
  if n = .other ∧ parts.isTooLarge then .error .malformed else .ok (n, cs)

/-- Takes a number that no one asks for. -/
def looseNumber (negative : Bool) : Reader Number := fun cs =>
  match unsigned cs with
  | .ok (parts, cs) => .ok (parts.number negative, cs)
  | .error _ => .error .malformed

/-! ## Texts -/

/-- The value of a hexadecimal digit. -/
def hexDigit? (c : Char) : Option Nat :=
  if c.isDigit then some (c.toNat - '0'.toNat)
  else if 'a' ≤ c ∧ c ≤ 'f' then some (c.toNat - 'a'.toNat + 10)
  else if 'A' ≤ c ∧ c ≤ 'F' then some (c.toNat - 'A'.toNat + 10)
  else none

/-- Takes four hexadecimal digits. With less than four bytes left the text ends too early, whatever
they are. -/
def hexDigits : Reader Nat := fun cs =>
  if (String.ofList (cs.take 4)).utf8ByteSize < 4 then .error .truncated
  else
    match (cs.take 4).mapM hexDigit? with
    | some [a, b, c, d] => .ok (((a * 16 + b) * 16 + c) * 16 + d, cs.drop 4)
    | _ => .error .malformed

/-- Takes the code point after `\u`. One above `U+FFFF` is written as two halves, each with an
escape of its own; a half that stands alone is a fault. -/
def codePoint : Reader Char := fun cs => do
  let (n, cs) ← hexDigits cs
  if 0xDC00 ≤ n ∧ n ≤ 0xDFFF then .error .malformed
  else if 0xD800 ≤ n ∧ n ≤ 0xDBFF then
    match cs with
    | '\\' :: 'u' :: cs => do
      let (low, cs) ← hexDigits cs
      if 0xDC00 ≤ low ∧ low ≤ 0xDFFF then
        .ok (Char.ofNat (0x10000 + (n - 0xD800) * 0x400 + (low - 0xDC00)), cs)
      else .error .malformed
    | ['\\'] => .error .truncated
    | cs => stop cs
  else .ok (Char.ofNat n, cs)

/-- Takes the rest of an escape after its backslash; `unicode` takes what follows `\u`. -/
def escape (unicode : Reader Char) : Reader Char
  | '\"' :: cs => .ok ('\"', cs)
  | '\\' :: cs => .ok ('\\', cs)
  | '/' :: cs => .ok ('/', cs)
  | 'b' :: cs => .ok ('\x08', cs)
  | 'f' :: cs => .ok ('\x0c', cs)
  | 'n' :: cs => .ok ('\n', cs)
  | 'r' :: cs => .ok ('\r', cs)
  | 't' :: cs => .ok ('\t', cs)
  | 'u' :: cs => unicode cs
  | cs => stop cs

/-- Takes at most `count` characters up to the closing quote; `read` has those before, the last one
first. -/
def characters (unicode : Reader Char) : Nat → List Char → Reader String
  | 0, _, _ => .error .truncated
  | count + 1, read, cs =>
    match cs with
    | [] => .error .truncated
    | '\"' :: cs => .ok (String.ofList read.reverse, cs)
    | '\\' :: cs =>
      match escape unicode cs with
      | .error fault => .error fault
      | .ok (c, cs) => characters unicode count (c :: read) cs
    | c :: cs =>
      if c < ' ' then .error .malformed else characters unicode count (c :: read) cs

/-- Takes a text after its opening quote. -/
def strictText : Reader String := fun cs => characters codePoint cs.length [] cs

/-- Takes a text that no one asks for. -/
def looseText : Reader String := fun cs =>
  characters (fun cs => do
    let (_, cs) ← hexDigits cs
    .ok (' ', cs)) cs.length [] cs

/-! ## Documents -/

/-- How numbers, after their sign, and texts, after their quote, are read. -/
structure Scalars where
  number : Bool → Reader Number
  text : Reader String

/-- The rules of the format. -/
def Scalars.strict : Scalars := ⟨strictNumber, strictText⟩

/-- The rules for what no one asks for. -/
def Scalars.loose : Scalars := ⟨looseNumber, looseText⟩

variable {α : Type}

/-- Takes at most `count` elements, each with `value`, and the closing bracket. -/
def elements (value : Reader α) : Nat → Reader (List α)
  | 0, _ => .error .truncated
  | count + 1, cs => do
    let (v, cs) ← value cs
    match skipSpace cs with
    | ']' :: cs => .ok ([v], cs)
    | ',' :: cs => do
      let (vs, cs) ← elements value count cs
      .ok (v :: vs, cs)
    | cs => stop cs

/-- Takes the colon between a key and its value. -/
def colon : Reader Unit := fun cs =>
  match skipSpace cs with
  | ':' :: cs => .ok ((), cs)
  | cs => stop cs

/-- Takes at most `count` members, the first one after its opening quote, and the closing brace.
`field` says, from a key and what the members before gave, how the value is read. -/
def members (text : Reader String) (field : String → α → Except Fault (Reader α)) :
    Nat → α → Reader α
  | 0, _, _ => .error .truncated
  | count + 1, a, cs => do
    let (key, cs) ← text cs
    let value ← field key a
    let (_, cs) ← colon cs
    let (a, cs) ← value cs
    match skipSpace cs with
    | '\x7d' :: cs => .ok (a, cs)
    | ',' :: cs =>
      match skipSpace cs with
      | '\"' :: cs => members text field count a cs
      | cs => stop cs
    | cs => stop cs

/-- Takes the rest of an array after its bracket. -/
def array (value : Reader α) : Reader (List α) := fun cs =>
  match skipSpace cs with
  | ']' :: cs => .ok ([], cs)
  | cs => elements value cs.length cs

/-- Takes the rest of an object after its brace, starting from `a`. -/
def object (text : Reader String) (field : String → α → Except Fault (Reader α)) (a : α) :
    Reader α := fun cs =>
  match skipSpace cs with
  | '\x7d' :: cs => .ok (a, cs)
  | '\"' :: cs => members text field cs.length a cs
  | cs => stop cs

/-- Takes a document; `inner` takes those inside an array or object, if one may be opened. -/
def document (scalars : Scalars) (inner : Option (Reader Json)) : Reader Json := fun cs =>
  match skipSpace cs with
  | 'n' :: cs => (word ['u', 'l', 'l'] cs).map fun (_, cs) => (.null, cs)
  | 't' :: cs => (word ['r', 'u', 'e'] cs).map fun (_, cs) => (.bool true, cs)
  | 'f' :: cs => (word ['a', 'l', 's', 'e'] cs).map fun (_, cs) => (.bool false, cs)
  | '-' :: cs => (scalars.number true cs).map fun (n, cs) => (.number n, cs)
  | '\"' :: cs => (scalars.text cs).map fun (text, cs) => (.string text, cs)
  | '[' :: cs =>
    match inner with
    | none => .error .malformed
    | some value => (array value cs).map fun (items, cs) => (.array items, cs)
  | '\x7b' :: cs =>
    match inner with
    | none => .error .malformed
    | some value =>
      let field key before := .ok fun cs => do
        let (v, cs) ← value cs
        .ok ((key, v) :: before, cs)
      (object scalars.text field [] cs).map fun (members, cs) => (.object members.reverse, cs)
  | c :: cs =>
    if c.isDigit then (scalars.number false (c :: cs)).map fun (n, cs) => (.number n, cs)
    else .error .malformed
  | [] => .error .truncated

/-- Takes a document in which at most `room` arrays and objects are inside one another. -/
def value (scalars : Scalars) : Nat → Reader Json
  | 0, cs => document scalars none cs
  | room + 1, cs => document scalars (some fun cs => value scalars room cs) cs

/-- Takes a document that no one asks for. -/
def skip : Reader Unit := fun cs => do
  let (_, cs) ← value .loose cs.length cs
  .ok ((), cs)

/-- Reads a text from its first to its last character. -/
def run (reader : Reader α) (text : String) : Except Fault α := do
  let (a, cs) ← reader text.toList
  match skipSpace cs with
  | [] => .ok a
  | _ :: _ => .error .malformed

end Reader

/-- How many arrays and objects may be inside one another. -/
def maxNesting : Nat := 127

/-- The document that a text is. -/
def parse (text : String) : Except Fault Json := (Reader.value .strict maxNesting).run text

end FormulaLang.Json
