/-!
# `Json.Basic` — JSON documents
-/

namespace FormulaLang

/-- A number in JSON: an integer of `[-2^63, 2^64)` written as one, or any other number, whose value
no one here asks for. Minus zero is not an integer. -/
inductive Json.Number where
  | integer (n : Int)
  | other
deriving DecidableEq, Repr

/-- A JSON document. An object lists its members in the order in which they are written. -/
inductive Json where
  | null
  | bool (b : Bool)
  | number (n : Json.Number)
  | string (text : String)
  | array (items : List Json)
  | object (members : List (String × Json))
deriving Inhabited

namespace Json

/-- Why a text is not the document that was asked for. -/
inductive Fault where
  /-- The text breaks the rules of JSON, or goes on after the document. -/
  | malformed
  /-- The text ends inside the document. -/
  | truncated
  /-- The document is not of the form that was asked for. -/
  | unsuitable
deriving DecidableEq, Repr

end Json

end FormulaLang
