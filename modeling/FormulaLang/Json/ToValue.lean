import FormulaLang.Json.Basic
import FormulaLang.Value.Basic

/-!
# `Json.ToValue` — values of the language from JSON
-/

namespace FormulaLang.Json

/-- What the host calls the type of a document that has no counterpart in the language. -/
def hostTypeName : String := "serde_json::value::Value"

/-- The value of a document: nothing, an integer of 64 bits or a text; any other document is the
host's, with a handle of the given identity. -/
def toValue (id : Nat) : Json → Value
  | .null => .null
  | .string text => .string text
  | .number (.integer n) =>
    match Integer.checked? n with
    | some n => .integer n
    | none => .host ⟨id, hostTypeName⟩
  | _ => .host ⟨id, hostTypeName⟩

end FormulaLang.Json
