import FormulaLang.Json.Reader
import FormulaLang.Vm.Config

/-!
# `Vm.ConfigReader` — settings from JSON

Settings are an object with the members `max_depth` and `optimize`, each at most once, or an array
of their values in that order. What is missing has its standard value, and other members are
skipped. A value of the wrong kind is reported when it has been read to its end, unless it is an
array or an object, so a fault inside a wrong number or text comes first.
-/

namespace FormulaLang.Config

open Json

/-- The members that have been read. -/
structure Fields where
  maxDepth : Option Nat
  optimize : Option Bool

/-- No members. -/
def Fields.empty : Fields := ⟨none, none⟩

/-- The settings with what is missing filled in. -/
def Fields.toConfig (fields : Fields) : Config where
  maxDepth := fields.maxDepth.getD standard.maxDepth
  optimize := fields.optimize.getD standard.optimize

/-- Takes a value of the wrong kind. -/
def unsuitable {α : Type} : Reader α := fun cs =>
  match Reader.skipSpace cs with
  | '[' :: _ => .error .unsuitable
  | '\x7b' :: _ => .error .unsuitable
  | cs => do
    let _ ← Reader.document .strict none cs
    .error .unsuitable

/-- Takes a number of groups. -/
def depth : Reader Nat := fun cs =>
  match Reader.skipSpace cs with
  | c :: cs =>
    if c.isDigit then do
      match ← Reader.strictNumber false (c :: cs) with
      | (.integer n, cs) => .ok (n.toNat, cs)
      | (.other, _) => .error .unsuitable
    else unsuitable (c :: cs)
  | [] => .error .truncated

/-- Takes a switch. -/
def switch : Reader Bool := fun cs =>
  match Reader.skipSpace cs with
  | 't' :: cs => (Reader.word ['r', 'u', 'e'] cs).map fun (_, cs) => (true, cs)
  | 'f' :: cs => (Reader.word ['a', 'l', 's', 'e'] cs).map fun (_, cs) => (false, cs)
  | cs => unsuitable cs

/-- How the value of the member `key` is read; a setting may be given once. -/
def field (key : String) (fields : Fields) : Except Fault (Reader Fields) :=
  match key with
  | "max_depth" =>
    if fields.maxDepth.isSome then .error .unsuitable
    else .ok fun cs => (depth cs).map fun (n, cs) => ({ fields with maxDepth := some n }, cs)
  | "optimize" =>
    if fields.optimize.isSome then .error .unsuitable
    else .ok fun cs => (switch cs).map fun (b, cs) => ({ fields with optimize := some b }, cs)
  | _ => .ok fun cs => (Reader.skip cs).map fun (_, cs) => (fields, cs)

/-- Takes the end of an array of settings. -/
def arrayEnd (fields : Fields) : Reader Fields := fun cs =>
  match Reader.skipSpace cs with
  | ']' :: cs => .ok (fields, cs)
  | cs => Reader.stop cs

/-- Takes the rest of an array of settings after its bracket. -/
def arrayFields : Reader Fields := fun cs =>
  match Reader.skipSpace cs with
  | ']' :: cs => .ok (.empty, cs)
  | cs => do
    let (n, cs) ← depth cs
    match Reader.skipSpace cs with
    | ',' :: cs => do
      let (b, cs) ← switch cs
      arrayEnd ⟨some n, some b⟩ cs
    | cs => arrayEnd ⟨some n, none⟩ cs

/-- Takes settings. -/
def fields : Reader Fields := fun cs =>
  match Reader.skipSpace cs with
  | '[' :: cs => arrayFields cs
  | '\x7b' :: cs => Reader.object Reader.strictText field .empty cs
  | cs => unsuitable cs

/-- The settings that a text holds. -/
def ofJson (text : String) : Except Fault Config := (fields.run text).map Fields.toConfig

/-- Settings as the text of an object. -/
def toJson (config : Config) : String :=
  "\x7b\"max_depth\":" ++ toString config.maxDepth ++
    ",\"optimize\":" ++ toString config.optimize ++ "\x7d"

end FormulaLang.Config
