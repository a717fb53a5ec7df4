import Sagas.Text.Digit
import Sagas.Json.Basic
import Sagas.Binary64.Shortest

/-! The compact text of JSON values: no white space, members in order, no escapes beyond ASCII. -/
namespace Sagas

def JsonNumber.text : JsonNumber → String
  | .int n => toString n
  | .float x => x.text

namespace Json

open Text

/-- Quotes, backslashes and control characters are escaped, those with a short escape by it. -/
def escapeChar (c : Char) : List Char :=
  if c = '"' then ['\\', '"']
  else if c = '\\' then ['\\', '\\']
  else if c = '\n' then ['\\', 'n']
  else if c = '\r' then ['\\', 'r']
  else if c = '\t' then ['\\', 't']
  else if c = '\x08' then ['\\', 'b']
  else if c = '\x0c' then ['\\', 'f']
  else if c.toNat < 32 then
    ['\\', 'u', '0', '0', hexDigit (c.toNat / 16), hexDigit (c.toNat % 16)]
  else [c]

def quote (s : String) : String :=
  String.ofList ('"' :: s.toList.flatMap escapeChar ++ ['"'])

/-- The compact text of a value. -/
def text : Json → String
  | .null => "null"
  | .bool true => "true"
  | .bool false => "false"
  | .number n => n.text
  | .string s => quote s
  | .array items => "[" ++ ",".intercalate (itemTexts items) ++ "]"
  | .object members => "\x7b" ++ ",".intercalate (memberTexts members) ++ "\x7d"
where
  itemTexts : List Json → List String
    | [] => []
    | item :: rest => text item :: itemTexts rest
  memberTexts : List (String × Json) → List String
    | [] => []
    | (name, value) :: rest => (quote name ++ ":" ++ text value) :: memberTexts rest

end Sagas.Json
