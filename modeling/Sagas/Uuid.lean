import Sagas.Text.Digit

/-! Universally unique identifiers: 128 bits and the four texts that denote them. -/
namespace Sagas

/-- An identifier, as a number of 128 bits. -/
structure Uuid where
  value : BitVec 128
deriving DecidableEq, Inhabited

namespace Uuid

/-- The identifier with all bits zero. -/
def nil : Uuid :=
  ⟨0⟩

/-- The parts of the hyphenated form, by their lengths; nothing may remain. -/
def takeGroups : List Nat → List Char → Option (List Char)
  | [], cs => if cs.isEmpty then some [] else none
  | [n], cs => if cs.length = n then some cs else none
  | n :: rest, cs =>
    match cs.drop n with
    | '-' :: after => (takeGroups rest after).map (cs.take n ++ ·)
    | _ => none

/-- The digits of the hyphenated form, 8-4-4-4-12. -/
def hyphenated? (cs : List Char) : Option (List Char) :=
  takeGroups [8, 4, 4, 4, 12] cs

/-- The text after a marker that is written in either case. -/
def afterUrn? (cs : List Char) : Option (List Char) :=
  let urn := "urn:uuid:".toList
  if (cs.take urn.length).map Char.toLower = urn then some (cs.drop urn.length) else none

/-- The 32 digits of a text in one of the four forms: plain, hyphenated, hyphenated in braces, or
hyphenated after `urn:uuid:`. -/
def digits? (cs : List Char) : Option (List Char) :=
  if cs.length = 32 then some cs
  else if cs.length = 36 then hyphenated? cs
  else if cs.length = 38 then
    match cs with
    | '{' :: rest => if rest.getLast? = some '}' then hyphenated? rest.dropLast else none
    | _ => none
  else if cs.length = 45 then (afterUrn? cs).bind hyphenated?
  else none

/-- Reads an identifier. -/
def parse? (s : String) : Option Uuid := do
  let digits ← digits? s.toList
  let n ← Text.hexNumber? digits
  return ⟨BitVec.ofNat 128 n⟩

/-- The hexadecimal digit at a place, the lowest being place 0. -/
def digitAt (id : Uuid) (place : Nat) : Char :=
  Text.hexDigit ((id.value >>> (4 * place)).toNat % 16)

/-- All 32 hexadecimal digits, the highest first. -/
def hexDigits (id : Uuid) : List Char :=
  (List.range 32).reverse.map id.digitAt

/-- The hyphenated text in lower case. -/
def text (id : Uuid) : String :=
  let ds := id.hexDigits
  String.ofList (ds.take 8 ++ '-' :: (ds.drop 8).take 4 ++ '-' :: (ds.drop 12).take 4 ++
    '-' :: (ds.drop 16).take 4 ++ '-' :: ds.drop 20)

end Sagas.Uuid
