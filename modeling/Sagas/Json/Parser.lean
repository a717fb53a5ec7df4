import Sagas.Text.Digit
import Sagas.Json.Basic
import Sagas.Binary64.Reader

/-! Reading JSON text. Every reader takes the characters that remain and returns what it read with
the characters after it; `none` means that the text is not JSON. -/
namespace Sagas.Json

open Text

def skipSpace (cs : List Char) : List Char :=
  cs.dropWhile fun c => c = ' ' || c = '\n' || c = '\t' || c = '\r'

/-! ## Numbers -/

/-- The digits at the front as far as they fit: taking one more would leave the range of 64-bit
words. Returns the number, how many digits were taken, and the rest. -/
def takeDigits (significand taken : Nat) : List Char → Nat × Nat × List Char
  | [] => (significand, taken, [])
  | c :: cs =>
    if isDigit c && significand * 10 + digitValue c < UInt64.size then
      takeDigits (significand * 10 + digitValue c) (taken + 1) cs
    else (significand, taken, c :: cs)

/-- The value of the digits of an exponent, capped where it cannot matter any more. -/
def exponentValue (digits : List Char) : Nat :=
  digits.foldl (fun n c => min (n * 10 + digitValue c) 1000000000) 0

/-- An exponent mark with its sign and digits, if the text goes on with one. -/
def readExponent (cs : List Char) : Option (Int × List Char) :=
  match cs with
  | [] => some (0, [])
  | mark :: rest =>
    if mark = 'e' ∨ mark = 'E' then
      let (negative, rest) :=
        match rest with
        | '-' :: rest => (true, rest)
        | '+' :: rest => (false, rest)
        | _ => (false, rest)
      let digits := rest.takeWhile isDigit
      if digits.isEmpty then none
      else
        let value : Int := exponentValue digits
        some (if negative then -value else value, rest.dropWhile isDigit)
    else some (0, cs)

/-- The rest of a number that is not an integer of 64 bits, from the digits taken so far: further
digits before the point only raise the exponent, and digits that no longer fit are left out. -/
def readFloat (negative : Bool) (significand : Nat) (cs : List Char) :
    Option (JsonNumber × List Char) := do
  let dropped := (cs.takeWhile isDigit).length
  let cs := cs.dropWhile isDigit
  let (significand, scale, cs) ←
    match cs with
    | '.' :: fraction =>
      if (fraction.takeWhile isDigit).isEmpty then none
      else
        let (significand, taken, rest) := takeDigits significand 0 fraction
        some (significand, (dropped : Int) - taken, rest.dropWhile isDigit)
    | _ => some (significand, (dropped : Int), cs)
  let (exponent, rest) ← readExponent cs
  let x ← Binary64.ofScaled negative significand (scale + exponent)
  return (.float x, rest)

/-- A number, from its first character that is not a sign. -/
def readNumber (negative : Bool) (cs : List Char) : Option (JsonNumber × List Char) :=
  match cs with
  | [] => none
  | first :: after =>
    if !isDigit first then none
    else
      let (significand, _, rest) :=
        if first = '0' then (0, 1, after) else takeDigits 0 0 cs
      match rest with
      | [] => some (integer significand, [])
      | c :: _ =>
        if first = '0' && isDigit c then none
        else if isDigit c || c = '.' || c = 'e' || c = 'E' then readFloat negative significand rest
        else some (integer significand, rest)
where
  /-- A negative number that is zero or too small for a signed 64-bit integer is no integer. -/
  integer (significand : Nat) : JsonNumber :=
    if !negative then .int significand
    else if significand = 0 ∨ -(significand : Int) < Int64.minValue.toInt then
      .float (Binary64.nearest true significand 1)
    else .int (-significand)

/-! ## Strings -/

/-- The characters before the closing quote, escapes as they are written, and what comes after
it. -/
def splitString : List Char → Option (List Char × List Char)
  | [] => none
  | '"' :: rest => some ([], rest)
  | '\\' :: c :: rest => do
    let (cs, after) ← splitString rest
    return ('\\' :: c :: cs, after)
  | c :: rest => do
    let (cs, after) ← splitString rest
    return (c :: cs, after)

def shortEscape? (c : Char) : Option Char :=
  match c with
  | '"' => some '"'
  | '\\' => some '\\'
  | '/' => some '/'
  | 'b' => some '\x08'
  | 'f' => some '\x0c'
  | 'n' => some '\n'
  | 'r' => some '\r'
  | 't' => some '\t'
  | _ => none

/-- The numbers that characters between quotes stand for: the code point of a character, and of a
`\u` escape the number it gives, which may be half of a character. -/
def codeUnits : List Char → Option (List Nat)
  | [] => some []
  | '\\' :: 'u' :: a :: b :: c :: d :: rest => do
    let unit ← hexNumber? [a, b, c, d]
    return unit :: (← codeUnits rest)
  | '\\' :: c :: rest => do
    let escaped ← shortEscape? c
    return escaped.toNat :: (← codeUnits rest)
  | c :: rest =>
    if c = '\\' ∨ c.toNat < 32 then none
    else do return c.toNat :: (← codeUnits rest)

def isHighSurrogate (unit : Nat) : Bool :=
  0xD800 ≤ unit && unit < 0xDC00

def isLowSurrogate (unit : Nat) : Bool :=
  0xDC00 ≤ unit && unit < 0xE000

/-- The characters of code units. Surrogates must come in pairs, the high one first. -/
def joinUnits : List Nat → Option (List Char)
  | [] => some []
  | unit :: rest =>
    if isLowSurrogate unit then none
    else if isHighSurrogate unit then
      match rest with
      | [] => none
      | low :: rest =>
        if isLowSurrogate low then do
          return Char.ofNat (0x10000 + (unit - 0xD800) * 0x400 + (low - 0xDC00)) ::
            (← joinUnits rest)
        else none
    else do return Char.ofNat unit :: (← joinUnits rest)

/-- The text up to the closing quote. -/
def readString (cs : List Char) : Option (String × List Char) := do
  let (raw, rest) ← splitString cs
  let text ← joinUnits (← codeUnits raw)
  return (String.ofList text, rest)

/-! ## Values -/

def readWord (word : List Char) (value : Json) (cs : List Char) : Option (Json × List Char) :=
  if word.isPrefixOf cs then some (value, cs.drop word.length) else none

mutual

/-- A value. Arrays and objects nest at most `depth` deep; `fuel` bounds the characters read. -/
def readValue (fuel depth : Nat) (cs : List Char) : Option (Json × List Char) :=
  match fuel with
  | 0 => none
  | fuel + 1 =>
    match skipSpace cs with
    | [] => none
    | '"' :: rest => do
      let (s, rest) ← readString rest
      return (.string s, rest)
    | '[' :: rest => do
      if depth ≤ 1 then none
      else
        match skipSpace rest with
        | ']' :: rest => return (.array [], rest)
        | rest =>
          let (items, rest) ← readItems fuel (depth - 1) rest
          return (.array items, rest)
    | '{' :: rest => do
      if depth ≤ 1 then none
      else
        match skipSpace rest with
        | '}' :: rest => return (.object [], rest)
        | rest =>
          let (members, rest) ← readMembers fuel (depth - 1) [] rest
          return (.object members, rest)
    | '-' :: rest => do
      let (n, rest) ← readNumber true rest
      return (.number n, rest)
    | 't' :: rest => readWord ['r', 'u', 'e'] (.bool true) rest
    | 'f' :: rest => readWord ['a', 'l', 's', 'e'] (.bool false) rest
    | 'n' :: rest => readWord ['u', 'l', 'l'] .null rest
    | cs => do
      let (n, rest) ← readNumber false cs
      return (.number n, rest)

/-- One item or more, up to the closing bracket. -/
def readItems (fuel depth : Nat) (cs : List Char) : Option (List Json × List Char) :=
  match fuel with
  | 0 => none
  | fuel + 1 => do
    let (item, rest) ← readValue fuel depth cs
    match skipSpace rest with
    | ',' :: rest =>
      let (items, rest) ← readItems fuel depth rest
      return (item :: items, rest)
    | ']' :: rest => return ([item], rest)
    | _ => none

/-- One member or more, up to the closing brace, put after those already read: a name that is met
again keeps its place and takes the later value. -/
def readMembers (fuel depth : Nat) (members : Members) (cs : List Char) :
    Option (Members × List Char) :=
  match fuel with
  | 0 => none
  | fuel + 1 => do
    match skipSpace cs with
    | '"' :: rest =>
      let (name, rest) ← readString rest
      match skipSpace rest with
      | ':' :: rest =>
        let (value, rest) ← readValue fuel depth rest
        let members := Members.put name value members
        match skipSpace rest with
        | ',' :: rest => readMembers fuel depth members rest
        | '}' :: rest => return (members, rest)
        | _ => none
      | _ => none
    | _ => none

end

/-- The value that a whole text denotes, with white space around it. -/
def parse (s : String) : Option Json :=
  match readValue (2 * s.toList.length + 2) 128 s.toList with
  | some (value, rest) => if (skipSpace rest).isEmpty then some value else none
  | none => none

end Sagas.Json
