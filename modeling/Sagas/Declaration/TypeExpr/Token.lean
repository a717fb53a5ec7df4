import Sagas.Text.Blank
import Sagas.Text.Digit

/-! The tokens of a declared type. Comments and white space between tokens are dropped. -/
namespace Sagas

/-- A token of a type. -/
inductive Token where
  /-- A name or a keyword, with `r#` before it if it is raw. -/
  | word (cs : List Char)
  /-- A number, a character or a string, as it is written. -/
  | literal (cs : List Char)
  /-- A lifetime, with its quote. -/
  | lifetime (cs : List Char)
  /-- A bracket or a mark of punctuation; `joint` tells whether another mark touches it. -/
  | mark (c : Char) (joint : Bool)
deriving DecidableEq

namespace Token

/-- The text of a token, without the spaces that a literal may hold. -/
def chars : Token → List Char
  | .word cs | .lifetime cs => cs
  | .literal cs => cs.filter (· ≠ ' ')
  | .mark c _ => [c]

/-! ## Classes of characters -/

/-- White space, and the two marks of text direction. -/
def isSpace (c : Char) : Bool :=
  Text.isBlankChar c || c = '\u200e' || c = '\u200f'

def isWordChar (c : Char) : Bool :=
  (c.isAlphanum || c = '_' || 128 ≤ c.toNat) && !isSpace c

/-- Whether a character stands between tokens as a mark of its own; brackets are none. -/
def isPunctuation (c : Char) : Bool :=
  c ∈ "~!@#$%^&*-=+|;:,<.>/?'".toList

def isOpening (c : Char) : Bool :=
  c = '(' || c = '[' || c = '\x7b'

def isClosing (c : Char) : Bool :=
  c = ')' || c = ']' || c = '\x7d'

/-- Whether characters make up one of the given words. -/
def isOneOf (words : List String) (cs : List Char) : Bool :=
  words.any fun word => word.toList = cs

/-! ## Comments -/

/-- What comes after a comment that `depth` further ones enclose. -/
def afterComment (depth : Nat) : List Char → List Char
  | [] => []
  | '*' :: '/' :: rest =>
    match depth with
    | 0 => rest
    | depth + 1 => afterComment depth rest
  | '/' :: '*' :: rest => afterComment (depth + 1) rest
  | _ :: rest => afterComment depth rest

/-- Whether a comment begins here. -/
def isComment (cs : List Char) : Bool :=
  ['/', '/'].isPrefixOf cs || ['/', '*'].isPrefixOf cs

/-! ## Literals -/

/-- The characters up to a closing quote, with it. A backslash takes the next character along. -/
def takeQuoted (quote : Char) : List Char → List Char × List Char
  | [] => ([], [])
  | '\\' :: c :: rest =>
    let (inside, after) := takeQuoted quote rest
    ('\\' :: c :: inside, after)
  | c :: rest =>
    if c = quote then ([c], rest)
    else
      let (inside, after) := takeQuoted quote rest
      (c :: inside, after)

/-- The characters up to a double quote with the given ones after it, with both. -/
def takeRaw (hashes : List Char) : List Char → List Char × List Char
  | [] => ([], [])
  | c :: rest =>
    if c = '"' ∧ hashes.isPrefixOf rest then (c :: hashes, rest.drop hashes.length)
    else
      let (inside, after) := takeRaw hashes rest
      (c :: inside, after)

/-- A literal of which the beginning is known, with the suffix that may come after it. -/
def finishLiteral (start : List Char) (quoted : List Char × List Char) : Token × List Char :=
  let (inside, after) := quoted
  (.literal (start ++ inside ++ after.takeWhile isWordChar), after.dropWhile isWordChar)

/-- A raw string, of which the letters before it are known. -/
def takeRawString? (letters : List Char) (cs : List Char) : Option (Token × List Char) :=
  let hashes := cs.takeWhile (· = '#')
  match cs.dropWhile (· = '#') with
  | '"' :: rest => some (finishLiteral (letters ++ hashes ++ ['"']) (takeRaw hashes rest))
  | _ => none

/-- A decimal point with the digits after it. Before another point or a name it is no part of a
number. -/
def takeFraction (cs : List Char) : List Char × List Char :=
  match cs with
  | '.' :: rest =>
    if rest.head?.any fun c => c = '.' || (isWordChar c && !Text.isDigit c) then ([], cs)
    else ('.' :: rest.takeWhile isWordChar, rest.dropWhile isWordChar)
  | _ => ([], cs)

/-- The sign and the digits of an exponent. -/
def takeExponent (cs : List Char) : List Char × List Char :=
  match cs with
  | sign :: d :: rest =>
    if (sign = '+' ∨ sign = '-') ∧ Text.isDigit d then
      (sign :: d :: rest.takeWhile isWordChar, rest.dropWhile isWordChar)
    else ([], cs)
  | _ => ([], cs)

/-- Whether a number ends in the letter of an exponent. -/
def awaitsExponent (number : List Char) : Bool :=
  number.getLast?.any (fun c => c = 'e' || c = 'E') &&
    number.dropLast.all fun c => Text.isDigit c || c = '_' || c = '.'

/-- A number: digits and the letters on them, a fraction and an exponent. -/
def takeNumber (cs : List Char) : Token × List Char :=
  let (whole, after) := cs.span isWordChar
  let isDecimal := whole.all fun c => Text.isDigit c || c = '_'
  let (fraction, after) := if isDecimal then takeFraction after else ([], after)
  let number := whole ++ fraction
  let (exponent, after) := if awaitsExponent number then takeExponent after else ([], after)
  (.literal (number ++ exponent), after)

/-- What a single quote begins: a character, or else a lifetime. -/
def takeQuote (rest : List Char) : Token × List Char :=
  match rest with
  | '\\' :: _ => finishLiteral ['\''] (takeQuoted '\'' rest)
  | c :: '\'' :: after => finishLiteral ['\'', c, '\''] ([], after)
  | 'r' :: '#' :: name =>
    (.lifetime ('\'' :: 'r' :: '#' :: name.takeWhile isWordChar), name.dropWhile isWordChar)
  | _ => (.lifetime ('\'' :: rest.takeWhile isWordChar), rest.dropWhile isWordChar)

/-- What letters begin: a raw name or a literal with letters before its quote, or else a word. -/
def takeWord (cs : List Char) : Token × List Char :=
  let (letters, after) := cs.span isWordChar
  let raw := if isOneOf ["r", "br", "cr"] letters then takeRawString? letters after else none
  match raw, after with
  | some taken, _ => taken
  | none, '"' :: rest =>
    if isOneOf ["b", "c"] letters then finishLiteral (letters ++ ['"']) (takeQuoted '"' rest)
    else (.word letters, after)
  | none, '\'' :: rest =>
    if isOneOf ["b"] letters then finishLiteral (letters ++ ['\'']) (takeQuoted '\'' rest)
    else (.word letters, after)
  | none, '#' :: rest =>
    if isOneOf ["r"] letters then
      (.word ('r' :: '#' :: rest.takeWhile isWordChar), rest.dropWhile isWordChar)
    else (.word letters, after)
  | none, _ => (.word letters, after)

/-! ## Tokens -/

/-- The token that begins with a character, and what comes after it. -/
def take (c : Char) (rest : List Char) : Token × List Char :=
  if c = '\'' then takeQuote rest
  else if c = '"' then finishLiteral ['"'] (takeQuoted '"' rest)
  else if Text.isDigit c then takeNumber (c :: rest)
  else if isWordChar c then takeWord (c :: rest)
  else (.mark c (rest.head?.any isPunctuation && !isComment rest), rest)

/-- The tokens of a text; `fuel` bounds the characters read. -/
def readAll (fuel : Nat) (cs : List Char) : List Token :=
  match fuel with
  | 0 => []
  | fuel + 1 =>
    match cs with
    | [] => []
    | '/' :: '/' :: rest => readAll fuel (rest.dropWhile (· ≠ '\n'))
    | '/' :: '*' :: rest => readAll fuel (afterComment 0 rest)
    | c :: rest =>
      if isSpace c then readAll fuel rest
      else
        let (token, rest) := take c rest
        token :: readAll fuel rest

/-- The tokens of a text. -/
def ofChars (cs : List Char) : List Token :=
  readAll cs.length cs

end Token

end Sagas
