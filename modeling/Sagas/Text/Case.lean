import Sagas.Text.CaseTable

/-! Upper and lower case: the full mapping for text, and ASCII alone for names. -/
namespace Sagas.Text

open CaseTable

/-- The single character a table of runs gives for a code point. -/
def mapRun (runs : List Run) (c : Char) : Char :=
  match runs.find? (·.covers c.toNat) with
  | some run => Char.ofNat (Int.toNat (c.toNat + run.shift))
  | none => c

/-- The full mapping of one character: exceptional table, else run table, else the character. -/
def mapFull (special : List (Nat × List Nat)) (runs : List Run) (c : Char) : List Char :=
  match special.lookup c.toNat with
  | some codes => codes.map Char.ofNat
  | none => [mapRun runs c]

/-- The upper case of a character, which may be several characters. -/
def upperChar (c : Char) : List Char :=
  if c.toNat < 128 then [c.toUpper] else mapFull upperSpecial upperRuns c

/-- The lower case of a character by itself, which may be several characters. -/
def lowerChar (c : Char) : List Char :=
  if c.toNat < 128 then [c.toLower] else mapFull lowerSpecial lowerRuns c

/-- Whether the first character that is not case-ignorable is a cased letter. -/
def meetsLetter (cs : List Char) : Bool :=
  match cs.dropWhile fun c => inRanges caseIgnorable c.toNat with
  | [] => false
  | c :: _ => inRanges casedLetters c.toNat

/-- Lower case of a text whose characters before it are `before`, nearest first: a capital sigma
that ends a word becomes a final sigma. -/
def lowerAfter : List Char → List Char → List Char
  | _, [] => []
  | before, c :: cs =>
    (if c = 'Σ' then
        if meetsLetter before && !meetsLetter cs then ['ς'] else ['σ']
      else lowerChar c) ++ lowerAfter (c :: before) cs

/-- The text in lower case. -/
def lower (s : String) : String :=
  String.ofList (lowerAfter [] s.toList)

/-- The text in upper case. -/
def upper (s : String) : String :=
  String.ofList (s.toList.flatMap upperChar)

/-- The text with its first character in upper case. -/
def upperFirst (cs : List Char) : List Char :=
  match cs with
  | [] => []
  | c :: rest => upperChar c ++ rest

/-- The text with its first character in lower case. -/
def lowerFirst (cs : List Char) : List Char :=
  match cs with
  | [] => []
  | c :: rest => lowerChar c ++ rest

/-- The text with its ASCII letters in lower case. -/
def foldAscii (s : String) : String :=
  String.ofList (s.toList.map Char.toLower)

/-- Whether two texts differ at most in the case of ASCII letters. -/
def sameIgnoringAsciiCase (a b : String) : Bool :=
  foldAscii a == foldAscii b

end Sagas.Text
