import Sagas.Text.Blank
import Sagas.Time.Moment

/-! Reading dates and times: RFC 3339 with an offset, strictly or with room for spaces, and the form
without an offset. Every reader returns what it read with the characters after it. -/
namespace Sagas.Moment

open Text

/-! ## Parts -/

/-- One given character. -/
def readChar (c : Char) : List Char → Option (List Char)
  | [] => none
  | d :: rest => if d = c then some rest else none

/-- The number at the front, of exactly `count` digits. -/
def readExact (count : Nat) (cs : List Char) : Option (Nat × List Char) :=
  let digits := cs.take count
  if digits.length = count ∧ digits.all isDigit then
    some (decimalNumber digits, cs.drop count)
  else none

/-- The number at the front, of one digit or more but no more than `limit`. -/
def readUpTo (limit : Nat) (cs : List Char) : Option (Nat × List Char) :=
  let digits := (cs.take limit).takeWhile isDigit
  if digits.isEmpty then none else some (decimalNumber digits, cs.drop digits.length)

/-- A year after white space: up to four digits, or any number of digits after a sign. -/
def readYear (cs : List Char) : Option (Int × List Char) :=
  match trimStart cs with
  | '-' :: rest => (readUpTo rest.length rest).map fun (n, rest) => (-n, rest)
  | '+' :: rest => (readUpTo rest.length rest).map fun (n, rest) => (n, rest)
  | rest => (readUpTo 4 rest).map fun (n, rest) => (n, rest)

/-- The nanoseconds of a fraction of a second, if the text goes on with one: its first nine digits
count. -/
def readFraction : List Char → Option (Nat × List Char)
  | '.' :: rest =>
    let digits := rest.takeWhile isDigit
    if digits.isEmpty then none
    else
      let first := digits.take 9
      some (decimalNumber first * Nat.pow 10 (9 - first.length), rest.dropWhile isDigit)
  | cs => some (0, cs)

/-- The years that dates can have. -/
def yearInRange (year : Int) : Bool :=
  -262143 ≤ year && year ≤ 262142

/-- The moment of a date and a time of day, if both exist. Second 60 is the leap second. -/
def ofParts? (date : Calendar.Date) (hour minute second nanos : Nat) : Option Moment :=
  if yearInRange date.year && date.isValid && hour < 24 && minute < 60 && second ≤ 60 then
    some ⟨date.toDays * 86400 + hour * 3600 + minute * 60 + min second 59,
      nanos + (if second = 60 then 1000000000 else 0)⟩
  else none

/-- The moment in UTC of a time that is `offset` seconds ahead of it. -/
def atOffset? (m : Moment) (offset : Int) : Option Moment :=
  let utc : Moment := ⟨m.seconds - offset, m.nanos⟩
  if offset.natAbs < 86400 ∧ yearInRange utc.date.year then some utc else none

/-- An offset from UTC in seconds, after any `Z`: a sign, two digits of hours, what `gap` accepts,
and two digits of minutes. -/
def readOffset (gap : List Char → Option (List Char)) (cs : List Char) :
    Option (Int × List Char) := do
  match cs with
  | [] => none
  | mark :: rest =>
    if mark = 'Z' ∨ mark = 'z' then return (0, rest)
    else
      let negative := mark = '-' || mark = '−'
      if !negative && mark ≠ '+' then none
      else
        let (hours, rest) ← readExact 2 rest
        let rest ← gap rest
        let (minutes, rest) ← readExact 2 rest
        if 60 ≤ minutes then none
        else
          let seconds : Int := hours * 3600 + minutes * 60
          return (if negative then -seconds else seconds, rest)

/-- The character between a date and a time. -/
def readSeparator : List Char → Option (List Char)
  | [] => none
  | c :: rest => if c = 'T' ∨ c = 't' ∨ c = ' ' then some rest else none

/-! ## Forms -/

/-- Reads `YYYY-MM-DD`, `T`, `HH:MM:SS`, an optional fraction, and `Z` or an offset `+HH:MM`; every
number has its exact width. -/
def parseRfc3339? (s : String) : Option Moment := do
  let (year, cs) ← readExact 4 s.toList
  let cs ← readChar '-' cs
  let (month, cs) ← readExact 2 cs
  let cs ← readChar '-' cs
  let (day, cs) ← readExact 2 cs
  let cs ← readSeparator cs
  let (hour, cs) ← readExact 2 cs
  let cs ← readChar ':' cs
  let (minute, cs) ← readExact 2 cs
  let cs ← readChar ':' cs
  let (second, cs) ← readExact 2 cs
  let (nanos, cs) ← readFraction cs
  let (offset, cs) ← readOffset (readChar ':') cs
  if !cs.isEmpty then none
  else
    let m ← ofParts? ⟨year, month, day⟩ hour minute second nanos
    m.atOffset? offset

/-- A date whose numbers may be short and have white space before them. -/
def readLooseDate (cs : List Char) : Option (Calendar.Date × List Char) := do
  let (year, cs) ← readYear cs
  let cs ← readChar '-' (trimStart cs)
  let (month, cs) ← readUpTo 2 (trimStart cs)
  let cs ← readChar '-' (trimStart cs)
  let (day, cs) ← readUpTo 2 (trimStart cs)
  return (⟨year, month, day⟩, cs)

/-- A time of day whose numbers may be short and have white space before them, on a given date. -/
def readLooseTime (date : Calendar.Date) (cs : List Char) : Option (Moment × List Char) := do
  let (hour, cs) ← readUpTo 2 (trimStart cs)
  let cs ← readChar ':' (trimStart cs)
  let (minute, cs) ← readUpTo 2 (trimStart cs)
  let cs ← readChar ':' (trimStart cs)
  let (second, cs) ← readUpTo 2 (trimStart cs)
  let (nanos, cs) ← readFraction cs
  let m ← ofParts? date hour minute second nanos
  return (m, trimStart cs)

/-- Reads a date and time without an offset, with a capital `T` between them. -/
def parseLocal? (s : String) : Option Moment := do
  let (date, cs) ← readLooseDate s.toList
  let cs ← readChar 'T' (trimStart cs)
  let (m, cs) ← readLooseTime date cs
  if cs.isEmpty then some m else none

/-- Reads a date and time with an offset, where numbers may be short, spaces are allowed between the
parts, and `UTC` in either case stands for the offset zero. -/
def parseLoose? (s : String) : Option Moment := do
  let (date, cs) ← readLooseDate s.toList
  let cs ← readSeparator cs
  let (m, cs) ← readLooseTime date cs
  let (offset, cs) ←
    if (cs.take 3).map Char.toUpper = ['U', 'T', 'C'] then some (0, cs.drop 3)
    else readOffset (fun cs => some (cs.dropWhile fun c => c = ':' || isBlankChar c)) cs
  if (trimStart cs).isEmpty then m.atOffset? offset else none

end Sagas.Moment
