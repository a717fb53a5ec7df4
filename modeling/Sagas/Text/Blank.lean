/-! White space as Unicode defines it, and texts that hold nothing else. -/
namespace Sagas.Text

/-- The property White_Space, 25 characters. -/
def isBlankChar (c : Char) : Bool :=
  let code := c.toNat
  (9 ≤ code && code ≤ 13) || code == 0x20 || code == 0x85 || code == 0xA0 || code == 0x1680 ||
    (0x2000 ≤ code && code ≤ 0x200A) || code == 0x2028 || code == 0x2029 || code == 0x202F ||
    code == 0x205F || code == 0x3000

/-- Whether a text is empty or white space throughout. -/
def isBlank (s : String) : Bool :=
  s.toList.all isBlankChar

/-- A text without the white space at its start. -/
def trimStart (cs : List Char) : List Char :=
  cs.dropWhile isBlankChar

end Sagas.Text
