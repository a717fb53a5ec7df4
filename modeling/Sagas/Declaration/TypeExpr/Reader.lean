import Sagas.Declaration.TypeExpr.Basic

/-! Reading declared types. A reader takes tokens from the front and returns what it read with the
tokens that are left; what it reads are the parts in the order in which they are written. -/
namespace Sagas

namespace TypePart

/-- Marks of punctuation as parts. -/
def marks (cs : String) : List TypePart :=
  cs.toList.map fun c => .token (.mark c false)

def ofTokens (ts : List Token) : List TypePart :=
  ts.map .token

end TypePart

namespace TypeExpr

open Token (isOneOf)
open TypePart (marks ofTokens)

/-! ## Tokens ahead -/

/-- The tokens after marks that touch each other, if they begin with these. -/
def afterMarks? : List Char → List Token → Option (List Token)
  | [], ts => some ts
  | [c], .mark d _ :: rest => if c = d then some rest else none
  | c :: cs, .mark d joint :: rest => if c = d ∧ joint then afterMarks? cs rest else none
  | _ :: _, _ => none

/-- The tokens after the given text of marks, if they begin with it. -/
def after? (text : String) (ts : List Token) : Option (List Token) :=
  afterMarks? text.toList ts

def startsWith (text : String) (ts : List Token) : Bool :=
  (after? text ts).isSome

/-- Whether the tokens begin with a bracket that opens. -/
def startsGroup : List Token → Bool
  | .mark c _ :: _ => Token.isOpening c
  | _ => false

/-- Whether the tokens begin with a bracket that closes. -/
def startsClosing : List Token → Bool
  | .mark c _ :: _ => Token.isClosing c
  | _ => false

/-- A bracket with all up to the one that closes it; `depth` brackets are open already. -/
def takeGroup? (depth : Nat) : List Token → Option (List Token × List Token)
  | [] => none
  | t :: rest =>
    let depth :=
      match t with
      | .mark c _ => if Token.isOpening c then depth + 1 else depth - (Token.isClosing c).toNat
      | _ => depth
    if depth = 0 then some ([t], rest)
    else (takeGroup? depth rest).map fun (inside, after) => (t :: inside, after)

/-- The lifetimes in angle brackets after `for`, with the brackets. -/
def takeBinder (ts : List Token) : List TypePart × List Token :=
  let inside := ts.takeWhile fun t => t.chars ≠ ['>']
  (ofTokens inside ++ marks ">", ts.drop (inside.length + 1))

/-- Whether a `+` stands ahead that is not the beginning of `+=`. -/
def startsPlus (ts : List Token) : Bool :=
  startsWith "+" ts && !startsWith "+=" ts

/-- Whether a bound may begin here. -/
def startsBound : List Token → Bool
  | .word _ :: _ | .lifetime _ :: _ => true
  | .mark c joint :: rest => c = '(' || c = '?' || startsWith "::" (.mark c joint :: rest)
  | _ => false

/-- What may stand between `&` or `*` and the type that it refers to. -/
def isModifier : Token → Bool
  | .lifetime _ => true
  | .word cs => isOneOf ["mut", "const"] cs
  | _ => false

/-! ## Types -/

mutual

/-- A type. With `plus`, further bounds may follow it. -/
def readType (fuel : Nat) (plus : Bool) (ts : List Token) : Option (TypeExpr × List Token) :=
  match fuel with
  | 0 => none
  | fuel + 1 =>
    match ts with
    | [] | .literal _ :: _ => none
    | .lifetime _ :: _ | .mark '?' _ :: _ => do
      let (bounds, rest) ← readBounds fuel plus ts
      return (.other bounds, rest)
    | .mark '(' _ :: rest => do
      let (items, rest) ← readItems fuel rest
      let (more, rest) ← readMore fuel plus rest
      return (.other (marks "(" ++ items ++ more), rest)
    | .mark '[' _ :: rest => do
      let (items, rest) ← readSequence fuel rest
      return (.other (marks "[" ++ items), rest)
    | .mark '!' _ :: rest => some (.other (marks "!"), rest)
    | .mark c _ :: rest =>
      if c = '&' ∨ c = '*' then do
        let modifiers := ofTokens (rest.takeWhile isModifier)
        let (t, rest) ← readType fuel false (rest.dropWhile isModifier)
        return (.other (.token (.mark c false) :: modifiers ++ [.type t]), rest)
      else readPathType fuel plus ts
    | .word cs :: rest =>
      if isOneOf ["_", "for", "unsafe", "extern", "fn", "dyn", "impl"] cs then
        readKeywordType fuel plus cs rest
      else readPathType fuel plus ts

/-- A type that a keyword begins: one to be inferred, a function, or bounds. -/
def readKeywordType (fuel : Nat) (plus : Bool) (keyword : List Char) (ts : List Token) :
    Option (TypeExpr × List Token) :=
  match fuel with
  | 0 => none
  | fuel + 1 =>
    let word := TypePart.token (.word keyword)
    if isOneOf ["_"] keyword then some (.other [word], ts)
    else if isOneOf ["for"] keyword then do
      let (binder, rest) := takeBinder ts
      let (t, rest) ← readType fuel plus rest
      return (.other (word :: binder ++ [.type t]), rest)
    else if isOneOf ["unsafe", "extern"] keyword then do
      let (abi, rest) := ts.span fun t => t matches .literal _
      let (t, rest) ← readType fuel plus rest
      return (.other (word :: ofTokens abi ++ [.type t]), rest)
    else if isOneOf ["fn"] keyword then do
      let (signature, rest) ← readSignature fuel (← after? "(" ts)
      return (.other (word :: signature), rest)
    else do
      let (bounds, rest) ← readBounds fuel plus ts
      return (.other (word :: bounds), rest)

/-- The type of the items of a slice or an array, with the length of an array and the bracket that
closes it. -/
def readSequence (fuel : Nat) (ts : List Token) : Option (List TypePart × List Token) :=
  match fuel with
  | 0 => none
  | fuel + 1 => do
    let (t, rest) ← readType fuel true ts
    match after? ";" rest with
    | some rest =>
      let (length, rest) ← readExpression fuel true rest
      return (.type t :: marks ";" ++ length ++ marks "]", ← after? "]" rest)
    | none => return (.type t :: marks "]", ← after? "]" rest)

/-- A path, the call of a macro, or bounds that begin with a path. -/
def readPathType (fuel : Nat) (plus : Bool) (ts : List Token) :
    Option (TypeExpr × List Token) :=
  match fuel with
  | 0 => none
  | fuel + 1 => do
    let (t, rest) ← readPath fuel ts
    match after? "!" rest with
    | some rest =>
      let (group, rest) ← if startsGroup rest then takeGroup? 0 rest else none
      return (.other (.type t :: marks "!" ++ ofTokens group), rest)
    | none =>
      let (more, rest) ← readMore fuel plus rest
      return (if more.isEmpty then t else .other (.type t :: more), rest)

/-- The items of a tuple or of a list of parameters, with the bracket that closes it. -/
def readItems (fuel : Nat) (ts : List Token) : Option (List TypePart × List Token) :=
  match fuel with
  | 0 => none
  | fuel + 1 =>
    match after? ")" ts with
    | some rest => some (marks ")", rest)
    | none => do
      let (part, rest) ← readItem fuel ts
      let (more, rest) ← readItems fuel rest
      return (part ++ more, rest)

/-- A piece of a list of items: a comma, an attribute, the name of a parameter, dots or a type. -/
def readItem (fuel : Nat) (ts : List Token) : Option (List TypePart × List Token) :=
  match fuel with
  | 0 => none
  | fuel + 1 =>
    if let some rest := after? "," ts then some (marks ",", rest)
    else if let some rest := after? "..." ts then some (marks "...", rest)
    else if let some rest := after? "#" ts then do
      let (group, rest) ← takeGroup? 0 rest
      return (marks "#" ++ ofTokens group, rest)
    else
      match ts with
      | .word name :: .mark ':' joint :: rest =>
        if startsWith "::" (.mark ':' joint :: rest) then do
          let (t, rest) ← readType fuel true ts
          return ([.type t], rest)
        else some (.token (.word name) :: marks ":", rest)
      | _ => do
        let (t, rest) ← readType fuel true ts
        return ([.type t], rest)

/-- The parameters and the result of a function, after the bracket that opens. -/
def readSignature (fuel : Nat) (ts : List Token) : Option (List TypePart × List Token) :=
  match fuel with
  | 0 => none
  | fuel + 1 => do
    let (items, rest) ← readItems fuel ts
    match after? "->" rest with
    | some rest =>
      let (result, rest) ← readType fuel false rest
      return (marks "(" ++ items ++ marks "->" ++ [.type result], rest)
    | none => return (marks "(" ++ items, rest)

-- Bounds

/-- Bounds with `+` between them; without `plus` a single one. -/
def readBounds (fuel : Nat) (plus : Bool) (ts : List Token) :
    Option (List TypePart × List Token) :=
  match fuel with
  | 0 => none
  | fuel + 1 => do
    let (bound, rest) ← readBound fuel ts
    let (more, rest) ← readMore fuel plus rest
    return (bound ++ more, rest)

/-- The bounds after a `+`, if it may be there and is; it may also end them. -/
def readMore (fuel : Nat) (plus : Bool) (ts : List Token) :
    Option (List TypePart × List Token) :=
  match fuel with
  | 0 => none
  | fuel + 1 =>
    if plus && startsPlus ts then
      let rest := ts.drop 1
      if startsBound rest then do
        let (bounds, rest) ← readBounds fuel true rest
        return (marks "+" ++ bounds, rest)
      else some (marks "+", rest)
    else some ([], ts)

/-- A bound: a lifetime, or a path with what may stand before it. -/
def readBound (fuel : Nat) (ts : List Token) : Option (List TypePart × List Token) :=
  match fuel with
  | 0 => none
  | fuel + 1 =>
    match ts with
    | .lifetime cs :: rest => some ([.token (.lifetime cs)], rest)
    | .mark '(' _ :: rest => do
      let (bound, rest) ← readBound fuel rest
      return (marks "(" ++ bound ++ marks ")", ← after? ")" rest)
    | .mark '?' _ :: rest => do
      let (bound, rest) ← readBound fuel rest
      return (marks "?" ++ bound, rest)
    | .word ['f', 'o', 'r'] :: rest => do
      let (binder, rest) := takeBinder rest
      let (bound, rest) ← readBound fuel rest
      return (.token (.word "for".toList) :: binder ++ bound, rest)
    | _ => do
      let (t, rest) ← readPath fuel ts
      return ([.type t], rest)

-- Paths

/-- A path. -/
def readPath (fuel : Nat) (ts : List Token) : Option (TypeExpr × List Token) :=
  match fuel with
  | 0 => none
  | fuel + 1 =>
    if let some rest := after? "<" ts then do
      let (self, rest) ← readQualified fuel rest
      readNames fuel (self ++ marks "::") (← after? "::" rest)
    else if let some rest := after? "::" ts then readNames fuel (marks "::") rest
    else readNames fuel [] ts

/-- A qualified type after its opening bracket: a type, perhaps as a path, with both brackets. -/
def readQualified (fuel : Nat) (ts : List Token) : Option (List TypePart × List Token) :=
  match fuel with
  | 0 => none
  | fuel + 1 => do
    let (t, rest) ← readType fuel true ts
    let (trait, rest) ←
      match rest with
      | .word ['a', 's'] :: rest => do
        let (trait, rest) ← readPath fuel rest
        pure ([TypePart.token (.word "as".toList), .type trait], rest)
      | _ => pure ([], rest)
    return (marks "<" ++ .type t :: trait ++ marks ">", ← after? ">" rest)

/-- The names of a path after what stands before them. -/
def readNames (fuel : Nat) (before : List TypePart) (ts : List Token) :
    Option (TypeExpr × List Token) :=
  match fuel with
  | 0 => none
  | fuel + 1 =>
    match ts with
    | .word name :: rest => do
      let (after, rest) ← readAfterName fuel rest
      match after? "::" rest with
      | some rest =>
        readNames fuel (before ++ .token (.word name) :: after ++ marks "::") rest
      | none => return (.path before name after, rest)
    | _ => none

/-- What belongs to a name in a path: generic arguments, or the parameters and the result of a
function. A pair of colons before the parameters says nothing and is left out. -/
def readAfterName (fuel : Nat) (ts : List Token) : Option (List TypePart × List Token) :=
  match fuel with
  | 0 => none
  | fuel + 1 =>
    let inner := (after? "::" ts).getD ts
    if let some rest := after? "(" inner then readSignature fuel rest
    else if startsWith "<=" ts then some ([], ts)
    else if let some rest := after? "<" inner then do
      let ((list, comma), rest) ← readArguments fuel rest
      let colons := if startsWith "::" ts then marks "::" else []
      return (colons ++ [.arguments list comma], rest)
    else some ([], ts)

-- Generic arguments

/-- Generic arguments after their opening bracket, with their closing one. -/
def readArguments (fuel : Nat) (ts : List Token) :
    Option ((List TypeArgument × Bool) × List Token) :=
  match fuel with
  | 0 => none
  | fuel + 1 =>
    match after? ">" ts with
    | some rest => some (([], false), rest)
    | none => do
      let (argument, rest) ← readArgument fuel ts
      match after? "," rest with
      | some rest =>
        let ((list, comma), rest) ← readArguments fuel rest
        return ((argument :: list, comma || list.isEmpty), rest)
      | none => return (([argument], false), ← after? ">" rest)

/-- A generic argument. A single name may be given a type or a constant by `=`, or bounds by a
colon. -/
def readArgument (fuel : Nat) (ts : List Token) : Option (TypeArgument × List Token) :=
  match fuel with
  | 0 => none
  | fuel + 1 =>
    match ts with
    | .lifetime cs :: rest =>
      if startsWith "+" rest then do
        let (bounds, rest) ← readBounds fuel true ts
        return (.type (.other bounds), rest)
      else some (.lifetime cs, rest)
    | _ =>
      match readConstant fuel ts with
      | some (constant, rest) => some (.other constant, rest)
      | none => do
        let (t, rest) ← readType fuel true ts
        match t, after? "=" rest, after? ":" rest with
        | .path [] _ _, some rest, _ =>
          let (value, rest) ← readBinding fuel rest
          return (.other (.type t :: marks "=" ++ value), rest)
        | .path [] _ _, none, some rest =>
          let (bounds, rest) ←
            if startsBound rest then readBounds fuel true rest else some ([], rest)
          return (.other (.type t :: marks ":" ++ bounds), rest)
        | _, _, _ => return (.type t, rest)

/-- What a name in generic arguments is bound to: a constant or a type. -/
def readBinding (fuel : Nat) (ts : List Token) : Option (List TypePart × List Token) :=
  match fuel with
  | 0 => none
  | fuel + 1 =>
    match readConstant fuel ts with
    | some constant => some constant
    | none => do
      let (t, rest) ← readType fuel true ts
      return ([.type t], rest)

/-- A constant: a literal, perhaps negative, or an expression in braces. -/
def readConstant (fuel : Nat) (ts : List Token) : Option (List TypePart × List Token) :=
  match fuel with
  | 0 => none
  | fuel + 1 =>
    match ts with
    | .literal cs :: rest => some ([.token (.literal cs)], rest)
    | .word cs :: rest =>
      if isOneOf ["true", "false"] cs then some ([.token (.word cs)], rest) else none
    | .mark '-' _ :: .literal cs :: rest => some (marks "-" ++ [.token (.literal cs)], rest)
    | .mark '\x7b' _ :: _ => readBrackets fuel ts
    | _ => none

-- Expressions

/-- An expression up to the bracket that closes what it stands in. With `operand`, a value is
awaited, so that `<` opens a qualified type. -/
def readExpression (fuel : Nat) (operand : Bool) (ts : List Token) :
    Option (List TypePart × List Token) :=
  match fuel with
  | 0 => none
  | fuel + 1 =>
    if ts.isEmpty || startsClosing ts then some ([], ts)
    else do
      let (parts, operand, rest) ← readOperation fuel operand ts
      let (more, rest) ← readExpression fuel operand rest
      return (parts ++ more, rest)

/-- A piece of an expression: what stands in brackets, generic arguments, a type, the call of a
macro, or else a token. The flag tells whether a value is awaited after it. -/
def readOperation (fuel : Nat) (operand : Bool) (ts : List Token) :
    Option (List TypePart × Bool × List Token) :=
  match fuel with
  | 0 => none
  | fuel + 1 =>
    if startsGroup ts then do
      let (group, rest) ← readBrackets fuel ts
      return (group, false, rest)
    else if let some rest := (after? "::" ts).bind (after? "<") then do
      let ((list, comma), rest) ← readArguments fuel rest
      return (marks "::" ++ [.arguments list comma], false, rest)
    else if let some rest := after? "<<" ts then
      if operand then readOperand fuel ts else some (marks "<<", true, rest)
    else
      match ts with
      | [] => none
      | .word ['a', 's'] :: rest => do
        let (t, rest) ← readType fuel false rest
        return ([.token (.word "as".toList), .type t], false, rest)
      | .word cs :: .mark '!' joint :: rest =>
        if startsGroup rest then do
          let (group, rest) ← takeGroup? 0 rest
          return (.token (.word cs) :: marks "!" ++ ofTokens group, false, rest)
        else some ([.token (.word cs)], false, .mark '!' joint :: rest)
      | .mark '<' joint :: rest =>
        if operand then readOperand fuel ts else some ([.token (.mark '<' joint)], true, rest)
      | .mark c joint :: rest => some ([.token (.mark c joint)], c ≠ '?', rest)
      | t :: rest => some ([.token t], false, rest)

/-- A value that begins with a qualified type. -/
def readOperand (fuel : Nat) (ts : List Token) : Option (List TypePart × Bool × List Token) :=
  match fuel with
  | 0 => none
  | fuel + 1 => do
    let (self, rest) ← readQualified fuel (← after? "<" ts)
    return (self, false, rest)

/-- An expression in brackets of any kind. -/
def readBrackets (fuel : Nat) (ts : List Token) : Option (List TypePart × List Token) :=
  match fuel, ts with
  | fuel + 1, .mark c joint :: rest =>
    if Token.isOpening c then do
      let (inside, rest) ← readExpression fuel true rest
      match rest with
      | close :: rest => return (.token (.mark c joint) :: inside ++ [.token close], rest)
      | [] => none
    else none
  | _, _ => none

end

/-- The type that a text denotes; a text of another form is kept token by token. -/
def ofString (s : String) : TypeExpr :=
  let ts := Token.ofChars s.toList
  match readType (8 * (ts.length + 1)) true ts with
  | some (t, []) => t
  | _ => .other (ofTokens ts)

end TypeExpr

end Sagas
