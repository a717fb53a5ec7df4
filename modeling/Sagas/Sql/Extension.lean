import Sagas.Sql.Formatter

/-! Formatters made of others: with further parameters in the writes, or with other words in the
text of the load. -/
namespace Sagas

namespace Text

/-- Replaces every occurrence of `old`, from left to right; `fuel` bounds the characters. -/
def replaceWord (old new : List Char) (fuel : Nat) (cs : List Char) : List Char :=
  match fuel, cs with
  | 0, cs => cs
  | _, [] => []
  | fuel + 1, c :: rest =>
    if old.isPrefixOf (c :: rest) then
      new ++ replaceWord old new fuel ((c :: rest).drop old.length)
    else c :: replaceWord old new fuel rest

/-- Replaces every occurrence of `old` in a text; an empty `old` occurs around every character. -/
def replaceAll (old new text : String) : String :=
  let cs := text.toList
  if old.isEmpty then String.ofList (new.toList ++ cs.flatMap (· :: new.toList))
  else String.ofList (replaceWord old.toList new.toList cs.length cs)

end Text

namespace Statement

/-- Adds a parameter for the field at a path, mentioned in a comment at the end of the text. -/
def withParameter (style : ParameterStyle) (s : Statement) (path : String) : Statement :=
  let key := style.key (s.bindings.length + 1) (parameterName path)
  { sql := s.sql ++ " /* " ++ path ++ " " ++ key.placeholder ++ " */"
    bindings := s.bindings ++ [{ key, source := .field path }] }

end Statement

namespace Formatter

/-- Adds parameters for further paths to the insert and the update. -/
def withParameters (style : ParameterStyle) (paths : List String) (f : Formatter) : Formatter :=
  { f with
    insert := paths.foldl (Statement.withParameter style) f.insert
    update := paths.foldl (Statement.withParameter style) f.update }

/-- Replaces a word wherever it occurs in the text of the load. -/
def rewordLoad (old new : String) (f : Formatter) : Formatter :=
  { f with load := { f.load with sql := Text.replaceAll old new f.load.sql } }

end Formatter

end Sagas
