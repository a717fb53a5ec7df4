import Sagas.Declaration.TypeExpr.Token

/-! The types of declared fields. Kept apart are the names of paths and generic arguments; of all
else in a type only the text matters. -/
namespace Sagas

mutual

/-- The type of a field as it is declared. -/
inductive TypeExpr where
  /-- A path: what stands before its last name, that name, and what stands after it. -/
  | path (before : List TypePart) (name : List Char) (after : List TypePart)
  /-- Any other type, such as a reference, a tuple or several bounds. -/
  | other (parts : List TypePart)

/-- A part of a type. -/
inductive TypePart where
  | token (t : Token)
  | type (t : TypeExpr)
  /-- Arguments in angle brackets; `comma` tells whether there is a comma after the last one. -/
  | arguments (list : List TypeArgument) (comma : Bool)

/-- A generic argument. -/
inductive TypeArgument where
  | lifetime (cs : List Char)
  | type (t : TypeExpr)
  /-- A constant, or a name with its type or bounds. -/
  | other (parts : List TypePart)

end

/-! ## Text -/

/-- The text of generic arguments, each with a flag that marks lifetimes. Lifetimes come first, and
the argument that then stands last keeps the comma that was after it. -/
def TypeArgument.joinChars (texts : List (Bool × List Char)) (comma : Bool) : List Char :=
  let (lifetimes, others) := texts.partition Prod.fst
  let moved := !others.isEmpty && texts.getLast?.any Prod.fst
  [','].intercalate ((lifetimes ++ others).map Prod.snd) ++ if comma || moved then [','] else []

mutual

/-- The text of a type without spaces. -/
def TypeExpr.chars : TypeExpr → List Char
  | .path before name after => TypePart.listChars before ++ (name ++ TypePart.listChars after)
  | .other parts => TypePart.listChars parts

def TypePart.chars : TypePart → List Char
  | .token t => t.chars
  | .type t => t.chars
  | .arguments list comma =>
    '<' :: (TypeArgument.joinChars (TypeArgument.listChars list) comma ++ ['>'])

def TypePart.listChars : List TypePart → List Char
  | [] => []
  | part :: rest => part.chars ++ TypePart.listChars rest

/-- The text of an argument, and whether it is a lifetime. -/
def TypeArgument.chars : TypeArgument → Bool × List Char
  | .lifetime cs => (true, cs)
  | .type t => (false, t.chars)
  | .other parts => (false, TypePart.listChars parts)

def TypeArgument.listChars : List TypeArgument → List (Bool × List Char)
  | [] => []
  | argument :: rest => argument.chars :: TypeArgument.listChars rest

end

namespace TypeExpr

/-- The text of a type without spaces. -/
def text (t : TypeExpr) : String :=
  String.ofList t.chars

/-! ## Options -/

/-- The type inside an `Option`: the first argument of a path whose last name is that. -/
def inside? : TypeExpr → Option TypeExpr
  | .path _ name after =>
    match after.getLast? with
    | some (.arguments (.type t :: _) _) => if name = "Option".toList then some t else none
    | _ => none
  | .other _ => none

/-- Whether a type is an `Option` of another. -/
def isOptional (t : TypeExpr) : Bool :=
  t.inside?.isSome

/-- The type itself, or the one inside if it is an `Option`. -/
def required (t : TypeExpr) : TypeExpr :=
  t.inside?.getD t

end TypeExpr

end Sagas
