namespace Wiring.ClassName

/-! The grammar of class names: dot-separated identifiers over ASCII letters, digits and
underscores, where a segment after the first may also hold dollar signs. No segment is empty
and none starts with a digit or a dollar sign. -/

def isStart (c : Char) : Bool :=
  c.isAlpha || c == '_'

def isInner (c : Char) : Bool :=
  c.isAlphanum || c == '_'

def isLaterInner (c : Char) : Bool :=
  isInner c || c == '$'

def segment (inner : Char → Bool) : List Char → Bool
  | [] => false
  | c :: cs => isStart c && cs.all inner

def pieces : List Char → List (List Char)
  | [] => [[]]
  | c :: cs =>
    match pieces cs with
    | [] => [[c]]
    | p :: ps => if c = '.' then [] :: p :: ps else (c :: p) :: ps

def validPieces : List (List Char) → Bool
  | [] => false
  | first :: rest => segment isInner first && rest.all (segment isLaterInner)

def valid (s : String) : Bool :=
  validPieces (pieces s.toList)

example : valid "app.web.Controller" = true := by decide
example : valid "a.b$c" = true ∧ valid "a$.b" = false ∧ valid "a..b" = false ∧ valid "" = false := by
  decide

end Wiring.ClassName
