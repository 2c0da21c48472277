import Wiring.Text.Binary64
import Wiring.Text.Quote

namespace Wiring.Request

/-! Request values: the tree a request line is read into. An integer is kept as one when it fits
64 bits, a double otherwise, and an object's fields are sorted by name, one per name. Fields are
read leniently: a field of the wrong type counts as missing and falls back to its default. -/

/-- A request value. -/
inductive Value where
  | null
  | bool (b : Bool)
  | int (n : Int)
  | double (negative : Bool) (magnitude : Text.Binary64)
  | str (s : String)
  | arr (items : List Value)
  | obj (fields : List (String × Value))
  deriving Repr, Inhabited

namespace Value

def get? (v : Value) (k : String) : Option Value :=
  match v with
  | obj fields => (fields.find? (·.1 == k)).map (·.2)
  | _ => none

def asStr? : Value → Option String
  | str s => some s
  | _ => none

def asBool? : Value → Option Bool
  | bool b => some b
  | _ => none

def asArr? : Value → Option (List Value)
  | arr items => some items
  | _ => none

def asU64? : Value → Option Nat
  | int n => if 0 ≤ n then some n.toNat else none
  | _ => none

def asI64? : Value → Option Int
  | int n => if n < 9223372036854775808 then some n else none
  | _ => none

def isNull : Value → Bool
  | null => true
  | _ => false

def given? (v : Value) (k : String) : Option Value :=
  (v.get? k).filter (!·.isNull)

def text (v : Value) (k : String) : String :=
  ((v.get? k).bind asStr?).getD ""

def text? (v : Value) (k : String) : Option String :=
  (v.get? k).bind asStr?

def requireText (v : Value) (k : String) : Except String String :=
  match v.text? k with
  | some s => pure s
  | none => throw ("missing string field `" ++ k ++ "`")

def flag (v : Value) (k : String) (default : Bool) : Bool :=
  ((v.get? k).bind asBool?).getD default

def items (v : Value) (k : String) : List Value :=
  ((v.get? k).bind asArr?).getD []

def texts (v : Value) (k : String) : List String :=
  (v.items k).filterMap asStr?

def hex2 (n : Nat) : String :=
  let digit (d : Nat) : Char := if d < 10 then Char.ofNat (48 + d) else Char.ofNat (87 + d)
  String.ofList [digit (n / 16 % 16), digit (n % 16)]

def escapeChar (c : Char) : String :=
  if c = '"' then "\\\""
  else if c = '\\' then "\\\\"
  else if c = '\n' then "\\n"
  else if c = '\r' then "\\r"
  else if c = '\t' then "\\t"
  else if c = '\x08' then "\\b"
  else if c = '\x0c' then "\\f"
  else if c.toNat < 32 then "\\u00" ++ hex2 c.toNat
  else String.singleton c

def quote (s : String) : String :=
  "\"" ++ String.join (s.toList.map escapeChar) ++ "\""

mutual

def render : Value → String
  | null => "null"
  | bool b => if b then "true" else "false"
  | int n => toString n
  | double negative x => Text.Binary64.jsonText negative x
  | str s => quote s
  | arr items => "[" ++ renderItems items ++ "]"
  | obj fields => "\x7b" ++ renderFields fields ++ "\x7d"

def renderItems : List Value → String
  | [] => ""
  | [v] => render v
  | v :: rest => render v ++ "," ++ renderItems rest

def renderFields : List (String × Value) → String
  | [] => ""
  | [(k, v)] => quote k ++ ":" ++ render v
  | (k, v) :: rest => quote k ++ ":" ++ render v ++ "," ++ renderFields rest

end

def unexpected : Value → String
  | null => "null"
  | bool b => "boolean `" ++ (if b then "true" else "false") ++ "`"
  | int n => "integer `" ++ toString n ++ "`"
  | double negative x => "floating point `" ++ Text.Binary64.jsonText negative x ++ "`"
  | str s => "string " ++ Text.debugQuote s
  | arr _ => "sequence"
  | obj _ => "map"

def i32Min : Int := -2147483648

def i32Max : Int := 2147483647

def asOrder (x : Value) : Except String (Option Int) :=
  if x.isNull then pure none
  else match x.asI64? with
    | some n => if i32Min ≤ n ∧ n ≤ i32Max then pure (some n) else throw ("not an i32: " ++ x.render)
    | none => throw ("not an i32: " ++ x.render)

def order (v : Value) (k : String) : Except String (Option Int) :=
  match v.get? k with
  | none => pure none
  | some x => asOrder x

def insertField (k : String) (x : Value) : List (String × Value) → List (String × Value)
  | [] => [(k, x)]
  | (k', y) :: rest =>
    if k < k' then (k, x) :: (k', y) :: rest
    else if k = k' then (k, x) :: rest
    else (k', y) :: insertField k x rest

end Value

end Wiring.Request
