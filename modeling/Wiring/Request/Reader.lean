import Wiring.Request.Value

namespace Wiring.Request

/-! Reading a request line into a value. The grammar is strict JSON over the line's UTF-8
bytes. A malformed line is refused with a message and the line and byte column where reading
stopped: the column counts the bytes read, or one more when the fault is the byte about to be
read. Numbers are read as a 64-bit integer when they are one, else as the double that the
significand's first 64 bits make when scaled by the decimal exponent; a number that overflows
a double is refused. Lists and objects nest at most 127 deep. -/

/-- Where reading stands: the bytes left and how many were read. -/
structure Cursor where
  rest : List UInt8
  pos : Nat

/-- Reading from a cursor, refused with a message. -/
abbrev Read := StateT Cursor (Except String)

namespace Read

def byte (c : Char) : UInt8 := c.toNat.toUInt8

def isDigit (b : UInt8) : Bool := byte '0' ≤ b && b ≤ byte '9'

def digit (b : UInt8) : Nat := (b - byte '0').toNat

def isBlank (b : UInt8) : Bool :=
  b == byte ' ' || b == byte '\n' || b == byte '\t' || b == byte '\r'

def failAt {α : Type} (msg : String) (column : Nat) : Read α :=
  throw (msg ++ " at line 1 column " ++ toString column)

def failHere {α : Type} (msg : String) : Read α := do
  failAt msg (← get).pos

def failNext {α : Type} (msg : String) : Read α := do
  let c ← get
  failAt msg (if c.rest.isEmpty then c.pos else c.pos + 1)

def peek : Read (Option UInt8) := return (← get).rest.head?

def bump : Read Unit := modify fun c => match c.rest with
  | [] => c
  | _ :: rest => ⟨rest, c.pos + 1⟩

def next : Read (Option UInt8) := do
  let b ← peek
  bump
  return b

def skipBlankFrom : List UInt8 → Nat → Cursor
  | b :: rest, pos => if isBlank b then skipBlankFrom rest (pos + 1) else ⟨b :: rest, pos⟩
  | [], pos => ⟨[], pos⟩

def skipBlank : Read (Option UInt8) := do
  modify fun c => skipBlankFrom c.rest c.pos
  peek

def budget : Read Nat := return (← get).rest.length + 2

def ident : List UInt8 → Read Unit
  | [] => pure ()
  | e :: rest => do
    match ← next with
    | none => failHere "EOF while parsing a value"
    | some c => if c != e then failHere "expected ident" else ident rest

def hexVal (b : UInt8) : Option Nat :=
  if isDigit b then some (digit b)
  else if byte 'a' ≤ b && b ≤ byte 'f' then some ((b - byte 'a').toNat + 10)
  else if byte 'A' ≤ b && b ≤ byte 'F' then some ((b - byte 'A').toNat + 10)
  else none

def hex4 : Read Nat := do
  let c ← get
  match c.rest with
  | a :: b :: d :: e :: rest =>
    set (Cursor.mk rest (c.pos + 4))
    match hexVal a, hexVal b, hexVal d, hexVal e with
    | some w, some x, some y, some z => return ((w * 16 + x) * 16 + y) * 16 + z
    | _, _, _, _ => failHere "invalid escape"
  | rest =>
    set (Cursor.mk [] (c.pos + rest.length))
    failHere "EOF while parsing a string"

def pushCode (acc : List UInt8) (n : Nat) : List UInt8 :=
  (String.singleton (Char.ofNat n)).toUTF8.toList.reverse ++ acc

def expectPair (b : UInt8) : Read Unit := do
  match ← peek with
  | none => failHere "EOF while parsing a string"
  | some c => bump; if c != b then failHere "unexpected end of hex escape"

/-- Reads a hexadecimal escape: a character, or a surrogate pair. A trailing surrogate
without a leading one, or a leading one without its partner, refuses the line. -/
def unicodeEscape (acc : List UInt8) : Read (List UInt8) := do
  let n ← hex4
  if 0xDC00 ≤ n ∧ n ≤ 0xDFFF then failHere "lone leading surrogate in hex escape"
  else if n < 0xD800 ∨ n > 0xDBFF then return pushCode acc n
  else
    expectPair (byte '\\')
    expectPair (byte 'u')
    let m ← hex4
    if m < 0xDC00 ∨ m > 0xDFFF then failHere "lone leading surrogate in hex escape"
    else return pushCode acc ((n - 0xD800) * 0x400 + (m - 0xDC00) + 0x10000)

def escape (acc : List UInt8) : Read (List UInt8) := do
  match ← next with
  | none => failHere "EOF while parsing a string"
  | some c =>
    if c = byte '"' ∨ c = byte '\\' ∨ c = byte '/' then return c :: acc
    else if c = byte 'b' then return 8 :: acc
    else if c = byte 'f' then return 12 :: acc
    else if c = byte 'n' then return 10 :: acc
    else if c = byte 'r' then return 13 :: acc
    else if c = byte 't' then return 9 :: acc
    else if c = byte 'u' then unicodeEscape acc
    else failHere "invalid escape"

def textBody : Nat → List UInt8 → Read String
  | 0, _ => failHere "EOF while parsing a string"
  | fuel + 1, acc => do
    match ← next with
    | none => failHere "EOF while parsing a string"
    | some c =>
      if c = byte '"' then
        return (String.fromUTF8? (ByteArray.mk acc.reverse.toArray)).getD ""
      else if c = byte '\\' then textBody fuel (← escape acc)
      else if c < 32 then
        failHere "control character (\\u0000-\\u001F) found while parsing a string"
      else textBody fuel (c :: acc)

def text : Read String := do
  textBody (← budget) []

def u64Max : Nat := 18446744073709551615

/-- Reads the digits of an integer part into the significand. Once a digit would overflow
64 bits, it and every further digit only raise the exponent. -/
def integerDigits : Nat → Nat → Int → Bool → Read (Nat × Int × Bool)
  | 0, s, e, long => return (s, e, long)
  | fuel + 1, s, e, long => do
    match ← peek with
    | some c =>
      if !isDigit c then return (s, e, long)
      else if long then bump; integerDigits fuel s (e + 1) true
      else if s * 10 + digit c > u64Max then integerDigits fuel s e true
      else bump; integerDigits fuel (s * 10 + digit c) e false
    | none => return (s, e, long)

/-- Reads the digits after a decimal point, each lowering the exponent, until one would
overflow the significand; that one and the rest are skipped. Answers also how many digits
there were. -/
def fractionDigits : Nat → Nat → Int → Nat → Bool → Read (Nat × Int × Nat)
  | 0, s, e, k, _ => return (s, e, k)
  | fuel + 1, s, e, k, skipping => do
    match ← peek with
    | some c =>
      if !isDigit c then return (s, e, k)
      else
        bump
        if skipping ∨ s * 10 + digit c > u64Max then fractionDigits fuel s e (k + 1) true
        else fractionDigits fuel (s * 10 + digit c) (e - 1) (k + 1) false
    | none => return (s, e, k)

/-- Reads the digits of an exponent; none when it passes the greatest 32-bit integer, just
after the digit that makes it so. -/
def exponentDigits : Nat → Nat → Read (Option Nat)
  | 0, x => return some x
  | fuel + 1, x => do
    match ← peek with
    | some c =>
      if !isDigit c then return some x
      else
        bump
        if x * 10 + digit c > Value.i32Max.toNat then return none
        else exponentDigits fuel (x * 10 + digit c)
    | none => return some x

def skipDigits : Nat → Read Unit
  | 0 => pure ()
  | fuel + 1 => do
    match ← peek with
    | some c => if isDigit c then bump; skipDigits fuel else pure ()
    | none => pure ()

def saturate (e : Int) : Int := max Value.i32Min (min Value.i32Max e)

def double (negative : Bool) (s : Nat) (e : Int) : Read Value :=
  match Text.Binary64.ofDecimal s e with
  | some x => return .double negative x
  | none => failHere "number out of range"

def exponentPart (negative : Bool) (s : Nat) (e : Int) : Read Value := do
  bump
  let up ← match ← peek with
    | some c =>
      if c = byte '+' then bump; pure true
      else if c = byte '-' then bump; pure false
      else pure true
    | none => pure true
  match ← next with
  | none => failHere "EOF while parsing a value"
  | some c =>
    if !isDigit c then failHere "invalid number"
    else
      match ← exponentDigits (← budget) (digit c) with
      | some x => double negative s (saturate (if up then e + x else e - x))
      | none =>
        if s ≠ 0 ∧ up then failHere "number out of range"
        else
          skipDigits (← budget)
          return .double negative .zero

/-- An integer without fraction or exponent: a 64-bit integer when it is one; a negative zero
or a negative number below `-9223372036854775808` is a double. -/
def integer (negative : Bool) (s : Nat) : Value :=
  if !negative then .int s
  else if s = 0 then .double true .zero
  else if s ≤ 9223372036854775808 then .int (-(s : Int))
  else .double true ((Text.Binary64.nearest s 1).getD .zero)

def numberRest (negative : Bool) (s : Nat) (e : Int) (long : Bool) : Read Value := do
  match ← peek with
  | some c =>
    if c = byte '.' then
      bump
      let (s, e, k) ← fractionDigits (← budget) s e 0 false
      if k = 0 then
        match ← peek with
        | some _ => failNext "invalid number"
        | none => failNext "EOF while parsing a value"
      else
        match ← peek with
        | some d =>
          if d = byte 'e' ∨ d = byte 'E' then exponentPart negative s e else double negative s e
        | none => double negative s e
    else if c = byte 'e' ∨ c = byte 'E' then exponentPart negative s e
    else if long then double negative s e
    else return integer negative s
  | none => if long then double negative s e else return integer negative s

def number (negative : Bool) : Read Value := do
  match ← next with
  | none => failHere "EOF while parsing a value"
  | some c =>
    if c = byte '0' then
      match ← peek with
      | some d => if isDigit d then failNext "invalid number" else numberRest negative 0 0 false
      | none => numberRest negative 0 0 false
    else if isDigit c then
      let (s, e, long) ← integerDigits (← budget) (digit c) 0 false
      numberRest negative s e long
    else failHere "invalid number"

def nestingLimit : Nat := 128

mutual

def value (depth : Nat) : Nat → Read Value
  | 0 => failHere "recursion limit exceeded"
  | fuel + 1 => do
    match ← skipBlank with
    | none => failNext "EOF while parsing a value"
    | some c =>
      if c = byte 'n' then bump; ident "ull".toUTF8.toList; return .null
      else if c = byte 't' then bump; ident "rue".toUTF8.toList; return .bool true
      else if c = byte 'f' then bump; ident "alse".toUTF8.toList; return .bool false
      else if c = byte '-' then bump; number true
      else if c = byte '"' then bump; return .str (← text)
      else if c = byte '[' ∨ c = byte '\x7b' then
        if depth + 1 ≥ nestingLimit then failNext "recursion limit exceeded"
        else
          bump
          if c = byte '[' then elements (depth + 1) [] true fuel
          else members (depth + 1) [] true fuel
      else if isDigit c then number false
      else failNext "expected value"

def elements (depth : Nat) (acc : List Value) (first : Bool) : Nat → Read Value
  | 0 => failHere "recursion limit exceeded"
  | fuel + 1 => do
    match ← skipBlank with
    | none => failNext "EOF while parsing a list"
    | some c =>
      if c = byte ']' then bump; return .arr acc.reverse
      else
        let following ← if c = byte ',' ∧ !first then (do bump; skipBlank)
          else if first then pure (some c) else failNext "expected `,` or `]`"
        match following with
        | none => failNext "EOF while parsing a value"
        | some d =>
          if d = byte ']' then failNext "trailing comma"
          else elements depth ((← value depth fuel) :: acc) false fuel

def members (depth : Nat) (acc : List (String × Value)) (first : Bool) : Nat → Read Value
  | 0 => failHere "recursion limit exceeded"
  | fuel + 1 => do
    match ← skipBlank with
    | none => failNext "EOF while parsing an object"
    | some c =>
      if c = byte '\x7d' then bump; return .obj acc
      else
        let following ← if c = byte ',' ∧ !first then (do bump; skipBlank)
          else if first then pure (some c) else failNext "expected `,` or `\x7d`"
        match following with
        | none => failNext "EOF while parsing a value"
        | some d =>
          if d = byte '"' then
            bump
            let k ← text
            match ← skipBlank with
            | none => failNext "EOF while parsing an object"
            | some e =>
              if e = byte ':' then
                bump
                let v ← value depth fuel
                members depth (Value.insertField k v acc) false fuel
              else failNext "expected `:`"
          else if d = byte '\x7d' then failNext "trailing comma"
          else failNext "key must be a string"

end

end Read

def read (line : String) : Except String Value :=
  let bytes := line.toUTF8.toList
  let whole : Read Value := do
    let v ← Read.value 0 (2 * bytes.length + 2)
    match ← Read.skipBlank with
    | some _ => Read.failNext "trailing characters"
    | none => return v
  whole.run' ⟨bytes, 0⟩

end Wiring.Request
