import Wiring.Log
import Wiring.Request.Value

namespace Wiring

/-! Bootstrap options and how a request value is read into them: an object by field names, in
name order (unknown names ignored, missing ones defaulted), or a list by position (at most four
items, missing trailing ones defaulted). A field of the wrong type, or a null, refuses the
value with a message that names what was found and what was expected. -/

/-- Options of a bootstrap context. -/
structure Options where
  allowDefinitionOverriding : Bool := true
  instantiateSingletons : Bool := true
  overrideScannedDefinitions : Bool := true
  logLevel : String := Log.defaultLevel
  deriving DecidableEq, Repr, Inhabited

namespace Options

def fieldNames : List String :=
  ["allow_definition_overriding", "instantiate_singletons", "override_scanned_definitions",
    "log_level"]

def invalidType (v : Request.Value) (expected : String) : String :=
  "invalid type: " ++ v.unexpected ++ ", expected " ++ expected

def setField (o : Options) (i : Nat) (v : Request.Value) : Except String Options :=
  match i, v with
  | 0, .bool b => pure { o with allowDefinitionOverriding := b }
  | 1, .bool b => pure { o with instantiateSingletons := b }
  | 2, .bool b => pure { o with overrideScannedDefinitions := b }
  | 3, .str s => pure { o with logLevel := s }
  | 3, v => throw (invalidType v "a string")
  | _, v => throw (invalidType v "a boolean")

def setPositions (o : Options) (i : Nat) : List Request.Value → Except String Options
  | [] => pure o
  | v :: vs => do
    let o ← o.setField i v
    setPositions o (i + 1) vs

def setNamed (o : Options) : List (String × Request.Value) → Except String Options
  | [] => pure o
  | (k, v) :: rest => do
    let o ← match fieldNames.idxOf? k with
      | some i => o.setField i v
      | none => pure o
    setNamed o rest

def decode : Request.Value → Except String Options
  | .obj fields => setNamed {} fields
  | .arr items =>
    if items.length > fieldNames.length then
      match setPositions {} 0 (items.take fieldNames.length) with
      | .ok _ =>
        throw ("invalid length " ++ toString items.length ++ ", expected fewer elements in array")
      | .error e => throw e
    else setPositions {} 0 items
  | v => throw (invalidType v "struct BootstrapOptions")

end Options

end Wiring
