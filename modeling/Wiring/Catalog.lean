import Wiring.Catalog.ClassName
import Wiring.Class
import Wiring.Error

namespace Wiring

/-! A catalog of classes for resolving imports and scanning packages. Class names follow the
class-name grammar and are unique; scans list classes in the order they were added. -/

/-- Classes in the order they were added. -/
structure Catalog where
  classes : List ComponentClass
  deriving Inhabited

namespace Catalog

def empty : Catalog := ⟨[]⟩

def resolve? (c : Catalog) (name : String) : Option ComponentClass :=
  c.classes.find? (·.name == name)

def register (c : Catalog) (cls : ComponentClass) : Except BootError Catalog :=
  if !ClassName.valid cls.name then
    .error (.invalidConfiguration (.invalidClassName cls.name))
  else if c.classes.any (·.name == cls.name) then
    .error (.invalidConfiguration (.duplicateClass cls.name))
  else
    .ok ⟨c.classes ++ [cls]⟩

def ofClasses (classes : List ComponentClass) : Except BootError Catalog :=
  classes.foldlM register empty

def registerEach (c : Catalog) : List ComponentClass → List (Except BootError Unit) × Catalog
  | [] => ([], c)
  | k :: ks =>
    match c.register k with
    | .ok c' => let (rs, c'') := registerEach c' ks; (.ok () :: rs, c'')
    | .error e => let (rs, c'') := registerEach c ks; (.error e :: rs, c'')

def scan (c : Catalog) (base : String) : List ComponentClass :=
  c.classes.filter fun k =>
    k.name.startsWith (base ++ ".") && (k.metadata.component || k.metadata.configuration)

def size (c : Catalog) : Nat := c.classes.length

end Catalog

end Wiring
