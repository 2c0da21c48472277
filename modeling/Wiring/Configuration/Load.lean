import Wiring.Configuration.Model
import Wiring.Container

namespace Wiring

/-! Loading models into a container: an imported configuration under a generated name, scanned
classes under generated names, and one definition per factory method. Existing names win,
except that a factory method may replace a scanned definition (when the policy allows) or an
infrastructure one; an import never takes a name held by another class. -/

def registerIn (name : String) (d : Definition) : EStateM BootError Container Unit := do
  match (← get).register name d with
  | .ok c => set c
  | .error e => throw e

/-- The first name, in registration order, of a definition not made by a factory method whose
user class is `className`. -/
def Container.registeredNameOf (c : Container) (className : String) : Option String :=
  (c.definitions.entries.find? fun e => !e.2.hasFactory && e.2.cls.userName == className).map (·.1)

/-- How models become definitions: naming rules for imports and scans, and whether a factory
method may replace a scanned definition. -/
structure Loader where
  importNames : NameGenerator
  scanNames : NameGenerator
  overrideScanned : Bool

namespace Loader

/-- The name of the component owning a model's factory methods, registering an imported
configuration when it has none yet. -/
def ownerName (l : Loader) (m : Model) : EStateM BootError Container (String × Nat) := do
  match m.componentName with
  | some n => return (n, 0)
  | none =>
    let c ← get
    match c.registeredNameOf m.identity with
    | some existing => return (existing, 0)
    | none =>
      let d : Definition := { cls := m.cls, source := .imported }
      let name := l.importNames.generate d
      match c.definition? name with
      | some taken =>
        if taken.cls.userName != m.identity then
          throw (.invalidConfiguration (.importNameTaken name m.identity taken.cls.userName))
        return (name, 0)
      | none =>
        registerIn name d
        return (name, 1)

def loadScans (l : Loader) : List ComponentClass → EStateM BootError Container Nat
  | [] => return 0
  | k :: ks => do
    let d : Definition := { cls := k, source := .scanned }
    let name := l.scanNames.generate d
    let c ← get
    if c.definitions.contains name || (c.registeredNameOf k.userName).isSome then
      loadScans l ks
    else
      registerIn name d
      return (← loadScans l ks) + 1

/-- Whether an existing definition blocks a factory method's definition: it comes from the same
configuration, or it may not be replaced. -/
def blocks (l : Loader) (m : Model) (owner : String) (existing : Definition) : Bool :=
  let sameConfiguration := match existing.factory with
    | some ⟨.component o, _⟩ => o == owner
    | some ⟨.static k, _⟩ => k.userName == m.identity
    | none => false
  let replaceable := (existing.source == .scanned && l.overrideScanned) || existing.isInfrastructure
  sameConfiguration || !replaceable

def methodDefinition (m : Model) (owner : String) (decl : FactoryMethod) : Definition :=
  { cls := decl.returnClass
    role := decl.role
    scope := decl.scope
    lazyInit := decl.lazyInit
    source := .factoryMethod
    factory := some ⟨if decl.isStatic then .static m.cls else .component owner, decl.name⟩ }

def loadMethods (l : Loader) (m : Model) (owner : String) :
    List FactoryMethod → EStateM BootError Container Nat
  | [] => return 0
  | decl :: rest => do
    let c ← get
    let blocked := match c.definition? decl.target with
      | some existing => l.blocks m owner existing
      | none => false
    if blocked then loadMethods l m owner rest
    else
      registerIn decl.target (methodDefinition m owner decl)
      return (← loadMethods l m owner rest) + 1

def loadModel (l : Loader) (m : Model) : EStateM BootError Container Nat := do
  let (owner, imported) ← l.ownerName m
  let scanned ← l.loadScans m.scanned
  let methods ← l.loadMethods m owner m.factoryMethods
  return imported + scanned + methods

def load (l : Loader) : List Model → EStateM BootError Container Nat
  | [] => return 0
  | m :: ms => do
    let k ← l.loadModel m
    return k + (← l.load ms)

end Loader

end Wiring
