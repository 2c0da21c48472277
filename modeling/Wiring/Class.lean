import Wiring.Basic
import Wiring.Capability
import Wiring.Data.Roster
import Wiring.Script
import Wiring.Text.Quote

namespace Wiring

/-! Component classes. A class carries declared metadata (configuration marks, imports, scans,
factory methods), the capabilities it advertises, an optional constructor and the bodies of its
factory methods. Enhancement makes an intercepting subclass: it keeps the parent's metadata and
bodies, adds the `enhancedConfiguration` capability, and routes sibling calls through the
container. -/

/-- How a class makes an instance: by a recipe (journalled as `new:` and the class name), as the
configuration expansion processor with the given index, or by the parent's constructor with
objects wrapped for interception. -/
inductive Constructor where
  | recipe (className : String) (recipe : Recipe)
  | expansion (index : Nat)
  | intercepting (parent : Constructor)

/-- A declared factory method; `κ` is the type of classes. -/
structure MethodDecl (κ : Type) where
  name : String
  componentName : Option String := none
  returnClass : κ
  isStatic : Bool := false
  overridable : Bool := true
  role : Role := .application
  scope : Scope := .singleton
  lazyInit : Bool := false

namespace MethodDecl

variable {κ : Type}

def target (d : MethodDecl κ) : String :=
  d.componentName.getD d.name

end MethodDecl

/-- Declared metadata of a class; `κ` is the type of classes. -/
structure Metadata (κ : Type) where
  className : String
  configuration : Bool := false
  component : Bool := false
  componentName : Option String := none
  isFinal : Bool := false
  order : Option Int := none
  imports : List String := []
  scans : List String := []
  factoryMethods : List (MethodDecl κ) := []

namespace Metadata

variable {κ : Type}

def factoryMethod? (m : Metadata κ) (method : String) : Option (MethodDecl κ) :=
  m.factoryMethods.find? (·.name == method)

def shortName (m : Metadata κ) : String :=
  ((m.className.splitOn ".").getLast?).getD m.className

end Metadata

/-- A class the container can make components of. -/
structure ComponentClass where
  name : String
  metadata : Metadata ComponentClass
  capabilities : List Capability
  constructor : Option Constructor
  bodies : Roster Body
  superclass : Option ComponentClass
  intercepts : Bool

/-- Metadata of component classes. -/
abbrev ClassMetadata := Metadata ComponentClass

/-- A factory method of a component class. -/
abbrev FactoryMethod := MethodDecl ComponentClass

namespace ComponentClass

def bare (name : String) : ComponentClass where
  name := name
  metadata := { className := name }
  capabilities := [.component]
  constructor := none
  bodies := .empty
  superclass := none
  intercepts := false

def userName (c : ComponentClass) : String :=
  c.metadata.className

def hasCapability (c : ComponentClass) (cap : Capability) : Bool :=
  c.capabilities.any (·.implies cap)

def factoryMethod? (c : ComponentClass) (method : String) : Option FactoryMethod :=
  c.metadata.factoryMethod? method

def body? (c : ComponentClass) (method : String) : Option Body :=
  c.bodies.get? method

/-- Adds a factory method to a class being built: the declaration goes after the others, and the
body is filed under the method's name, replacing an earlier body of that name. -/
def addFactoryMethod (c : ComponentClass) (decl : FactoryMethod) (body : Body) : ComponentClass :=
  { c with
    metadata := { c.metadata with factoryMethods := c.metadata.factoryMethods ++ [decl] }
    bodies := c.bodies.insert decl.name body }

def addFactoryMethods (c : ComponentClass) (calls : List (FactoryMethod × Body)) :
    ComponentClass :=
  calls.foldl (fun c call => c.addFactoryMethod call.1 call.2) c

def interceptingSubclass (parent : ComponentClass) (name : String) (ctor : Constructor) :
    ComponentClass where
  name := name
  metadata := parent.metadata
  capabilities := Capability.insertSorted .enhancedConfiguration parent.capabilities
  constructor := some ctor
  bodies := parent.bodies
  superclass := some parent
  intercepts := true

def superName? (c : ComponentClass) : Option String :=
  c.superclass.map (·.name)

def debugText (c : ComponentClass) : String :=
  let caps := ", ".intercalate (c.capabilities.map Capability.caseName)
  let sup := match c.superName? with
    | none => "None"
    | some n => "Some(" ++ Text.debugQuote n ++ ")"
  "ComponentClass \x7b name: " ++ Text.debugQuote c.name ++ ", capabilities: \x7b" ++ caps ++
    "\x7d, superclass: " ++ sup ++ ", intercepts_factory_methods: " ++ toString c.intercepts ++
    " \x7d"

end ComponentClass

end Wiring
