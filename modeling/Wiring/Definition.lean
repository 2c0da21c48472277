import Wiring.Class

namespace Wiring

/-! Component definitions: how to build one managed component. The container owns them, changes
them in place (configuration marks, enhancement) and never deletes them. -/

def preserveTargetClass : String := "preserve_target_class"

/-- Who runs a factory method: a named component, or a class for a static method. -/
inductive FactoryOwner where
  | component (name : String)
  | static (cls : ComponentClass)

/-- A factory method producing a definition's instances. -/
structure FactoryRef where
  owner : FactoryOwner
  method : String

/-- Everything the container needs to make one component. -/
structure Definition where
  cls : ComponentClass
  role : Role := .application
  scope : Scope := .singleton
  lazyInit : Bool := false
  source : Source := .registered
  factory : Option FactoryRef := none
  configuration : Option ConfigMode := none
  order : Option Int := none
  classLocked : Bool := false
  properties : Roster String := .empty
  attributes : Roster String := .empty

namespace Definition

def ofClass (c : ComponentClass) : Definition := { cls := c }

def isSingleton (d : Definition) : Bool := d.scope == .singleton

def isInfrastructure (d : Definition) : Bool := d.role == .infrastructure

def isFullConfiguration (d : Definition) : Bool := d.configuration == some .full

def hasFactory (d : Definition) : Bool := d.factory.isSome

end Definition

def DefinitionSpec.resolve (spec : DefinitionSpec) (classOf : String → ComponentClass) :
    Definition :=
  { cls := classOf spec.classKey
    role := spec.role
    scope := spec.scope
    lazyInit := spec.lazyInit
    source := spec.source
    factory := spec.factory.map fun
      | .component o meth => ⟨.component o, meth⟩
      | .static k meth => ⟨.static (classOf k), meth⟩
    configuration := spec.configuration
    order := spec.order
    classLocked := spec.locked
    properties := spec.properties.foldl (fun r (k, v) => r.insert k v) .empty }

end Wiring
