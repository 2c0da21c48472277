import Wiring.Basic
import Wiring.Capability

namespace Wiring

/-! Scripts describe behaviour as data: what a constructor makes, what a processor does to a
registry or a factory, what a factory-method body does. A script names classes by key; the
session that runs it owns the table of classes. Processors and lifecycle processors inside a
script carry a stamp, their identity, fixed when the script is built. A part of a script that
could not be read stays in it as `unreadable` and fails only when it is reached, blamed on the
scenario itself. -/

/-- The name failures of the scenario itself (an unreadable step, too deep a nesting of bodies)
are blamed on. -/
def scenarioName : String := "driver"

/-- The hooks a lifecycle processor offers around the creation of an instance. -/
inductive Hook where
  | properties
  | before
  | after
  | merged
  deriving DecidableEq, Repr, Inhabited

namespace Hook

def name : Hook → String
  | properties => "properties"
  | before => "before"
  | after => "after"
  | merged => "merged"

end Hook

/-- The factory method of a definition to register: on a named component, or static on a class
given by key. -/
inductive FactorySpec where
  | component (owner : String) (method : String)
  | static (classKey : String) (method : String)
  deriving Repr, Inhabited

/-- A definition to register, with its class given by key. -/
structure DefinitionSpec where
  name : String
  classKey : String
  role : Role := .application
  scope : Scope := .singleton
  lazyInit : Bool := false
  locked : Bool := false
  source : Source := .registered
  factory : Option FactorySpec := none
  order : Option Int := none
  configuration : Option ConfigMode := none
  properties : List (String × String) := []
  deriving Repr, Inhabited

/-- One change to a field of a definition. -/
inductive Change where
  | configuration (mode : Option ConfigMode)
  | order (n : Option Int)
  | lazyInit (b : Bool)
  | locked (b : Bool)
  | scope (s : Scope)
  | role (r : Role)
  | classKey (key : String)
  deriving Repr, Inhabited

/-- Changes to make to a definition in place, in order. When the rest of the description
could not be read, the changes before it are made and then the mutation fails with the
reason. -/
structure Mutation where
  changes : List Change := []
  unreadable : Option String := none
  deriving Repr, Inhabited

/-- What a processor does to a registry. `ρ` is the kind of instance recipe it can register. -/
inductive RegistryAction (ρ : Type) where
  | register (spec : DefinitionSpec)
  | registerSingleton (name : String) (value : ρ)
  | mutate (name : String) (change : Mutation)
  | listNames
  | fail (message : String)
  | unreadable (reason : String)

/-- What a processor does to a factory. -/
inductive FactoryAction where
  | materialize (name : String) (cap : Capability)
  /-- Registers a definition; its spec is read only when the registry is there, and one that
  could not be read fails with the reason. -/
  | register (spec : Except String DefinitionSpec)
  | mutate (name : String) (change : Mutation)
  | fail (message : String)
  | listNames (cap : Capability) (includeNonSingletons allowEagerInit : Bool)
  | unreadable (reason : String)

/-- A scripted processor: its journal label, order, and actions for the two phases. -/
structure Script (ρ : Type) where
  label : String
  order : Option Int
  onRegistry : List (RegistryAction ρ)
  onFactory : List FactoryAction

/-- A scripted lifecycle processor. It journals the listed hooks as `label:hook@name`, fails a
hook for the listed names, may wrap objects after initialization, and may offer a merged
definition hook. -/
structure Recorder where
  label : String
  order : Option Int
  mergedHook : Bool
  wrap : Bool
  record : List Hook
  failProperties : List String
  failBefore : List String
  failAfter : List String
  deriving Repr, Inhabited

/-- What to make: a plain object, an import-aware or factory-aware object, a processor already
instantiated under its stamp, or a failure. -/
inductive Recipe where
  | value (text : String)
  | importAware (text : String)
  | factoryAware (text : String)
  | registryProcessor (stamp : Nat) (script : Script Recipe)
  | factoryProcessor (stamp : Nat) (script : Script Recipe)
  | lifecycle (stamp : Nat) (recorder : Recorder)
  | fail (message : String)

/-- One step of a factory-method body. -/
inductive BodyStep where
  | call (method : String)
  | component (name : String)
  | owner
  | fail (message : String)
  | unreadable (reason : String)
  deriving Repr, Inhabited

/-- A factory-method body: the class and method it belongs to (for its journal entry and its
failures), its steps, and what it returns. In the text of a returned object, `$i` stands for
the text of step `i`'s result. -/
structure Body where
  className : String
  method : String
  steps : List BodyStep
  returns : Recipe

end Wiring
