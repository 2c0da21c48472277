import Wiring.Configuration.Imports
import Wiring.Naming

namespace Wiring

/-! Instances handed out by a container: managed objects, factory-level processors and
lifecycle processors. Objects carry a stamp, their identity; processors carry the stamp they
were instantiated under, so every handle to one processor compares equal. -/

/-- What a managed object holds. -/
inductive Payload where
  | value (text : String)
  | importAware (text : String)
  | factoryAware (text : String)
  | wrapped (inner : Payload)
  /-- An instance of an intercepting subclass: the user object and the container injected
  into it, set at most once. -/
  | enhanced (target : Payload) (injected : Option ContainerId)
  | imports (table : ImportTable)
  | generator (rule : NameGenerator)

/-- A managed object with its identity. -/
structure Managed where
  stamp : Nat
  payload : Payload

/-- A factory-level processor. -/
inductive PostProcessor where
  | registry (stamp : Nat) (script : Script Recipe)
  | factory (stamp : Nat) (script : Script Recipe)
  | expansion (index : Nat)

/-- Which listener registry a detector writes: the factory's own, or its context's. -/
inductive Book where
  | own
  | context
  deriving DecidableEq, Repr, Inhabited

/-- What a lifecycle processor does. -/
inductive LifecycleRole where
  | recorder (spec : Recorder)
  | chainChecker (target : Nat)
  | listenerDetector (book : Book)
  /-- Injects the container into enhanced configurations and import metadata into import-aware
  objects. -/
  | configurationAware

/-- A lifecycle processor with its identity. -/
structure Lifecycle where
  stamp : Nat
  role : LifecycleRole

/-- What a container hands out. -/
inductive Instance where
  | object (m : Managed)
  | post (p : PostProcessor)
  | lifecycle (l : Lifecycle)

namespace Payload

def describe : Payload → String
  | value t => t
  | importAware t => t
  | factoryAware t => t
  | wrapped inner => "wrapped(" ++ describe inner ++ ")"
  | enhanced target _ => describe target
  | imports _ => "<import_registry>"
  | generator _ => "<name_generator>"

def factoryAware? : Payload → Bool
  | factoryAware _ => true
  | enhanced _ _ => true
  | _ => false

def injected : Payload → Option ContainerId
  | enhanced _ c => c
  | _ => none

/-- The text of the import-aware object inside, if there is one. An enhanced object passes the
metadata of its importer to its target. -/
def importAwareText? : Payload → Option String
  | importAware t => some t
  | enhanced target _ => importAwareText? target
  | _ => none

end Payload

namespace PostProcessor

def order : PostProcessor → Int
  | registry _ s => s.order.getD lowestPrecedence
  | factory _ s => s.order.getD lowestPrecedence
  | expansion _ => lowestPrecedence

def isRegistry : PostProcessor → Bool
  | factory _ _ => false
  | _ => true

def describe : PostProcessor → String
  | registry _ s => "registry_processor:" ++ s.label
  | factory _ s => "factory_processor:" ++ s.label
  | expansion _ => "registry_processor:<internal>"

def sameAs : PostProcessor → PostProcessor → Bool
  | registry a _, registry b _ => a == b
  | factory a _, factory b _ => a == b
  | expansion a, expansion b => a == b
  | _, _ => false

end PostProcessor

def segmentOfReversed : List Char → List Char
  | [] => []
  | ':' :: ':' :: _ => []
  | c :: rest => c :: segmentOfReversed rest

/-- The part of a type name after its rightmost path separator `::`; the whole name when it has
none. Reading from the end finds the rightmost separator, so `a:::b` ends in `b`. -/
def lastSegment (s : String) : String :=
  String.ofList (segmentOfReversed s.toList.reverse).reverse

namespace Lifecycle

def order (l : Lifecycle) : Int :=
  match l.role with
  | .recorder r => r.order.getD lowestPrecedence
  | _ => lowestPrecedence

def hasMergedHook (l : Lifecycle) : Bool :=
  match l.role with
  | .recorder r => r.mergedHook
  | .listenerDetector _ => true
  | _ => false

def typeName (l : Lifecycle) : String :=
  match l.role with
  | .recorder r => lastSegment ("Recorder:" ++ r.label)
  | .chainChecker _ => "ProcessorChainChecker"
  | .listenerDetector _ => "ListenerDetector"
  | .configurationAware => "ConfigurationAwareProcessor"

end Lifecycle

namespace Instance

def kind : Instance → String
  | object _ => "object"
  | post p => if p.isRegistry then "registry_processor" else "factory_processor"
  | lifecycle _ => "lifecycle_processor"

def describe : Instance → String
  | object m => m.payload.describe
  | post p => p.describe
  | lifecycle l => "lifecycle:" ++ l.typeName

def enhanced : Instance → Bool
  | object m => m.payload.factoryAware?
  | _ => false

def injected : Instance → Option ContainerId
  | object m => m.payload.injected
  | _ => none

def sameAs : Instance → Instance → Bool
  | object a, object b => a.stamp == b.stamp
  | post a, post b => a.sameAs b
  | lifecycle a, lifecycle b => a.stamp == b.stamp
  | _, _ => false

def debugText (i : Instance) : String :=
  "Instance(" ++ i.kind ++ ")"

def provides (i : Instance) (cap : Capability) : Bool :=
  match cap, i with
  | .registryProcessor, post p => p.isRegistry
  | .registryProcessor, _ => false
  | .factoryProcessor, post _ => true
  | .factoryProcessor, _ => false
  | .lifecycleProcessor, lifecycle _ => true
  | .lifecycleProcessor, _ => false
  | .mergedDefinition, lifecycle _ => true
  | .mergedDefinition, _ => false
  | _, _ => true

end Instance

end Wiring
