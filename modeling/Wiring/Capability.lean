namespace Wiring

/-! Capabilities a class advertises. A capability can stand in for another: a registry
processor is also a factory processor, a merged-definition hook is also a lifecycle processor,
priority order is also order, and every capability is also a component. -/

/-- What a class can do, in a fixed order that listings follow. -/
inductive Capability where
  | component
  | registryProcessor
  | factoryProcessor
  | lifecycleProcessor
  | mergedDefinition
  | priorityOrdered
  | ordered
  | enhancedConfiguration
  | importAware
  | eventListener
  deriving DecidableEq, Repr, Inhabited

namespace Capability

def all : List Capability :=
  [component, registryProcessor, factoryProcessor, lifecycleProcessor, mergedDefinition,
    priorityOrdered, ordered, enhancedConfiguration, importAware, eventListener]

def rank : Capability → Nat
  | component => 0
  | registryProcessor => 1
  | factoryProcessor => 2
  | lifecycleProcessor => 3
  | mergedDefinition => 4
  | priorityOrdered => 5
  | ordered => 6
  | enhancedConfiguration => 7
  | importAware => 8
  | eventListener => 9

def name : Capability → String
  | component => "component"
  | registryProcessor => "registry_processor"
  | factoryProcessor => "factory_processor"
  | lifecycleProcessor => "lifecycle_processor"
  | mergedDefinition => "merged_definition"
  | priorityOrdered => "priority_ordered"
  | ordered => "ordered"
  | enhancedConfiguration => "enhanced_configuration"
  | importAware => "import_aware"
  | eventListener => "event_listener"

def ofName? (s : String) : Option Capability :=
  all.find? (·.name == s)

def caseName : Capability → String
  | component => "Component"
  | registryProcessor => "RegistryProcessor"
  | factoryProcessor => "FactoryProcessor"
  | lifecycleProcessor => "LifecycleProcessor"
  | mergedDefinition => "MergedDefinition"
  | priorityOrdered => "PriorityOrdered"
  | ordered => "Ordered"
  | enhancedConfiguration => "EnhancedConfiguration"
  | importAware => "ImportAware"
  | eventListener => "EventListener"

def implies (c d : Capability) : Bool :=
  c == d || d == component ||
    match c, d with
    | registryProcessor, factoryProcessor => true
    | mergedDefinition, lifecycleProcessor => true
    | priorityOrdered, ordered => true
    | _, _ => false

def insertSorted (c : Capability) : List Capability → List Capability
  | [] => [c]
  | d :: ds =>
    if c = d then d :: ds
    else if c.rank < d.rank then c :: d :: ds
    else d :: insertSorted c ds

def normalize (cs : List Capability) : List Capability :=
  cs.foldl (fun acc c => insertSorted c acc) [component]

theorem implies_self (c : Capability) : c.implies c = true := by
  cases c <;> rfl

theorem implies_component (c : Capability) : c.implies component = true := by
  cases c <;> rfl

end Capability

end Wiring
