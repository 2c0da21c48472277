import Wiring.Basic
import Wiring.Capability

namespace Wiring

/-! Errors of the bootstrap engine. Each names its cause; `message` gives the one text for each.
Structural problems of configuration classes are kept apart in `ConfigError`. -/

/-- The phase the processed-container guard protects. -/
inductive Phase where
  | registry
  | factory
  deriving DecidableEq, Repr, Inhabited

namespace Phase

def name : Phase → String
  | registry => "registry"
  | factory => "factory"

end Phase

/-- Malformed configuration declarations. -/
inductive ConfigError where
  | finalClass (cls : String)
  | nonOverridableMethod (cls method : String)
  | circularImport (cls : String) (chain : List String)
  | unresolvableImport (cls target : String)
  | missingFactoryMethod (cls method : String)
  | invalidClassName (name : String)
  | duplicateClass (name : String)
  | importNameTaken (name imported registered : String)
  deriving DecidableEq, Repr, Inhabited

/-- Fatal errors of the engine. -/
inductive BootError where
  | alreadyProcessed (phase : Phase) (container : ContainerId)
  | invalidConfiguration (cause : ConfigError)
  | enhancementFailed (definition cls reason : String)
  | definitionNotFound (name : String)
  | capabilityMismatch (name : String) (expected : Capability)
  | notInstantiable (cls reason : String)
  | circularCreation (name : String)
  | overrideRejected (name : String)
  | factoryNotInjected (cls : String)
  | alreadyRefreshed
  | processor (name message : String)
  deriving DecidableEq, Repr, Inhabited

def quoted (s : String) : String :=
  "`" ++ s ++ "`"

namespace ConfigError

def message : ConfigError → String
  | finalClass c =>
    "configuration class " ++ quoted c ++ " must not be final: its factory methods need interception"
  | nonOverridableMethod c m =>
    "factory method " ++ quoted m ++ " on configuration class " ++ quoted c ++
      " must be overridable or static"
  | circularImport c chain =>
    "circular import of " ++ quoted c ++ " detected via [" ++ " -> ".intercalate chain ++ "]"
  | unresolvableImport c t =>
    "configuration class " ++ quoted c ++ " imports unknown class " ++ quoted t
  | missingFactoryMethod c m =>
    "class " ++ quoted c ++ " declares no factory method " ++ quoted m
  | invalidClassName n => "class name is invalid: " ++ n
  | duplicateClass n => "class already in catalog: " ++ n
  | importNameTaken n imported registered =>
    "imported configuration " ++ quoted imported ++ " cannot use name " ++ quoted n ++
      ": already registered for class " ++ quoted registered

end ConfigError

namespace BootError

def message : BootError → String
  | alreadyProcessed p c =>
    p.name ++ " post-processing already ran against container " ++ c.label
  | invalidConfiguration e => "invalid configuration: " ++ e.message
  | enhancementFailed d c r =>
    "cannot load configuration class " ++ quoted c ++ " for definition " ++ quoted d ++ ": " ++ r
  | definitionNotFound n => "no component definition named " ++ quoted n
  | capabilityMismatch n cap =>
    "component " ++ quoted n ++ " does not provide capability " ++ quoted cap.name
  | notInstantiable c r => "class " ++ quoted c ++ " cannot be instantiated: " ++ r
  | circularCreation n =>
    "component " ++ quoted n ++ " is already in creation (circular reference)"
  | overrideRejected n =>
    "cannot register definition " ++ quoted n ++ ": name is taken and overriding is disabled"
  | factoryNotInjected c =>
    "factory has not been injected into enhanced configuration " ++ quoted c
  | alreadyRefreshed => "bootstrap context can only be refreshed once"
  | processor n m => "processor " ++ quoted n ++ " failed: " ++ m

end BootError

end Wiring
