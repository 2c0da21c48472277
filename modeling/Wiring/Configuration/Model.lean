import Wiring.Error
import Wiring.Definition

namespace Wiring

/-! Configuration models: what parsing one configuration class yields. A model is known by its
identity, the class name in its metadata. A model made for a registered definition has a
component name and no importers; a model made for an import records who imported it. -/

/-- The parsed form of one configuration class. -/
structure Model where
  cls : ComponentClass
  metadata : ClassMetadata
  componentName : Option String
  importedBy : List String := []
  factoryMethods : List FactoryMethod
  scanned : List ComponentClass := []

namespace Model

def ofClass (cls : ComponentClass) (m : ClassMetadata) (componentName : Option String) : Model :=
  { cls := cls, metadata := m, componentName := componentName, factoryMethods := m.factoryMethods }

def identity (m : Model) : String := m.metadata.className

def isImported (m : Model) : Bool := !m.importedBy.isEmpty

/-- Full configurations must stay subclassable: they may not be final, and each factory method
must be static or overridable. Other models always pass. -/
def validate (m : Model) : Except BootError Unit :=
  if !m.metadata.configuration then .ok ()
  else if m.metadata.isFinal then .error (.invalidConfiguration (.finalClass m.identity))
  else
    match m.factoryMethods.find? (fun d => !d.isStatic && !d.overridable) with
    | some d => .error (.invalidConfiguration (.nonOverridableMethod m.identity d.name))
    | none => .ok ()

end Model

end Wiring
