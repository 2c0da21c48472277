import Wiring.Processor.Lifecycle

namespace Wiring

/-! Bootstrap contexts. A context refreshes once, whether or not the refresh succeeds: it adds
its expansion processor as an infrastructure definition when the name is free, runs the
factory-level processors with its explicit ones, registers lifecycle processors into its own
listener registry, and creates the eager singletons when its options ask for it. -/

def configurationProcessorName : String := "bootwire.internal.configurationProcessor"

def expansionClass (i : Nat) : ComponentClass :=
  { ComponentClass.bare "bootwire.internal.ConfigurationExpansionProcessor" with
    capabilities := [.component, .registryProcessor, .priorityOrdered]
    constructor := some (.expansion i) }

namespace Machine

def refresh (ctx : Context) : Step Unit := do
  if ctx.refreshed then throw .alreadyRefreshed
  modify fun m => { m with context := some { ctx with refreshed := true } }
  if !(← get).box.definitions.contains configurationProcessorName then
    let d : Definition := { cls := expansionClass ctx.expansion, role := .infrastructure }
    updateBox (·.register configurationProcessorName d)
  invokeProcessors ctx.explicit
  registerLifecycle .context
  if ctx.options.instantiateSingletons then discard instantiateSingletons

end Machine

end Wiring
