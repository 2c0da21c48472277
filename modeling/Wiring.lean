import Wiring.Basic
import Wiring.Capability
import Wiring.Catalog
import Wiring.Catalog.ClassName
import Wiring.Class
import Wiring.Configuration.Candidate
import Wiring.Configuration.Enhance
import Wiring.Configuration.Expansion
import Wiring.Configuration.Imports
import Wiring.Configuration.Load
import Wiring.Configuration.Model
import Wiring.Configuration.Parse
import Wiring.Container
import Wiring.Context
import Wiring.Creation
import Wiring.Data.Focus
import Wiring.Data.Roster
import Wiring.Definition
import Wiring.Demo
import Wiring.Error
import Wiring.Instance
import Wiring.Listeners
import Wiring.Log
import Wiring.Machine
import Wiring.Main
import Wiring.Naming
import Wiring.Options
import Wiring.Processor.Lifecycle
import Wiring.Processor.Run
import Wiring.Processor.Tier
import Wiring.Release
import Wiring.Request.Reader
import Wiring.Request.Spec
import Wiring.Request.Step
import Wiring.Request.Value
import Wiring.Script
import Wiring.Session.Basic
import Wiring.Session.Blueprint
import Wiring.Session.Command
import Wiring.Text.Binary64
import Wiring.Text.Blank
import Wiring.Text.Case
import Wiring.Text.Quote
import Wiring.Proofs.Frame
import Wiring.Proofs.RunnerCalls
import Wiring.Proofs.Ranking
import Wiring.Proofs.Expansion.Parsing
import Wiring.Proofs.Expansion.Loading
import Wiring.Proofs.Expansion.Reloading
import Wiring.Proofs.Expansion.Overriding
import Wiring.Proofs.Expansion.Guard
import Wiring.Proofs.Expansion.Enhancement
import Wiring.Proofs.Expansion.Collecting
import Wiring.Proofs.Expansion.Convergence
import Wiring.Proofs.Creation.Hooks
import Wiring.Proofs.Creation.Frame
import Wiring.Proofs.Creation.Invariants
import Wiring.Proofs.Creation.Untouched
import Wiring.Proofs.Creation.Stamps
import Wiring.Proofs.Creation.Budget
import Wiring.Proofs.Creation.Materialize
import Wiring.Proofs.Creation.Interception
import Wiring.Proofs.TierDiscipline
import Wiring.Proofs.LifecycleChain
import Wiring.Proofs.LifecycleRegistration
import Wiring.Proofs.Expansion.ImportCycles
import Wiring.Proofs.Expansion.ImportDelivery
import Wiring.Proofs.Expansion.WalkFrame
import Wiring.Proofs.Expansion.Reentry
import Wiring.Proofs.Expansion.ModelTable
import Wiring.Proofs.DefinitionTable
import Wiring.Proofs.EffectiveCache
import Wiring.Proofs.Creation.EagerSingletons
import Wiring.Proofs.RemainderPasses
import Wiring.Proofs.ClassCatalog
import Wiring.Proofs.Logging
import Wiring.Proofs.FactoryMethods
import Wiring.Proofs.ListenerDetection
