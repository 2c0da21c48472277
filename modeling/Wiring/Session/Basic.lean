import Wiring.Context
import Wiring.Session.Blueprint

namespace Wiring

/-! A session holds several containers side by side (plain factories or bootstrap contexts),
the expansion processors made for it, the classes built from its plans, and one journal.
Commands run against one container at a time. -/

/-- One container of a session, with its listener registries and, for a bootstrap context,
the context's settings. -/
structure Slot where
  box : Container
  books : Books := {}
  context : Option Context := none

/-- Containers side by side with what they share. -/
structure Session where
  slots : Array Slot
  journal : Array String := #[]
  expansions : Array Expansion := #[]
  /-- How many of the expansion processors were made for the session itself; those of the
  bootstrap contexts follow them and are reached only through their context. -/
  declared : Nat := 0
  nextStamp : Nat := 0
  classes : Roster ComponentClass := .empty

/-- An expansion processor to make for a session. Its enhancer and name generator may be
settings that cannot be read; they fail the setup after the catalog is checked. -/
structure ExpansionPlan where
  catalog : List String := []
  overrideScanned : Bool := true
  enhancer : Except String Enhancer := .ok .subclass
  generator : Except String (Option NameGenerator) := .ok none

/-- A container to make for a session. -/
inductive SlotPlan where
  | plain (overriding : Option Bool)
  /-- A bootstrap context with its options, catalog and expansion settings, each of which may
  be unreadable; they are checked in that order. With an enhancer or a name generator it gets
  an expansion processor of its own, which overrides scanned definitions as `scannedOverride`
  says, or else as the options say. -/
  | context (options : Except String Options) (catalog : List String)
      (enhancer : Except String (Option Enhancer))
      (generator : Except String (Option NameGenerator)) (scannedOverride : Option Bool)

/-- Why a session cannot be set up. -/
inductive SetupError where
  | plan (e : PlanError)
  | catalog (e : BootError)
  | unreadable (reason : String)

namespace SetupError

def message : SetupError → String
  | plan e => e.message
  | catalog e => "catalog: " ++ e.message
  | unreadable reason => reason

end SetupError

namespace Session

def classOf (s : Session) (key : String) : ComponentClass :=
  (s.classes.get? key).getD (.bare key)

def catalogOf (s : Session) (keys : List String) : Except SetupError Catalog :=
  match Catalog.ofClasses (keys.map s.classOf) with
  | .ok c => .ok c
  | .error e => .error (.catalog e)

def addExpansion (s : Session) (e : Expansion) : Session × Nat :=
  ({ s with expansions := s.expansions.push e }, s.expansions.size)

def setting {α : Type} : Except String α → Except SetupError α
  | .ok a => .ok a
  | .error reason => .error (.unreadable reason)

/-- Sets up a session: builds the classes, then the expansion processors, then the containers,
numbered in order. -/
def setup (classes : List ClassEntry) (expansions : List ExpansionPlan) (slots : List SlotPlan) :
    Except SetupError Session := do
  let (classes, stamp) ← match buildClasses classes 0 with
    | .ok r => pure r
    | .error e => throw (.plan e)
  let mut s : Session := { slots := #[], classes := classes, nextStamp := stamp }
  for e in expansions do
    let catalog ← s.catalogOf e.catalog
    let enhancer ← setting e.enhancer
    let generator ← setting e.generator
    s := (s.addExpansion
      { catalog := catalog, overrideScanned := e.overrideScanned, enhancer := enhancer
        generator := generator }).1
  s := { s with declared := s.expansions.size }
  for plan in slots do
    let id : ContainerId := ⟨s.slots.size⟩
    match plan with
    | .plain overriding =>
      let slot : Slot := { box := .create id (overriding.getD true) }
      s := { s with slots := s.slots.push slot }
    | .context options keys enhancer generator scannedOverride =>
      let options ← setting options
      let catalog ← s.catalogOf keys
      let enhancer ← setting enhancer
      let generator ← setting generator
      let custom := enhancer.isSome || generator.isSome
      let overrideScanned :=
        if custom then scannedOverride.getD options.overrideScannedDefinitions
        else options.overrideScannedDefinitions
      let (s', index) := s.addExpansion
        { catalog := catalog, overrideScanned := overrideScanned
          enhancer := enhancer.getD .subclass, generator := generator }
      let slot : Slot :=
        { box := .create id options.allowDefinitionOverriding
          context := some { options := options, expansion := index } }
      s := { s' with slots := s'.slots.push slot }
  return s

def machine (s : Session) (slot : Slot) : Machine :=
  { box := slot.box, books := slot.books, context := slot.context, journal := s.journal
    expansions := s.expansions, nextStamp := s.nextStamp, classes := s.classes }

def absorb (s : Session) (f : Nat) (m : Machine) : Session :=
  { s with
    slots := s.slots.set! f { box := m.box, books := m.books, context := m.context }
    journal := m.journal
    expansions := m.expansions
    nextStamp := m.nextStamp }

def run {α : Type} (s : Session) (f : Nat) (slot : Slot) (act : Step α) :
    Except BootError α × Session :=
  match act (s.machine slot) with
  | .ok a m => (.ok a, s.absorb f m)
  | .error e m => (.error e, s.absorb f m)

def build (s : Session) (b : Blueprint) : Recipe × Session :=
  let (r, n) := b.build.run s.nextStamp
  (r, { s with nextStamp := n })

end Session

end Wiring
