import Wiring.Configuration.Expansion
import Wiring.Listeners
import Wiring.Options

namespace Wiring

/-! The machine is what engine operations work on: one container with its listener registries
and, for a bootstrap context, the context's settings; together with what all containers share:
the journal of observable effects, the expansion processors, the next free stamp, and the class
table that scripts name classes from. An operation that fails keeps the effects it had. -/

/-- The settings and progress of a bootstrap context. -/
structure Context where
  options : Options
  expansion : Nat
  explicit : List PostProcessor := []
  refreshed : Bool := false

/-- The listener registries a container's detectors can write. -/
structure Books where
  own : Listeners := {}
  context : Listeners := {}
  deriving Inhabited

/-- The state engine operations run on. -/
structure Machine where
  box : Container
  books : Books := {}
  context : Option Context := none
  journal : Array String := #[]
  expansions : Array Expansion := #[]
  nextStamp : Nat := 0
  classes : Roster ComponentClass := .empty

/-- Engine operations: they change the machine and may fail, keeping their changes. -/
abbrev Step := EStateM BootError Machine

namespace Machine

def note (entry : String) : Step Unit :=
  modify fun m => { m with journal := m.journal.push entry }

def fresh : Step Nat :=
  modifyGet fun m => (m.nextStamp, { m with nextStamp := m.nextStamp + 1 })

def classOf (m : Machine) (key : String) : ComponentClass :=
  (m.classes.get? key).getD (.bare key)

def onBox (f : Container → Container) : Step Unit :=
  modify fun m => { m with box := f m.box }

def withBox {α : Type} (act : EStateM BootError Container α) : Step α :=
  focus Machine.box (fun m c => { m with box := c }) act

def updateBox (r : Container → Except BootError Container) : Step Unit := do
  match r (← get).box with
  | .ok c => onBox fun _ => c
  | .error e => throw e

def onBook (b : Book) (f : Listeners → Listeners) : Step Unit :=
  modify fun m => { m with books := match b with
    | .own => { m.books with own := f m.books.own }
    | .context => { m.books with context := f m.books.context } }

def expansion (m : Machine) (i : Nat) : Expansion :=
  m.expansions[i]?.getD default

def setExpansion (i : Nat) (e : Expansion) : Step Unit :=
  modify fun m => { m with expansions := m.expansions.set! i e }

def ensuring {α : Type} (act : Step α) (cleanup : Step Unit) : Step α := fun s =>
  match act s with
  | .ok a s => match cleanup s with
    | .ok _ s => .ok a s
    | .error e s => .error e s
  | .error e s => match cleanup s with
    | .ok _ s => .error e s
    | .error _ s => .error e s

def definitionOf (m : Machine) (spec : DefinitionSpec) : Definition :=
  spec.resolve m.classOf

def changed (m : Machine) (d : Definition) : Change → Definition
  | .configuration mode => { d with configuration := mode }
  | .order n => { d with order := n }
  | .lazyInit b => { d with lazyInit := b }
  | .locked b => { d with classLocked := b }
  | .scope s => { d with scope := s }
  | .role r => { d with role := r }
  | .classKey key => { d with cls := m.classOf key }

def mutated (m : Machine) (change : Mutation) (d : Definition) : Definition :=
  change.changes.foldl m.changed d

end Machine

end Wiring
