import Wiring.Configuration.Enhance
import Wiring.Configuration.Load
import Wiring.Configuration.Parse

namespace Wiring

/-! Configuration expansion: find the candidates among the definitions, parse them, load the
definitions the new models declare, and repeat with the candidates among the new names until
none is left. A run publishes the import table as a singleton when none exists, and empties the
metadata cache when it succeeds. A guard lets the registry phase run once per container and
never after the factory phase. -/

def importRegistryName : String := "bootwire.internal.importRegistry"

def generatorName : String := "bootwire.internal.configurationNameGenerator"

/-- One configuration expansion processor: its catalog and policies, the metadata cache it
reads through, and the containers whose phases it has run. -/
structure Expansion where
  catalog : Catalog
  overrideScanned : Bool := true
  enhancer : Enhancer := .subclass
  generator : Option NameGenerator := none
  cache : MetadataCache := .empty
  registries : List ContainerId := []
  factories : List ContainerId := []
  deriving Inhabited

/-- What a run reports: how many parse rounds ran and the identities parsed, in order. -/
structure Report where
  iterations : Nat
  parsed : List String
  deriving Inhabited

/-- What a run works on. -/
structure Pass where
  box : Container
  cache : MetadataCache
  parser : Parser := .empty
  nextStamp : Nat

namespace Expansion

def resolveGenerator (e : Expansion) (c : Container) : Option NameGenerator :=
  match e.generator with
  | some g => some g
  | none =>
    match c.singletons.get? generatorName with
    | some (.object ⟨_, .generator g⟩) => some g
    | _ => none

def loader (e : Expansion) (c : Container) : Loader :=
  match e.resolveGenerator c with
  | some g => ⟨g, g, e.overrideScanned⟩
  | none => ⟨.qualified, .short, e.overrideScanned⟩

/-- Runs the candidate check on the named definitions (writing the marks in place) and queues
those that pass and whose class is not parsed yet. -/
def collect (parsed : List String) (skipMarked : Bool) :
    List String → EStateM BootError Pass CandidateSet
  | [] => return .empty
  | name :: rest => do
    let s ← get
    match s.box.definition? name with
    | none => collect parsed skipMarked rest
    | some d =>
      if skipMarked && d.configuration.isSome then collect parsed skipMarked rest
      else
        let (ok, d, cache) := checkCandidate s.cache d
        set { s with box := s.box.modifyDefinition name (fun _ => d), cache := cache }
        let later ← collect parsed skipMarked rest
        if ok && !parsed.contains d.cls.userName then
          return ⟨later.entries.putFirst name d⟩
        else return later

/-- Parse rounds: parse the candidates, validate, load the new models, then queue candidates
among the new names. `fuel` bounds the rounds; every round after the first parses a new
catalog class. -/
def rounds (e : Expansion) (fuel : Nat) (candidates : CandidateSet) (parsed : List String)
    (previous : List String) (iterations : Nat) : EStateM BootError Pass Report := do
  if candidates.isEmpty then return ⟨iterations, parsed⟩
  match fuel with
  | 0 => return ⟨iterations, parsed⟩
  | fuel + 1 =>
    focus (fun s => ParseState.mk s.parser s.cache) (fun s t => { s with parser := t.parser, cache := t.cache })
      (Parser.parse e.catalog candidates)
    let s ← get
    liftExcept s.parser.validate
    let fresh := s.parser.modelList.filter (!parsed.contains ·.identity)
    discard <| focus Pass.box (fun s c => { s with box := c }) ((e.loader s.box).load fresh)
    let parsed := parsed ++ fresh.map (·.identity)
    let current := (← get).box.names
    let next ← if current.length > previous.length then
        pure (← collect parsed false (current.filter (!previous.contains ·))).sortByOrder
      else pure .empty
    rounds e fuel next parsed current (iterations + 1)

/-- The loop of a run: the candidates among all names, then parse rounds until none is left;
`none` when no definition is a candidate. The metadata cache is left as the loop leaves it. -/
def loop (e : Expansion) : EStateM BootError Pass (Option Report) := do
  let names := (← get).box.names
  let candidates ← collect [] true names
  if candidates.isEmpty then return none
  some <$> rounds e (e.catalog.size + 1) candidates.sortByOrder [] names 0

def run (e : Expansion) : EStateM BootError Pass Report := do
  let some report ← e.loop | return ⟨0, []⟩
  let s ← get
  if !s.box.singletons.contains importRegistryName then
    let table := Instance.object ⟨s.nextStamp, .imports s.parser.imports⟩
    match s.box.registerSingleton importRegistryName table with
    | .ok box => set { s with box := box, nextStamp := s.nextStamp + 1 }
    | .error err => throw err
  modify fun s => { s with cache := s.cache.clear }
  return report

/-- The processed-container guard: refuses a phase already run (or the registry phase after the
factory phase), records it, and answers whether the registry phase ran before. -/
def mark (e : Expansion) (phase : Phase) (c : ContainerId) : Except BootError (Bool × Expansion) :=
  if e.factories.contains c || (phase == .registry && e.registries.contains c) then
    .error (.alreadyProcessed phase c)
  else
    let ran := e.registries.contains c
    match phase with
    | .registry => .ok (ran, { e with registries := e.registries ++ [c] })
    | .factory => .ok (ran, { e with factories := e.factories ++ [c] })

end Expansion

end Wiring
