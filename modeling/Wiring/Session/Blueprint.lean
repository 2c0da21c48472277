import Wiring.Class

namespace Wiring

/-! Blueprints describe classes and instances before they exist. Building a blueprint gives
every processor in it a stamp of its own, once: all the instances a built class hands out later
share those processors. Classes name the classes their factory methods return by key; a key
no blueprint declares names a bare class, and return classes may not lead back to their class.
Classes are built in the order of their keys, each one when first reached; a class whose plan
cannot be read fails the building when it is reached. -/

/-- An instance before it exists; processors in it have no stamp yet. -/
inductive Blueprint where
  | value (text : String)
  | importAware (text : String)
  | factoryAware (text : String)
  | registryProcessor (script : Script Blueprint)
  | factoryProcessor (script : Script Blueprint)
  | lifecycle (recorder : Recorder)
  | fail (message : String)

/-- A factory-method body before it exists. -/
structure BodyPlan where
  steps : List BodyStep := []
  returns : Blueprint

/-- A declared factory method; the return class is given by key. -/
structure MethodPlan where
  name : String
  returns : Option String := none
  componentName : Option String := none
  isStatic : Bool := false
  sealed : Bool := false
  infrastructure : Bool := false
  prototype : Bool := false
  lazyInit : Bool := false
  body : Option BodyPlan := none

/-- A class before it exists, known by its key. -/
structure ClassPlan where
  key : String
  name : String
  caps : List Capability := []
  configuration : Bool := false
  component : Bool := false
  componentName : Option String := none
  isFinal : Bool := false
  order : Option Int := none
  imports : List String := []
  scans : List String := []
  constructor : Option Blueprint := none
  methods : List MethodPlan := []

/-- A class as given: its key, and its plan or why the plan cannot be read. -/
structure ClassEntry where
  key : String
  plan : Except String ClassPlan

def ClassEntry.ofPlan (p : ClassPlan) : ClassEntry := ⟨p.key, .ok p⟩

/-- Gives stamps from a counter. -/
abbrev Stamping := StateM Nat

def nextStamp : Stamping Nat :=
  modifyGet fun n => (n, n + 1)

mutual

def Blueprint.build : Blueprint → Stamping Recipe
  | .value t => pure (.value t)
  | .importAware t => pure (.importAware t)
  | .factoryAware t => pure (.factoryAware t)
  | .registryProcessor s => do
    let s ← buildScript s
    return .registryProcessor (← nextStamp) s
  | .factoryProcessor s => do
    let s ← buildScript s
    return .factoryProcessor (← nextStamp) s
  | .lifecycle r => return .lifecycle (← nextStamp) r
  | .fail m => pure (.fail m)

def buildScript : Script Blueprint → Stamping (Script Recipe)
  | ⟨label, order, onRegistry, onFactory⟩ => do
    return ⟨label, order, ← buildActions onRegistry, onFactory⟩

def buildActions : List (RegistryAction Blueprint) → Stamping (List (RegistryAction Recipe))
  | [] => pure []
  | a :: rest => do
    let a : RegistryAction Recipe ← match a with
      | .register spec => pure (.register spec)
      | .registerSingleton n v => do pure (.registerSingleton n (← v.build))
      | .mutate n c => pure (.mutate n c)
      | .listNames => pure .listNames
      | .fail m => pure (.fail m)
      | .unreadable r => pure (.unreadable r)
    return a :: (← buildActions rest)

end

def MethodPlan.returnKey (p : MethodPlan) : String :=
  p.returns.getD (p.name ++ "$Product")

/-- Why classes cannot be built. -/
inductive PlanError where
  | duplicateKey (key : String)
  | cyclicReturn (key : String)
  | unreadable (reason : String)
  deriving DecidableEq, Repr, Inhabited

namespace PlanError

def message : PlanError → String
  | duplicateKey k => "duplicate class id `" ++ k ++ "`"
  | cyclicReturn k => "class `" ++ k ++ "` references itself through factory methods"
  | unreadable reason => reason

end PlanError

/-- What building classes works on: built classes by key, and the stamp counter. -/
structure Building where
  built : Roster ComponentClass := .empty
  stamp : Nat

/-- Builds classes, returning the built ones. -/
abbrev Builder := EStateM PlanError Building

def stamped {α : Type} (act : Stamping α) : Builder α :=
  modifyGet fun b => let (a, n) := act.run b.stamp; (a, { b with stamp := n })

def MethodPlan.buildBody (className : String) (p : MethodPlan) : Builder Body := do
  let plan := p.body.getD { returns := .value p.name }
  return ⟨className, p.name, plan.steps, ← stamped plan.returns.build⟩

mutual

def buildKey (entries : List ClassEntry) (fuel : Nat) (path : List String) (key : String) :
    Builder ComponentClass := do
  if let some c := (← get).built.get? key then return c
  match entries.find? (·.key == key), fuel with
  | none, _ => return .bare key
  | some _, 0 => throw (.cyclicReturn key)
  | some entry, fuel + 1 =>
    if path.contains key then throw (.cyclicReturn key)
    let plan ← match entry.plan with
      | .ok plan => pure plan
      | .error reason => throw (.unreadable reason)
    let methods ← buildMethods entries fuel (path ++ [key]) plan.methods
    let ctor ← match plan.constructor with
      | some bp => pure (some (Constructor.recipe plan.name (← stamped bp.build)))
      | none => pure none
    let bodies ← plan.methods.mapM (·.buildBody plan.name)
    let base : ComponentClass :=
      { name := plan.name
        metadata :=
          { className := plan.name
            configuration := plan.configuration
            component := plan.component || plan.componentName.isSome
            componentName := plan.componentName
            isFinal := plan.isFinal
            order := plan.order
            imports := plan.imports
            scans := plan.scans }
        capabilities := Capability.normalize plan.caps
        constructor := ctor
        bodies := .empty
        superclass := none
        intercepts := false }
    let cls := base.addFactoryMethods (methods.zip bodies)
    modify fun b => { b with built := b.built.insert key cls }
    return cls

def buildMethods (entries : List ClassEntry) (fuel : Nat) (path : List String) :
    List MethodPlan → Builder (List FactoryMethod)
  | [] => pure []
  | p :: rest => do
    let ret ← buildKey entries fuel path p.returnKey
    let decl : FactoryMethod :=
      { name := p.name
        componentName := p.componentName
        returnClass := ret
        isStatic := p.isStatic
        overridable := !p.sealed
        role := if p.infrastructure then .infrastructure else .application
        scope := if p.prototype then .prototype else .singleton
        lazyInit := p.lazyInit }
    return decl :: (← buildMethods entries fuel path rest)

end

def firstRepeated : List String → List String → Option String
  | _, [] => none
  | seen, k :: rest => if seen.contains k then some k else firstRepeated (k :: seen) rest

/-- Builds every given class, in the order of the keys; keys must be distinct. Answers the
classes by key, in the order given, and the next free stamp. -/
def buildClasses (entries : List ClassEntry) (stamp : Nat) :
    Except PlanError (Roster ComponentClass × Nat) := do
  if let some k := firstRepeated [] (entries.map (·.key)) then throw (.duplicateKey k)
  let keys := (entries.map (·.key)).mergeSort fun a b => !(b < a)
  match (keys.forM fun k => discard (buildKey entries (entries.length + 1) [] k)).run
      { stamp := stamp } with
  | .ok _ b =>
    let byKey := entries.foldl (fun r e => match b.built.get? e.key with
      | some c => r.insert e.key c
      | none => r) Roster.empty
    return (byKey, b.stamp)
  | .error e _ => throw e

end Wiring
