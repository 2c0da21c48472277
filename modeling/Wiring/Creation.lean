import Wiring.Machine

namespace Wiring

/-! Creating components. `materialize` returns a cached singleton or creates the component: by
its factory method or its constructor, then through the lifecycle chain (merged definition hooks,
property hooks, before and after initialization). A name stays in creation until its creation
ends, so asking for it meanwhile is a circular reference. Factory-method bodies run in a method
scope that can call siblings (through the container when the class intercepts) and look up
components; nested bodies deeper than `bodyDepthLimit` fail. -/

namespace Machine

def bodyDepthLimit : Nat := 24

/-- Makes an instance from a recipe; `who` names the failure of a failing recipe. Objects are
new each time; processors are the instances their recipe was built with. -/
def make (r : Recipe) (who : String) : Step Instance :=
  match r with
  | .value t => return .object ⟨← fresh, .value t⟩
  | .importAware t => return .object ⟨← fresh, .importAware t⟩
  | .factoryAware t => return .object ⟨← fresh, .factoryAware t⟩
  | .registryProcessor stamp s => return .post (.registry stamp s)
  | .factoryProcessor stamp s => return .post (.factory stamp s)
  | .lifecycle stamp rec => return .lifecycle ⟨stamp, .recorder rec⟩
  | .fail message => throw (.processor who message)

/-- Runs a constructor. A recipe constructor journals `new:` and its class name; an intercepting
one wraps the objects of its parent. -/
def construct : Constructor → Step Instance
  | .recipe className r => do
    note ("new:" ++ className)
    make r className
  | .expansion i => return .post (.expansion i)
  | .intercepting parent => do
    match ← construct parent with
    | .object m => return .object ⟨← fresh, .enhanced m.payload none⟩
    | other => return other

def effectiveDefinition (name : String) : Step Definition := do
  let c := (← get).box
  match c.effective.get? name with
  | some d => return d
  | none =>
    match c.definition? name with
    | none => throw (.definitionNotFound name)
    | some d =>
      onBox fun c => { c with effective := c.effective.insert name d }
      return d

def substitute (text : String) (results : List String) : String :=
  (results.zipIdx.reverse).foldl (fun t (r, i) => t.replace ("$" ++ toString i) r) text

def bodyResult (b : Body) (results : List String) : Recipe :=
  match b.returns with
  | .value t => .value (substitute t results)
  | .importAware t => .importAware (substitute t results)
  | .factoryAware t => .factoryAware (substitute t results)
  | r => r

def recordHook (r : Recorder) (hook : Hook) (failing : List String) (name : String) :
    Step Unit := do
  if r.record.contains hook then note (r.label ++ ":" ++ hook.name ++ "@" ++ name)
  if failing.contains name then throw (.processor r.label (hook.name ++ " failed for " ++ name))

def mergedHooks (d : Definition) (name : String) : List Lifecycle → Step Unit
  | [] => pure ()
  | l :: ls => do
    match l.role with
    | .recorder r => if r.mergedHook && r.record.contains .merged then note (r.label ++ ":merged@" ++ name)
    | .listenerDetector _ =>
      if d.cls.hasCapability .eventListener then onBox fun c => c.setFlag l.stamp name d.isSingleton
    | _ => pure ()
    mergedHooks d name ls

def propertyHooks (name : String) (raw : Instance) : List Lifecycle → Step Instance
  | [] => return raw
  | l :: ls => do
    match l.role with
    | .recorder r =>
      recordHook r .properties r.failProperties name
      propertyHooks name raw ls
    | .configurationAware =>
      let c := (← get).box
      let enhanced := match c.definition? name with
        | some d => d.cls.hasCapability .enhancedConfiguration
        | none => false
      match enhanced, raw with
      | true, .object ⟨stamp, .enhanced t none⟩ =>
        propertyHooks name (.object ⟨stamp, .enhanced t (some c.id)⟩) ls
      | true, .object ⟨_, .factoryAware t⟩ =>
        note ("aware:" ++ t ++ ":" ++ c.id.label)
        propertyHooks name raw ls
      | _, _ => propertyHooks name raw ls
    | _ => propertyHooks name raw ls

/-- Passes import metadata to an import-aware object: the configuration that imported the user
class of the named definition, from the published import table. -/
def deliverImport (name : String) (i : Instance) : Step Unit := do
  let c := (← get).box
  match i with
  | .object m =>
    match m.payload.importAwareText?, c.definition? name, c.singletons.get? importRegistryName with
    | some t, some d, some (.object ⟨_, .imports table⟩) =>
      match table.importingFor? d.cls.userName with
      | some importing => note ("import:" ++ t ++ "<-" ++ importing.className)
      | none => pure ()
    | _, _, _ => pure ()
  | _ => pure ()

def beforeHooks (name : String) (i : Instance) : List Lifecycle → Step Instance
  | [] => return i
  | l :: ls => do
    match l.role with
    | .recorder r => recordHook r .before r.failBefore name
    | .configurationAware => deliverImport name i
    | _ => pure ()
    beforeHooks name i ls

def afterHooks (name : String) (i : Instance) : List Lifecycle → Step Instance
  | [] => return i
  | l :: ls => do
    match l.role with
    | .recorder r =>
      recordHook r .after r.failAfter name
      match r.wrap, i with
      | true, .object m => afterHooks name (.object ⟨← fresh, .wrapped m.payload⟩) ls
      | _, _ => afterHooks name i ls
    | .listenerDetector b =>
      match (← get).box.flag? l.stamp name with
      | some true => onBook b (·.add name)
      | some false => onBook b (fun s => (s.remove name).2)
      | none => pure ()
      afterHooks name i ls
    | _ => afterHooks name i ls

/-- Runs a raw instance of a name through the lifecycle chain (merged definition hooks, property
hooks, before and after initialization) and keeps the raw instance of an intercepting
singleton, as its property hooks left it. -/
def throughChain (name : String) (d : Definition) (raw : Instance) : Step Instance := do
  let chain := (← get).box.chain
  mergedHooks d name chain
  let raw ← propertyHooks name raw chain
  let i ← beforeHooks name raw chain
  let i ← afterHooks name i chain
  if d.isSingleton && d.cls.intercepts then
    onBox fun c => { c with targets := c.targets.insert name raw }
  return i

/-- Hands out a newly created instance of a name: it must serve `cap`, and an instance of a
singleton definition is cached. -/
def handOut (name : String) (cap : Capability) (d : Definition) (i : Instance) : Step Instance := do
  if !i.provides cap then throw (.capabilityMismatch name cap)
  else
    if d.isSingleton then onBox fun c => { c with singletons := c.singletons.insert name i }
    return i

def injectedHere (owner : Option Instance) : Step Bool := do
  let id := (← get).box.id
  return match owner with
    | some i => i.enhanced && i.injected == some id
    | none => false

mutual

/-- Returns the component of a name, creating it when it is not a cached singleton. `budget`
bounds how many creations may still nest inside this one; a nested creation takes one more name
with a definition into creation, so the budget of `materialize` is never used up. -/
def materializeWith (budget depth : Nat) (name : String) (cap : Capability) : Step Instance := do
  match (← get).box.singletons.get? name with
  | some i => if i.provides cap then return i else throw (.capabilityMismatch name cap)
  | none =>
    let d ← effectiveDefinition name
    if (← get).box.inCreation.contains name then throw (.circularCreation name)
    else
      match budget with
      | 0 => throw (.circularCreation name)
      | budget + 1 =>
        onBox fun c => { c with inCreation := c.inCreation ++ [name] }
        let i ← ensuring (create budget depth name d)
          (onBox fun c => { c with inCreation := c.inCreation.filter (· != name) })
        handOut name cap d i
termination_by (budget, bodyDepthLimit + 1 - depth, 0, 0)

def create (budget depth : Nat) (name : String) (d : Definition) : Step Instance := do
  let raw ← match d.factory with
    | some ref => invokeFactoryMethod budget depth ref
    | none =>
      match d.cls.constructor with
      | none => throw (.notInstantiable d.cls.name "class declares no constructor")
      | some ctor => construct ctor
  throughChain name d raw
termination_by (budget, bodyDepthLimit + 1 - depth, 4, 0)

/-- Runs a factory method: on its owner component (its raw instance when the owner class
intercepts) or statically on a class. -/
def invokeFactoryMethod (budget depth : Nat) (ref : FactoryRef) : Step Instance := do
  match ref.owner with
  | .component owner =>
    let exposed ← materializeWith budget depth owner .component
    let target := ((← get).box.targets.get? owner).getD exposed
    let d ← effectiveDefinition owner
    invoke budget depth d.cls (some target) ref.method
  | .static k => invoke budget depth k none ref.method
termination_by (budget, bodyDepthLimit + 1 - depth, 3, 0)

def invoke (budget depth : Nat) (cls : ComponentClass) (owner : Option Instance)
    (method : String) : Step Instance := do
  match cls.body? method with
  | none => throw (.invalidConfiguration (.missingFactoryMethod cls.name method))
  | some b =>
    note ("body:" ++ b.className ++ "." ++ b.method)
    if _ : depth + 1 > bodyDepthLimit then
      throw (.processor scenarioName "factory method recursion limit")
    else
      let results ← runSteps budget (depth + 1) cls owner b b.steps
      make (bodyResult b results) (b.className ++ "." ++ b.method)
termination_by (budget, bodyDepthLimit + 1 - depth, 1, 0)
decreasing_by
  apply Prod.Lex.right
  apply Prod.Lex.left
  omega

/-- Calls a sibling method: through the container when the class intercepts and the method is
not static, which needs the container injected into the owner; directly otherwise. -/
def call (budget depth : Nat) (cls : ComponentClass) (owner : Option Instance) (method : String) :
    Step Instance := do
  match cls.factoryMethod? method with
  | none => throw (.invalidConfiguration (.missingFactoryMethod cls.name method))
  | some decl =>
    if cls.intercepts && !decl.isStatic then
      if !(← injectedHere owner) then throw (.factoryNotInjected cls.name)
      materializeWith budget depth decl.target .component
    else invoke budget depth cls owner method
termination_by (budget, bodyDepthLimit + 1 - depth, 2, 0)

def runSteps (budget depth : Nat) (cls : ComponentClass) (owner : Option Instance) (b : Body) :
    List BodyStep → Step (List String)
  | [] => return []
  | s :: rest => do
    let r ← match s with
      | .call method => (·.describe) <$> call budget depth cls owner method
      | .component name => (·.describe) <$> materializeWith budget depth name .component
      | .owner => pure ((owner.map (·.describe)).getD "<none>")
      | .fail message => throw (.processor (b.className ++ "." ++ b.method) message)
      | .unreadable reason => throw (.processor scenarioName reason)
    return r :: (← runSteps budget depth cls owner b rest)
termination_by steps => (budget, bodyDepthLimit + 1 - depth, 3, steps.length)

end

/-- The nesting budget of a creation: each nested creation holds one more name that has a
definition, registered or effective, so this many can never be in creation at once. -/
def creationBudget (m : Machine) : Nat :=
  m.box.definitions.size + m.box.effective.size

def materialize (name : String) (cap : Capability) : Step Instance := do
  materializeWith (creationBudget (← get)) 0 name cap

def instantiateSingletons : Step Nat := do
  let names := (← get).box.eagerSingletons
  names.foldlM (fun k name => do
    if (← get).box.singletons.contains name then return k
    discard <| materialize name .component
    return k + 1) 0

end Machine

end Wiring
