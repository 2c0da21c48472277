import Wiring.Creation
import Wiring.Processor.Tier

namespace Wiring

/-! The factory-level processor runner. With a registry view: explicit registry processors run
first, then the discovered registry processors in a priority pass, an ordered pass and repeated
remainder passes until none is left unprocessed; then the factory phase of every registry
processor run so far, then the explicit factory processors. A sealed container runs only the
factory phase of the explicit processors. Then the discovered factory processors run by tier,
and the effective-definition cache is cleared. A discovered name is marked processed before it
is created, so it runs at most once. -/

namespace Machine

def registerSpec (spec : DefinitionSpec) : Step Unit := do
  let d := (← get).definitionOf spec
  updateBox (·.register spec.name d)

/-- Changes a definition in place, or journals that it is missing. A mutation whose rest could
not be read fails after its readable changes are made. -/
def mutate (label name : String) (change : Mutation) : Step Unit := do
  let m ← get
  if m.box.definitions.contains name then
    onBox (·.modifyDefinition name (m.mutated change))
    if let some reason := change.unreadable then throw (.processor scenarioName reason)
  else note (label ++ ":mutate-missing:" ++ name)

def registryActions (label : String) : List (RegistryAction Recipe) → Step Unit
  | [] => pure ()
  | a :: rest => do
    match a with
    | .register spec => registerSpec spec
    | .registerSingleton name value =>
      let i ← make value label
      updateBox (·.registerSingleton name i)
    | .mutate name change => mutate label name change
    | .listNames => note (label ++ ":names=" ++ ",".intercalate (← get).box.names)
    | .fail message => throw (.processor label message)
    | .unreadable reason => throw (.processor scenarioName reason)
    registryActions label rest

def factoryActions (label : String) : List FactoryAction → Step Unit
  | [] => pure ()
  | a :: rest => do
    match a with
    | .materialize name cap =>
      let i ← materialize name cap
      note (label ++ ":materialized:" ++ name ++ "=" ++ i.describe)
    | .register spec =>
      if (← get).box.sealed then note (label ++ ":no-registry")
      else match spec with
        | .ok spec => registerSpec spec
        | .error reason => throw (.processor scenarioName reason)
    | .mutate name change => mutate label name change
    | .fail message => throw (.processor label message)
    | .unreadable reason => throw (.processor scenarioName reason)
    | .listNames cap incl eager =>
      note (label ++ ":names=" ++ ",".intercalate ((← get).box.namesFor cap incl eager))
    factoryActions label rest

def passOf (i : Nat) (m : Machine) : Pass :=
  ⟨m.box, (m.expansion i).cache, .empty, m.nextStamp⟩

def afterPass (i : Nat) (m : Machine) (p : Pass) : Machine :=
  let expansions := m.expansions.modify i fun e => { e with cache := p.cache }
  { m with box := p.box, nextStamp := p.nextStamp, expansions := expansions }

def expand (i : Nat) : Step Report := do
  let e := (← get).expansion i
  focus (passOf i) (afterPass i) e.run

def markPhase (i : Nat) (phase : Phase) : Step Bool := do
  let m ← get
  match (m.expansion i).mark phase m.box.id with
  | .ok (ran, e) =>
    setExpansion i e
    return ran
  | .error err => throw err

def postRegistry : PostProcessor → Step Unit
  | .registry _ s => do
    note (s.label ++ ":registry")
    registryActions s.label s.onRegistry
  | .factory _ _ => pure ()
  | .expansion i => do
    discard <| markPhase i .registry
    discard <| expand i

/-- The factory phase of a processor. The expansion processor expands first when its registry
phase has not run for this container and the container is not sealed, then enhances and adds a
configuration-aware lifecycle processor. -/
def postFactory : PostProcessor → Step Unit
  | .registry _ s => do
    note (s.label ++ ":factory")
    factoryActions s.label s.onFactory
  | .factory _ s => do
    note (s.label ++ ":factory")
    factoryActions s.label s.onFactory
  | .expansion i => do
    let ran ← markPhase i .factory
    if !ran && !(← get).box.sealed then discard <| expand i
    discard <| withBox (enhanceAll ((← get).expansion i).enhancer)
    let stamp ← fresh
    onBox (·.addLifecycle ⟨stamp, .configurationAware⟩)

def unprocessedRegistryNames (processed : List String) : Step (List String) := do
  return (← get).box.namesFor .registryProcessor true false |>.filter (!processed.contains ·)

/-- Creates a batch of registry processors, marking each name processed first; answers the
batch sorted, and the processed names. -/
def registryBatch (processed : List String) :
    List String → Step (List (Ranked PostProcessor) × List String)
  | [] => return ([], processed)
  | name :: rest => do
    let processed := processed ++ [name]
    let tier := (← get).box.classify name
    let p ← match ← materialize name .registryProcessor with
      | .post p => if p.isRegistry then pure p else throw (.capabilityMismatch name .registryProcessor)
      | _ => throw (.capabilityMismatch name .registryProcessor)
    let (batch, processed) ← registryBatch processed rest
    return (⟨name, tier, p.order, p⟩ :: batch, processed)

def runRegistryBatch (done : List PostProcessor) : List (Ranked PostProcessor) →
    Step (List PostProcessor)
  | [] => return done
  | r :: rest => do
    postRegistry r.processor
    runRegistryBatch (done ++ [r.processor]) rest

def registryPass (processed : List String) (done : List PostProcessor) (names : List String) :
    Step (List String × List PostProcessor) := do
  let (batch, processed) ← registryBatch processed names
  let done ← runRegistryBatch done (Ranked.sort batch)
  return (processed, done)

/-- The failure of a run whose remainder passes outlast their bound. The engine itself would go
on passing; every pass processes a new name, so the bound is only reached by a run that
registers more registry processors than the bound allows. -/
def passLimitError : BootError :=
  .processor scenarioName "remainder passes did not settle"

def remainderPasses (fuel : Nat) (processed : List String) (done : List PostProcessor) :
    Step (List String × List PostProcessor) := do
  let names ← unprocessedRegistryNames processed
  if names.isEmpty then return (processed, done)
  match fuel with
  | 0 => throw passLimitError
  | fuel + 1 =>
    let (processed, done) ← registryPass processed done names
    remainderPasses fuel processed done

def runFactoryPhase : List PostProcessor → Step Unit
  | [] => pure ()
  | p :: rest => do
    postFactory p
    runFactoryPhase rest

def factoryProcessor (name : String) : Step PostProcessor := do
  match ← materialize name .factoryProcessor with
  | .post p => return p
  | _ => throw (.capabilityMismatch name .factoryProcessor)

def factoryBatch (tier : Tier) : List String → Step (List (Ranked PostProcessor))
  | [] => return []
  | name :: rest => do
    let p ← factoryProcessor name
    return ⟨name, tier, p.order, p⟩ :: (← factoryBatch tier rest)

def classifyFactory (processed : List String) :
    List String → Step (List (Ranked PostProcessor) × List String × List String)
  | [] => return ([], [], [])
  | name :: rest => do
    if processed.contains name then classifyFactory processed rest
    else
      match (← get).box.classify name with
      | .priority =>
        let p ← factoryProcessor name
        let (pr, o, pl) ← classifyFactory processed rest
        return (⟨name, .priority, p.order, p⟩ :: pr, o, pl)
      | .ordered =>
        let (pr, o, pl) ← classifyFactory processed rest
        return (pr, name :: o, pl)
      | .plain =>
        let (pr, o, pl) ← classifyFactory processed rest
        return (pr, o, name :: pl)

def passFuel (m : Machine) : Nat :=
  m.box.definitions.size + 65536

/-- The registry phase of the explicit processors, in order: those with a registry phase run
it, the factory-only ones are deferred. Answers the processors run and those deferred. -/
def explicitPhase : List PostProcessor → Step (List PostProcessor × List PostProcessor)
  | [] => return ([], [])
  | p :: rest => do
    if p.isRegistry then
      postRegistry p
      let (ran, deferred) ← explicitPhase rest
      return (p :: ran, deferred)
    else
      let (ran, deferred) ← explicitPhase rest
      return (ran, p :: deferred)

def capabilityPass (processed : List String) (done : List PostProcessor) (cap : Capability) :
    Step (List String × List PostProcessor) := do
  let names := (← unprocessedRegistryNames processed).filter ((← get).box.isTypeMatch · cap)
  registryPass processed done names

/-- The registry phase with a registry view: the explicit processors, the priority pass, the
ordered pass and the remainder passes. Answers the processed names, the processors whose
registry phase ran (explicit ones first), and the deferred factory-only processors. -/
def registryPhase (explicit : List PostProcessor) :
    Step (List String × List PostProcessor × List PostProcessor) := do
  let (ran, deferred) ← explicitPhase explicit
  let (processed, ran) ← capabilityPass [] ran .priorityOrdered
  let (processed, ran) ← capabilityPass processed ran .ordered
  let (processed, ran) ← remainderPasses (passFuel (← get)) processed ran
  return (processed, ran, deferred)

def factoryTiers (processed : List String) : Step Unit := do
  let names := (← get).box.namesFor .factoryProcessor true false
  let (priority, orderedNames, plainNames) ← classifyFactory processed names
  runFactoryPhase (Ranked.sort priority |>.map (·.processor))
  let ordered ← factoryBatch .ordered orderedNames
  runFactoryPhase (Ranked.sort ordered |>.map (·.processor))
  let plain ← factoryBatch .plain plainNames
  runFactoryPhase (plain.map (·.processor))

def invokeProcessors (explicit : List PostProcessor) : Step Unit := do
  let processed ← if !(← get).box.sealed then do
      let (processed, ran, deferred) ← registryPhase explicit
      runFactoryPhase ran
      runFactoryPhase deferred
      pure processed
    else do
      runFactoryPhase explicit
      pure []
  factoryTiers processed
  onBox Container.clearCache

end Machine

end Wiring
