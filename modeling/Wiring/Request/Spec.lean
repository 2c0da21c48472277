import Wiring.Request.Value
import Wiring.Session.Blueprint

namespace Wiring.Request

/-! Reading the specs of a scenario from request values: definitions, mutations, instances,
processor scripts and classes. Failures are the messages of a malformed request. The actions
of a processor script and the steps of a factory-method body are read one by one: one that
cannot be read is kept as `unreadable`, so the script or body fails only when it reaches it.
Specs nest, and each level of an instance spec takes one unit of fuel; the fuel given is the
reader's nesting limit, which every read value respects. -/

def deferred {α : Type} (unreadable : String → α) : Except String α → α
  | .ok a => a
  | .error m => unreadable m

def roleOf (s : String) : Role := if s = "infrastructure" then .infrastructure else .application

def scopeOf (s : String) : Scope := if s = "prototype" then .prototype else .singleton

def modeOf : Value → Except String (Option ConfigMode)
  | .str "full" => pure (some .full)
  | .str "lite" => pure (some .lite)
  | .str s => throw ("unknown configuration mode `" ++ s ++ "`")
  | _ => pure none

def capabilityOf (s : String) : Except String Capability :=
  match Capability.ofName? s with
  | some c => pure c
  | none => throw ("unknown capability `" ++ s ++ "`")

def capability (j : Value) (k : String) : Except String Capability :=
  match j.text? k with
  | none => pure .component
  | some s => capabilityOf s

def definitionSpec (j : Value) : Except String DefinitionSpec := do
  let name ← j.requireText "name"
  let cls ← j.requireText "class"
  let source ← match j.text? "source" with
    | none => pure .registered
    | some s => match Source.ofName? s with
      | some src => pure src
      | none => throw ("unknown source `" ++ s ++ "`")
  let factory ← match j.given? "factory" with
    | some f => do
      let method ← f.requireText "method"
      match f.text? "component", f.text? "static" with
      | some o, _ => pure (some (FactorySpec.component o method))
      | none, some k => pure (some (FactorySpec.static k method))
      | none, none => throw "factory needs `component` or `static`"
    | none => pure none
  let order ← j.order "order"
  let configuration ← match j.get? "configuration" with
    | some v => modeOf v
    | none => pure none
  let properties := match j.get? "properties" with
    | some (.obj fields) => fields.map fun (k, v) => (k, (v.asStr?).getD "")
    | _ => []
  return { name := name, classKey := cls
           role := roleOf (j.text "role")
           scope := scopeOf (j.text "scope")
           lazyInit := j.flag "lazy" false
           locked := j.flag "locked" false
           source := source, factory := factory, order := order
           configuration := configuration, properties := properties }

def changeOf (k : String) (v : Value) : Except String Change :=
  match k with
  | "configuration" => Change.configuration <$> modeOf v
  | "order" => Change.order <$> Value.asOrder v
  | "lazy" => pure (.lazyInit ((v.asBool?).getD false))
  | "locked" => pure (.locked ((v.asBool?).getD false))
  | "scope" => pure (.scope (scopeOf ((v.asStr?).getD "")))
  | "role" => pure (.role (roleOf ((v.asStr?).getD "")))
  | "class" => pure (.classKey ((v.asStr?).getD ""))
  | other => throw ("unknown mutation field `" ++ other ++ "`")

def changesOf : List (String × Value) → Mutation
  | [] => {}
  | (k, v) :: rest =>
    match changeOf k v with
    | .ok c => let m := changesOf rest; { m with changes := c :: m.changes }
    | .error e => { unreadable := some e }

def mutation (j : Value) : Mutation :=
  match j.get? "set" with
  | some (.obj fields) => changesOf fields
  | _ => {}

def hookOf? : String → Option Hook
  | "properties" => some .properties
  | "before" => some .before
  | "after" => some .after
  | "merged" => some .merged
  | _ => none

/-- A lifecycle recorder; `record` defaults to the after hook, and a `record` that is not a
list records nothing. -/
def recorder (j : Value) : Except String Recorder := do
  return { label := (j.text? "label").getD "life"
           order := ← j.order "order"
           mergedHook := j.flag "merged_hook" false
           wrap := j.flag "wrap" false
           record := match j.get? "record" with
             | none => [Hook.after]
             | some r => ((r.asArr?).getD []).filterMap fun h => (h.asStr?).bind hookOf?
           failProperties := j.texts "fail_properties"
           failBefore := j.texts "fail_before"
           failAfter := j.texts "fail_after" }

def namesQuery (j : Value) : Except String (Capability × Bool × Bool) := do
  return (← capability j "cap", j.flag "include_non_singletons" true, j.flag "allow_eager_init" true)

def factoryAction (j : Value) : Except String FactoryAction := do
  match j.text "do" with
  | "materialize" => return .materialize (j.text "name") (← capability j "cap")
  | "register" => return .register (definitionSpec j)
  | "mutate" => return .mutate (j.text "name") (mutation j)
  | "fail" => return .fail (j.text "message")
  | "names" =>
    let (cap, incl, eager) ← namesQuery j
    return .listNames cap incl eager
  | other => throw ("unknown factory action `" ++ other ++ "`")

mutual

def blueprint : Nat → Value → Except String Blueprint
  | 0, _ => throw "instance specs nest too deep"
  | fuel + 1, j => do
    let text := j.text "value"
    match (j.text? "kind").getD "object" with
    | "object" => return .value text
    | "import_aware" => return .importAware text
    | "factory_aware" => return .factoryAware text
    | "registry_processor" => return .registryProcessor (← script fuel j)
    | "factory_processor" => return .factoryProcessor (← script fuel j)
    | "lifecycle" => return .lifecycle (← recorder j)
    | "fail" => return .fail (j.text "message")
    | other => throw ("unknown instance kind `" ++ other ++ "`")

def script (fuel : Nat) (j : Value) : Except String (Script Blueprint) := do
  return { label := (j.text? "label").getD "proc"
           order := ← j.order "order"
           onRegistry := registryActions fuel (j.items "on_registry")
           onFactory := (j.items "on_factory").map fun a => deferred .unreadable (factoryAction a) }

def registryActions (fuel : Nat) : List Value → List (RegistryAction Blueprint)
  | [] => []
  | a :: rest => deferred .unreadable (registryAction fuel a) :: registryActions fuel rest

def registryAction (fuel : Nat) (j : Value) : Except String (RegistryAction Blueprint) := do
  match j.text "do" with
  | "register" => return .register (← definitionSpec j)
  | "register_singleton" =>
    return .registerSingleton (j.text "name") (← blueprint fuel ((j.get? "value").getD .null))
  | "mutate" => return .mutate (j.text "name") (mutation j)
  | "names" => return .listNames
  | "fail" => return .fail (j.text "message")
  | other => throw ("unknown registry action `" ++ other ++ "`")

end

def specFuel : Nat := 128

def instanceSpec (j : Value) : Except String Blueprint := blueprint specFuel j

def bodyStep (j : Value) : Except String BodyStep := do
  match j.text "do" with
  | "call" => return .call (j.text "method")
  | "component" => return .component (j.text "name")
  | "owner" => return .owner
  | "fail" => return .fail (j.text "message")
  | other => throw ("unknown body step `" ++ other ++ "`")

def methodPlan (j : Value) : Except String MethodPlan := do
  let name ← j.requireText "name"
  let body ← match j.given? "body" with
    | none => pure none
    | some b => do
      let returns ← match b.get? "returns" with
        | some r => instanceSpec r
        | none => pure (.value name)
      pure (some { steps := (b.items "steps").map fun st => deferred .unreadable (bodyStep st)
                   returns := returns })
  return { name := name
           returns := j.text? "returns"
           componentName := j.text? "component_name"
           isStatic := j.flag "static" false
           sealed := j.flag "sealed" false
           infrastructure := j.flag "infrastructure" false
           prototype := j.flag "prototype" false
           lazyInit := j.flag "lazy" false
           body := body }

def classPlan (j : Value) : Except String ClassPlan := do
  let name ← j.requireText "name"
  return { key := (j.text? "id").getD name
           name := name
           caps := ← (j.texts "caps").mapM capabilityOf
           configuration := j.flag "configuration" false
           component := j.flag "component" false
           componentName := j.text? "component_name"
           isFinal := j.flag "final" false
           order := ← j.order "order"
           imports := j.texts "imports"
           scans := j.texts "scans"
           constructor := ← (j.given? "constructor").mapM instanceSpec
           methods := ← (j.items "methods").mapM methodPlan }

/-- The class specs of a request, in order: each needs a name, and the keys must be distinct.
The rest of a spec is read when its class is built. -/
def classEntries (j : Value) : Except String (List ClassEntry) := do
  let mut entries : Array ClassEntry := #[]
  for c in j.items "classes" do
    let name ← c.requireText "name"
    let key := (c.text? "id").getD name
    if entries.any (·.key == key) then throw (PlanError.duplicateKey key).message
    entries := entries.push ⟨key, classPlan c⟩
  return entries.toList

end Wiring.Request
