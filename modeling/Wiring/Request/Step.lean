import Wiring.Options
import Wiring.Request.Spec
import Wiring.Session.Command

namespace Wiring.Request

/-! Reading a scenario from a request value: the containers to set up, the expansion
processors, and each step as a command on a container. A step that cannot be read is refused
alone; the session goes on with the next step. -/

def enhancerOf (s : String) : Except String Enhancer :=
  match s with
  | "subclass" => pure .subclass
  | "broken" => pure .broken
  | "identity" => pure .identity
  | other => throw ("unknown enhancer `" ++ other ++ "`")

def generatorOf (v : Value) : Except String NameGenerator :=
  match v with
  | .str "short" => pure .short
  | .str "qualified" => pure .qualified
  | v => match v.text? "prefix" with
    | some p => pure (.prefixed p)
    | none => throw ("unknown name generator " ++ v.render)

def processorRef (j : Value) : ProcessorRef :=
  match j.get? "p" with
  | some (.str "ctx") => .context
  | v => .index ((v.bind Value.asU64?).getD 0)

/-- A listener action; the name defaults to the empty text. Listener actions are read one by
one, so the actions before one that cannot be read still run. -/
def listenerAction (a : Value) : Except String ListenerAction :=
  match a.text "do" with
  | "add" => pure (.add (a.text "name"))
  | "remove" => pure (.remove (a.text "name"))
  | "contains" => pure (.contains (a.text "name"))
  | other => throw ("unknown listener action `" ++ other ++ "`")

def command (j : Value) : Except String Command := do
  match j.text "do" with
  | "register" => return .register (← definitionSpec j)
  | "register_singleton" =>
    let value ← instanceSpec ((j.get? "value").getD .null)
    return .registerSingleton (← j.requireText "name") value
  | "register_name_generator" =>
    let name := (j.text? "name").getD generatorName
    match (j.get? "generator").getD .null with
    | .str "bogus" => return .registerGenerator name none
    | g => return .registerGenerator name (some (← generatorOf g))
  | "materialize" => return .materialize (← j.requireText "name") (← capability j "cap")
  | "component" => return .component (← j.requireText "name") (← capability j "cap")
  | "seal" => return .sealRegistry
  | "invoke" => return .invoke ((j.items "explicit").map instanceSpec)
  | "register_lifecycle" => return .registerLifecycle
  | "instantiate" => return .instantiate
  | "names" =>
    let (cap, incl, eager) ← namesQuery j
    return .names cap incl eager
  | "type_match" => return .typeMatch (← j.requireText "name") (← capability j "cap")
  | "expand" => return .expand (processorRef j)
  | "post_registry" => return .postRegistry (processorRef j)
  | "post_factory" => return .postFactory (processorRef j)
  | "enhance" => return .enhance (← enhancerOf ((j.text? "enhancer").getD "subclass"))
  | "add_lifecycle" =>
    match j.text? "class" with
    | some k => return .addLifecycle (.classKey k)
    | none => return .addLifecycle (.blueprint (← instanceSpec ((j.get? "spec").getD .null)))
  | "clear_cache" => return .clearCache
  | "refresh" => return .refresh
  | "add_post_processor" => return .addPostProcessor (← instanceSpec ((j.get? "spec").getD .null))
  | "listeners" => return .listeners
  | "state" => return .state
  | "same_as" =>
    let cap ← capability j "cap"
    return .sameAs (← j.requireText "a") (j.text "b") cap
  | "debug" => return .debug (← j.requireText "name")
  | "debug_class" =>
    match j.text? "definition" with
    | some d => return .debugClass (.definition d)
    | none => return .debugClass (.key (← j.requireText "class"))
  | "attribute" => return .attribute (← j.requireText "name") (← j.requireText "key")
  | "listener_registry" =>
    return .listenerRegistry ((j.items "actions").map fun a => deferred .unreadable (listenerAction a))
  | "register_class" => return .registerClass (← j.requireText "name") (← j.requireText "class")
  | "options" => return .options
  | other => throw ("unknown step `" ++ other ++ "`")

def containerIndex (j : Value) : Nat :=
  ((j.get? "f").bind Value.asU64?).getD 0

def slotPlan (j : Value) : SlotPlan :=
  match j.get? "context" with
  | some c =>
    let options := match c.get? "options" with
      | some o => match Options.decode o with
        | .ok o => .ok o
        | .error e => .error ("options: " ++ e)
      | none => .ok {}
    -- Naming an enhancer or a generator, even as `null`, asks for expansion settings of the
    -- context's own; an enhancer that is not a text is the default one.
    let custom := (c.get? "enhancer").isSome || (c.get? "name_generator").isSome
    let enhancer := if custom then some <$> enhancerOf ((c.text? "enhancer").getD "subclass")
      else pure none
    .context options (c.texts "catalog") enhancer
      ((c.given? "name_generator").mapM generatorOf) ((c.get? "override_scanned").bind Value.asBool?)
  | none => .plain ((j.get? "overriding").bind Value.asBool?)

def expansionPlan (j : Value) : ExpansionPlan :=
  { catalog := j.texts "catalog"
    overrideScanned := j.flag "override_scanned" true
    enhancer := enhancerOf ((j.text? "enhancer").getD "subclass")
    generator := (j.given? "name_generator").mapM generatorOf }

/-- What a scenario sets up: classes, expansion processors and containers (one plain factory
unless a list with some container is given). Only the classes' names and keys are read here;
the rest is read as the setup reaches it. -/
def scenarioPlans (j : Value) :
    Except String (List ClassEntry × List ExpansionPlan × List SlotPlan) := do
  let classes ← classEntries j
  let expansions := (j.items "processors").map expansionPlan
  let slots := match ((j.get? "factories").bind Value.asArr?).getD [] with
    | [] => [SlotPlan.plain none]
    | fs => fs.map slotPlan
  return (classes, expansions, slots)

/-- A step of a metadata-parse request: parse the candidates named by (name, class) pairs, or
validate what was parsed. -/
inductive ParseStep where
  | parse (pairs : List (String × String))
  | validate

def textAt (v : Value) (i : Nat) : String :=
  (((v.asArr?).getD [])[i]?.bind Value.asStr?).getD ""

/-- A parse step: a `parse` list, read pair by pair with missing parts empty, else any
`validate` field. -/
def parseStep (j : Value) : Except String ParseStep :=
  match (j.get? "parse").bind Value.asArr? with
  | some pairs => pure (.parse (pairs.map fun p => (textAt p 0, textAt p 1)))
  | none =>
    if (j.get? "validate").isSome then pure .validate
    else throw "parse step needs `parse` or `validate`"

end Wiring.Request
