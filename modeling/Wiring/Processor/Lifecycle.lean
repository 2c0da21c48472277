import Wiring.Processor.Run

namespace Wiring

/-! Lifecycle registration. A chain checker goes first; the discovered lifecycle processors are
appended by tier (priority and ordered sorted, plain in discovery order); those offering a
merged definition hook are appended once more, sorted, which moves them behind the rest; a new
listener detector writing the given registry goes last. -/

namespace Machine

def lifecycleProcessor (name : String) (tier : Tier) : Step (Ranked Lifecycle) := do
  match ← materialize name .lifecycleProcessor with
  | .lifecycle l => return ⟨name, tier, l.order, l⟩
  | _ => throw (.capabilityMismatch name .lifecycleProcessor)

def lifecycleBatch (tier : Tier) : List String → Step (List (Ranked Lifecycle))
  | [] => return []
  | name :: rest => do
    let r ← lifecycleProcessor name tier
    return r :: (← lifecycleBatch tier rest)

def classifyLifecycle : List String → Step (List (Ranked Lifecycle) × List String × List String)
  | [] => return ([], [], [])
  | name :: rest => do
    match (← get).box.classify name with
    | .priority =>
      let r ← lifecycleProcessor name .priority
      let (pr, o, pl) ← classifyLifecycle rest
      return (r :: pr, o, pl)
    | .ordered =>
      let (pr, o, pl) ← classifyLifecycle rest
      return (pr, name :: o, pl)
    | .plain =>
      let (pr, o, pl) ← classifyLifecycle rest
      return (pr, o, name :: pl)

def appendAll (rs : List (Ranked Lifecycle)) : Step Unit :=
  onBox fun c => rs.foldl (fun c r => c.addLifecycle r.processor) c

def registerLifecycle (book : Book) : Step Unit := do
  let names := (← get).box.namesFor .lifecycleProcessor true false
  let target := (← get).box.chain.length + 1 + names.length
  let checker ← fresh
  onBox (·.addLifecycle ⟨checker, .chainChecker target⟩)
  let (priority, orderedNames, plainNames) ← classifyLifecycle names
  appendAll (Ranked.sort priority)
  let ordered ← lifecycleBatch .ordered orderedNames
  appendAll (Ranked.sort ordered)
  let plain ← lifecycleBatch .plain plainNames
  appendAll plain
  let internal := (priority ++ ordered ++ plain).filter (·.processor.hasMergedHook)
  appendAll (Ranked.sort internal)
  let detector ← fresh
  onBox (·.addLifecycle ⟨detector, .listenerDetector book⟩)

end Machine

end Wiring
