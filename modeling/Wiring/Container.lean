import Wiring.Error
import Wiring.Instance

namespace Wiring

/-! A container holds definitions in registration order, the effective-definition cache, the
singleton cache in insertion order, the raw instances of intercepting singletons, the names in
creation, and the lifecycle chain. This module holds the operations that create nothing;
creation is in `Wiring.Creation`. -/

/-- The state of one container. -/
structure Container where
  id : ContainerId
  definitions : Roster Definition := .empty
  effective : Roster Definition := .empty
  singletons : Roster Instance := .empty
  targets : Roster Instance := .empty
  inCreation : List String := []
  chain : List Lifecycle := []
  allowOverriding : Bool := true
  sealed : Bool := false
  cacheClears : Nat := 0
  detectorFlags : List (Nat × Roster Bool) := []

namespace Container

def create (id : ContainerId) (allowOverriding : Bool) : Container :=
  { id := id, allowOverriding := allowOverriding }

def definition? (c : Container) (name : String) : Option Definition :=
  c.definitions.get? name

def names (c : Container) : List String :=
  c.definitions.keys

/-- Registers a definition; a taken name is refused unless overriding is allowed, and then keeps
its position. The name's effective definition is dropped. -/
def register (c : Container) (name : String) (d : Definition) : Except BootError Container :=
  if c.definitions.contains name && !c.allowOverriding then
    .error (.overrideRejected name)
  else
    .ok { c with effective := c.effective.erase name, definitions := c.definitions.insert name d }

def registerSingleton (c : Container) (name : String) (i : Instance) :
    Except BootError Container :=
  if c.singletons.contains name then .error (.overrideRejected name)
  else .ok { c with singletons := c.singletons.insert name i }

/-- Names whose class advertises `cap`, in registration order. Without `includeNonSingletons`
only singletons count; without `allowEagerInit` lazy factory-method definitions are left out. -/
def namesFor (c : Container) (cap : Capability) (includeNonSingletons allowEagerInit : Bool) :
    List String :=
  (c.definitions.entries.filter fun e =>
    (includeNonSingletons || e.2.isSingleton) &&
    (allowEagerInit || !(e.2.lazyInit && e.2.hasFactory)) &&
    e.2.cls.hasCapability cap).map (·.1)

def isTypeMatch (c : Container) (name : String) (cap : Capability) : Bool :=
  match c.definition? name with
  | some d => d.cls.hasCapability cap
  | none =>
    match c.singletons.get? name with
    | some i => i.provides cap
    | none => false

def addLifecycle (c : Container) (l : Lifecycle) : Container :=
  { c with chain := c.chain.filter (·.stamp != l.stamp) ++ [l] }

def clearCache (c : Container) : Container :=
  { c with effective := .empty, cacheClears := c.cacheClears + 1 }

def sealRegistry (c : Container) : Container :=
  { c with sealed := true }

def modifyDefinition (c : Container) (name : String) (f : Definition → Definition) : Container :=
  { c with definitions := c.definitions.modify name f }

def eagerSingletons (c : Container) : List String :=
  (c.definitions.entries.filter fun e => e.2.isSingleton && !e.2.lazyInit).map (·.1)

def flag? (c : Container) (detector : Nat) (name : String) : Option Bool :=
  match c.detectorFlags.find? (·.1 == detector) with
  | some (_, flags) => flags.get? name
  | none => none

def setFlag (c : Container) (detector : Nat) (name : String) (b : Bool) : Container :=
  let flags := ((c.detectorFlags.find? (·.1 == detector)).map (·.2)).getD .empty
  { c with detectorFlags :=
      (c.detectorFlags.filter (·.1 != detector)) ++ [(detector, flags.insert name b)] }

theorem namesFor_nodup (c : Container) (cap : Capability)
    (includeNonSingletons allowEagerInit : Bool) :
    (c.namesFor cap includeNonSingletons allowEagerInit).Nodup :=
  Roster.map_fst_filter_nodup _ c.definitions.nodup

theorem names_register {c c' : Container} {name : String} {d : Definition}
    (h : c.register name d = .ok c') :
    c'.names = if c.definitions.contains name then c.names else c.names ++ [name] := by
  unfold register at h
  split at h
  · cases h
  · cases h
    by_cases hc : c.definitions.contains name = true
    · simp [names, hc, Roster.keys_insert_of_contains]
    · simp only [Bool.not_eq_true] at hc
      simp [names, hc, Roster.keys_insert_of_not_contains]

theorem definition?_register {c c' : Container} {name : String} {d : Definition}
    (h : c.register name d = .ok c') (n : String) :
    c'.definition? n = if n = name then some d else c.definition? n := by
  unfold register at h
  split at h
  · cases h
  · cases h
    exact Roster.get?_insert _ _ _ _

theorem definition?_modifyDefinition (c : Container) (name : String) (f : Definition → Definition)
    (n : String) :
    (c.modifyDefinition name f).definition? n =
      if n = name then (c.definition? n).map f else c.definition? n :=
  Roster.get?_modify _ _ _ _

theorem names_modifyDefinition (c : Container) (name : String) (f : Definition → Definition) :
    (c.modifyDefinition name f).names = c.names :=
  Roster.keys_modify _ _ _

theorem mem_names_iff {c : Container} {n : String} : n ∈ c.names ↔ ∃ d, c.definition? n = some d :=
  Roster.mem_keys_iff

theorem names_nodup (c : Container) : c.names.Nodup :=
  c.definitions.nodup

theorem definitions_registerSingleton {c c' : Container} {name : String} {i : Instance}
    (h : c.registerSingleton name i = .ok c') : c'.definitions = c.definitions := by
  unfold registerSingleton at h
  split at h
  · cases h
  · cases h
    rfl

end Container

end Wiring
