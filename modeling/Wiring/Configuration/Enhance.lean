import Wiring.Container
import Wiring.Data.Focus

namespace Wiring

/-! Enhancement swaps the class of each full configuration definition for an intercepting
subclass, so that sibling factory-method calls return the managed components. Definitions that
are locked, or whose singleton already exists, keep their class. -/

def interceptedSuffix : String := "$$Intercepted"

/-- How a class is enhanced. -/
inductive Enhancer where
  | subclass
  | broken
  | identity
  deriving DecidableEq, Repr, Inhabited

namespace Enhancer

def enhance (e : Enhancer) (c : ComponentClass) : Except BootError (Option ComponentClass) :=
  match e with
  | subclass =>
    if c.intercepts then .ok none
    else
      match c.constructor with
      | none => .error (.notInstantiable c.name "configuration class declares no constructor")
      | some ctor => .ok (some (c.interceptingSubclass (c.name ++ interceptedSuffix) (.intercepting ctor)))
  | broken => .error (.notInstantiable c.name "class bytes unavailable")
  | identity => .ok none

end Enhancer

/-- Whether enhancement visits a definition: a full configuration, not locked, whose singleton
does not exist yet. -/
def Container.enhanceable (c : Container) (name : String) (d : Definition) : Bool :=
  d.isFullConfiguration && !d.classLocked && !c.singletons.contains name

/-- Enhances the named definitions in order; answers how many changed class. Each visited
definition is marked to preserve its target class. -/
def enhanceNames (e : Enhancer) : List String → EStateM BootError Container Nat
  | [] => return 0
  | name :: rest => do
    let c ← get
    match c.definition? name with
    | none => enhanceNames e rest
    | some d =>
      if !c.enhanceable name d then enhanceNames e rest
      else
        match e.enhance d.cls with
        | .error err => throw (.enhancementFailed name d.cls.name err.message)
        | .ok replacement =>
          let mark (d : Definition) : Definition :=
            { d with attributes := d.attributes.insert preserveTargetClass "true" }
          match replacement with
          | none =>
            set (c.modifyDefinition name mark)
            enhanceNames e rest
          | some k =>
            set (c.modifyDefinition name fun d => { mark d with cls := k })
            return (← enhanceNames e rest) + 1

/-- The enhancement pass over every definition; the effective cache is cleared when some class
changed. -/
def enhanceAll (e : Enhancer) : EStateM BootError Container Nat := do
  let k ← enhanceNames e (← get).names
  if k > 0 then modify Container.clearCache
  return k

end Wiring
