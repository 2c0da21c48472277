namespace Wiring

/-! Small vocabulary shared by the whole library: how a definition's instances are shared, what
role it plays, where it came from, which configuration mark it carries, how containers are
labelled, and the order values that sort first and last. -/

def lowestPrecedence : Int := 2147483647

def highestPrecedence : Int := -2147483648

/-- Whether a definition is user-facing or container-internal. -/
inductive Role where
  | application
  | infrastructure
  deriving DecidableEq, Repr, Inhabited

/-- Whether one instance is shared or each request makes a new one. -/
inductive Scope where
  | singleton
  | prototype
  deriving DecidableEq, Repr, Inhabited

/-- How a definition entered the table. -/
inductive Source where
  | registered
  | scanned
  | imported
  | factoryMethod
  deriving DecidableEq, Repr, Inhabited

/-- The mark the candidate check writes: a declared configuration, or a component that declares
imports, scans or factory methods. -/
inductive ConfigMode where
  | full
  | lite
  deriving DecidableEq, Repr, Inhabited

/-- The label of one container; containers are numbered in the order they were made. -/
structure ContainerId where
  index : Nat
  deriving DecidableEq, Repr, Inhabited

namespace Role

def name : Role → String
  | application => "application"
  | infrastructure => "infrastructure"

end Role

namespace Scope

def name : Scope → String
  | singleton => "singleton"
  | prototype => "prototype"

end Scope

namespace Source

def name : Source → String
  | registered => "registered"
  | scanned => "scanned"
  | imported => "imported"
  | factoryMethod => "factory_method"

def ofName? : String → Option Source
  | "registered" => some registered
  | "scanned" => some scanned
  | "imported" => some imported
  | "factory_method" => some factoryMethod
  | _ => none

end Source

namespace ConfigMode

def name : ConfigMode → String
  | full => "full"
  | lite => "lite"

end ConfigMode

namespace ContainerId

def label (c : ContainerId) : String :=
  "f" ++ toString c.index

end ContainerId

end Wiring
