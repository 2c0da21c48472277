namespace Wiring

/-! Listener registries: the names of singleton event listeners, in the order they were first
detected. Adding a known name keeps its place; removing one closes the gap. -/

/-- Listener names in detection order, each once. -/
structure Listeners where
  names : List String := []
  deriving DecidableEq, Repr, Inhabited

namespace Listeners

def add (l : Listeners) (n : String) : Listeners :=
  if l.names.contains n then l else ⟨l.names ++ [n]⟩

def remove (l : Listeners) (n : String) : Bool × Listeners :=
  (l.names.contains n, ⟨l.names.filter (· != n)⟩)

def contains (l : Listeners) (n : String) : Bool :=
  l.names.contains n

def size (l : Listeners) : Nat := l.names.length

end Listeners

end Wiring
