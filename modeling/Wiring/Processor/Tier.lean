import Wiring.Container

namespace Wiring

/-! Processor tiers. A name is in the priority tier when its class advertises priority order,
else in the ordered tier when it advertises order, else plain. Inside a batch, priority entries
come first and then lower order values, with ties kept in discovery order. -/

/-- Invocation tiers. -/
inductive Tier where
  | priority
  | ordered
  | plain
  deriving DecidableEq, Repr, Inhabited

def Container.classify (c : Container) (name : String) : Tier :=
  if c.isTypeMatch name .priorityOrdered then .priority
  else if c.isTypeMatch name .ordered then .ordered
  else .plain

/-- A processor made from a name, with its tier and order. -/
structure Ranked (α : Type) where
  name : String
  tier : Tier
  order : Int
  processor : α

namespace Ranked

variable {α : Type}

def le (a b : Ranked α) : Bool :=
  match a.tier == .priority, b.tier == .priority with
  | true, false => true
  | false, true => false
  | _, _ => decide (a.order ≤ b.order)

def sort (xs : List (Ranked α)) : List (Ranked α) :=
  xs.mergeSort le

theorem sort_perm (xs : List (Ranked α)) : (sort xs).Perm xs :=
  List.mergeSort_perm xs _

end Ranked

end Wiring
