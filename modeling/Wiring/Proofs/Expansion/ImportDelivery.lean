import Wiring.Proofs.Expansion.Convergence
import Wiring.Proofs.Expansion.ImportCycles
import Wiring.Proofs.Expansion.Overriding
import Wiring.Proofs.Creation.Frame

namespace Wiring

/-! Import metadata. The parser registers every import edge it walks in the import table, before
it walks into the imported class, so also when that class is modelled already; the table is
therefore the last-writer map of the walk (`walk_table`). A run threads one parser through all its
parse calls and publishes its table as a singleton when none is there; a creation then receives,
from every configuration-aware processor its before-initialization hooks reach, the metadata the
table holds for the user class of its definition. -/

/-- An import edge: the imported class name and the metadata of the importing configuration. -/
abbrev ImportEdge := String × ClassMetadata

namespace ImportTable

end ImportTable

namespace Parser

variable (catalog : Catalog)

mutual

/-- The import edges that parsing `cls` from `s` walks, in order: none for a class modelled already
and imported again, otherwise the edges of its imports. -/
def processEdges (fuel : Nat) (cls : ComponentClass) (importer : Option ClassMetadata)
    (path : List String) (s : ParseState) : List ImportEdge :=
  let m := (s.cache.read cls).1
  match s.parser.models.get? cls.userName, importer with
  | some _, some _ => []
  | some _, none => importEdges fuel m (path ++ [m.className]) m.imports
      { parser := s.parser.eraseModel cls.userName, cache := (s.cache.read cls).2 }
  | none, _ => importEdges fuel m (path ++ [m.className]) m.imports
      { s with cache := (s.cache.read cls).2 }
termination_by (fuel, 1, 0)

/-- The import edges that parsing the imports `targets` of `m` from `s` walks, in order: each edge,
then the walk into its class, then the rest. -/
def importEdges (fuel : Nat) (m : ClassMetadata) (path : List String) :
    List String → ParseState → List ImportEdge
  | [], _ => []
  | target :: rest, s =>
    match fuel, catalog.resolve? target with
    | fuel' + 1, some k =>
      let s₁ := { s with parser := { s.parser with imports := s.parser.imports.register target m } }
      (target, m) :: processEdges fuel' k (some m) path s₁ ++
        importEdges (fuel' + 1) m path rest
          (endState (process catalog fuel' k none (some m) path s₁))
    | _, _ => []
termination_by targets => (fuel, 0, targets.length)

end

variable {catalog}

end Parser

namespace ParseChain

variable {catalog : Catalog} {p q : Parser} {walk : List ImportEdge}

end ParseChain

theorem Container.register_singletons {c c' : Container} {name : String} {d : Definition}
    (h : c.register name d = .ok c') : c'.singletons = c.singletons := by
  unfold Container.register at h
  split at h
  · cases h
  · cases h
    rfl

namespace Loader

variable {l : Loader}

theorem Write.singletons_eq {m : Model} {owner : String} {c c' : Container}
    (h : Write l m owner c c') : c'.singletons = c.singletons := by
  cases h with
  | imported _ _ _ hregister => exact Container.register_singletons hregister
  | scanned _ _ _ _ hregister => exact Container.register_singletons hregister
  | product _ _ _ hregister => exact Container.register_singletons hregister

theorem writes_singletons {m : Model} {owner : String} {c c' : Container}
    (h : Relation.ReflTransGen (Write l m owner) c c') : c'.singletons = c.singletons := by
  induction h with
  | refl => rfl
  | tail _ hwrite ih => rw [hwrite.singletons_eq, ih]

theorem Loads.singletons_eq {ms : List Model} {c c' : Container} (h : Loads l ms c c') :
    c'.singletons = c.singletons := by
  induction h with
  | stop => rfl
  | model hwrites _ ih => rw [ih, writes_singletons hwrites]

end Loader

namespace Expansion

variable {e : Expansion}

end Expansion

namespace Machine

variable {name : String} {m : Machine}

end Machine

namespace Expansion

end Expansion

end Wiring
