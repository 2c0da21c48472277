import Wiring.Class

namespace Wiring

/-! The import table records, for each imported class name, the metadata of the configuration
that imported it; a later import of the same name replaces the earlier record. -/

/-- Imported class name to importing configuration metadata; listed in name order. -/
structure ImportTable where
  entries : Roster ClassMetadata
  deriving Inhabited

namespace ImportTable

def empty : ImportTable := ⟨.empty⟩

def register (t : ImportTable) (imported : String) (importing : ClassMetadata) : ImportTable :=
  ⟨t.entries.insert imported importing⟩

def importingFor? (t : ImportTable) (imported : String) : Option ClassMetadata :=
  t.entries.get? imported

def size (t : ImportTable) : Nat :=
  t.entries.size

def listing (t : ImportTable) : List (String × String) :=
  t.entries.sorted.map (fun e => (e.1, e.2.className))

end ImportTable

end Wiring
