import Wiring.Definition

namespace Wiring

/-! Candidates for configuration expansion. The candidate check reads a definition's class
metadata (through a cache keyed by user class name, so the first class read under a name
speaks for all), marks the definition full or lite, and copies a declared order. -/

/-- Metadata read so far, by user class name; an entry is always metadata of its own name. -/
structure MetadataCache where
  entries : Roster ClassMetadata
  keyed : ∀ e ∈ entries.entries, e.2.className = e.1

namespace MetadataCache

def empty : MetadataCache := ⟨.empty, fun _ he => by simp [Roster.empty] at he⟩

instance : Inhabited MetadataCache := ⟨empty⟩

def read (cache : MetadataCache) (cls : ComponentClass) : ClassMetadata × MetadataCache :=
  match cache.entries.get? cls.userName with
  | some m => (m, cache)
  | none => (cls.metadata, ⟨cache.entries.insert cls.userName cls.metadata, by
      intro e he
      rcases Roster.mem_insert.1 he with rfl | ⟨he, -⟩
      · rfl
      · exact cache.keyed e he⟩)

def size (cache : MetadataCache) : Nat := cache.entries.size

def clear (_cache : MetadataCache) : MetadataCache := empty

end MetadataCache

def ClassMetadata.mode? (m : ClassMetadata) : Option ConfigMode :=
  if m.configuration then some .full
  else if m.component || !m.imports.isEmpty || !m.scans.isEmpty || !m.factoryMethods.isEmpty then
    some .lite
  else none

/-- The candidate check: definitions made by factory methods are never candidates; the others
are when their metadata earns a mark, which is written with any declared order. -/
def checkCandidate (cache : MetadataCache) (d : Definition) :
    Bool × Definition × MetadataCache :=
  if d.hasFactory then (false, d, cache)
  else
    let (m, cache) := cache.read d.cls
    match m.mode? with
    | none => (false, d, cache)
    | some mode =>
      let d := { d with configuration := some mode }
      let d := match m.order with
        | some o => { d with order := some o }
        | none => d
      (true, d, cache)

/-- Definitions queued for parsing, by name in order of arrival. -/
structure CandidateSet where
  entries : Roster Definition
  deriving Inhabited

namespace CandidateSet

def empty : CandidateSet := ⟨.empty⟩

def push (s : CandidateSet) (name : String) (d : Definition) : CandidateSet :=
  ⟨s.entries.insert name d⟩

def sortByOrder (s : CandidateSet) : CandidateSet :=
  ⟨s.entries.sortBy fun a b =>
    decide (a.2.order.getD lowestPrecedence ≤ b.2.order.getD lowestPrecedence)⟩

def names (s : CandidateSet) : List String := s.entries.keys

def size (s : CandidateSet) : Nat := s.entries.size

def isEmpty (s : CandidateSet) : Bool := s.entries.entries.isEmpty

def clear (_s : CandidateSet) : CandidateSet := empty

/-- Runs the candidate check on named definitions in order, queueing those that pass; answers
each checked definition with its verdict. -/
def checkEach (cache : MetadataCache) (set : CandidateSet) :
    List (String × Definition) → List (Bool × Definition) × CandidateSet × MetadataCache
  | [] => ([], set, cache)
  | (name, d) :: rest =>
    let (ok, d, cache) := checkCandidate cache d
    let set := if ok then set.push name d else set
    let (rs, set, cache) := checkEach cache set rest
    ((ok, d) :: rs, set, cache)

end CandidateSet

end Wiring
