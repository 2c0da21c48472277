import Wiring.Catalog
import Wiring.Configuration.Candidate
import Wiring.Configuration.Imports
import Wiring.Configuration.Model

namespace Wiring

/-! Parsing candidates into configuration models, following imports depth first. An import is
recorded before its class is parsed; a class already modelled is merged (a second importer is
added to an imported model) or, when registered directly, replaced and moved to the end. Any
class still on the import path may not be imported again: that is a cycle. Models accumulate
across parses. -/

/-- Models by identity in parse order, and the import table. -/
structure Parser where
  models : Roster Model
  imports : ImportTable
  keyed : ∀ e ∈ models.entries, e.2.identity = e.1

def Parser.empty : Parser := ⟨.empty, .empty, fun _ he => by simp [Roster.empty] at he⟩

instance : Inhabited Parser := ⟨Parser.empty⟩

instance : EmptyCollection Parser := ⟨Parser.empty⟩

/-- What parsing works on: the parser and the metadata cache it reads through. -/
structure ParseState where
  parser : Parser
  cache : MetadataCache
  deriving Inhabited

namespace Parser

def modelList (p : Parser) : List Model := p.models.values

def insertModel (p : Parser) (model : Model) : Parser :=
  { p with
    models := p.models.insert model.identity model
    keyed := by
      intro e he
      rcases Roster.mem_insert.1 he with rfl | ⟨he, -⟩
      · rfl
      · exact p.keyed e he }

def eraseModel (p : Parser) (identity : String) : Parser :=
  { p with
    models := p.models.erase identity
    keyed := fun e he => p.keyed e (Roster.mem_erase.1 he).1 }

def readMetadata (cls : ComponentClass) : EStateM BootError ParseState ClassMetadata :=
  modifyGet fun s =>
    let (m, cache) := s.cache.read cls
    (m, { s with cache := cache })

def addScans (catalog : Catalog) (m : Model) : Model :=
  let found := m.metadata.scans.flatMap catalog.scan
  let scanned := found.foldl (fun acc k =>
    if k.name == m.identity || acc.any (·.name == k.name) then acc else acc ++ [k]) []
  { m with scanned := scanned }

mutual

/-- Parses one class; `importer` is the configuration importing it, `path` the identities on the
current import path. `fuel` bounds the import depth. -/
def process (catalog : Catalog) (fuel : Nat) (cls : ComponentClass) (componentName : Option String)
    (importer : Option ClassMetadata) (path : List String) :
    EStateM BootError ParseState Unit := do
  let m ← readMetadata cls
  let identity := m.className
  let s ← get
  match s.parser.models.get? identity with
  | some existing =>
    match importer with
    | some imp =>
      if existing.isImported && !existing.importedBy.contains imp.className then
        let merged := { existing with importedBy := existing.importedBy ++ [imp.className] }
        set { s with parser := s.parser.insertModel merged }
      return
    | none =>
      set { s with parser := s.parser.eraseModel identity }
      processNew catalog fuel cls m componentName importer path
  | none => processNew catalog fuel cls m componentName importer path
termination_by (fuel, 2, 0)

def processNew (catalog : Catalog) (fuel : Nat) (cls : ComponentClass) (m : ClassMetadata)
    (componentName : Option String) (importer : Option ClassMetadata) (path : List String) :
    EStateM BootError ParseState Unit := do
  let model := addScans catalog
    { Model.ofClass cls m componentName with importedBy := (importer.map (·.className)).toList }
  let path := path ++ [m.className]
  processImports catalog fuel m path m.imports
  modify fun s => { s with parser := s.parser.insertModel model }
termination_by (fuel, 1, 0)

def processImports (catalog : Catalog) (fuel : Nat) (m : ClassMetadata) (path : List String) :
    List String → EStateM BootError ParseState Unit
  | [] => pure ()
  | target :: rest => do
    if path.contains target then
      throw (.invalidConfiguration (.circularImport target (path ++ [target])))
    let some resolved := catalog.resolve? target
      | throw (.invalidConfiguration (.unresolvableImport m.className target))
    modify fun s => { s with parser := { s.parser with imports := s.parser.imports.register target m } }
    match fuel with
    | 0 => throw (.invalidConfiguration (.circularImport target (path ++ [target])))
    | fuel + 1 => process catalog fuel resolved none (some m) path
    processImports catalog fuel m path rest
termination_by targets => (fuel, 0, targets.length)

end

def parse (catalog : Catalog) (candidates : CandidateSet) :
    EStateM BootError ParseState Unit :=
  candidates.entries.entries.forM fun (name, d) =>
    process catalog (catalog.size + 1) d.cls (some name) none []

def validate (p : Parser) : Except BootError Unit :=
  p.modelList.forM Model.validate

end Parser

end Wiring
