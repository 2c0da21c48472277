import Mathlib.Logic.Relation
import Mathlib.Data.List.Chain
import Mathlib.Data.List.Perm.Subperm
import Wiring.Proofs.Expansion.Parsing

namespace Wiring

/-! Import cycles. The import graph is fixed for a whole run of parses, and parsing walks it depth
first with the identities being parsed on a stack, refusing a target already on it. Models are
stored only once their imports are parsed, so the models are always closed under imports and lie
on no cycle, the stack stays within the catalog, and a reported cycle is always a real one. -/

namespace ImportGraph

variable (graph : String → List String)

def Edge (X Y : String) : Prop := Y ∈ graph X

def OnCycle (X : String) : Prop := Relation.TransGen (Edge graph) X X

/-- Every import reachable from `X` resolves in the catalog, and no cycle is reachable. -/
def Clean (catalog : Catalog) (X : String) : Prop :=
  ∀ Y, Relation.ReflTransGen (Edge graph) X Y →
    (∀ Z ∈ graph Y, (catalog.resolve? Z).isSome) ∧ ¬ OnCycle graph Y

variable {graph}

theorem reach_last : ∀ {l : List String}, l.IsChain (Edge graph) →
    ∀ a ∈ l, ∀ b, l.getLast? = some b → Relation.ReflTransGen (Edge graph) a b
  | [], _, _, ha, _, _ => absurd ha List.not_mem_nil
  | [x], _, a, ha, b, hb => by
    rw [List.mem_singleton.1 ha]
    simp only [List.getLast?_singleton, Option.some.injEq] at hb
    rw [hb]
  | x :: y :: rest, hchain, a, ha, b, hb => by
    rw [List.isChain_cons_cons] at hchain
    have hrest := reach_last hchain.2 y List.mem_cons_self b (by simpa using hb)
    rcases List.mem_cons.1 ha with rfl | ha
    · exact .head hchain.1 hrest
    · exact reach_last hchain.2 a ha b (by simpa using hb)

theorem chain_push {l : List String} (hchain : l.IsChain (Edge graph)) {last target : String}
    (hlast : l.getLast? = some last) (hedge : target ∈ graph last) :
    (l ++ [target]).IsChain (Edge graph) :=
  hchain.append (.singleton target) (by simpa [hlast, Edge] using hedge)

theorem onCycle_of_mem {l : List String} (hchain : l.IsChain (Edge graph)) {last target : String}
    (hlast : l.getLast? = some last) (hedge : target ∈ graph last) (hmem : target ∈ l) :
    OnCycle graph target :=
  Relation.TransGen.tail' (reach_last hchain target hmem last hlast) hedge

theorem Clean.of_reach {catalog : Catalog} {X Y : String} (h : Clean graph catalog X)
    (hXY : Relation.ReflTransGen (Edge graph) X Y) : Clean graph catalog Y :=
  fun Z hYZ => h Z (hXY.trans hYZ)

theorem Clean.resolved {catalog : Catalog} {X : String} (h : Clean graph catalog X) :
    ∀ Z ∈ graph X, (catalog.resolve? Z).isSome :=
  (h X .refl).1

theorem Clean.not_onCycle {catalog : Catalog} {X : String} (h : Clean graph catalog X) :
    ¬ OnCycle graph X :=
  (h X .refl).2

end ImportGraph

open ImportGraph

/-- A catalog of builder-made classes for the graph: each class is known by its name, and its
metadata declares the graph's imports of that name. -/
structure Catalog.Builds (graph : String → List String) (catalog : Catalog) : Prop where
  named : ∀ k ∈ catalog.classes, k.userName = k.name
  declares : ∀ k ∈ catalog.classes, k.metadata.imports = graph k.name

theorem Catalog.Builds.declares_userName {graph : String → List String} {catalog : Catalog}
    (h : catalog.Builds graph) {k : ComponentClass} (hk : k ∈ catalog.classes) :
    k.metadata.imports = graph k.userName := by
  rw [h.named k hk]
  exact h.declares k hk

theorem Catalog.resolve?_name {catalog : Catalog} {target : String} {k : ComponentClass}
    (h : catalog.resolve? target = some k) : k.name = target := by
  have hp := List.find?_some h
  simpa using hp

theorem Catalog.length_le_size {catalog : Catalog} {names : List String} (hnodup : names.Nodup)
    (hnames : ∀ n ∈ names, n ∈ catalog.classes.map (·.name)) : names.length ≤ catalog.size := by
  have hsub := hnodup.subperm hnames
  simpa [Catalog.size] using hsub.length_le

def MetadataCache.Answers (graph : String → List String) (c : MetadataCache) : Prop :=
  ∀ X m, c.entries.get? X = some m → m.imports = graph X

namespace MetadataCache.Answers

variable {graph : String → List String} {c : MetadataCache} {cls : ComponentClass}

theorem read (h : c.Answers graph) (hcls : cls.metadata.imports = graph cls.userName) :
    (c.read cls).2.Answers graph := by
  intro X m hm
  unfold MetadataCache.read at hm
  split at hm
  · exact h X m hm
  · rw [Roster.get?_insert] at hm
    split at hm
    · rename_i hX
      cases hm
      rw [hX]
      exact hcls
    · exact h X m hm

theorem read_imports (h : c.Answers graph) (hcls : cls.metadata.imports = graph cls.userName) :
    (c.read cls).1.imports = graph cls.userName := by
  unfold MetadataCache.read
  split
  · rename_i m hm
    exact h _ m hm
  · exact hcls

end MetadataCache.Answers

/-- `q` has the identities of `p`, and every model of `q` has the metadata of a model of `p`. -/
structure Parser.SameIdentities (p q : Parser) : Prop where
  keys : ∀ X, X ∈ q.models.keys ↔ X ∈ p.models.keys
  metadata : ∀ N ∈ q.modelList, ∃ N' ∈ p.modelList, N'.metadata = N.metadata

namespace Parser.SameIdentities

theorem refl (p : Parser) : p.SameIdentities p :=
  ⟨fun _ => Iff.rfl, fun N hN => ⟨N, hN, rfl⟩⟩

theorem trans {p q r : Parser} (h₁ : p.SameIdentities q) (h₂ : q.SameIdentities r) :
    p.SameIdentities r := by
  refine ⟨fun X => (h₂.keys X).trans (h₁.keys X), fun N hN => ?_⟩
  obtain ⟨N', hN', hsame'⟩ := h₂.metadata N hN
  obtain ⟨N'', hN'', hsame''⟩ := h₁.metadata N' hN'
  exact ⟨N'', hN'', hsame''.trans hsame'⟩

theorem of_models {p q : Parser} (h : q.models = p.models) : p.SameIdentities q := by
  refine ⟨fun X => by rw [h], fun N hN => ⟨N, ?_, rfl⟩⟩
  rwa [modelList, h] at hN

end Parser.SameIdentities

namespace ParseState

variable (graph : String → List String) (catalog : Catalog)

/-- The cache and the models declare the graph's imports, and the models are closed under
imports, resolve their imports and lie on no cycle. -/
structure ImportsClosed (s : ParseState) : Prop where
  cache : s.cache.Answers graph
  declared : ∀ M ∈ s.parser.modelList, M.metadata.imports = graph M.identity
  resolved : ∀ X ∈ s.parser.models.keys, ∀ Y ∈ graph X, (catalog.resolve? Y).isSome
  closed : ∀ X ∈ s.parser.models.keys, ∀ Y ∈ graph X, Y ∈ s.parser.models.keys
  acyclic : ∀ X ∈ s.parser.models.keys, ¬ OnCycle graph X

variable {graph catalog}

namespace ImportsClosed

theorem reach {s : ParseState} (h : s.ImportsClosed graph catalog) {X Y : String}
    (hX : X ∈ s.parser.models.keys) (hXY : Relation.ReflTransGen (Edge graph) X Y) :
    Y ∈ s.parser.models.keys := by
  induction hXY with
  | refl => exact hX
  | tail _ hedge ih => exact h.closed _ ih _ hedge

theorem clean {s : ParseState} (h : s.ImportsClosed graph catalog) {X : String}
    (hX : X ∈ s.parser.models.keys) : Clean graph catalog X :=
  fun Y hXY => ⟨h.resolved Y (h.reach hX hXY), h.acyclic Y (h.reach hX hXY)⟩

theorem congr {s t : ParseState} (h : s.ImportsClosed graph catalog) (hcache : t.cache.Answers graph)
    (hdeclared : ∀ M ∈ t.parser.modelList, M.metadata.imports = graph M.identity)
    (hkeys : ∀ X, X ∈ t.parser.models.keys ↔ X ∈ s.parser.models.keys) :
    t.ImportsClosed graph catalog :=
  ⟨hcache, hdeclared, fun X hX => h.resolved X ((hkeys X).1 hX),
    fun X hX Y hY => (hkeys Y).2 (h.closed X ((hkeys X).1 hX) Y hY),
    fun X hX => h.acyclic X ((hkeys X).1 hX)⟩

theorem of_same {s t : ParseState} (h : s.ImportsClosed graph catalog) (hcache : t.cache.Answers graph)
    (hsame : s.parser.SameIdentities t.parser) : t.ImportsClosed graph catalog := by
  refine h.congr hcache (fun M hM => ?_) hsame.keys
  obtain ⟨N, hN, hmeta⟩ := hsame.metadata M hM
  rw [Model.identity, ← hmeta]
  exact h.declared N hN

theorem read {s : ParseState} (h : s.ImportsClosed graph catalog) {cls : ComponentClass}
    (hcls : cls.metadata.imports = graph cls.userName) :
    ImportsClosed graph catalog { s with cache := (s.cache.read cls).2 } :=
  ⟨h.cache.read hcls, h.declared, h.resolved, h.closed, h.acyclic⟩

theorem initial : ImportsClosed graph catalog ⟨.empty, .empty⟩ := by
  have hnone : ∀ X, X ∉ Parser.empty.models.keys := by
    simp [Parser.empty, Roster.empty, Roster.keys]
  refine ⟨fun X m hm => ?_, fun M hM => ?_, fun X hX => absurd hX (hnone X),
    fun X hX => absurd hX (hnone X), fun X hX => absurd hX (hnone X)⟩
  · simp [MetadataCache.empty, Roster.empty, Roster.get?] at hm
  · simp [Parser.empty, Parser.modelList, Roster.empty, Roster.values] at hM

theorem insert {s : ParseState} (h : s.ImportsClosed graph catalog) {N : Model}
    (hdeclared : N.metadata.imports = graph N.identity) (hnew : N.identity ∉ s.parser.models.keys)
    (himports : ∀ Y ∈ graph N.identity, (catalog.resolve? Y).isSome ∧ Y ∈ s.parser.models.keys) :
    ImportsClosed graph catalog { s with parser := s.parser.insertModel N } := by
  have hkeys : ∀ X, X ∈ (s.parser.insertModel N).models.keys ↔
      X = N.identity ∨ X ∈ s.parser.models.keys := fun X => Parser.mem_keys_insertModel
  refine ⟨h.cache, fun M hM => ?_, fun X hX => ?_, fun X hX Y hY => ?_, fun X hX => ?_⟩
  · rcases Parser.mem_insertModel.1 hM with rfl | ⟨hM, -⟩
    · exact hdeclared
    · exact h.declared M hM
  · rcases (hkeys X).1 hX with rfl | hX
    · exact fun Y hY => (himports Y hY).1
    · exact h.resolved X hX
  · rcases (hkeys X).1 hX with rfl | hX
    · exact (hkeys Y).2 (.inr (himports Y hY).2)
    · exact (hkeys Y).2 (.inr (h.closed X hX Y hY))
  · rcases (hkeys X).1 hX with rfl | hX
    · intro hcycle
      -- the first step of the cycle leads to a model, which reaches the new identity again
      obtain ⟨Y, hY, hback⟩ := Relation.TransGen.head'_iff.1 hcycle
      exact hnew (h.reach (himports Y hY).2 hback)
    · exact h.acyclic X hX

end ImportsClosed

end ParseState

namespace Parser

open ParseState

variable {graph : String → List String} {catalog : Catalog}

/-! ### One step of the parser, on every outcome -/

theorem insertModel_importer {p : Parser} {M : Model} {X : String} (hM : p.models.get? X = some M)
    (importer : String) :
    p.SameIdentities (p.insertModel { M with importedBy := M.importedBy ++ [importer] }) := by
  obtain ⟨hmem, -⟩ := mem_of_get? hM
  refine ⟨fun Y => ?_, fun N hN => ?_⟩
  · rw [mem_keys_insertModel]
    constructor
    · rintro (rfl | hY)
      · exact mem_keys.2 ⟨M, hmem, rfl⟩
      · exact hY
    · exact .inr
  · rcases mem_insertModel.1 hN with rfl | ⟨hN, -⟩
    · exact ⟨M, hmem, rfl⟩
    · exact ⟨N, hN, rfl⟩

theorem process_modelled (fuel : Nat) (cn : Option String) (imp : ClassMetadata)
    (path : List String) {cls : ComponentClass} {s : ParseState} {M : Model}
    (hM : s.parser.models.get? cls.userName = some M) :
    ∃ t, process catalog fuel cls cn (some imp) path s = .ok () t ∧
      t.cache = (s.cache.read cls).2 ∧ s.parser.SameIdentities t.parser := by
  rw [process]
  simp only [bind_apply, readMetadata_apply, get_apply, MetadataCache.read_className, hM]
  split
  · exact ⟨_, rfl, rfl, insertModel_importer hM imp.className⟩
  · exact ⟨_, rfl, rfl, .refl _⟩

theorem process_unmodelled {fuel : Nat} {cls : ComponentClass} {cn : Option String}
    {importer : Option ClassMetadata} {path : List String} {s : ParseState}
    (hnone : s.parser.models.get? cls.userName = none) :
    process catalog fuel cls cn importer path s =
      processNew catalog fuel cls (s.cache.read cls).1 cn importer path
        { s with cache := (s.cache.read cls).2 } := by
  rw [process]
  simp only [bind_apply, readMetadata_apply, get_apply, MetadataCache.read_className, hnone]

theorem process_replace {fuel : Nat} {cls : ComponentClass} {cn : Option String}
    {path : List String} {s : ParseState} {M : Model}
    (hM : s.parser.models.get? cls.userName = some M) :
    process catalog fuel cls cn none path s =
      processNew catalog fuel cls (s.cache.read cls).1 cn none path
        { parser := s.parser.eraseModel cls.userName, cache := (s.cache.read cls).2 } := by
  rw [process]
  simp only [bind_apply, readMetadata_apply, get_apply, MetadataCache.read_className, hM,
    set_apply]

def freshModel (catalog : Catalog) (cls : ComponentClass) (m : ClassMetadata)
    (cn : Option String) (importer : Option ClassMetadata) : Model :=
  addScans catalog { Model.ofClass cls m cn with importedBy := (importer.map (·.className)).toList }

@[simp] theorem freshModel_metadata (cls : ComponentClass) (m : ClassMetadata)
    (cn : Option String) (importer : Option ClassMetadata) :
    (freshModel catalog cls m cn importer).metadata = m := rfl

@[simp] theorem freshModel_identity (cls : ComponentClass) (m : ClassMetadata)
    (cn : Option String) (importer : Option ClassMetadata) :
    (freshModel catalog cls m cn importer).identity = m.className := rfl

theorem processNew_apply (fuel : Nat) (cls : ComponentClass) (m : ClassMetadata)
    (cn : Option String) (importer : Option ClassMetadata) (path : List String) (s : ParseState) :
    processNew catalog fuel cls m cn importer path s =
      (processImports catalog fuel m (path ++ [m.className]) m.imports >>= fun _ =>
        modify fun s =>
          { s with parser := s.parser.insertModel (freshModel catalog cls m cn importer) }) s := by
  rw [processNew]
  rfl

theorem processImports_cons_apply (fuel : Nat) (m : ClassMetadata) (path : List String)
    (target : String) (rest : List String) (s : ParseState) :
    processImports catalog (fuel + 1) m path (target :: rest) s =
      if path.contains target then
        .error (.invalidConfiguration (.circularImport target (path ++ [target]))) s
      else match catalog.resolve? target with
        | none => .error (.invalidConfiguration (.unresolvableImport m.className target)) s
        | some k => (process catalog fuel k none (some m) path >>= fun _ =>
            processImports catalog (fuel + 1) m path rest)
            { s with parser := { s.parser with imports := s.parser.imports.register target m } } := by
  rw [processImports]
  by_cases hon : path.contains target = true
  · simp only [hon, if_true, bind_apply, throw_apply]
  · simp only [hon, Bool.false_eq_true, if_false]
    cases catalog.resolve? target with
    | none => rfl
    | some k => rfl

/-! ### The import stack -/

/-- An import stack in a state: distinct identities, none modelled, a path of the graph, and
catalog names below its root. -/
structure Stack (graph : String → List String) (catalog : Catalog) (path : List String)
    (s : ParseState) : Prop where
  nodup : path.Nodup
  unmodelled : ∀ p ∈ path, p ∉ s.parser.models.keys
  chain : path.IsChain (Edge graph)
  names : ∀ p ∈ path.tail, p ∈ catalog.classes.map (·.name)

theorem Stack.length_le {path : List String} {s : ParseState} (h : Stack graph catalog path s) :
    path.length ≤ catalog.size + 1 := by
  cases path with
  | nil => simp
  | cons p rest =>
    have hrest := Catalog.length_le_size (h.nodup.sublist (List.sublist_cons_self p rest)) h.names
    simp only [List.length_cons]
    omega

theorem Stack.of_models {path : List String} {s t : ParseState} (h : Stack graph catalog path s)
    (hmodels : t.parser.models = s.parser.models) : Stack graph catalog path t :=
  ⟨h.nodup, hmodels ▸ h.unmodelled, h.chain, h.names⟩

theorem Stack.push {path : List String} {s : ParseState} (h : Stack graph catalog path s)
    {k : ComponentClass} (hk : k ∈ catalog.classes) (hnew : k.name ∉ s.parser.models.keys)
    (hoff : k.name ∉ path) (hchain : (path ++ [k.name]).IsChain (Edge graph)) :
    Stack graph catalog (path ++ [k.name]) s := by
  refine ⟨List.nodup_append.2 ⟨h.nodup, by simp, ?_⟩, fun p hp => ?_, hchain, fun p hp => ?_⟩
  · intro a ha b hb
    rw [List.mem_singleton.1 hb]
    rintro rfl
    exact hoff ha
  · rcases List.mem_append.1 hp with hp | hp
    · exact h.unmodelled p hp
    · rw [List.mem_singleton.1 hp]
      exact hnew
  · cases path with
    | nil => simp at hp
    | cons q rest =>
      simp only [List.cons_append, List.tail_cons, List.mem_append, List.mem_singleton] at hp
      rcases hp with hp | rfl
      · exact h.names p hp
      · exact List.mem_map_of_mem hk

/-! ### What each function of the parser guarantees -/

/-- A reported cycle is a path of the graph whose last identity appears earlier on it. -/
def CycleReported (graph : String → List String)
    (r : EStateM.Result BootError ParseState Unit) : Prop :=
  ∀ c chain u, r = .error (.invalidConfiguration (.circularImport c chain)) u →
    chain.IsChain (Edge graph) ∧ chain.getLast? = some c ∧ c ∈ chain.dropLast

/-- What a parsing step below the stack `path` guarantees on every outcome: the invariant where
it ends, the stack still unmodelled, `done` on success, and only real cycles reported. -/
structure Outcome (graph : String → List String) (catalog : Catalog) (path : List String)
    (done : ParseState → Prop) (r : EStateM.Result BootError ParseState Unit) : Prop where
  closed : (endState r).ImportsClosed graph catalog
  unmodelled : ∀ p ∈ path, p ∉ (endState r).parser.models.keys
  done : ∀ t, r = .ok () t → done t
  cycle : CycleReported graph r

namespace Outcome

variable {path : List String} {d d' : ParseState → Prop}

theorem imp {r : EStateM.Result BootError ParseState Unit} (h : Outcome graph catalog path d r)
    (hd : ∀ t, d t → d' t) : Outcome graph catalog path d' r :=
  ⟨h.closed, h.unmodelled, fun t ht => hd t (h.done t ht), h.cycle⟩

theorem of_append {r : EStateM.Result BootError ParseState Unit} {top : List String}
    (h : Outcome graph catalog (path ++ top) d r) : Outcome graph catalog path d r :=
  ⟨h.closed, fun p hp => h.unmodelled p (List.mem_append_left _ hp), h.done, h.cycle⟩

theorem at_ok {r : EStateM.Result BootError ParseState Unit} {u : ParseState}
    (h : Outcome graph catalog path d r) (hr : r = .ok () u) :
    u.ImportsClosed graph catalog ∧ (∀ p ∈ path, p ∉ u.parser.models.keys) ∧ d u := by
  subst hr
  exact ⟨h.closed, h.unmodelled, h.done u rfl⟩

theorem ok {t : ParseState} (hclosed : t.ImportsClosed graph catalog)
    (hunmodelled : ∀ p ∈ path, p ∉ t.parser.models.keys) (hd : d t) :
    Outcome graph catalog path d (.ok () t) :=
  ⟨hclosed, hunmodelled, fun _ h => (by cases h; exact hd), fun _ _ _ h => (by cases h)⟩

theorem error {e : BootError} {u : ParseState} (hclosed : u.ImportsClosed graph catalog)
    (hunmodelled : ∀ p ∈ path, p ∉ u.parser.models.keys)
    (he : ∀ c chain, e ≠ .invalidConfiguration (.circularImport c chain)) :
    Outcome graph catalog path d (.error e u) :=
  ⟨hclosed, hunmodelled, fun _ h => (by cases h),
    fun c chain _ h => absurd (EStateM.Result.error.inj h).1 (he c chain)⟩

theorem bind {x : EStateM BootError ParseState Unit}
    {f : Unit → EStateM BootError ParseState Unit} {s : ParseState}
    (hx : Outcome graph catalog path d (x s))
    (hf : ∀ u, x s = .ok () u → Outcome graph catalog path d' (f () u)) :
    Outcome graph catalog path d' ((x >>= f) s) := by
  rw [bind_apply]
  cases h : x s with
  | ok a u => exact hf u h
  | error e u =>
    rw [h] at hx
    exact ⟨hx.closed, hx.unmodelled, fun _ h => (by cases h), hx.cycle⟩

end Outcome

/-- What parsing the imports `targets` of the top `m` of a stack guarantees, at import depth
`fuel`: on success every target resolves and is modelled, and it succeeds when every target
resolves and is clean. -/
def ImportsWalk (graph : String → List String) (catalog : Catalog) (fuel : Nat) : Prop :=
  ∀ (m : ClassMetadata) (path targets : List String) (s : ParseState),
    s.ImportsClosed graph catalog → Stack graph catalog path s → path.getLast? = some m.className →
    (∀ target ∈ targets, target ∈ graph m.className) → fuel + path.length = catalog.size + 2 →
    Outcome graph catalog path
      (fun t => (∀ X ∈ s.parser.models.keys, X ∈ t.parser.models.keys) ∧
        ∀ target ∈ targets, (catalog.resolve? target).isSome ∧ target ∈ t.parser.models.keys)
      (processImports catalog fuel m path targets s) ∧
    ((∀ target ∈ targets, (catalog.resolve? target).isSome ∧ Clean graph catalog target) →
      ∃ t, processImports catalog fuel m path targets s = .ok () t)

def ImportWalk (graph : String → List String) (catalog : Catalog) (fuel : Nat) : Prop :=
  ∀ (k : ComponentClass) (imp : ClassMetadata) (path : List String) (s : ParseState),
    k ∈ catalog.classes → s.ImportsClosed graph catalog → Stack graph catalog path s →
    k.name ∉ path → (path ++ [k.name]).IsChain (Edge graph) →
    fuel + path.length = catalog.size + 1 →
    Outcome graph catalog path
      (fun t => (∀ X ∈ s.parser.models.keys, X ∈ t.parser.models.keys) ∧
        k.name ∈ t.parser.models.keys)
      (process catalog fuel k none (some imp) path s) ∧
    (Clean graph catalog k.name → ∃ t, process catalog fuel k none (some imp) path s = .ok () t)

def FreshWalk (graph : String → List String) (catalog : Catalog) (fuel : Nat) : Prop :=
  ∀ (cls : ComponentClass) (m : ClassMetadata) (cn : Option String)
    (importer : Option ClassMetadata) (path : List String) (s : ParseState),
    s.ImportsClosed graph catalog → m.imports = graph m.className →
    Stack graph catalog (path ++ [m.className]) s → fuel + path.length = catalog.size + 1 →
    Outcome graph catalog path
      (fun t => (∀ X ∈ s.parser.models.keys, X ∈ t.parser.models.keys) ∧
        m.className ∈ t.parser.models.keys)
      (processNew catalog fuel cls m cn importer path s) ∧
    (Clean graph catalog m.className →
      ∃ t, processNew catalog fuel cls m cn importer path s = .ok () t)

theorem importsWalk {fuel : Nat}
    (himport : ∀ fuel', fuel = fuel' + 1 → ImportWalk graph catalog fuel') :
    ImportsWalk graph catalog fuel := by
  intro m path targets
  induction targets with
  | nil =>
    intro s hs hstack _ _ _
    rw [processImports]
    exact ⟨.ok hs hstack.unmodelled ⟨fun _ h => h, by simp⟩, fun _ => ⟨s, rfl⟩⟩
  | cons target rest ih =>
    intro s hs hstack hlast htargets hfuel
    obtain ⟨fuel', rfl⟩ : ∃ fuel', fuel = fuel' + 1 :=
      ⟨fuel - 1, by have := hstack.length_le; omega⟩
    have hedge : target ∈ graph m.className := htargets target List.mem_cons_self
    rw [processImports_cons_apply]
    by_cases hon : path.contains target = true
    · -- a target on the stack closes a cycle, reported with the stack
      have hmem : target ∈ path := List.contains_iff_mem.1 hon
      simp only [hon, if_true]
      refine ⟨⟨hs, hstack.unmodelled, fun _ h => (by cases h), fun c chain u h => ?_⟩,
        fun hclean => ?_⟩
      · simp only [EStateM.Result.error.injEq, BootError.invalidConfiguration.injEq,
          ConfigError.circularImport.injEq] at h
        obtain ⟨⟨rfl, rfl⟩, -⟩ := h
        exact ⟨chain_push hstack.chain hlast hedge, List.getLast?_concat,
          by rwa [List.dropLast_concat]⟩
      · exact absurd (onCycle_of_mem hstack.chain hlast hedge hmem)
          (hclean target List.mem_cons_self).2.not_onCycle
    have hoff : target ∉ path := fun h => hon (List.contains_iff_mem.2 h)
    simp only [hon, Bool.false_eq_true, if_false]
    cases hres : catalog.resolve? target with
    | none =>
      refine ⟨.error hs hstack.unmodelled (by simp), fun hclean => ?_⟩
      have hsome := (hclean target List.mem_cons_self).1
      rw [hres] at hsome
      cases hsome
    | some k =>
      have hk : k ∈ catalog.classes := mem_of_resolve? hres
      have hname : k.name = target := Catalog.resolve?_name hres
      -- recording the import changes neither the models nor the cache
      generalize hs₀ : { s with parser := { s.parser with
        imports := s.parser.imports.register target m } } = s₀
      have hkeys₀ : s₀.parser.models = s.parser.models := by rw [← hs₀]
      have hclosed₀ : s₀.ImportsClosed graph catalog := by
        rw [← hs₀]
        exact hs.of_same hs.cache (.of_models rfl)
      have hstack₀ : Stack graph catalog path s₀ := hstack.of_models hkeys₀
      obtain ⟨hout, hok⟩ := himport fuel' rfl k m path s₀ hk hclosed₀ hstack₀ (hname ▸ hoff)
        (hname ▸ chain_push hstack.chain hlast hedge) (by omega)
      -- where the target's parse succeeds, the rest is parsed from there
      have hafter : ∀ u, process catalog fuel' k none (some m) path s₀ = .ok () u →
          u.ImportsClosed graph catalog ∧ Stack graph catalog path u := fun u hu => by
        obtain ⟨hclosed, hunmodelled, -⟩ := hout.at_ok hu
        exact ⟨hclosed, hstack.nodup, hunmodelled, hstack.chain, hstack.names⟩
      have hrestTargets : ∀ x ∈ rest, x ∈ graph m.className :=
        fun x hx => htargets x (List.mem_cons_of_mem _ hx)
      refine ⟨hout.bind fun u hu => ?_, fun hclean => ?_⟩
      · obtain ⟨hgrow, hkey⟩ := hout.done u hu
        obtain ⟨hu', hustack⟩ := hafter u hu
        refine (ih u hu' hustack hlast hrestTargets hfuel).1.imp
          fun t ht => ⟨fun X hX => ht.1 X (hgrow X (hkeys₀ ▸ hX)), fun x hx => ?_⟩
        rcases List.mem_cons.1 hx with rfl | hx
        · exact ⟨by rw [hres]; rfl, ht.1 _ (hname ▸ hkey)⟩
        · exact ht.2 x hx
      · obtain ⟨u, hu⟩ := hok (hname ▸ (hclean target List.mem_cons_self).2)
        obtain ⟨hu', hustack⟩ := hafter u hu
        obtain ⟨t, ht⟩ := (ih u hu' hustack hlast hrestTargets hfuel).2
          fun x hx => hclean x (List.mem_cons_of_mem _ hx)
        refine ⟨t, ?_⟩
        dsimp only
        rw [bind_apply, hu]
        exact ht

theorem freshWalk {fuel : Nat} (himports : ImportsWalk graph catalog fuel) :
    FreshWalk graph catalog fuel := by
  intro cls m cn importer path s hs hm hstack hfuel
  have hdepth : fuel + (path ++ [m.className]).length = catalog.size + 2 := by
    simp only [List.length_append, List.length_singleton]
    omega
  obtain ⟨hout, hok⟩ := himports m (path ++ [m.className]) m.imports s hs hstack
    List.getLast?_concat (fun target ht => hm ▸ ht) hdepth
  have hoff : m.className ∉ path := fun hp =>
    (List.nodup_append.1 hstack.nodup).2.2 _ hp _ (List.mem_singleton_self _) rfl
  rw [processNew_apply]
  refine ⟨hout.of_append.bind fun u hu => ?_, fun hclean => ?_⟩
  · obtain ⟨hu, hunmodelled, hgrow, hdone⟩ := hout.at_ok hu
    rw [modify_apply]
    have hnew : m.className ∉ u.parser.models.keys :=
      hunmodelled _ (List.mem_append_right _ (List.mem_singleton_self _))
    refine .ok (hu.insert (by simp [hm]) (by simpa using hnew) fun Y hY => hdone Y (hm ▸ hY))
      (fun p hp hpt => ?_) ⟨fun X hX => mem_keys_insertModel.2 (.inr (hgrow X hX)),
        mem_keys_insertModel.2 (.inl rfl)⟩
    rcases mem_keys_insertModel.1 hpt with heq | hpu
    · exact hoff (by simpa [heq] using hp)
    · exact hunmodelled p (List.mem_append_left _ hp) hpu
  · -- the imports of a clean identity resolve and are clean
    have hedge : ∀ target ∈ m.imports, Edge graph m.className target := by
      rw [hm]
      exact fun _ ht => ht
    obtain ⟨u, hu⟩ := hok fun target ht =>
      ⟨hclean.resolved target (hedge target ht), hclean.of_reach (.single (hedge target ht))⟩
    exact ⟨_, by rw [bind_apply, hu]; rfl⟩

theorem unmodelledWalk {fuel : Nat} (hfresh : FreshWalk graph catalog fuel) {cls : ComponentClass}
    {cn : Option String} {importer : Option ClassMetadata} {path : List String} {s : ParseState}
    (hs : s.ImportsClosed graph catalog) (hcls : cls.metadata.imports = graph cls.userName)
    (hM : s.parser.models.get? cls.userName = none)
    (hstack : Stack graph catalog (path ++ [cls.userName]) s)
    (hfuel : fuel + path.length = catalog.size + 1) :
    Outcome graph catalog path
      (fun t => (∀ X ∈ s.parser.models.keys, X ∈ t.parser.models.keys) ∧
        cls.userName ∈ t.parser.models.keys)
      (process catalog fuel cls cn importer path s) ∧
    (Clean graph catalog cls.userName →
      ∃ t, process catalog fuel cls cn importer path s = .ok () t) := by
  rw [process_unmodelled hM]
  have hidentity := MetadataCache.read_className s.cache cls
  have hpush : Stack graph catalog (path ++ [(s.cache.read cls).1.className])
      { s with cache := (s.cache.read cls).2 } := by
    rw [hidentity]
    exact hstack.of_models rfl
  obtain ⟨hout, hok⟩ := hfresh cls _ cn importer path _ (hs.read hcls)
    (by rw [hidentity]; exact hs.cache.read_imports hcls) hpush hfuel
  exact ⟨hout.imp fun t ht => ⟨ht.1, hidentity ▸ ht.2⟩, fun hclean => hok (hidentity ▸ hclean)⟩

theorem importWalk (hcat : catalog.Builds graph) {fuel : Nat} (hfresh : FreshWalk graph catalog fuel) :
    ImportWalk graph catalog fuel := by
  intro k imp path s hk hs hstack hoff hchain hfuel
  have hname : k.userName = k.name := hcat.named k hk
  have hcls : k.metadata.imports = graph k.userName := hcat.declares_userName hk
  cases hM : s.parser.models.get? k.userName with
  | some M =>
    obtain ⟨t, ht, hcache, hsame⟩ := process_modelled fuel none imp path hM
    have hmem : k.name ∈ s.parser.models.keys := hname ▸ Roster.mem_keys_iff.2 ⟨M, hM⟩
    refine ⟨ht ▸ .ok ?_ (fun p hp hpt => hstack.unmodelled p hp ((hsame.keys p).1 hpt))
      ⟨fun X hX => (hsame.keys X).2 hX, (hsame.keys _).2 hmem⟩, fun _ => ⟨t, ht⟩⟩
    exact hs.of_same (hcache ▸ hs.cache.read hcls) hsame
  | none =>
    have hnew : k.name ∉ s.parser.models.keys := by
      rw [← hname, Roster.mem_keys_iff, hM]
      simp
    rw [← hname]
    exact unmodelledWalk hfresh hs hcls hM (by rw [hname]; exact hstack.push hk hnew hoff hchain)
      hfuel

theorem importsWalk_all (hcat : catalog.Builds graph) : ∀ fuel, ImportsWalk graph catalog fuel
  | 0 => importsWalk fun _ hfuel => absurd hfuel (by omega)
  | fuel + 1 => importsWalk fun fuel' hfuel => by
      rw [show fuel' = fuel by omega]
      exact importWalk hcat (freshWalk (importsWalk_all hcat fuel))

/-! ### Registering a class again, and parsing candidates -/

theorem processImports_modelled (hcat : catalog.Builds graph) (fuel : Nat) (m : ClassMetadata)
    (path : List String) :
    ∀ (targets : List String) (s : ParseState), s.cache.Answers graph →
      (∀ target ∈ targets, (catalog.resolve? target).isSome ∧ target ∈ s.parser.models.keys ∧
        target ∉ path) →
      ∃ t, processImports catalog (fuel + 1) m path targets s = .ok () t ∧
        t.cache.Answers graph ∧ s.parser.SameIdentities t.parser
  | [], s, hcache, _ => ⟨s, by rw [processImports]; rfl, hcache, .refl _⟩
  | target :: rest, s, hcache, htargets => by
    obtain ⟨hres, hmem, hoff⟩ := htargets target List.mem_cons_self
    obtain ⟨k, hk⟩ := Option.isSome_iff_exists.1 hres
    have hkc : k ∈ catalog.classes := mem_of_resolve? hk
    have hname : k.userName = target := (hcat.named k hkc).trans (Catalog.resolve?_name hk)
    rw [processImports_cons_apply, if_neg (fun h => hoff (List.contains_iff_mem.1 h)), hk]
    dsimp only
    generalize hs₀ : { s with parser := { s.parser with
      imports := s.parser.imports.register target m } } = s₀
    have hmodels₀ : s₀.parser.models = s.parser.models := by rw [← hs₀]
    have hcache₀ : s₀.cache = s.cache := by rw [← hs₀]
    have hmem₀ : k.userName ∈ s₀.parser.models.keys := by
      rw [hmodels₀, hname]
      exact hmem
    obtain ⟨M, hM⟩ := Roster.mem_keys_iff.1 hmem₀
    obtain ⟨u, hu, hucache, husame⟩ := process_modelled fuel none m path hM
    have hsame₀ : s.parser.SameIdentities u.parser := (SameIdentities.of_models hmodels₀).trans husame
    have hanswers : u.cache.Answers graph := by
      rw [hucache, hcache₀]
      exact hcache.read (hcat.declares_userName hkc)
    obtain ⟨t, ht, htcache, htsame⟩ := processImports_modelled hcat fuel m path rest u hanswers
      fun x hx => by
        obtain ⟨hxres, hxmem, hxoff⟩ := htargets x (List.mem_cons_of_mem _ hx)
        exact ⟨hxres, (hsame₀.keys x).2 hxmem, hxoff⟩
    refine ⟨t, ?_, htcache, hsame₀.trans htsame⟩
    rw [bind_apply, hu]
    exact ht

/-- A class registered directly while modelled is parsed again over the same models: its imports
are models other than itself, since it lies on no cycle, so they only record it, and storing it
again restores the identities. -/
theorem process_reregistered (hcat : catalog.Builds graph) {cls : ComponentClass} {name : String}
    {s : ParseState} {M : Model} (hs : s.ImportsClosed graph catalog)
    (hcls : cls.metadata.imports = graph cls.userName)
    (hM : s.parser.models.get? cls.userName = some M) :
    ∃ t, process catalog (catalog.size + 1) cls (some name) none [] s = .ok () t ∧
      t.ImportsClosed graph catalog ∧ ∀ X, X ∈ t.parser.models.keys ↔ X ∈ s.parser.models.keys := by
  rw [process_replace hM, processNew_apply]
  have hidentity : (s.cache.read cls).1.className = cls.userName :=
    MetadataCache.read_className _ _
  have himports : (s.cache.read cls).1.imports = graph cls.userName := hs.cache.read_imports hcls
  have hmem : cls.userName ∈ s.parser.models.keys := Roster.mem_keys_iff.2 ⟨M, hM⟩
  have htargets : ∀ target ∈ (s.cache.read cls).1.imports, (catalog.resolve? target).isSome ∧
      target ∈ (s.parser.eraseModel cls.userName).models.keys ∧
      target ∉ [] ++ [(s.cache.read cls).1.className] := by
    intro target ht
    rw [himports] at ht
    have hne : target ≠ cls.userName := by
      rintro rfl
      exact hs.acyclic _ hmem (.single ht)
    refine ⟨hs.resolved _ hmem _ ht, mem_keys_eraseModel.2 ⟨hs.closed _ hmem _ ht, hne⟩, ?_⟩
    simpa [hidentity] using hne
  obtain ⟨t, ht, htcache, hsame⟩ := processImports_modelled hcat catalog.size (s.cache.read cls).1
    ([] ++ [(s.cache.read cls).1.className]) (s.cache.read cls).1.imports
    { parser := s.parser.eraseModel cls.userName, cache := (s.cache.read cls).2 }
    (hs.cache.read hcls) htargets
  have hkeys : ∀ X, X ∈ (t.parser.insertModel
      (freshModel catalog cls (s.cache.read cls).1 (some name) none)).models.keys ↔
      X ∈ s.parser.models.keys := by
    intro X
    rw [mem_keys_insertModel, hsame.keys, mem_keys_eraseModel, freshModel_identity, hidentity]
    constructor
    · rintro (rfl | ⟨hX, -⟩)
      · exact hmem
      · exact hX
    · intro hX
      by_cases heq : X = cls.userName
      · exact .inl heq
      · exact .inr ⟨hX, heq⟩
  refine ⟨{ t with
      parser := t.parser.insertModel (freshModel catalog cls (s.cache.read cls).1 (some name) none) },
    by rw [bind_apply, ht]; rfl, hs.congr htcache (fun N hN => ?_) hkeys, hkeys⟩
  -- the stored model declares the graph's imports, and the others keep old metadata
  rcases mem_insertModel.1 hN with rfl | ⟨hN, -⟩
  · rw [freshModel_identity, freshModel_metadata, hidentity]
    exact himports
  · obtain ⟨N', hN', hmeta⟩ := hsame.metadata N hN
    rw [Model.identity, ← hmeta]
    exact hs.declared N' (mem_eraseModel.1 hN').1

theorem candidateWalk (hcat : catalog.Builds graph) (cls : ComponentClass) (name : String)
    (s : ParseState) (hs : s.ImportsClosed graph catalog)
    (hcls : cls.metadata.imports = graph cls.userName) :
    Outcome graph catalog []
      (fun t => (∀ X ∈ s.parser.models.keys, X ∈ t.parser.models.keys) ∧
        cls.userName ∈ t.parser.models.keys)
      (process catalog (catalog.size + 1) cls (some name) none [] s) ∧
    (Clean graph catalog cls.userName →
      ∃ t, process catalog (catalog.size + 1) cls (some name) none [] s = .ok () t) := by
  cases hM : s.parser.models.get? cls.userName with
  | some M =>
    -- registered again: parsed over the same models, and never refused
    obtain ⟨t, ht, hclosed, hkeys⟩ := process_reregistered hcat hs hcls hM
    rw [ht]
    exact ⟨.ok hclosed (by simp) ⟨fun X hX => (hkeys X).2 hX,
      (hkeys _).2 (Roster.mem_keys_iff.2 ⟨M, hM⟩)⟩, fun _ => ⟨t, rfl⟩⟩
  | none =>
    have hnew : cls.userName ∉ s.parser.models.keys := by
      rw [Roster.mem_keys_iff, hM]
      simp
    exact unmodelledWalk (freshWalk (importsWalk_all hcat (catalog.size + 1))) hs hcls hM
      ⟨by simp, by simpa using hnew, .singleton _, by simp⟩ (by simp)

theorem candidatesWalk (hcat : catalog.Builds graph) :
    ∀ (es : List (String × Definition)) (s : ParseState), s.ImportsClosed graph catalog →
      (∀ e ∈ es, e.2.cls.metadata.imports = graph e.2.cls.userName) →
      Outcome graph catalog []
        (fun t => (∀ X ∈ s.parser.models.keys, X ∈ t.parser.models.keys) ∧
          ∀ e ∈ es, e.2.cls.userName ∈ t.parser.models.keys)
        ((es.forM fun (name, d) => process catalog (catalog.size + 1) d.cls (some name) none [] :
          EStateM BootError ParseState Unit) s) ∧
      ((∀ e ∈ es, Clean graph catalog e.2.cls.userName) →
        ∃ t, (es.forM fun (name, d) => process catalog (catalog.size + 1) d.cls (some name) none [] :
          EStateM BootError ParseState Unit) s = .ok () t)
  | [], s, hs, _ => ⟨.ok hs (by simp) ⟨fun _ h => h, by simp⟩, fun _ => ⟨s, rfl⟩⟩
  | (name, d) :: rest, s, hs, hcands => by
    rw [List.forM]
    dsimp only
    obtain ⟨hout, hok⟩ := candidateWalk hcat d.cls name s hs (hcands _ List.mem_cons_self)
    have hrest : ∀ e ∈ rest, e.2.cls.metadata.imports = graph e.2.cls.userName :=
      fun e he => hcands e (List.mem_cons_of_mem _ he)
    refine ⟨hout.bind fun u hu => ?_, fun hclean => ?_⟩
    · obtain ⟨hu', -, hgrow, hkey⟩ := hout.at_ok hu
      refine (candidatesWalk hcat rest u hu' hrest).1.imp fun t ht =>
        ⟨fun X hX => ht.1 X (hgrow X hX), fun e he => ?_⟩
      rcases List.mem_cons.1 he with rfl | he
      · exact ht.1 _ hkey
      · exact ht.2 e he
    · obtain ⟨u, hu⟩ := hok (hclean _ List.mem_cons_self)
      obtain ⟨t, ht⟩ := (candidatesWalk hcat rest u (hout.at_ok hu).1 hrest).2
        fun e he => hclean e (List.mem_cons_of_mem _ he)
      refine ⟨t, ?_⟩
      rw [bind_apply, hu]
      exact ht

/-- Parsing candidates whose classes declare the graph's imports, over a catalog built for the
graph, from a state whose models are closed under imports and off every cycle (as a fresh parser
is, and as every parse leaves it):
* on every outcome the models stay closed under imports, resolve their imports and lie on no
  cycle;
* the parse succeeds exactly when everything reachable from the candidates resolves and no
  cycle is reachable from them;
* a reported cycle is a path of the graph whose last identity appears earlier on it, so the
  depth budget never runs out. -/
theorem parse_import_cycles (hcat : catalog.Builds graph) {candidates : CandidateSet}
    {s : ParseState} (hs : s.ImportsClosed graph catalog)
    (hcands : ∀ e ∈ candidates.entries.entries,
      e.2.cls.metadata.imports = graph e.2.cls.userName) :
    (endState (parse catalog candidates s)).ImportsClosed graph catalog ∧
    ((∃ t, parse catalog candidates s = .ok () t) ↔
      ∀ e ∈ candidates.entries.entries, Clean graph catalog e.2.cls.userName) ∧
    CycleReported graph (parse catalog candidates s) := by
  obtain ⟨hout, hok⟩ := candidatesWalk hcat candidates.entries.entries s hs hcands
  refine ⟨hout.closed, ⟨fun ⟨t, ht⟩ e he => ?_, hok⟩, hout.cycle⟩
  -- a success leaves every candidate a model, and the invariant makes models clean
  obtain ⟨htclosed, -, -, hkeys⟩ := hout.at_ok ht
  exact htclosed.clean (hkeys e he)

def libraryClass : ComponentClass :=
  ⟨"app.Lib", { className := "app.Lib" }, [], none, .empty, none, false⟩

def rootClass : ComponentClass :=
  ⟨"app.Root", { className := "app.Root", imports := ["app.Lib"] }, [], none, .empty, none, false⟩

def rootGraph (X : String) : List String :=
  if X = "app.Root" then ["app.Lib"] else []

theorem root_parse_import_cycles :
    let catalog : Catalog := ⟨[libraryClass]⟩
    let candidates : CandidateSet := ⟨⟨[("root", .ofClass rootClass)], by simp⟩⟩
    (endState (parse catalog candidates ⟨.empty, .empty⟩)).ImportsClosed rootGraph catalog ∧
    ((∃ t, parse catalog candidates ⟨.empty, .empty⟩ = .ok () t) ↔
      ∀ e ∈ candidates.entries.entries, Clean rootGraph catalog e.2.cls.userName) ∧
    CycleReported rootGraph (parse catalog candidates ⟨.empty, .empty⟩) :=
  parse_import_cycles
    ⟨by simp [libraryClass, ComponentClass.userName], by simp [libraryClass, rootGraph]⟩
    ImportsClosed.initial
    (by simp [Definition.ofClass, rootClass, rootGraph, ComponentClass.userName])

end Parser

end Wiring
