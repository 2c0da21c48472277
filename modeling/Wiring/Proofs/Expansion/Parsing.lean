import Wiring.Configuration.Parse
import Wiring.Proofs.Frame

namespace Wiring

/-! What parsing does to the parser and to the metadata cache. The cache only ever gains
answers, and an answer never changes once given, so the metadata of an identity is fixed for a
whole run. Parsing never loses an identity: a class registered directly is dropped and parsed
again, which puts its identity back. Every identity that parsing adds has its imports parsed
too, and a model without a component name (an imported one) is a catalog class, as is every
class it scanned. -/

namespace MetadataCache

def Extends (c c' : MetadataCache) : Prop :=
  ∀ u m, c.entries.get? u = some m → c'.entries.get? u = some m

theorem Extends.refl (c : MetadataCache) : c.Extends c :=
  fun _ _ h => h

theorem Extends.trans {c₁ c₂ c₃ : MetadataCache} (h₁ : c₁.Extends c₂) (h₂ : c₂.Extends c₃) :
    c₁.Extends c₃ :=
  fun u m h => h₂ u m (h₁ u m h)

theorem read_className (c : MetadataCache) (cls : ComponentClass) :
    (c.read cls).1.className = cls.userName := by
  unfold read
  split
  · rename_i m hm
    exact c.keyed _ (Roster.get?_eq_some_iff.1 hm)
  · rfl

theorem get?_read (c : MetadataCache) (cls : ComponentClass) :
    (c.read cls).2.entries.get? cls.userName = some (c.read cls).1 := by
  unfold read
  split
  · rename_i m hm
    exact hm
  · simp [Roster.get?_insert]

theorem extends_read (c : MetadataCache) (cls : ComponentClass) : c.Extends (c.read cls).2 := by
  intro u m hu
  unfold read
  split
  · exact hu
  · rename_i hnone
    have hne : u ≠ cls.userName := by
      rintro rfl
      rw [hnone] at hu
      cases hu
    simp [Roster.get?_insert, hne, hu]

end MetadataCache

namespace Parser

theorem mem_modelList {p : Parser} {M : Model} :
    M ∈ p.modelList ↔ (M.identity, M) ∈ p.models.entries := by
  constructor
  · intro h
    obtain ⟨e, he, rfl⟩ := List.mem_map.1 h
    rw [p.keyed e he]
    exact he
  · intro h
    exact List.mem_map.2 ⟨_, h, rfl⟩

theorem mem_keys {p : Parser} {X : String} :
    X ∈ p.models.keys ↔ ∃ M ∈ p.modelList, M.identity = X := by
  constructor
  · intro h
    obtain ⟨e, he, rfl⟩ := List.mem_map.1 h
    exact ⟨e.2, List.mem_map.2 ⟨e, he, rfl⟩, p.keyed e he⟩
  · rintro ⟨M, hM, rfl⟩
    exact List.mem_map.2 ⟨_, mem_modelList.1 hM, rfl⟩

theorem mem_of_get? {p : Parser} {X : String} {M : Model} (h : p.models.get? X = some M) :
    M ∈ p.modelList ∧ M.identity = X := by
  have hmem := Roster.get?_eq_some_iff.1 h
  have hid : M.identity = X := p.keyed _ hmem
  exact ⟨mem_modelList.2 (hid ▸ hmem), hid⟩

theorem mem_insertModel {p : Parser} {N M : Model} :
    M ∈ (p.insertModel N).modelList ↔ M = N ∨ (M ∈ p.modelList ∧ M.identity ≠ N.identity) := by
  rw [mem_modelList, mem_modelList]
  simp only [insertModel, Roster.mem_insert, Prod.mk.injEq]
  constructor
  · rintro (⟨-, rfl⟩ | ⟨hM, hne⟩)
    · exact .inl rfl
    · exact .inr ⟨hM, hne⟩
  · rintro (rfl | ⟨hM, hne⟩)
    · exact .inl ⟨rfl, rfl⟩
    · exact .inr ⟨hM, hne⟩

theorem mem_keys_insertModel {p : Parser} {N : Model} {X : String} :
    X ∈ (p.insertModel N).models.keys ↔ X = N.identity ∨ X ∈ p.models.keys := by
  rw [mem_keys, mem_keys]
  constructor
  · rintro ⟨M, hM, rfl⟩
    rcases mem_insertModel.1 hM with rfl | ⟨hM, -⟩
    · exact .inl rfl
    · exact .inr ⟨M, hM, rfl⟩
  · rintro (rfl | ⟨M, hM, rfl⟩)
    · exact ⟨N, mem_insertModel.2 (.inl rfl), rfl⟩
    · by_cases hsame : M.identity = N.identity
      · exact ⟨N, mem_insertModel.2 (.inl rfl), hsame.symm⟩
      · exact ⟨M, mem_insertModel.2 (.inr ⟨hM, hsame⟩), rfl⟩

theorem mem_eraseModel {p : Parser} {X : String} {M : Model} :
    M ∈ (p.eraseModel X).modelList ↔ M ∈ p.modelList ∧ M.identity ≠ X := by
  rw [mem_modelList, mem_modelList]
  simp [eraseModel, Roster.mem_erase]

theorem mem_keys_eraseModel {p : Parser} {X Y : String} :
    Y ∈ (p.eraseModel X).models.keys ↔ Y ∈ p.models.keys ∧ Y ≠ X := by
  rw [mem_keys, mem_keys]
  constructor
  · rintro ⟨M, hM, rfl⟩
    obtain ⟨hM, hne⟩ := mem_eraseModel.1 hM
    exact ⟨⟨M, hM, rfl⟩, hne⟩
  · rintro ⟨⟨M, hM, rfl⟩, hne⟩
    exact ⟨M, mem_eraseModel.2 ⟨hM, hne⟩, rfl⟩

theorem readMetadata_apply (cls : ComponentClass) (s : ParseState) :
    readMetadata cls s = .ok (s.cache.read cls).1 { s with cache := (s.cache.read cls).2 } := rfl

theorem processNew_inv {catalog : Catalog} {fuel : Nat} {cls : ComponentClass}
    {m : ClassMetadata} {componentName : Option String} {importer : Option ClassMetadata}
    {path : List String} {s t : ParseState}
    (h : processNew catalog fuel cls m componentName importer path s = .ok () t) :
    ∃ u, processImports catalog fuel m (path ++ [m.className]) m.imports s = .ok () u ∧
      t = { u with parser := u.parser.insertModel (addScans catalog
        { Model.ofClass cls m componentName with importedBy := (importer.map (·.className)).toList }) } := by
  rw [processNew] at h
  obtain ⟨_, u, himports, h⟩ := bind_eq_ok h
  rw [modify_apply, EStateM.Result.ok.injEq] at h
  exact ⟨u, himports, h.2.symm⟩

theorem processImports_nil {catalog : Catalog} {fuel : Nat} {m : ClassMetadata}
    {path : List String} {s t : ParseState}
    (h : processImports catalog fuel m path [] s = .ok () t) : t = s := by
  rw [processImports, pure_apply, EStateM.Result.ok.injEq] at h
  exact h.2.symm

theorem processImports_cons {catalog : Catalog} {fuel : Nat} {m : ClassMetadata}
    {path : List String} {target : String} {rest : List String} {s t : ParseState}
    (h : processImports catalog fuel m path (target :: rest) s = .ok () t) :
    ∃ resolved fuel' u, catalog.resolve? target = some resolved ∧ fuel = fuel' + 1 ∧
      process catalog fuel' resolved none (some m) path
        { s with parser := { s.parser with imports := s.parser.imports.register target m } } =
          .ok () u ∧
      processImports catalog fuel m path rest u = .ok () t := by
  rw [processImports] at h
  split at h
  · obtain ⟨_, _, hthrow, -⟩ := bind_eq_ok h
    cases hthrow
  · dsimp only at h
    cases hresolved : catalog.resolve? target with
    | none =>
      simp only [hresolved, throw_apply] at h
      cases h
    | some resolved =>
      simp only [hresolved] at h
      obtain ⟨_, u₀, hmodify, h⟩ := bind_eq_ok h
      rw [modify_apply, EStateM.Result.ok.injEq] at hmodify
      obtain ⟨-, rfl⟩ := hmodify
      cases fuel with
      | zero =>
        obtain ⟨_, _, hthrow, -⟩ := bind_eq_ok h
        cases hthrow
      | succ fuel' =>
        obtain ⟨_, u, hprocess, hrest⟩ := bind_eq_ok h
        exact ⟨resolved, fuel', u, rfl, rfl, hprocess, hrest⟩

end Parser

namespace ParseState

variable (catalog : Catalog)

/-- What every parse state reached from the empty parser satisfies: a model without a component
name, and every class a model scanned, come from the catalog, and a model's metadata is what the
cache answers for its identity. -/
structure Sound (s : ParseState) : Prop where
  imported_catalog : ∀ M ∈ s.parser.modelList, M.componentName = none → M.cls ∈ catalog.classes
  scanned_catalog : ∀ M ∈ s.parser.modelList, ∀ k ∈ M.scanned, k ∈ catalog.classes
  cached : ∀ M ∈ s.parser.modelList, s.cache.entries.get? M.identity = some M.metadata

/-- The imports the cache answers for an identity all resolve to catalog classes whose
identities are parsed. -/
def ImportsParsed (s : ParseState) (X : String) : Prop :=
  ∃ m, s.cache.entries.get? X = some m ∧
    ∀ target ∈ m.imports, ∃ k, catalog.resolve? target = some k ∧ k.userName ∈ s.parser.models.keys

/-- How parsing moves a state: no identity is lost, the cache keeps its answers, and each new
identity has its imports parsed. -/
structure Grows (s t : ParseState) : Prop where
  keys_subset : ∀ X ∈ s.parser.models.keys, X ∈ t.parser.models.keys
  cache_extends : s.cache.Extends t.cache
  new_imports : ∀ X ∈ t.parser.models.keys, X ∈ s.parser.models.keys ∨ ImportsParsed catalog t X

variable {catalog}

theorem ImportsParsed.mono {s t : ParseState} {X : String} (h : ImportsParsed catalog s X)
    (hcache : s.cache.Extends t.cache)
    (hkeys : ∀ Y ∈ s.parser.models.keys, Y ∈ t.parser.models.keys) : ImportsParsed catalog t X := by
  obtain ⟨m, hm, himports⟩ := h
  refine ⟨m, hcache _ _ hm, fun target htarget => ?_⟩
  obtain ⟨k, hk, hparsed⟩ := himports target htarget
  exact ⟨k, hk, hkeys _ hparsed⟩

theorem Grows.refl (s : ParseState) : s.Grows catalog s :=
  ⟨fun _ h => h, .refl _, fun _ h => .inl h⟩

theorem Grows.trans {s u t : ParseState} (h₁ : s.Grows catalog u) (h₂ : u.Grows catalog t) :
    s.Grows catalog t := by
  refine ⟨fun X hX => h₂.keys_subset X (h₁.keys_subset X hX),
    h₁.cache_extends.trans h₂.cache_extends, fun X hX => ?_⟩
  rcases h₂.new_imports X hX with hu | hnew
  · rcases h₁.new_imports X hu with hs | hnew
    · exact .inl hs
    · exact .inr (hnew.mono h₂.cache_extends h₂.keys_subset)
  · exact .inr hnew

theorem Sound.mono {s t : ParseState} (hs : s.Sound catalog)
    (hsub : ∀ M ∈ t.parser.modelList, M ∈ s.parser.modelList) (hcache : s.cache.Extends t.cache) :
    t.Sound catalog :=
  ⟨fun M hM => hs.imported_catalog M (hsub M hM), fun M hM => hs.scanned_catalog M (hsub M hM),
    fun M hM => hcache _ _ (hs.cached M (hsub M hM))⟩

end ParseState

namespace Parser

open ParseState

variable {catalog : Catalog}

theorem mem_of_resolve? {catalog : Catalog} {target : String} {k : ComponentClass}
    (h : catalog.resolve? target = some k) : k ∈ catalog.classes :=
  List.mem_of_find?_eq_some h

end Parser

end Wiring
