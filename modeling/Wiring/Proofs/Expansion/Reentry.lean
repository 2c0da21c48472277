import Wiring.Proofs.Expansion.WalkFrame

namespace Wiring

/-! A parse never stores a model for an identity it is still parsing. Import names of different
classes can share a user name, so the stack that refuses circular imports does not see every way
back into a class; what does is that a class is parsed afresh only while its identity has no
model. Identities importing one another (`Parser.Closed`) can never be parsed successfully, so
the identities being parsed (`Parser.Open`) stay without models on every outcome. -/

namespace Parser

variable {catalog : Catalog}

def Leads (catalog : Catalog) (cache : MetadataCache) (Y Z : String) : Prop :=
  ∃ m, cache.entries.get? Y = some m ∧
    ∃ target ∈ m.imports, ∃ k, catalog.resolve? target = some k ∧ k.userName = Z

theorem Leads.mono {c c' : MetadataCache} {Y Z : String} (h : Leads catalog c Y Z)
    (hc : c.Extends c') : Leads catalog c' Y Z := by
  obtain ⟨m, hm, rest⟩ := h
  exact ⟨m, hc Y m hm, rest⟩

theorem leads_of_import {cache : MetadataCache} {m : ClassMetadata} {target : String}
    {k : ComponentClass} (hm : cache.entries.get? m.className = some m) (ht : target ∈ m.imports)
    (hk : catalog.resolve? target = some k) : Leads catalog cache m.className k.userName :=
  ⟨m, hm, target, ht, k, hk, rfl⟩

/-! ### Closed sets of identities -/

/-- Identities without a model, each of which leads to another of them. -/
structure Closed (catalog : Catalog) (s : ParseState) (C : List String) : Prop where
  free : ∀ Y ∈ C, s.parser.models.get? Y = none
  next : ∀ Y ∈ C, ∃ Z ∈ C, Leads catalog s.cache Y Z

section Closed

variable {s t : ParseState} {C : List String}

theorem Closed.mono (h : Closed catalog s C) (hcache : CacheGrows s t)
    (hfree : ∀ Y ∈ C, t.parser.models.get? Y = none) : Closed catalog t C :=
  ⟨hfree, fun Y hY => by
    obtain ⟨Z, hZ, hlead⟩ := h.next Y hY
    exact ⟨Z, hZ, hlead.mono hcache⟩⟩

theorem Closed.read (h : Closed catalog s C) (cls : ComponentClass) :
    Closed catalog { s with cache := (s.cache.read cls).2 } C :=
  h.mono (MetadataCache.extends_read s.cache cls) h.free

theorem Closed.register (h : Closed catalog s C) (target : String) (m : ClassMetadata) :
    Closed catalog
      { s with parser := { s.parser with imports := s.parser.imports.register target m } } C :=
  ⟨h.free, h.next⟩

theorem Closed.import_into (h : Closed catalog s C) {m : ClassMetadata} (hY : m.className ∈ C)
    (hm : s.cache.entries.get? m.className = some m) :
    ∃ target ∈ m.imports, ∃ k, catalog.resolve? target = some k ∧ k.userName ∈ C := by
  obtain ⟨Z, hZ, m', hm', target, ht, k, hk, rfl⟩ := h.next _ hY
  rw [hm] at hm'
  cases hm'
  exact ⟨target, ht, k, hk, hZ⟩

end Closed

def ClosedImports (catalog : Catalog) (fuel : Nat) : Prop :=
  ∀ (C : List String) (m : ClassMetadata) (path targets : List String) (s t : ParseState),
    Closed catalog s C → processImports catalog fuel m path targets s = .ok () t →
    Closed catalog t C

def ClosedBlocks (catalog : Catalog) (fuel : Nat) : Prop :=
  ∀ (C : List String) (m : ClassMetadata) (path targets : List String) (s t : ParseState),
    Closed catalog s C →
    (∃ target ∈ targets, ∃ k, catalog.resolve? target = some k ∧ k.userName ∈ C) →
    processImports catalog fuel m path targets s ≠ .ok () t

def ClosedProcess (catalog : Catalog) (fuel : Nat) : Prop :=
  ∀ (C : List String) (cls : ComponentClass) (imp : ClassMetadata) (path : List String)
    (s t : ParseState), Closed catalog s C →
    process catalog fuel cls none (some imp) path s = .ok () t → Closed catalog t C

theorem Closed.process_ne_ok {fuel : Nat} (hblocks : ClosedBlocks catalog fuel) {C : List String}
    {s : ParseState} (hs : Closed catalog s C) {cls : ComponentClass} (hin : cls.userName ∈ C)
    (cn : Option String) (imp : Option ClassMetadata) (path : List String) (t : ParseState) :
    process catalog fuel cls cn imp path s ≠ .ok () t := by
  intro h
  rw [process_unmodelled (hs.free _ hin)] at h
  obtain ⟨u, hrun, -⟩ := processNew_inv h
  have hin' : (s.cache.read cls).1.className ∈ C := by
    rw [MetadataCache.read_className]
    exact hin
  exact hblocks C _ _ _ _ _ (hs.read cls)
    ((hs.read cls).import_into hin' (get?_read_className s cls)) hrun

theorem closedImports {fuel : Nat}
    (hprocess : ∀ fuel', fuel = fuel' + 1 → ClosedProcess catalog fuel') :
    ClosedImports catalog fuel := by
  intro C m path targets
  induction targets with
  | nil =>
    intro s t hs h
    rw [processImports_nil h]
    exact hs
  | cons target rest ih =>
    intro s t hs h
    obtain ⟨k, fuel', u, -, rfl, hrun, hrest⟩ := processImports_cons h
    exact ih u t (hprocess fuel' rfl C k m path _ u (hs.register target m) hrun) hrest

theorem closedBlocks {fuel : Nat}
    (hprev : ∀ fuel', fuel = fuel' + 1 → ClosedBlocks catalog fuel' ∧ ClosedProcess catalog fuel') :
    ClosedBlocks catalog fuel := by
  intro C m path targets
  induction targets with
  | nil =>
    intro s t _ hinto
    obtain ⟨_, hmem, -⟩ := hinto
    exact absurd hmem List.not_mem_nil
  | cons target rest ih =>
    intro s t hs hinto h
    obtain ⟨k, fuel', u, hk, rfl, hrun, hrest⟩ := processImports_cons h
    obtain ⟨hblocks, hprocess⟩ := hprev fuel' rfl
    have hreg := hs.register target m
    obtain ⟨target', ht', k', hk', hin⟩ := hinto
    rcases List.mem_cons.1 ht' with rfl | ht'
    · -- this import enters the set, and the walk into it cannot finish
      rw [hk] at hk'
      cases hk'
      exact hreg.process_ne_ok hblocks hin _ _ _ _ hrun
    · exact ih u t (hprocess C k m path _ u hreg hrun) ⟨target', ht', k', hk', hin⟩ hrest

theorem closedProcess {fuel : Nat} (himports : ClosedImports catalog fuel)
    (hblocks : ClosedBlocks catalog fuel) : ClosedProcess catalog fuel := by
  intro C cls imp path s t hs h
  cases hM : s.parser.models.get? cls.userName with
  | some M =>
    exact hs.mono ((cacheGrows_process fuel cls imp path).of_ok h)
      fun Y hY => unmodelled_of_process_modelled hM h (hs.free Y hY)
  | none =>
    -- the walk succeeded, so the identity is none of the set
    have hout : cls.userName ∉ C := fun hin => hs.process_ne_ok hblocks hin _ _ _ _ h
    rw [process_unmodelled hM] at h
    obtain ⟨u, hrun, rfl⟩ := processNew_inv h
    have hu : Closed catalog u C := himports C _ _ _ _ _ (hs.read cls) hrun
    refine hu.mono (MetadataCache.Extends.refl _) fun Y hY => ?_
    have hne : Y ≠ (s.cache.read cls).1.className := by
      rw [MetadataCache.read_className]
      rintro rfl
      exact hout hY
    show (u.parser.models.insert (s.cache.read cls).1.className _).get? Y = none
    rw [Roster.get?_insert, if_neg hne]
    exact hu.free Y hY

theorem closedBlocks_all (fuel : Nat) : ClosedBlocks catalog fuel ∧ ClosedProcess catalog fuel := by
  induction fuel with
  | zero =>
    have hblocks : ClosedBlocks catalog 0 := closedBlocks fun _ h => absurd h (by omega)
    exact ⟨hblocks, closedProcess (closedImports fun _ h => absurd h (by omega)) hblocks⟩
  | succ fuel ih =>
    have hprev : ∀ fuel', fuel + 1 = fuel' + 1 →
        ClosedBlocks catalog fuel' ∧ ClosedProcess catalog fuel' := fun fuel' h => by
      obtain rfl : fuel = fuel' := by omega
      exact ih
    have hblocks : ClosedBlocks catalog (fuel + 1) := closedBlocks hprev
    exact ⟨hblocks, closedProcess (closedImports fun fuel' h => (hprev fuel' h).2) hblocks⟩

/-! ### Identities being parsed -/

/-- Identities being parsed, `top` the innermost: none has a model, and each but `top` leads to
another of them, the one parsed inside it. -/
structure Open (catalog : Catalog) (s : ParseState) (S : List String) (top : String) : Prop where
  top_mem : top ∈ S
  free : ∀ Y ∈ S, s.parser.models.get? Y = none
  next : ∀ Y ∈ S, Y ≠ top → ∃ Z ∈ S, Leads catalog s.cache Y Z

section Open

variable {s t : ParseState} {S : List String} {top : String}

theorem Open.mono (h : Open catalog s S top) (hcache : CacheGrows s t)
    (hfree : ∀ Y ∈ S, t.parser.models.get? Y = none) : Open catalog t S top :=
  ⟨h.top_mem, hfree, fun Y hY hne => by
    obtain ⟨Z, hZ, hlead⟩ := h.next Y hY hne
    exact ⟨Z, hZ, hlead.mono hcache⟩⟩

theorem Open.register (h : Open catalog s S top) (target : String) (m : ClassMetadata) :
    Open catalog
      { s with parser := { s.parser with imports := s.parser.imports.register target m } } S top :=
  ⟨h.top_mem, h.free, h.next⟩

theorem Open.closed (h : Open catalog s S top) {Y : String} (hlead : Leads catalog s.cache top Y)
    (hY : Y ∈ S) : Closed catalog s S :=
  ⟨h.free, fun Z hZ => by
    by_cases htop : Z = top
    · exact ⟨Y, hY, htop ▸ hlead⟩
    · exact h.next Z hZ htop⟩

theorem Open.push (h : Open catalog s S top) {Y : String} (hlead : Leads catalog s.cache top Y)
    (hfree : s.parser.models.get? Y = none) : Open catalog s (Y :: S) Y := by
  refine ⟨List.mem_cons_self, fun Z hZ => ?_, fun Z hZ hne => ?_⟩
  · rcases List.mem_cons.1 hZ with rfl | hZ
    · exact hfree
    · exact h.free Z hZ
  · have hZ : Z ∈ S := (List.mem_cons.1 hZ).resolve_left hne
    by_cases htop : Z = top
    · exact ⟨Y, List.mem_cons_self, htop ▸ hlead⟩
    · obtain ⟨W, hW, hl⟩ := h.next Z hZ htop
      exact ⟨W, List.mem_cons_of_mem _ hW, hl⟩

end Open

/-- At depth budget `fuel`, walking imports of the top of the identities being parsed leaves
them all without models, whatever the outcome. -/
def OpenImports (catalog : Catalog) (fuel : Nat) : Prop :=
  ∀ (S : List String) (m : ClassMetadata) (path targets : List String) (s : ParseState),
    Open catalog s S m.className → s.cache.entries.get? m.className = some m →
    (∀ target ∈ targets, target ∈ m.imports) →
    ∀ Y ∈ S, (endState (processImports catalog fuel m path targets s)).parser.models.get? Y = none

/-- At depth budget `fuel`, a walk into a class the top leads to leaves the identities being
parsed without models, whatever the outcome. -/
def OpenProcess (catalog : Catalog) (fuel : Nat) : Prop :=
  ∀ (S : List String) (m : ClassMetadata) (cls : ComponentClass) (path : List String)
    (s : ParseState), Open catalog s S m.className → Leads catalog s.cache m.className cls.userName →
    ∀ Y ∈ S, (endState (process catalog fuel cls none (some m) path s)).parser.models.get? Y = none

theorem openImports {fuel : Nat} (hprocess : ∀ fuel', fuel = fuel' + 1 → OpenProcess catalog fuel') :
    OpenImports catalog fuel := by
  intro S m path targets
  induction targets with
  | nil =>
    intro s hs _ _
    rw [processImports, pure_apply, endState_ok]
    exact hs.free
  | cons target rest ih =>
    intro s hs hm htargets
    cases fuel with
    | zero =>
      obtain ⟨e, h | h⟩ := @processImports_zero_cons catalog m path target rest s
      · rw [h, endState_error]
        exact hs.free
      · rw [h, endState_error]
        exact hs.free
    | succ fuel' =>
      rw [processImports_cons_apply]
      split
      · exact hs.free
      · split
        · exact hs.free
        · rename_i k hk
          have hreg := hs.register target m
          have hwalk := hprocess fuel' rfl S m k path _ hreg
            (leads_of_import hm (htargets target List.mem_cons_self) hk)
          rw [bind_apply]
          cases hrun : process catalog fuel' k none (some m) path
              { s with parser := { s.parser with imports := s.parser.imports.register target m } } with
          | ok _ u =>
            -- the rest of the imports are walked from where the import left off
            rw [hrun, endState_ok] at hwalk
            have hcache : CacheGrows _ u := (cacheGrows_process fuel' k m path).of_ok hrun
            exact ih u (hreg.mono hcache hwalk) (hcache _ _ hm)
              fun x hx => htargets x (List.mem_cons_of_mem _ hx)
          | error e u =>
            rw [hrun, endState_error] at hwalk
            exact hwalk

theorem openProcess {fuel : Nat} (himports : OpenImports catalog fuel)
    (hblocks : ClosedBlocks catalog fuel) : OpenProcess catalog fuel := by
  intro S m cls path s hs hlead
  cases hM : s.parser.models.get? cls.userName with
  | some M =>
    have hrun : process catalog fuel cls none (some m) path s = _ := process_modelled_eq hM
    rw [hrun, endState_ok]
    exact fun Y hY => unmodelled_of_process_modelled hM hrun (hs.free Y hY)
  | none =>
    -- the class is parsed afresh with its identity on top
    have hidentity := MetadataCache.read_className s.cache cls
    have hread : Open catalog { s with cache := (s.cache.read cls).2 } S m.className :=
      hs.mono (MetadataCache.extends_read s.cache cls) hs.free
    have hlead' : Leads catalog (s.cache.read cls).2 m.className (s.cache.read cls).1.className := by
      rw [hidentity]
      exact hlead.mono (MetadataCache.extends_read s.cache cls)
    have hwalk := himports _ _ (path ++ [(s.cache.read cls).1.className])
      (s.cache.read cls).1.imports _ (hread.push hlead' (by rw [hidentity]; exact hM))
      (get?_read_className s cls) fun _ h => h
    rw [process_unmodelled hM, processNew_apply, bind_apply]
    cases hrun : processImports catalog fuel (s.cache.read cls).1
        (path ++ [(s.cache.read cls).1.className]) (s.cache.read cls).1.imports
        { s with cache := (s.cache.read cls).2 } with
    | ok _ u =>
      rw [hrun, endState_ok] at hwalk
      -- the walk succeeded, so it did not come back to an identity being parsed
      have hout : (s.cache.read cls).1.className ∉ S := fun hin => by
        have hclosed := hread.closed hlead' hin
        exact hblocks S _ _ _ _ _ hclosed (hclosed.import_into hin (get?_read_className s cls)) hrun
      dsimp only
      rw [modify_apply, endState_ok]
      intro Y hY
      have hne : Y ≠ (s.cache.read cls).1.className := fun h => hout (h ▸ hY)
      show (u.parser.models.insert (s.cache.read cls).1.className _).get? Y = none
      rw [Roster.get?_insert, if_neg hne]
      exact hwalk Y (List.mem_cons_of_mem _ hY)
    | error e u =>
      rw [hrun, endState_error] at hwalk
      dsimp only
      rw [endState_error]
      exact fun Y hY => hwalk Y (List.mem_cons_of_mem _ hY)

theorem openImports_all (fuel : Nat) : OpenImports catalog fuel := by
  induction fuel with
  | zero => exact openImports fun _ h => absurd h (by omega)
  | succ fuel ih =>
    refine openImports fun fuel' h => ?_
    obtain rfl : fuel = fuel' := by omega
    exact openProcess ih (closedBlocks_all fuel).1

/-! ### No model for an identity being parsed -/

theorem processImports_keeps_unmodelled (fuel : Nat) (m : ClassMetadata) (path : List String)
    {s : ParseState} (hfree : s.parser.models.get? m.className = none)
    (hm : s.cache.entries.get? m.className = some m) :
    (endState (processImports catalog fuel m path m.imports s)).parser.models.get? m.className =
      none := by
  have hopen : Open catalog s [m.className] m.className :=
    ⟨List.mem_singleton_self _, fun Y hY => List.mem_singleton.1 hY ▸ hfree,
      fun Y hY hne => absurd (List.mem_singleton.1 hY) hne⟩
  exact openImports_all fuel [m.className] m path m.imports s hopen hm (fun _ h => h) m.className
    (List.mem_singleton_self _)

theorem unmodelled_of_processImports_ok {fuel : Nat} {m : ClassMetadata} {path : List String}
    {s u : ParseState} (hfree : s.parser.models.get? m.className = none)
    (hm : s.cache.entries.get? m.className = some m)
    (hrun : processImports catalog fuel m path m.imports s = .ok () u) :
    u.parser.models.get? m.className = none := by
  have hend : (endState (processImports catalog fuel m path m.imports s)).parser.models.get?
      m.className = none := processImports_keeps_unmodelled fuel m path hfree hm
  rw [hrun, endState_ok] at hend
  exact hend

theorem candidate_error_unmodelled {fuel : Nat} {cls : ComponentClass} {name : String}
    {s t : ParseState} {e : BootError} (h : process catalog fuel cls (some name) none [] s = .error e t) :
    t.parser.models.get? cls.userName = none := by
  have hnew : ∀ u : ParseState, u.parser.models.get? cls.userName = none →
      processNew catalog fuel cls (u.cache.read cls).1 (some name) none []
        { u with cache := (u.cache.read cls).2 } = .error e t →
      t.parser.models.get? cls.userName = none := by
    intro u hfree hrun
    have hidentity := MetadataCache.read_className u.cache cls
    have hwalk : (endState (processImports catalog fuel (u.cache.read cls).1
        ([] ++ [(u.cache.read cls).1.className]) (u.cache.read cls).1.imports
        { u with cache := (u.cache.read cls).2 })).parser.models.get?
          (u.cache.read cls).1.className = none :=
      processImports_keeps_unmodelled fuel _ _ (by rw [hidentity]; exact hfree)
        (get?_read_className u cls)
    rw [processNew_apply] at hrun
    rcases bind_eq_error hrun with hfail | ⟨_, v, -, hstore⟩
    · rw [hfail, endState_error, hidentity] at hwalk
      exact hwalk
    · -- storing the model cannot fail
      rw [modify_apply] at hstore
      cases hstore
  cases hmodel : s.parser.models.get? cls.userName with
  | none =>
    rw [process_unmodelled hmodel] at h
    exact hnew s hmodel h
  | some M =>
    rw [process_replace hmodel] at h
    have herased : (s.parser.eraseModel cls.userName).models.get? cls.userName = none := by
      show (s.parser.models.erase cls.userName).get? cls.userName = none
      rw [Roster.get?_erase, if_pos rfl]
    exact hnew { s with parser := s.parser.eraseModel cls.userName } herased h

end Parser

end Wiring
