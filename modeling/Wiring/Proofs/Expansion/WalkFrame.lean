import Mathlib.Logic.Relation
import Wiring.Proofs.Expansion.ImportCycles

namespace Wiring

/-! What an import walk keeps. A parse changes its state in four ways only: it reads a class's
metadata, adds an importer to an imported model, records an import, and stores the model of a
class whose parse began without one once the class's imports are parsed. `Parser.WalkFrame` says
what a relation must keep across each of these; a relation that does is kept by every import
walk on every outcome and at every depth budget, by a candidate's parse and by a whole parse
call. The metadata cache is the first such relation: it only ever gains answers. -/

namespace Parser

variable {catalog : Catalog}

/-! ### One walk into a class -/

/-- An import of a class whose identity is modelled parses nothing: it reads the class's metadata
and adds the importer last to the model when the model is imported and does not list it yet; a
model registered directly is left as it is. -/
theorem process_modelled_eq {fuel : Nat} {cls : ComponentClass} {cn : Option String}
    {imp : ClassMetadata} {path : List String} {s : ParseState} {M : Model}
    (hM : s.parser.models.get? cls.userName = some M) :
    process catalog fuel cls cn (some imp) path s =
      .ok ()
        { parser := if M.isImported = true ∧ imp.className ∉ M.importedBy then
            s.parser.insertModel { M with importedBy := M.importedBy ++ [imp.className] }
          else s.parser
          cache := (s.cache.read cls).2 } := by
  rw [process]
  simp only [bind_apply, readMetadata_apply, get_apply, MetadataCache.read_className, hM]
  by_cases hadd : M.isImported = true ∧ imp.className ∉ M.importedBy
  · have hcond : (M.isImported && !M.importedBy.contains imp.className) = true := by
      simpa [List.contains_iff_mem] using hadd
    rw [if_pos hcond, if_pos hadd]
    rfl
  · have hcond : (M.isImported && !M.importedBy.contains imp.className) = false := by
      simpa [List.contains_iff_mem] using hadd
    rw [if_neg (Bool.eq_false_iff.1 hcond), if_neg hadd]
    rfl

theorem unmodelled_of_process_modelled {fuel : Nat} {cls : ComponentClass} {cn : Option String}
    {imp : ClassMetadata} {path : List String} {s t : ParseState} {M : Model}
    (hM : s.parser.models.get? cls.userName = some M)
    (h : process catalog fuel cls cn (some imp) path s = .ok () t) {Y : String}
    (hY : s.parser.models.get? Y = none) : t.parser.models.get? Y = none := by
  rw [process_modelled_eq hM, EStateM.Result.ok.injEq] at h
  obtain ⟨-, rfl⟩ := h
  dsimp only
  split
  · -- the model changed is that of the class's identity, which is not `Y`
    have hne : Y ≠ M.identity := by
      rw [(mem_of_get? hM).2]
      rintro rfl
      rw [hY] at hM
      cases hM
    show (s.parser.models.insert M.identity _).get? Y = none
    rw [Roster.get?_insert, if_neg hne]
    exact hY
  · exact hY

theorem processImports_zero_cons (m : ClassMetadata) (path : List String) (target : String)
    (rest : List String) (s : ParseState) :
    ∃ e, processImports catalog 0 m path (target :: rest) s = .error e s ∨
      processImports catalog 0 m path (target :: rest) s =
        .error e { s with parser := { s.parser with imports := s.parser.imports.register target m } } := by
  rw [processImports]
  by_cases hon : path.contains target = true
  · simp only [hon, if_true, bind_apply, throw_apply]
    exact ⟨_, .inl rfl⟩
  · simp only [hon, Bool.false_eq_true, if_false]
    cases catalog.resolve? target with
    | none => exact ⟨_, .inl rfl⟩
    | some k => exact ⟨_, .inr rfl⟩

theorem get?_read_className (s : ParseState) (cls : ComponentClass) :
    (s.cache.read cls).2.entries.get? (s.cache.read cls).1.className = some (s.cache.read cls).1 := by
  rw [MetadataCache.read_className]
  exact MetadataCache.get?_read s.cache cls

/-! ### Relations kept by a walk -/

/-- A relation kept by every change an import walk makes: reading metadata, adding an importer to
an imported model that does not list it, recording an import, and storing the model of a class
whose identity had no model when its parse began (related to the state that parse began in,
where the class's metadata was cached, and after its imports were parsed successfully). -/
structure WalkFrame (catalog : Catalog) (R : ParseState → ParseState → Prop) : Prop where
  read : ∀ s cls, R s { s with cache := (s.cache.read cls).2 }
  addImporter : ∀ (s : ParseState) X M importer, s.parser.models.get? X = some M →
    M.isImported = true → importer ∉ M.importedBy →
    R s { s with parser := s.parser.insertModel { M with importedBy := M.importedBy ++ [importer] } }
  register : ∀ (s : ParseState) target m,
    R s { s with parser := { s.parser with imports := s.parser.imports.register target m } }
  store : ∀ fuel (s u : ParseState) cls (m : ClassMetadata) imp path,
    s.parser.models.get? m.className = none → s.cache.entries.get? m.className = some m →
    processImports catalog fuel m (path ++ [m.className]) m.imports s = .ok () u → R s u →
    R s { u with parser := u.parser.insertModel (freshModel catalog cls m none (some imp)) }

section Walk

variable {R : ParseState → ParseState → Prop} [Trans R R R]

theorem WalkFrame.keeps_process (hw : WalkFrame catalog R) {fuel : Nat}
    (himports : ∀ m path targets, Keeps R (processImports catalog fuel m path targets))
    (cls : ComponentClass) (imp : ClassMetadata) (path : List String) :
    Keeps R (process catalog fuel cls none (some imp) path) := by
  intro s
  cases hM : s.parser.models.get? cls.userName with
  | some M =>
    rw [process_modelled_eq hM, endState_ok]
    split
    · rename_i hadd
      exact Trans.trans (hw.read s cls)
        (hw.addImporter { s with cache := (s.cache.read cls).2 } _ M _ hM hadd.1 hadd.2)
    · exact hw.read s cls
  | none =>
    -- a class without a model is parsed afresh: its imports, then its model
    have hnone : s.parser.models.get? (s.cache.read cls).1.className = none := by
      rw [MetadataCache.read_className]
      exact hM
    rw [process_unmodelled hM, processNew_apply, bind_apply]
    cases hrun : processImports catalog fuel (s.cache.read cls).1
        (path ++ [(s.cache.read cls).1.className]) (s.cache.read cls).1.imports
        { s with cache := (s.cache.read cls).2 } with
    | ok _ u =>
      dsimp only
      rw [modify_apply, endState_ok]
      exact Trans.trans (hw.read s cls) (hw.store fuel _ u cls _ imp path hnone
        (get?_read_className s cls) hrun ((himports _ _ _).of_ok hrun))
    | error e u =>
      dsimp only
      rw [endState_error]
      exact Trans.trans (hw.read s cls) ((himports _ _ _).of_error hrun)

theorem WalkFrame.keeps_processImports [Std.Refl R] (hw : WalkFrame catalog R) (fuel : Nat) :
    ∀ m path targets, Keeps R (processImports catalog fuel m path targets) := by
  induction fuel with
  | zero =>
    intro m path targets s
    cases targets with
    | nil =>
      rw [processImports, pure_apply, endState_ok]
      exact Std.Refl.refl s
    | cons target rest =>
      obtain ⟨e, h | h⟩ := @processImports_zero_cons catalog m path target rest s
      · rw [h, endState_error]
        exact Std.Refl.refl s
      · rw [h, endState_error]
        exact hw.register s target m
  | succ fuel ih =>
    intro m path targets
    induction targets with
    | nil =>
      intro s
      rw [processImports, pure_apply, endState_ok]
      exact Std.Refl.refl s
    | cons target rest ihrest =>
      intro s
      rw [processImports_cons_apply]
      split
      · exact Std.Refl.refl s
      · split
        · exact Std.Refl.refl s
        · rename_i k _
          -- the import is recorded, its class walked one level down, then the rest
          exact Trans.trans (hw.register s target m)
            (Keeps.bind (hw.keeps_process ih k m path) (fun _ => ihrest) _)

theorem WalkFrame.keeps_candidate [Std.Refl R] (hw : WalkFrame catalog R) (fuel : Nat)
    (cls : ComponentClass) (name : String)
    (herase : ∀ s : ParseState, cls.userName ∈ s.parser.models.keys →
      R s { s with parser := s.parser.eraseModel cls.userName })
    (hstore : ∀ (s u : ParseState) (m : ClassMetadata), m.className = cls.userName →
      s.parser.models.get? m.className = none → s.cache.entries.get? m.className = some m →
      processImports catalog fuel m ([] ++ [m.className]) m.imports s = .ok () u → R s u →
      R s { u with parser := u.parser.insertModel (freshModel catalog cls m (some name) none) }) :
    Keeps R (process catalog fuel cls (some name) none []) := by
  have hnew : ∀ s : ParseState, s.parser.models.get? cls.userName = none →
      R s (endState (processNew catalog fuel cls (s.cache.read cls).1 (some name) none []
        { s with cache := (s.cache.read cls).2 })) := by
    intro s hnone
    have hm := MetadataCache.read_className s.cache cls
    rw [processNew_apply, bind_apply]
    cases hrun : processImports catalog fuel (s.cache.read cls).1
        ([] ++ [(s.cache.read cls).1.className]) (s.cache.read cls).1.imports
        { s with cache := (s.cache.read cls).2 } with
    | ok _ u =>
      dsimp only
      rw [modify_apply, endState_ok]
      exact Trans.trans (hw.read s cls) (hstore _ u _ hm (hm ▸ hnone) (get?_read_className s cls)
        hrun ((hw.keeps_processImports fuel _ _ _).of_ok hrun))
    | error e u =>
      dsimp only
      rw [endState_error]
      exact Trans.trans (hw.read s cls) ((hw.keeps_processImports fuel _ _ _).of_error hrun)
  intro s
  cases hmodel : s.parser.models.get? cls.userName with
  | none =>
    rw [process_unmodelled hmodel]
    exact hnew s hmodel
  | some M =>
    -- the old model of the identity is dropped first
    rw [process_replace hmodel]
    have herased : (s.parser.eraseModel cls.userName).models.get? cls.userName = none := by
      show (s.parser.models.erase cls.userName).get? cls.userName = none
      rw [Roster.get?_erase, if_pos rfl]
    exact Trans.trans (herase s (Roster.mem_keys_iff.2 ⟨M, hmodel⟩))
      (hnew { s with parser := s.parser.eraseModel cls.userName } herased)

end Walk

/-! ### Parse calls -/

theorem parse_nil_apply (h : (([] : List (String × Definition)).map (·.1)).Nodup)
    (s : ParseState) : parse catalog ⟨⟨[], h⟩⟩ s = .ok () s := rfl

theorem parse_cons_eq (name : String) (d : Definition) (rest : List (String × Definition))
    (h : (((name, d) :: rest).map (·.1)).Nodup) :
    parse catalog ⟨⟨(name, d) :: rest, h⟩⟩ =
      (process catalog (catalog.size + 1) d.cls (some name) none [] >>= fun _ =>
        parse catalog ⟨⟨rest, (List.nodup_cons.1 h).2⟩⟩) := rfl

theorem keeps_parse {R : ParseState → ParseState → Prop} [Std.Refl R] [Trans R R R]
    (candidates : CandidateSet)
    (h : ∀ e ∈ candidates.entries.entries,
      Keeps R (process catalog (catalog.size + 1) e.2.cls (some e.1) none [])) :
    Keeps R (parse catalog candidates) := by
  obtain ⟨⟨es, hes⟩⟩ := candidates
  induction es with
  | nil =>
    intro s
    rw [parse_nil_apply, endState_ok]
    exact Std.Refl.refl s
  | cons e rest ih =>
    obtain ⟨name, d⟩ := e
    rw [parse_cons_eq]
    exact Keeps.bind (h _ List.mem_cons_self) fun _ =>
      ih _ fun e he => h e (List.mem_cons_of_mem _ he)

/-! ### The metadata cache -/

def CacheGrows (s t : ParseState) : Prop :=
  s.cache.Extends t.cache

instance : Std.Refl CacheGrows := ⟨fun s => MetadataCache.Extends.refl s.cache⟩

instance : Trans CacheGrows CacheGrows CacheGrows := ⟨MetadataCache.Extends.trans⟩

theorem walkFrame_cacheGrows : WalkFrame catalog CacheGrows where
  read s cls := MetadataCache.extends_read s.cache cls
  addImporter s _ _ _ _ _ _ := MetadataCache.Extends.refl s.cache
  register s _ _ := MetadataCache.Extends.refl s.cache
  store _ _ _ _ _ _ _ _ _ _ hsu := hsu

theorem cacheGrows_processImports (fuel : Nat) (m : ClassMetadata) (path targets : List String) :
    Keeps CacheGrows (processImports catalog fuel m path targets) :=
  walkFrame_cacheGrows.keeps_processImports fuel m path targets

theorem cacheGrows_process (fuel : Nat) (cls : ComponentClass) (imp : ClassMetadata)
    (path : List String) : Keeps CacheGrows (process catalog fuel cls none (some imp) path) :=
  walkFrame_cacheGrows.keeps_process (cacheGrows_processImports fuel) cls imp path

end Parser

end Wiring
