import Mathlib.Data.List.Nodup
import Wiring.Proofs.Expansion.Reentry

namespace Wiring

/-! The model table of a parser. Every change a parse makes to the table is one of four steps
(`Parser.TableStep`): an importer appended to an imported model, a candidate's model dropped, a
candidate's model stored with its name, an imported model stored with its importer; a model is
stored only under an identity that has none. `parser_model_table` states what this leaves after
every parse, successful or failed. -/

namespace Model

/-- A model registered directly has a component name and no importers; an imported one has
importers and no component name; no importer is listed twice. -/
structure Split (M : Model) : Prop where
  importedBy_eq_nil_iff : M.importedBy = [] ↔ M.componentName.isSome
  nodup : M.importedBy.Nodup

theorem Split.componentName_of_isImported {M : Model} (h : M.Split)
    (himported : M.isImported = true) : M.componentName = none := by
  have hne : M.importedBy ≠ [] := by simpa [isImported] using himported
  rw [← Option.not_isSome_iff_eq_none, ← h.importedBy_eq_nil_iff]
  exact hne

end Model

namespace Parser

/-- What one change of a model table can be. -/
inductive TableStep : Roster Model → Roster Model → Prop
  | addImporter {ms : Roster Model} {X : String} {M : Model} (importer : String) :
      ms.get? X = some M → M.isImported = true → importer ∉ M.importedBy →
      TableStep ms (ms.insert X { M with importedBy := M.importedBy ++ [importer] })
  | drop {ms : Roster Model} {X : String} : X ∈ ms.keys → TableStep ms (ms.erase X)
  /-- A candidate's model is stored with the candidate's name under its identity, which has no
  model. -/
  | storeCandidate {ms : Roster Model} (N : Model) (name : String) :
      N.componentName = some name → N.importedBy = [] → ms.get? N.identity = none →
      TableStep ms (ms.insert N.identity N)
  /-- An imported class's model is stored with the importer that walked into it under its
  identity, which has no model. -/
  | storeImported {ms : Roster Model} (N : Model) (importer : String) :
      N.componentName = none → N.importedBy = [importer] → ms.get? N.identity = none →
      TableStep ms (ms.insert N.identity N)

def SplitTable (ms : Roster Model) : Prop :=
  ∀ M ∈ ms.values, M.Split

theorem splitTable_empty : SplitTable (Roster.empty : Roster Model) := by
  intro M hM
  simp [Roster.empty, Roster.values] at hM

theorem TableStep.splitTable {ms ms' : Roster Model} (hsplit : SplitTable ms)
    (h : TableStep ms ms') : SplitTable ms' := by
  cases h with
  | addImporter importer hM himported hnew =>
    intro N hN
    rcases Roster.mem_values_insert hN with rfl | hN
    · -- the model was imported, so it has no name, and the importer is new to it
      rename_i M
      have hold := hsplit M (Roster.mem_values_of_get? hM)
      have hname := hold.componentName_of_isImported himported
      exact ⟨by simp [hname],
        List.Nodup.append hold.nodup (List.nodup_singleton _) (by simpa using hnew)⟩
    · exact hsplit N hN
  | drop _ => exact fun N hN => hsplit N (Roster.mem_values_erase hN)
  | storeCandidate N name hname himp _ =>
    intro N' hN'
    rcases Roster.mem_values_insert hN' with rfl | hN'
    · exact ⟨by simp [hname, himp], by simp [himp]⟩
    · exact hsplit N' hN'
  | storeImported N importer hname himp _ =>
    intro N' hN'
    rcases Roster.mem_values_insert hN' with rfl | hN'
    · exact ⟨by simp [hname, himp], by simp [himp]⟩
    · exact hsplit N' hN'

theorem splitTable_of_steps {ms ms' : Roster Model} (hsplit : SplitTable ms)
    (h : Relation.ReflTransGen TableStep ms ms') : SplitTable ms' := by
  induction h with
  | refl => exact hsplit
  | tail _ step ih => exact step.splitTable ih

variable {catalog : Catalog}

/-! ### The steps of the table -/

def Stepped (s t : ParseState) : Prop :=
  Relation.ReflTransGen TableStep s.parser.models t.parser.models

instance : Std.Refl Stepped := ⟨fun _ => .refl⟩

instance : Trans Stepped Stepped Stepped := ⟨Relation.ReflTransGen.trans⟩

theorem walkFrame_stepped : WalkFrame catalog Stepped where
  read _ _ := .refl
  addImporter s X M importer hM himported hnew := by
    have hX : M.identity = X := (mem_of_get? hM).2
    show Relation.ReflTransGen TableStep s.parser.models (s.parser.models.insert M.identity _)
    rw [hX]
    exact .single (.addImporter importer hM himported hnew)
  register _ _ _ := .refl
  -- the walk into the class left its identity without a model
  store _ _ _ _ _ imp _ hnone hm hrun hsu :=
    hsu.tail (.storeImported _ imp.className rfl rfl (unmodelled_of_processImports_ok hnone hm hrun))

theorem stepped_candidate (fuel : Nat) (cls : ComponentClass) (name : String) :
    Keeps Stepped (process catalog fuel cls (some name) none []) :=
  walkFrame_stepped.keeps_candidate fuel cls name (fun _ h => .single (.drop h))
    fun _ _ _ _ hnone hm hrun hsu =>
      hsu.tail (.storeCandidate _ name rfl rfl (unmodelled_of_processImports_ok hnone hm hrun))

/-! ### Models of other identities -/

/-- `t` has, under `X`, the model `s` has there with importers possibly appended last; a model
without importers gets none. -/
def AppendsImporters (X : String) (s t : ParseState) : Prop :=
  ∀ M, s.parser.models.get? X = some M → ∃ more,
    t.parser.models.get? X = some { M with importedBy := M.importedBy ++ more } ∧
    (M.isImported = false → more = [])

theorem appendsImporters_of_get? {X : String} {s t : ParseState}
    (h : t.parser.models.get? X = s.parser.models.get? X) : AppendsImporters X s t :=
  fun M hM => ⟨[], by simpa [h] using hM, fun _ => rfl⟩

theorem AppendsImporters.insertModel {X : String} {s u : ParseState} {N : Model}
    (h : AppendsImporters X s u) (hne : s.parser.models.get? X ≠ none → X ≠ N.identity) :
    AppendsImporters X s { u with parser := u.parser.insertModel N } := by
  intro M hM
  have hne := hne (by simp [hM])
  obtain ⟨more, hget, hmore⟩ := h M hM
  refine ⟨more, ?_, hmore⟩
  show (u.parser.models.insert N.identity N).get? X = _
  rw [Roster.get?_insert, if_neg hne]
  exact hget

instance (X : String) : Std.Refl (AppendsImporters X) := ⟨fun _ => appendsImporters_of_get? rfl⟩

instance (X : String) : Trans (AppendsImporters X) (AppendsImporters X) (AppendsImporters X) :=
  ⟨fun h₁ h₂ M hM => by
    obtain ⟨more, hmid, hnone⟩ := h₁ M hM
    obtain ⟨more', hend, hnone'⟩ := h₂ _ hmid
    refine ⟨more ++ more', by simpa using hend, fun himported => ?_⟩
    obtain rfl := hnone himported
    simp [hnone' (by simpa [Model.isImported] using himported)]⟩

theorem walkFrame_appendsImporters (X : String) : WalkFrame catalog (AppendsImporters X) where
  read _ _ := appendsImporters_of_get? rfl
  addImporter s Y M' importer hM' himported _ := by
    intro M hM
    show ∃ more, (s.parser.models.insert M'.identity _).get? X = _ ∧ _
    rw [Roster.get?_insert, (mem_of_get? hM').2]
    by_cases hY : X = Y
    · -- the model added to is the one under `X`
      subst hY
      rw [hM'] at hM
      cases hM
      exact ⟨[importer], by rw [if_pos rfl], fun h => absurd himported (by simp [h])⟩
    · exact ⟨[], by rw [if_neg hY]; simpa using hM, fun _ => rfl⟩
  register _ _ _ := appendsImporters_of_get? rfl
  -- `X` had a model where the new identity had none
  store _ _ _ _ _ _ _ hnone _ _ hsu := hsu.insertModel fun hX hid => hX (hid ▸ hnone)

theorem appendsImporters_candidate (fuel : Nat) (cls : ComponentClass) (name : String)
    {X : String} (hX : cls.userName ≠ X) :
    Keeps (AppendsImporters X) (process catalog fuel cls (some name) none []) := by
  refine (walkFrame_appendsImporters X).keeps_candidate fuel cls name
    (fun s _ => appendsImporters_of_get? ?_) fun s u m hm _ _ _ hsu => ?_
  · show (s.parser.models.erase cls.userName).get? X = _
    rw [Roster.get?_erase, if_neg (Ne.symm hX)]
  · -- the candidate's model goes under its own identity
    exact hsu.insertModel fun _ hid => hX (hm ▸ hid.symm)

theorem candidate_model {fuel : Nat} {cls : ComponentClass} {name : String} {s t : ParseState}
    (h : process catalog fuel cls (some name) none [] s = .ok () t) :
    t.parser.models.get? cls.userName = some (freshModel catalog cls (s.cache.read cls).1 (some name) none) := by
  have hstored : ∀ u : ParseState,
      processNew catalog fuel cls (s.cache.read cls).1 (some name) none [] u = .ok () t →
      t.parser.models.get? cls.userName =
        some (freshModel catalog cls (s.cache.read cls).1 (some name) none) := by
    intro u hrun
    rw [processNew_apply] at hrun
    obtain ⟨_, v, -, hstore⟩ := bind_eq_ok hrun
    rw [modify_apply, EStateM.Result.ok.injEq] at hstore
    rw [← hstore.2]
    show (v.parser.models.insert (s.cache.read cls).1.className _).get? cls.userName = _
    rw [MetadataCache.read_className, Roster.get?_insert, if_pos rfl]
  cases hmodel : s.parser.models.get? cls.userName with
  | none =>
    rw [process_unmodelled hmodel] at h
    exact hstored _ h
  | some M =>
    rw [process_replace hmodel] at h
    exact hstored _ h

/-! ### Parse calls -/

theorem stepped_parse (candidates : CandidateSet) : Keeps Stepped (parse catalog candidates) :=
  keeps_parse candidates fun _ _ => stepped_candidate _ _ _

theorem appendsImporters_parse {X : String} (candidates : CandidateSet)
    (hX : ∀ e ∈ candidates.entries.entries, e.2.cls.userName ≠ X) :
    Keeps (AppendsImporters X) (parse catalog candidates) :=
  keeps_parse candidates fun e he => appendsImporters_candidate _ _ _ (hX e he)

/-- The name the candidates leave on the model of an identity: that of the last candidate of
that identity. -/
def lastCandidateName (es : List (String × Definition)) (X : String) : Option String :=
  (es.reverse.find? (·.2.cls.userName == X)).map (·.1)

theorem lastCandidateName_cons_of_later {name : String} {d : Definition}
    {rest : List (String × Definition)} {X : String} (h : ∃ e ∈ rest, e.2.cls.userName = X) :
    lastCandidateName ((name, d) :: rest) X = lastCandidateName rest X := by
  obtain ⟨e, he, rfl⟩ := h
  obtain ⟨f, hf⟩ := Option.isSome_iff_exists.1
    (List.find?_isSome.2 ⟨e, List.mem_reverse.2 he, by simp⟩ :
      (rest.reverse.find? (·.2.cls.userName == e.2.cls.userName)).isSome)
  simp [lastCandidateName, List.reverse_cons, List.find?_append, hf]

theorem lastCandidateName_cons_of_last {name : String} {d : Definition}
    {rest : List (String × Definition)} (h : ∀ e ∈ rest, e.2.cls.userName ≠ d.cls.userName) :
    lastCandidateName ((name, d) :: rest) d.cls.userName = some name := by
  have hnone : rest.reverse.find? (·.2.cls.userName == d.cls.userName) = none :=
    List.find?_eq_none.2 fun e he => by simpa using h e (List.mem_reverse.1 he)
  simp [lastCandidateName, List.reverse_cons, List.find?_append, hnone]

theorem parse_candidate_models {candidates : CandidateSet} {s t : ParseState}
    (h : parse catalog candidates s = .ok () t) :
    ∀ e ∈ candidates.entries.entries, ∃ M, t.parser.models.get? e.2.cls.userName = some M ∧
      M.importedBy = [] ∧
      M.componentName = lastCandidateName candidates.entries.entries e.2.cls.userName := by
  obtain ⟨⟨es, hes⟩⟩ := candidates
  induction es generalizing s with
  | nil =>
    intro e he
    exact absurd he List.not_mem_nil
  | cons e₀ rest ih =>
    intro e he
    obtain ⟨name, d⟩ := e₀
    rw [parse_cons_eq] at h
    obtain ⟨_, u, hfirst, hrest⟩ := bind_eq_ok h
    by_cases hlater : ∃ e' ∈ rest, e'.2.cls.userName = e.2.cls.userName
    · -- a later candidate of the same identity decides its model
      obtain ⟨e', he', hid⟩ := hlater
      obtain ⟨M, hget, himp, hname⟩ := ih _ hrest e' he'
      refine ⟨M, hid ▸ hget, himp, ?_⟩
      rw [hname, hid]
      exact (lastCandidateName_cons_of_later ⟨e', he', hid⟩).symm
    · -- the first candidate is the last of its identity: its model survives the others
      have hother : ∀ e' ∈ rest, e'.2.cls.userName ≠ e.2.cls.userName :=
        fun e' he' hid => hlater ⟨e', he', hid⟩
      obtain rfl : e = (name, d) := by
        rcases List.mem_cons.1 he with rfl | he
        · rfl
        · exact absurd rfl (hother e he)
      -- the new model has no importers, so the others append none
      obtain ⟨more, hget, hmore⟩ :=
        (appendsImporters_parse _ hother).of_ok hrest _ (candidate_model hfirst)
      obtain rfl := hmore rfl
      exact ⟨_, hget, rfl, (lastCandidateName_cons_of_last hother).symm⟩

theorem parse_error_unmodelled {candidates : CandidateSet} {s t : ParseState} {err : BootError}
    (h : parse catalog candidates s = .error err t) :
    ∃ e ∈ candidates.entries.entries, t.parser.models.get? e.2.cls.userName = none := by
  obtain ⟨⟨es, hes⟩⟩ := candidates
  induction es generalizing s with
  | nil =>
    rw [parse_nil_apply] at h
    cases h
  | cons e₀ rest ih =>
    obtain ⟨name, d⟩ := e₀
    rw [parse_cons_eq] at h
    rcases bind_eq_error h with hfirst | ⟨_, u, -, hrest⟩
    · exact ⟨(name, d), List.mem_cons_self, candidate_error_unmodelled hfirst⟩
    · obtain ⟨e, he, hnone⟩ := ih _ hrest
      exact ⟨e, List.mem_cons_of_mem _ he, hnone⟩

end Parser

namespace ParseState

/-- The state after parse calls on one parser, each made from the state the one before ended
in, whether it succeeded or failed. -/
def afterCalls (catalog : Catalog) (s : ParseState) (calls : List CandidateSet) : ParseState :=
  calls.foldl (fun s candidates => endState (Parser.parse catalog candidates s)) s

end ParseState

namespace Parser

variable {catalog : Catalog}

theorem splitTable_afterCalls (s : ParseState) (hs : SplitTable s.parser.models)
    (calls : List CandidateSet) : SplitTable (s.afterCalls catalog calls).parser.models := by
  induction calls generalizing s with
  | nil => exact hs
  | cons candidates rest ih => exact ih _ (splitTable_of_steps hs (stepped_parse candidates s))

/-- The model table across any parse calls on one parser, each from the state the one before
ended in, successful or not: in every state the parser reaches,
* it holds at most one model per identity, each under its own identity;
* a model has a component name exactly when it has no importers, and lists no importer twice;
* the next call changes the table by steps only (`TableStep`): an importer added last to an
  imported model that does not list it, a candidate's identity dropped, a candidate's model
  stored with its name, an imported class's model stored with its one importer, each stored
  under an identity that has no model;
* whatever its outcome, the next call keeps the model of every identity none of its candidates
  has, except that importers may be appended last to an imported one;
* when the next call succeeds, each candidate's identity has a model with no importers and the
  name of the last candidate of that identity; when it fails, the identity of the candidate it
  failed on has no model;
* a walk into a class whose identity has a model adds the importer last to that model when it is
  imported and does not list it, and changes no model otherwise. -/
theorem parser_model_table (catalog : Catalog) (cache : MetadataCache)
    (calls : List CandidateSet) (candidates : CandidateSet) :
    let s := ParseState.afterCalls catalog ⟨Parser.empty, cache⟩ calls
    let r := parse catalog candidates s
    (s.parser.models.keys.Nodup ∧ ∀ e ∈ s.parser.models.entries, e.2.identity = e.1) ∧
    (∀ M ∈ s.parser.modelList, M.Split) ∧
    Relation.ReflTransGen TableStep s.parser.models (endState r).parser.models ∧
    (∀ X M, s.parser.models.get? X = some M →
      (∀ e ∈ candidates.entries.entries, e.2.cls.userName ≠ X) → ∃ more,
        (endState r).parser.models.get? X = some { M with importedBy := M.importedBy ++ more } ∧
        (M.isImported = false → more = [])) ∧
    (∀ t, r = .ok () t → ∀ e ∈ candidates.entries.entries, ∃ M,
      t.parser.models.get? e.2.cls.userName = some M ∧ M.importedBy = [] ∧
        M.componentName = lastCandidateName candidates.entries.entries e.2.cls.userName) ∧
    (∀ err t, r = .error err t →
      ∃ e ∈ candidates.entries.entries, t.parser.models.get? e.2.cls.userName = none) ∧
    (∀ fuel cls cn (imp : ClassMetadata) path (u : ParseState) M,
      u.parser.models.get? cls.userName = some M →
      process catalog fuel cls cn (some imp) path u =
        .ok ()
          { parser := if M.isImported = true ∧ imp.className ∉ M.importedBy then
              u.parser.insertModel { M with importedBy := M.importedBy ++ [imp.className] }
            else u.parser
            cache := (u.cache.read cls).2 }) := by
  intro s r
  exact ⟨⟨s.parser.models.keys_nodup, s.parser.keyed⟩,
    splitTable_afterCalls _ splitTable_empty calls, stepped_parse candidates s,
    fun _ M hM hother => appendsImporters_parse candidates hother s M hM,
    fun _ ht => parse_candidate_models ht, fun _ _ ht => parse_error_unmodelled ht,
    fun _ _ _ _ _ _ _ hM => process_modelled_eq hM⟩

end Parser

end Wiring
