import Wiring.Proofs.Creation.Interception
import Wiring.Configuration.Load

/-! Factory methods of a built class. Declarations are looked up by method name, the first of that
name winning, while bodies are filed by method name, a later body replacing an earlier one; a
definition of a declaration names only the method. So with a name given twice, the product of
the first declaration is made by the body of the last call (`first_declaration_runs_last_body`). -/

namespace Wiring

namespace ComponentClass

theorem factoryMethods_addFactoryMethods (c : ComponentClass)
    (calls : List (FactoryMethod × Body)) :
    (c.addFactoryMethods calls).metadata.factoryMethods =
      c.metadata.factoryMethods ++ calls.map (·.1) := by
  induction calls generalizing c with
  | nil => simp [addFactoryMethods]
  | cons call calls ih =>
    simp only [addFactoryMethods, List.foldl_cons] at ih ⊢
    rw [ih]
    simp [addFactoryMethod]

theorem factoryMethod?_addFactoryMethods (c : ComponentClass)
    (calls : List (FactoryMethod × Body)) (m : String) :
    (c.addFactoryMethods calls).factoryMethod? m =
      (c.factoryMethod? m).or ((calls.find? (·.1.name == m)).map (·.1)) := by
  simp only [factoryMethod?, Metadata.factoryMethod?, factoryMethods_addFactoryMethods,
    List.find?_append, List.find?_map]
  rfl

theorem body?_addFactoryMethods (c : ComponentClass) (calls : List (FactoryMethod × Body))
    (m : String) :
    (c.addFactoryMethods calls).body? m =
      ((calls.filter (·.1.name == m)).getLast?.map (·.2)).or (c.body? m) := by
  induction calls generalizing c with
  | nil => simp [addFactoryMethods]
  | cons call calls ih =>
    simp only [addFactoryMethods, List.foldl_cons] at ih ⊢
    rw [ih]
    by_cases same : call.1.name = m
    · have hbody : (c.addFactoryMethod call.1 call.2).body? m = some call.2 := by
        simp [body?, addFactoryMethod, Roster.get?_insert, same]
      rw [hbody, List.filter_cons_of_pos (by simp [same])]
      cases hl : (calls.filter (·.1.name == m)).getLast? with
      | none => simp [List.getLast?_eq_none_iff.1 hl]
      | some e => simp [List.getLast?_cons, hl]
    · simp [same, body?, addFactoryMethod, Roster.get?_insert, Ne.symm same]

theorem filter_name_eq_singleton {calls : List (FactoryMethod × Body)}
    (hnodup : (calls.map (·.1.name)).Nodup) {call : FactoryMethod × Body} (hmem : call ∈ calls) :
    calls.filter (·.1.name == call.1.name) = [call] := by
  induction calls with
  | nil => cases hmem
  | cons c cs ih =>
    rw [List.map_cons, List.nodup_cons] at hnodup
    rcases List.mem_cons.1 hmem with rfl | hmem
    · have hnone : cs.filter (·.1.name == call.1.name) = [] :=
        List.filter_eq_nil_iff.2 fun x hx hname =>
          hnodup.1 (List.mem_map.2 ⟨x, hx, by simpa using hname⟩)
      simp [hnone]
    · have hne : c.1.name ≠ call.1.name := fun h =>
        hnodup.1 (h ▸ List.mem_map.2 ⟨call, hmem, rfl⟩)
      simp [hne, ih hnodup.2 hmem]

/-- The lookups by method name of a class built by adding factory methods in order, and the
method the definition that a load makes of one of its declarations runs: the first declaration
of the name is found and the last body of the name is run, which are the declaration's own call
when no two calls share a method name. -/
theorem factory_method_runs_last_body_of_its_name (c : ComponentClass)
    (calls : List (FactoryMethod × Body)) (hmethods : c.metadata.factoryMethods = [])
    (hbodies : c.bodies = .empty) (m : Model)
    (hm : m.factoryMethods = (c.addFactoryMethods calls).metadata.factoryMethods)
    (owner : String) {d : FactoryMethod} (hd : d ∈ m.factoryMethods) :
    (∃ b, (d, b) ∈ calls) ∧
      (Loader.methodDefinition m owner d).factory.map (·.method) = some d.name ∧
      (c.addFactoryMethods calls).factoryMethod? d.name =
        (calls.find? (·.1.name == d.name)).map (·.1) ∧
      (c.addFactoryMethods calls).body? d.name =
        (calls.filter (·.1.name == d.name)).getLast?.map (·.2) ∧
      ((calls.map (·.1.name)).Nodup → ∀ b, (d, b) ∈ calls →
        (c.addFactoryMethods calls).factoryMethod? d.name = some d ∧
          (c.addFactoryMethods calls).body? d.name = some b) := by
  have hnone : c.factoryMethod? d.name = none := by
    simp [factoryMethod?, Metadata.factoryMethod?, hmethods]
  have hnobody : c.body? d.name = none := by
    simp [body?, hbodies, Roster.empty, Roster.get?]
  have hfirst := factoryMethod?_addFactoryMethods c calls d.name
  have hlast := body?_addFactoryMethods c calls d.name
  rw [hnone, Option.none_or] at hfirst
  rw [hnobody, Option.or_none] at hlast
  refine ⟨?_, rfl, hfirst, hlast, fun hnodup b hmem => ?_⟩
  · rw [hm, factoryMethods_addFactoryMethods, hmethods, List.nil_append] at hd
    obtain ⟨⟨d', b⟩, hmem, rfl⟩ := List.mem_map.1 hd
    exact ⟨b, hmem⟩
  -- the only call of that name is the declaration's own
  have hone := filter_name_eq_singleton hnodup hmem
  refine ⟨?_, by rw [hlast, hone]; rfl⟩
  rw [hfirst, ← List.head?_filter, hone]
  rfl

end ComponentClass

def firstDeclaration : FactoryMethod :=
  { name := "m", componentName := some "a", returnClass := .bare "app.A", isStatic := true }

def secondDeclaration : FactoryMethod :=
  { name := "m", componentName := some "b", returnClass := .bare "app.B", isStatic := true }

/-- The two calls that declare `m`, the first with a body returning `one`, the second with a
body returning `two`. -/
def twiceDeclaredCalls : List (FactoryMethod × Body) :=
  [(firstDeclaration, ⟨"app.Config", "m", [], .value "one"⟩),
    (secondDeclaration, ⟨"app.Config", "m", [], .value "two"⟩)]

def twiceDeclaredClass : ComponentClass :=
  (ComponentClass.bare "app.Config").addFactoryMethods twiceDeclaredCalls

def twiceDeclaredModel : Model :=
  Model.ofClass twiceDeclaredClass twiceDeclaredClass.metadata (some "config")

theorem twice_declared_lookups :
    (ComponentClass.bare "app.Config").metadata.factoryMethods = [] ∧
      (ComponentClass.bare "app.Config").bodies = .empty ∧
      twiceDeclaredModel.factoryMethods = twiceDeclaredClass.metadata.factoryMethods ∧
      firstDeclaration ∈ twiceDeclaredModel.factoryMethods ∧
      twiceDeclaredClass.factoryMethod? "m" = some firstDeclaration ∧
      twiceDeclaredClass.body? "m" = some ⟨"app.Config", "m", [], .value "two"⟩ := by
  have hd : firstDeclaration ∈ twiceDeclaredModel.factoryMethods := List.mem_cons_self
  obtain ⟨-, -, hfirst, hlast, -⟩ :=
    ComponentClass.factory_method_runs_last_body_of_its_name _ twiceDeclaredCalls rfl rfl
      twiceDeclaredModel rfl "config" hd
  exact ⟨rfl, rfl, rfl, hd, hfirst.trans rfl, hlast.trans rfl⟩

namespace Machine

theorem create_of_factory {b depth : Nat} {name : String} {d : Definition} {ref : FactoryRef}
    (h : d.factory = some ref) :
    create b depth name d = (invokeFactoryMethod b depth ref >>= throughChain name d) := by
  rw [create]
  simp only [h]

theorem invoke_of_body? {b depth : Nat} {cls : ComponentClass} {owner : Option Instance}
    {meth : String} {body : Body} (h : cls.body? meth = some body)
    (hdepth : depth + 1 ≤ bodyDepthLimit) :
    invoke b depth cls owner meth = (do
      note ("body:" ++ body.className ++ "." ++ body.method)
      let results ← runSteps b (depth + 1) cls owner body body.steps
      make (bodyResult body results) (body.className ++ "." ++ body.method)) := by
  rw [invoke]
  simp only [h, dif_neg (Nat.not_lt.2 hdepth)]

/-- The container a load of `twiceDeclaredModel` makes: `a` and `b`, each the product of its
declaration. -/
def twiceDeclaredContainer : Container :=
  { Container.create ⟨0⟩ true with
    definitions := (Roster.empty.insert "a"
      (Loader.methodDefinition twiceDeclaredModel "config" firstDeclaration)).insert "b"
      (Loader.methodDefinition twiceDeclaredModel "config" secondDeclaration) }

/-- The load registers `a` as the product of the first declaration of `m`, whose own body
returns `one`; creating `a` runs the body of the second call and gives `two`. -/
theorem first_declaration_runs_last_body :
    Loader.loadMethods ⟨.qualified, .short, true⟩ twiceDeclaredModel "config"
        twiceDeclaredModel.factoryMethods (Container.create ⟨0⟩ true) =
        .ok 2 twiceDeclaredContainer ∧
      ∃ i t, materialize "a" .component { box := twiceDeclaredContainer } = .ok i t ∧
        i.describe = "two" := by
  refine ⟨rfl, ?_⟩
  simp only [materialize, bind_apply, get_apply]
  rw [show creationBudget _ = 1 + 1 from rfl, materializeWith_uncached rfl,
    show effectiveDefinition "a" _ =
      .ok (Loader.methodDefinition twiceDeclaredModel "config" firstDeclaration) _ from rfl]
  dsimp only
  rw [if_neg (by decide), create_of_factory (show (Loader.methodDefinition twiceDeclaredModel
    "config" firstDeclaration).factory = some ⟨.static twiceDeclaredClass, "m"⟩ from rfl),
    bind_apply, invokeFactoryMethod]
  dsimp only
  -- the class files the second call's body under `m`
  rw [invoke_of_body? (show twiceDeclaredClass.body? "m" =
    some ⟨"app.Config", "m", [], .value "two"⟩ from rfl) (by decide), runSteps]
  refine ⟨_, _, rfl, ?_⟩
  rfl

end Machine

end Wiring
