import Mathlib.Data.List.Basic
import Wiring.Processor.Run
import Wiring.Proofs.Frame

namespace Wiring

/-! The definition table under a sequence of registrations. Names keep the order in which they
first arrived and an override keeps the name where it was; a name's definition is the one it was
last registered with; a refused override changes nothing; and a capability lookup is the table,
in its order, filtered by scope, by the lazy factory-method exclusion and by the capabilities the
class advertises, which are closed under the implications between capabilities. -/

namespace Capability

theorem implies_iff {c d : Capability} :
    c.implies d = true ↔ c = d ∨ d = component ∨
      (c = registryProcessor ∧ d = factoryProcessor) ∨
      (c = mergedDefinition ∧ d = lifecycleProcessor) ∨
      (c = priorityOrdered ∧ d = ordered) := by
  cases c <;> cases d <;> decide

theorem eq_of_implies_source {c d : Capability} (h : c.implies d = true)
    (hd : d = registryProcessor ∨ d = mergedDefinition ∨ d = priorityOrdered) : c = d := by
  rcases hd with rfl | rfl | rfl <;> cases c <;> simp_all [implies]

theorem implies_trans {a b c : Capability} (hab : a.implies b = true) (hbc : b.implies c = true) :
    a.implies c = true := by
  rcases implies_iff.1 hbc with rfl | rfl | ⟨rfl, rfl⟩ | ⟨rfl, rfl⟩ | ⟨rfl, rfl⟩
  · exact hab
  · exact implies_component a
  · rw [eq_of_implies_source hab (.inl rfl)]
    rfl
  · rw [eq_of_implies_source hab (.inr (.inl rfl))]
    rfl
  · rw [eq_of_implies_source hab (.inr (.inr rfl))]
    rfl

end Capability

theorem ComponentClass.hasCapability_of_implies {cls : ComponentClass} {a b : Capability}
    (himp : a.implies b = true) (h : cls.hasCapability a = true) : cls.hasCapability b = true := by
  obtain ⟨x, hx, hxa⟩ := List.any_eq_true.1 h
  exact List.any_eq_true.2 ⟨x, hx, Capability.implies_trans hxa himp⟩

theorem eraseDups_of_nodup {l : List String} (h : l.Nodup) : l.eraseDups = l := by
  induction l with
  | nil => rfl
  | cons a as ih =>
    rw [List.nodup_cons] at h
    have hkeep : (as.filter fun b => !b == a) = as :=
      List.filter_eq_self.2 fun b hb => by
        have hne : b ≠ a := fun hba => h.1 (hba ▸ hb)
        simpa using hne
    rw [List.eraseDups_cons, hkeep, ih h.2]

namespace Container

/-- Registers each definition in turn, a refused registration leaving the container as it was;
answers the container at the end and the registrations that succeeded, in order. -/
def registerEach (c : Container) :
    List (String × Definition) → Container × List (String × Definition)
  | [] => (c, [])
  | (n, d) :: rest =>
    match c.register n d with
    | .ok c' => ((c'.registerEach rest).1, (n, d) :: (c'.registerEach rest).2)
    | .error _ => c.registerEach rest

theorem allowOverriding_register {c c' : Container} {name : String} {d : Definition}
    (h : c.register name d = .ok c') : c'.allowOverriding = c.allowOverriding := by
  unfold register at h
  split at h
  · cases h
  · cases h
    rfl

theorem register_eq_ok_of_allowOverriding {c : Container} (name : String) (d : Definition)
    (hallow : c.allowOverriding = true) :
    c.register name d =
      .ok { c with
        effective := c.effective.erase name
        definitions := c.definitions.insert name d } := by
  simp [register, hallow]

theorem register_of_taken {c : Container} {name : String} (d : Definition)
    (hdeny : c.allowOverriding = false) (htaken : name ∈ c.names) :
    c.register name d = .error (.overrideRejected name) := by
  have hcontains : c.definitions.contains name = true :=
    (Roster.contains_iff_mem_keys _ _).2 htaken
  simp [register, hdeny, hcontains]

theorem registerEach_accepts_all (c : Container) (calls : List (String × Definition))
    (hallow : c.allowOverriding = true) : (c.registerEach calls).2 = calls := by
  induction calls generalizing c with
  | nil => rfl
  | cons call rest ih =>
    obtain ⟨n, d⟩ := call
    have hok := register_eq_ok_of_allowOverriding n d hallow
    simp only [registerEach, hok]
    rw [ih _ (by rw [allowOverriding_register hok, hallow])]

theorem eraseDups_append_cons_of_mem {l rest : List String} {n : String} (hl : l.Nodup)
    (hn : n ∈ l) : (l ++ n :: rest).eraseDups = (l ++ rest).eraseDups := by
  rw [List.eraseDups_append, List.eraseDups_append, eraseDups_of_nodup hl]
  simp [List.removeAll, hn]

theorem names_registerEach (c : Container) (calls : List (String × Definition)) :
    (c.registerEach calls).1.names =
      (c.names ++ (c.registerEach calls).2.map Prod.fst).eraseDups := by
  induction calls generalizing c with
  | nil => simp [registerEach, eraseDups_of_nodup c.names_nodup]
  | cons call rest ih =>
    obtain ⟨n, d⟩ := call
    cases hreg : c.register n d with
    | error e => simp only [registerEach, hreg, ih]
    | ok c' =>
      simp only [registerEach, hreg, ih, List.map_cons]
      rw [names_register hreg]
      -- an override keeps the table's names; a new name goes at the end
      split
      · exact (eraseDups_append_cons_of_mem c.names_nodup
          ((Roster.contains_iff_mem_keys _ _).1 ‹_›)).symm
      · rw [List.append_assoc, List.singleton_append]

theorem definition?_registerEach (c : Container) (calls : List (String × Definition))
    (n : String) :
    (c.registerEach calls).1.definition? n =
      ((c.registerEach calls).2.reverse.lookup n).or (c.definition? n) := by
  induction calls generalizing c with
  | nil => simp [registerEach]
  | cons call rest ih =>
    obtain ⟨m, d⟩ := call
    cases hreg : c.register m d with
    | error e => simp only [registerEach, hreg, ih]
    | ok c' =>
      simp only [registerEach, hreg, ih, List.reverse_cons, List.lookup_append,
        definition?_register hreg, Option.or_assoc]
      by_cases hnm : n = m
      · simp [hnm]
      · simp [hnm, beq_false_of_ne hnm, List.lookup_cons]

theorem registerSpec_of_taken {m : Machine} {spec : DefinitionSpec}
    (hdeny : m.box.allowOverriding = false) (htaken : spec.name ∈ m.box.names) :
    Machine.registerSpec spec m = .error (.overrideRejected spec.name) m := by
  simp only [Machine.registerSpec, Machine.updateBox, bind_apply, get_apply,
    register_of_taken _ hdeny htaken]
  rfl

theorem entries_filter_map_fst (c : Container) (p : Definition → Bool) :
    (c.definitions.entries.filter fun e => p e.2).map (·.1) =
      c.names.filter fun n => (c.definition? n).any p := by
  rw [names, Roster.keys, List.filter_map]
  congr 1
  apply List.filter_congr
  intro e he
  have hget : c.definition? e.1 = some e.2 := Roster.get?_eq_some_iff.2 he
  simp [hget]

theorem namesFor_eq_filter (c : Container) (cap : Capability)
    (includeNonSingletons allowEagerInit : Bool) :
    c.namesFor cap includeNonSingletons allowEagerInit = c.names.filter fun n =>
      (c.definition? n).any fun d =>
        (includeNonSingletons || d.isSingleton) &&
        (allowEagerInit || !(d.lazyInit && d.hasFactory)) &&
        d.cls.hasCapability cap := by
  rw [namesFor]
  exact c.entries_filter_map_fst fun d => (includeNonSingletons || d.isSingleton) &&
    (allowEagerInit || !(d.lazyInit && d.hasFactory)) && d.cls.hasCapability cap

theorem namesFor_sublist_of_implies (c : Container) {a b : Capability} (himp : a.implies b = true)
    (includeNonSingletons allowEagerInit : Bool) :
    (c.namesFor a includeNonSingletons allowEagerInit).Sublist
      (c.namesFor b includeNonSingletons allowEagerInit) := by
  rw [namesFor_eq_filter, namesFor_eq_filter]
  apply List.monotone_filter_right
  intro n hn
  cases hd : c.definition? n with
  | none => simp [hd] at hn
  | some d =>
    simp only [hd, Option.any_some, Bool.and_eq_true] at hn ⊢
    exact ⟨hn.1, ComponentClass.hasCapability_of_implies himp hn.2⟩

end Container

/-- The definition table of a container under any run of registrations. The names are the old
ones and then the successfully registered ones at their first arrival, so each appears once and an
override keeps its place; a name's definition is that of its last successful registration; with
overriding allowed every registration succeeds, and with it disallowed a registration of a taken
name fails and changes nothing; a capability lookup is the table filtered in order, and the
capabilities a class advertises are closed under implication, so a name listed for a capability
is listed for each capability it implies. -/
theorem definition_table (c : Container) (calls : List (String × Definition)) :
    (c.registerEach calls).1.names =
        (c.names ++ (c.registerEach calls).2.map Prod.fst).eraseDups ∧
    (∀ n, (c.registerEach calls).1.definition? n =
        ((c.registerEach calls).2.reverse.lookup n).or (c.definition? n)) ∧
    (c.allowOverriding = true → (c.registerEach calls).2 = calls) ∧
    (∀ (m : Machine) (spec : DefinitionSpec), m.box.allowOverriding = false →
        spec.name ∈ m.box.names →
        Machine.registerSpec spec m = .error (.overrideRejected spec.name) m) ∧
    (∀ cap includeNonSingletons allowEagerInit,
        c.namesFor cap includeNonSingletons allowEagerInit = c.names.filter fun n =>
          (c.definition? n).any fun d =>
            (includeNonSingletons || d.isSingleton) &&
            (allowEagerInit || !(d.lazyInit && d.hasFactory)) &&
            d.cls.hasCapability cap) ∧
    (∀ (cls : ComponentClass) (a b : Capability), a.implies b = true →
        cls.hasCapability a = true → cls.hasCapability b = true) ∧
    (∀ (a b : Capability) includeNonSingletons allowEagerInit, a.implies b = true →
        (c.namesFor a includeNonSingletons allowEagerInit).Sublist
          (c.namesFor b includeNonSingletons allowEagerInit)) :=
  ⟨c.names_registerEach calls, c.definition?_registerEach calls,
    c.registerEach_accepts_all calls,
    fun _ _ hdeny htaken => Container.registerSpec_of_taken hdeny htaken,
    c.namesFor_eq_filter, fun _ _ _ himp h => ComponentClass.hasCapability_of_implies himp h,
    fun _ _ _ _ himp => c.namesFor_sublist_of_implies himp _ _⟩

/-- A definition of the class `app.Thing`. -/
def thingDefinition : Definition := .ofClass (.bare "app.Thing")

theorem override_keeps_registration_order :
    ((Container.create ⟨0⟩ true).registerEach [("zeta", thingDefinition),
        ("alpha", thingDefinition), ("mid", thingDefinition),
        ("zeta", .ofClass (.bare "app.Other"))]).1.names = ["zeta", "alpha", "mid"] ∧
    ((Container.create ⟨0⟩ true).registerEach [("zeta", thingDefinition),
        ("alpha", thingDefinition), ("mid", thingDefinition),
        ("zeta", .ofClass (.bare "app.Other"))]).1.definition? "zeta" =
      some (.ofClass (.bare "app.Other")) ∧
    Machine.registerSpec { name := "zeta", classKey := "app.Other" }
        { box := ((Container.create ⟨0⟩ false).registerEach [("zeta", thingDefinition)]).1 } =
      .error (.overrideRejected "zeta")
        { box := ((Container.create ⟨0⟩ false).registerEach [("zeta", thingDefinition)]).1 } := by
  obtain ⟨hnames, hdefinition, haccepts, hrefused, -⟩ := definition_table
    (Container.create ⟨0⟩ true) [("zeta", thingDefinition), ("alpha", thingDefinition),
      ("mid", thingDefinition), ("zeta", .ofClass (.bare "app.Other"))]
  have haccepted := haccepts rfl
  refine ⟨?_, ?_, hrefused _ _ rfl (by decide)⟩
  · rw [hnames, haccepted]
    decide
  · rw [hdefinition, haccepted]
    rfl

end Wiring
