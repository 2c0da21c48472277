import Wiring.Processor.Run
import Wiring.Proofs.Creation.Frame
import Wiring.Proofs.Creation.Invariants
import Wiring.Proofs.Expansion.Enhancement
import Wiring.Proofs.Expansion.Writes

namespace Wiring

/-! The effective-definition cache holds snapshots: a lookup caches the definition registered at
that moment, a registration drops the name's entry and a clearing drops them all. The cache is
coherent after a clearing, and registrations, creations and successful expansion runs,
enhancement passes and processor runs keep it so; a definition changed in place through the
registry view keeps its old entry until the next clearing or registration of its name. -/

namespace Definition

/-- Two definitions agree on what creation reads of them. -/
structure Agrees (d d' : Definition) : Prop where
  cls_eq : d.cls = d'.cls
  scope_eq : d.scope = d'.scope
  lazyInit_eq : d.lazyInit = d'.lazyInit
  factory_eq : d.factory = d'.factory

theorem Agrees.refl (d : Definition) : d.Agrees d := ⟨rfl, rfl, rfl, rfl⟩

theorem Agrees.trans {d₁ d₂ d₃ : Definition} (h₁ : d₁.Agrees d₂) (h₂ : d₂.Agrees d₃) :
    d₁.Agrees d₃ :=
  ⟨h₁.cls_eq.trans h₂.cls_eq, h₁.scope_eq.trans h₂.scope_eq, h₁.lazyInit_eq.trans h₂.lazyInit_eq,
    h₁.factory_eq.trans h₂.factory_eq⟩

theorem Agrees.symm {d d' : Definition} (h : d.Agrees d') : d'.Agrees d :=
  ⟨h.cls_eq.symm, h.scope_eq.symm, h.lazyInit_eq.symm, h.factory_eq.symm⟩

theorem checkCandidate_agrees (cache : MetadataCache) (d : Definition) :
    (checkCandidate cache d).2.1.Agrees d := by
  unfold checkCandidate
  split
  · exact Agrees.refl d
  · dsimp only
    split
    · exact Agrees.refl d
    · split <;> exact ⟨rfl, rfl, rfl, rfl⟩

theorem enhanced_none_agrees (d : Definition) : (d.enhanced none).Agrees d := ⟨rfl, rfl, rfl, rfl⟩

end Definition

namespace Container

/-- Every cached effective definition agrees with the definition registered under its name. -/
def Coherent (c : Container) : Prop :=
  ∀ n d, c.effective.get? n = some d → ∃ d', c.definition? n = some d' ∧ d.Agrees d'

theorem coherent_clearCache (c : Container) : c.clearCache.Coherent := by
  intro n d h
  simp [clearCache, Roster.empty, Roster.get?] at h

theorem Coherent.of_eq {c c' : Container} (hc : c.Coherent)
    (heffective : c'.effective = c.effective)
    (hdefinitions : c'.definitions = c.definitions) : c'.Coherent := by
  intro n d h
  rw [heffective] at h
  obtain ⟨d', hd', hagree⟩ := hc n d h
  exact ⟨d', by rw [definition?, hdefinitions]; exact hd', hagree⟩

theorem Coherent.register {c c' : Container} {name : String} {d : Definition} (hc : c.Coherent)
    (h : c.register name d = .ok c') : c'.Coherent := by
  unfold Container.register at h
  split at h
  · cases h
  · cases h
    intro n e he
    rw [Roster.get?_erase] at he
    split at he
    · cases he
    · next hn =>
      obtain ⟨d', hd', hagree⟩ := hc n e he
      exact ⟨d', by rw [definition?, Roster.get?_insert, if_neg hn]; exact hd', hagree⟩

theorem Coherent.cacheEffective {c : Container} {name : String} {d : Definition}
    (hc : c.Coherent) (hd : c.definition? name = some d) :
    { c with effective := c.effective.insert name d }.Coherent := by
  intro n e he
  simp only [Roster.get?_insert] at he
  split at he
  · next hn =>
    cases he
    exact ⟨d, by rw [hn]; exact hd, Definition.Agrees.refl d⟩
  · exact hc n e he

theorem Coherent.modifyDefinition {c : Container} {name : String} {f : Definition → Definition}
    (hc : c.Coherent) (hf : ∀ d, c.definition? name = some d → (f d).Agrees d) :
    (c.modifyDefinition name f).Coherent := by
  intro n e he
  obtain ⟨d', hd', hagree⟩ := hc n e he
  rw [definition?_modifyDefinition]
  split
  · next hn =>
    subst hn
    exact ⟨f d', by rw [hd']; rfl, hagree.trans (hf d' hd').symm⟩
  · exact ⟨d', hd', hagree⟩

/-- The end state is coherent when the start state is. -/
def CoherenceKept (c c' : Container) : Prop := c.Coherent → c'.Coherent

instance : Std.Refl CoherenceKept := ⟨fun _ h => h⟩

instance : Trans CoherenceKept CoherenceKept CoherenceKept := ⟨fun h₁ h₂ hc => h₂ (h₁ hc)⟩

end Container

namespace Machine

open Wiring.Container

/-- The end state's cache is coherent when the start state's is. -/
def CoherenceKept (s t : Machine) : Prop := s.box.Coherent → t.box.Coherent

instance : Std.Refl CoherenceKept := ⟨fun _ h => h⟩

instance : Trans CoherenceKept CoherenceKept CoherenceKept := ⟨fun h₁ h₂ hs => h₂ (h₁ hs)⟩

theorem effectiveDefinition_agrees {name : String} {s t : Machine} {d : Definition}
    (hs : s.box.Coherent) (h : effectiveDefinition name s = .ok d t) :
    ∃ d', s.box.definition? name = some d' ∧ d.Agrees d' := by
  simp only [effectiveDefinition, bind_apply, get_apply] at h
  cases hcached : s.box.effective.get? name with
  | some e =>
    simp only [hcached, pure_apply, EStateM.Result.ok.injEq] at h
    obtain ⟨rfl, -⟩ := h
    exact hs name e hcached
  | none =>
    cases hd : s.box.definition? name with
    | none => simp [hcached, hd] at h
    | some e =>
      simp only [hcached, hd, bind_apply, onBox_apply, pure_apply, EStateM.Result.ok.injEq] at h
      obtain ⟨rfl, -⟩ := h
      exact ⟨_, rfl, Definition.Agrees.refl _⟩

theorem coherenceKept_effectiveDefinition (name : String) :
    Keeps CoherenceKept (effectiveDefinition name) := by
  intro s
  simp only [effectiveDefinition, bind_apply, get_apply]
  cases hcached : s.box.effective.get? name with
  | some e => exact id
  | none =>
    cases hd : s.box.definition? name with
    | none => exact id
    | some e =>
      simp only [bind_apply, onBox_apply, pure_apply, endState_ok]
      exact fun hs => hs.cacheEffective hd

theorem creationFrame_coherenceKept : CreationFrame CoherenceKept where
  journal _ _ := id
  stamp _ := id
  books _ _ := id
  flag _ _ _ _ := fun hs => hs.of_eq rfl rfl
  effective := coherenceKept_effectiveDefinition
  box _ _ hdefinitions heffective _ _ := fun hs => hs.of_eq heffective hdefinitions

theorem coherenceKept_instantiateSingletons : Keeps CoherenceKept instantiateSingletons :=
  keeps_instantiateSingletons fun name => creationFrame_coherenceKept.keeps_materialize name _

theorem coherenceKept_registerSpec (spec : DefinitionSpec) :
    Keeps CoherenceKept (registerSpec spec) :=
  Keeps.read fun _ => keeps_updateBox fun _ _ h hs => hs.register h

theorem mutate_effective (label name : String) (change : Mutation) (s : Machine) :
    (endState (mutate label name change s)).box.effective = s.box.effective := by
  simp only [mutate, bind_apply, get_apply]
  split
  · simp only [bind_apply, onBox_apply]
    cases change.unreadable <;> rfl
  · rfl

end Machine

theorem Container.expansionFrame_coherenceKept : ExpansionFrame CoherenceKept where
  register _ _ _ _ h hc := hc.register h
  mark _ cache _ d hd hc := hc.modifyDefinition fun e he => by
    rw [hd] at he
    cases he
    exact Definition.checkCandidate_agrees cache d
  publish _ _ _ _ h hc := by
    unfold Container.registerSingleton at h
    split at h
    · cases h
    · cases h
      exact hc.of_eq rfl rfl

theorem EnhancedOver.coherent {e : Enhancer} {c s : Container} (h : EnhancedOver e c s c.names)
    (hnone : ∀ n ∈ c.names, c.replaces e n = false) (hc : c.Coherent) : s.Coherent := by
  intro n d he
  have heffective : s.effective = c.effective := by
    have hframe := congrArg Container.effective h.frame
    exact hframe
  rw [heffective] at he
  obtain ⟨d', hd', hagree⟩ := hc n d he
  cases hvisit : c.enhanceable n d' with
  | false => exact ⟨d', h.kept n d' hd' fun _ => hvisit, hagree⟩
  | true =>
    have hn : n ∈ c.names := Container.mem_names_iff.2 ⟨d', hd'⟩
    obtain ⟨r, hanswer, hs⟩ := h.visited n hn d' hd' hvisit
    -- a visited name that keeps its class had no replacement from the enhancer
    have hr : r = none := by
      have hkept := hnone n hn
      cases r with
      | none => rfl
      | some k => simp [Container.replaces, hd', hvisit, hanswer] at hkept
    subst hr
    exact ⟨_, hs, hagree.trans (Definition.enhanced_none_agrees d').symm⟩

theorem Container.Coherent.enhanceAll {e : Enhancer} {c c' : Container} {k : Nat}
    (hc : c.Coherent) (h : enhanceAll e c = .ok k c') : c'.Coherent := by
  obtain ⟨s, hpass, rfl⟩ := enhanceAll_eq_ok h
  split
  · exact coherent_clearCache s
  · next hk =>
    have hout := enhanceNames_outcome e c.names c c.names_nodup
    rw [hpass] at hout
    obtain ⟨-, hcount, hover⟩ := hout
    have hnil : c.names.filter (c.replaces e) = [] := List.length_eq_zero_iff.1 (by omega)
    exact hover.coherent (fun n hn => by simpa using List.filter_eq_nil_iff.1 hnil n hn) hc

namespace Machine

open Wiring.Container

theorem coherenceKept_expand (i : Nat) : Keeps CoherenceKept (expand i) :=
  expansionFrame_coherenceKept.keeps_expand i

theorem invokeProcessors_coherent {explicit : List PostProcessor} {s t : Machine} {u : Unit}
    (h : invokeProcessors explicit s = .ok u t) : t.box.Coherent := by
  -- both ways through the phases end in the same tail: the tiers, then the clearing
  have htail : ∀ processed s', (do factoryTiers processed; onBox clearCache) s' = .ok u t →
      t.box.Coherent := by
    intro processed s' h
    obtain ⟨_, _, -, h⟩ := bind_eq_ok h
    rw [onBox_apply] at h
    cases h
    exact coherent_clearCache _
  unfold invokeProcessors at h
  obtain ⟨_, _, -, h⟩ := bind_eq_ok h
  dsimp only at h
  split at h
  · obtain ⟨⟨processed, ran, deferred⟩, _, -, h⟩ := bind_eq_ok h
    obtain ⟨_, _, -, h⟩ := bind_eq_ok h
    obtain ⟨_, _, -, h⟩ := bind_eq_ok h
    obtain ⟨_, _, -, h⟩ := bind_eq_ok h
    exact htail _ _ h
  · obtain ⟨_, _, -, h⟩ := bind_eq_ok h
    obtain ⟨_, _, -, h⟩ := bind_eq_ok h
    exact htail _ _ h

end Machine

/-- The effective cache holds snapshots that stay coherent along the container's own operations.
A clearing makes it coherent; a registration, a creation or the pre-instantiation of singletons
(whatever their outcome), an expansion run (whatever its outcome) and an enhancement pass that
succeeds keep it coherent; a processor run that succeeds ends with it coherent; in a coherent
state the lookup that creation starts from answers the class, scope, lazy flag and factory of the
registered definition. A change in place through `mutate` leaves the cache as it was. -/
theorem effective_cache_coherent :
    (∀ c : Container, c.clearCache.Coherent) ∧
    (∀ (c c' : Container) name d, c.Coherent → c.register name d = .ok c' → c'.Coherent) ∧
    (∀ name cap, Keeps Machine.CoherenceKept (Machine.materialize name cap)) ∧
    Keeps Machine.CoherenceKept Machine.instantiateSingletons ∧
    (∀ i, Keeps Machine.CoherenceKept (Machine.expand i)) ∧
    (∀ e (c c' : Container) k, c.Coherent → enhanceAll e c = .ok k c' → c'.Coherent) ∧
    (∀ explicit (s t : Machine) u, Machine.invokeProcessors explicit s = .ok u t →
      t.box.Coherent) ∧
    (∀ name (s t : Machine) d, s.box.Coherent → Machine.effectiveDefinition name s = .ok d t →
      ∃ d', s.box.definition? name = some d' ∧ d.Agrees d') ∧
    (∀ label name change (s : Machine),
      (endState (Machine.mutate label name change s)).box.effective = s.box.effective) :=
  ⟨Container.coherent_clearCache, fun _ _ _ _ hc h => hc.register h,
    Machine.creationFrame_coherenceKept.keeps_materialize,
    Machine.coherenceKept_instantiateSingletons, Machine.coherenceKept_expand,
    fun _ _ _ _ hc h => hc.enhanceAll h, fun _ _ _ _ h => Machine.invokeProcessors_coherent h,
    fun _ _ _ _ hs h => Machine.effectiveDefinition_agrees hs h, Machine.mutate_effective⟩

/-- The class `app.A`, whose constructor makes the object `a`. -/
def snapshotClass : ComponentClass :=
  { ComponentClass.bare "app.A" with constructor := some (.recipe "app.A" (.value "a")) }

def snapshotDefinition : Definition := { cls := snapshotClass, scope := .prototype }

theorem registered_prototype_read_back :
    ∃ c d t, (Container.create ⟨0⟩ false).clearCache.register "p" snapshotDefinition = .ok c ∧
      Machine.effectiveDefinition "p" { box := c } = .ok d t ∧ d.cls = snapshotClass := by
  obtain ⟨hclear, hregister, -, -, -, -, -, hread, -⟩ := effective_cache_coherent
  have hcoherent := hregister _ _ "p" snapshotDefinition (hclear (Container.create ⟨0⟩ false)) rfl
  obtain ⟨d', hd', hagree⟩ := hread "p" { box := _ } _ _ hcoherent rfl
  have hd : d' = snapshotDefinition := Option.some.inj (hd'.symm.trans rfl)
  exact ⟨_, _, _, rfl, rfl, hagree.cls_eq.trans (congrArg Definition.cls hd)⟩

namespace Machine

def snapshotMachine : Machine :=
  { box := { Container.create ⟨0⟩ false with
      definitions := Roster.empty.insert "p" snapshotDefinition } }

/-- Looking `p` up, changing its class in place to `app.B` as a processor's `mutate` does, and
looking it up again: the second lookup still creates an `app.A`, from the entry the first cached,
and in between the cache disagrees with the definitions. -/
theorem mutated_prototype_created_from_snapshot :
    ∃ i t₁ t₂ j t₃, materialize "p" .component snapshotMachine = .ok i t₁ ∧
      mutate "F" "p" { changes := [.classKey "app.B"] } t₁ = .ok () t₂ ∧
      materialize "p" .component t₂ = .ok j t₃ ∧
      (t₂.box.definition? "p").map (fun d => d.cls.name) = some "app.B" ∧
      t₃.journal = #["new:app.A", "new:app.A"] ∧ ¬ t₂.box.Coherent := by
  refine ⟨?i, ?t₁, ?t₂, ?j, ?t₃, ?first, ?mutate, ?second, ?cls, ?journal, ?stale⟩
  case first =>
    simp only [materialize, bind_apply, get_apply]
    rw [show creationBudget _ = _ + 1 from rfl, materializeWith_uncached rfl,
      show effectiveDefinition "p" _ = .ok snapshotDefinition _ from rfl]
    dsimp only
    rw [if_neg (by decide), create]
    rfl
  case mutate => rfl
  -- the second lookup finds the entry the first one cached and creates from it
  case second =>
    simp only [materialize, bind_apply, get_apply]
    rw [show creationBudget _ = _ + 1 from rfl, materializeWith_uncached rfl,
      show effectiveDefinition "p" _ = .ok snapshotDefinition _ from rfl]
    dsimp only
    rw [if_neg (by decide), create]
    rfl
  case cls => rfl
  case journal => rfl
  case stale =>
    intro hcoherent
    obtain ⟨d', hd', hagree⟩ := hcoherent "p" snapshotDefinition rfl
    cases hd'
    exact absurd (congrArg ComponentClass.name hagree.cls_eq) (by decide)

end Machine

end Wiring
