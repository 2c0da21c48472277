import Wiring.Proofs.Creation.Materialize

namespace Wiring

/-! Sibling calls on enhanced configurations. An enhanced configuration is created by the
intercepting constructor, which wraps the object of the original constructor with no container
injected; the configuration-aware processor injects the container during the property hooks,
and the container keeps that raw instance as the owner of the configuration's factory methods.
From then on, in every later state, a sibling call of a non-static method from one of those
bodies finds the container injected and is a lookup of the method's component. -/

namespace Capability

theorem mem_insertSorted_self (c : Capability) : ∀ cs : List Capability, c ∈ insertSorted c cs
  | [] => List.mem_singleton.2 rfl
  | d :: ds => by
    unfold insertSorted
    split
    · next h => exact h ▸ List.mem_cons_self
    · split
      · exact List.mem_cons_self
      · exact List.mem_cons_of_mem _ (mem_insertSorted_self c ds)

end Capability

theorem ComponentClass.interceptingSubclass_enhanced (parent : ComponentClass) (name : String)
    (ctor : Constructor) :
    (parent.interceptingSubclass name ctor).hasCapability .enhancedConfiguration = true :=
  List.any_eq_true.2 ⟨_, Capability.mem_insertSorted_self _ _, Capability.implies_self _⟩

namespace Machine

theorem propertyHooks_injected (name : String) (stamp : Nat) (p : Payload) (c : ContainerId) :
    ∀ (chain : List Lifecycle) (s : Machine) {raw : Instance} {t : Machine},
      propertyHooks name (.object ⟨stamp, .enhanced p (some c)⟩) chain s = .ok raw t →
      raw = .object ⟨stamp, .enhanced p (some c)⟩
  | [], s, raw, t, h => by
    cases h
    rfl
  | ⟨_, role⟩ :: ls, s, raw, t, h => by
    unfold propertyHooks at h
    cases role with
    | recorder r =>
      obtain ⟨_, u, _, hrest⟩ := bind_eq_ok h
      exact propertyHooks_injected name stamp p c ls u hrest
    | configurationAware =>
      obtain ⟨w, u, _, hrest⟩ := bind_eq_ok h
      dsimp only at hrest
      -- the hook injects only into an enhanced object with no container yet
      cases hd : w.box.definition? name with
      | none =>
        simp only [hd] at hrest
        exact propertyHooks_injected name stamp p c ls u hrest
      | some d =>
        simp only [hd] at hrest
        cases hb : d.cls.hasCapability .enhancedConfiguration <;> simp only [hb] at hrest <;>
          exact propertyHooks_injected name stamp p c ls u hrest
    | chainChecker _ => exact propertyHooks_injected name stamp p c ls s h
    | listenerDetector _ => exact propertyHooks_injected name stamp p c ls s h

theorem Hooked.definitions_eq {s t : Machine} (h : Hooked s t) :
    t.box.definitions = s.box.definitions := by
  unfold Hooked at h
  rw [h]

theorem Hooked.id_eq {s t : Machine} (h : Hooked s t) : t.box.id = s.box.id := by
  unfold Hooked at h
  rw [h]

theorem propertyHooks_injects (name : String) (stamp : Nat) (p : Payload) :
    ∀ (chain : List Lifecycle) (s : Machine) {raw : Instance} {t : Machine},
      propertyHooks name (.object ⟨stamp, .enhanced p none⟩) chain s = .ok raw t →
      (∃ d, s.box.definition? name = some d ∧ d.cls.hasCapability .enhancedConfiguration = true) →
      (∃ l ∈ chain, l.role = .configurationAware) →
      raw = .object ⟨stamp, .enhanced p (some s.box.id)⟩
  | [], _, _, _, _, _, ⟨_, hl, _⟩ => absurd hl List.not_mem_nil
  | ⟨_, role⟩ :: ls, s, raw, t, h, hdef, haware => by
    -- a processor other than the configuration-aware one leaves the object to the rest
    have hrest : role ≠ .configurationAware → ∃ l ∈ ls, l.role = .configurationAware := by
      intro hrole
      obtain ⟨l, hl, hl'⟩ := haware
      rcases List.mem_cons.1 hl with rfl | hl
      · exact absurd hl' hrole
      · exact ⟨l, hl, hl'⟩
    unfold propertyHooks at h
    cases role with
    | recorder r =>
      obtain ⟨_, u, hu, hnext⟩ := bind_eq_ok h
      have hhook := (hookFrame_hooked.keeps_recordHook r .properties r.failProperties name).of_ok hu
      rw [propertyHooks_injects name stamp p ls u hnext
        (by rw [Container.definition?, hhook.definitions_eq]; exact hdef) (hrest (by simp)),
        hhook.id_eq]
    | configurationAware =>
      obtain ⟨w, u, hu, hnext⟩ := bind_eq_ok h
      simp only [get_apply, EStateM.Result.ok.injEq] at hu
      obtain ⟨rfl, rfl⟩ := hu
      obtain ⟨d, hd, hcap⟩ := hdef
      dsimp only at hnext
      simp only [hd, hcap] at hnext
      exact propertyHooks_injected name stamp p _ ls _ hnext
    | chainChecker _ => exact propertyHooks_injects name stamp p ls s h hdef (hrest (by simp))
    | listenerDetector _ => exact propertyHooks_injects name stamp p ls s h hdef (hrest (by simp))

theorem throughChain_target {name : String} {d : Definition} {stamp : Nat} {p : Payload}
    {s t : Machine} {i : Instance}
    (h : throughChain name d (.object ⟨stamp, .enhanced p none⟩) s = .ok i t)
    (hdef : ∃ d', s.box.definition? name = some d' ∧
      d'.cls.hasCapability .enhancedConfiguration = true)
    (haware : ∃ l ∈ s.box.chain, l.role = .configurationAware)
    (hsingle : d.isSingleton = true) (hintercepts : d.cls.intercepts = true) :
    t.box.targets.get? name = some (.object ⟨stamp, .enhanced p (some s.box.id)⟩) := by
  unfold throughChain at h
  obtain ⟨w, s₀, hget, h⟩ := bind_eq_ok h
  simp only [get_apply, EStateM.Result.ok.injEq] at hget
  obtain ⟨rfl, rfl⟩ := hget
  obtain ⟨_, s₁, hmerged, h⟩ := bind_eq_ok h
  obtain ⟨raw, s₂, hprop, h⟩ := bind_eq_ok h
  obtain ⟨_, s₃, _, h⟩ := bind_eq_ok h
  obtain ⟨_, s₄, _, h⟩ := bind_eq_ok h
  have h₁ := (hookFrame_hooked.keeps_mergedHooks _ _ _).of_ok hmerged
  have hraw := propertyHooks_injects name stamp p _ s₁ hprop
    (by rw [Container.definition?, h₁.definitions_eq]; exact hdef) haware
  simp only [hsingle, hintercepts, Bool.and_self, if_true, bind_apply, onBox_apply,
    pure_apply, EStateM.Result.ok.injEq] at h
  obtain ⟨-, rfl⟩ := h
  simp [Roster.get?_insert, hraw, h₁.id_eq]

theorem construct_intercepting {parent : Constructor} {s t : Machine} {raw : Instance}
    (h : construct (.intercepting parent) s = .ok raw t)
    (hobject : ∀ u j u', construct parent u = .ok j u' → ∃ m, j = .object m) :
    ∃ stamp p, raw = .object ⟨stamp, .enhanced p none⟩ := by
  unfold construct at h
  obtain ⟨j, u, hparent, h⟩ := bind_eq_ok h
  obtain ⟨m, rfl⟩ := hobject s j u hparent
  obtain ⟨stamp, _, -, h⟩ := bind_eq_ok h
  simp only [pure_apply, EStateM.Result.ok.injEq] at h
  exact ⟨stamp, m.payload, h.1.symm⟩

theorem create_target {b depth : Nat} {name : String} {d : Definition} {parent : Constructor}
    {s t : Machine} {i : Instance} (h : create b depth name d s = .ok i t)
    (hfactory : d.factory = none) (hctor : d.cls.constructor = some (.intercepting parent))
    (hobject : ∀ u j u', construct parent u = .ok j u' → ∃ m, j = .object m)
    (hdef : ∃ d', s.box.definition? name = some d' ∧
      d'.cls.hasCapability .enhancedConfiguration = true)
    (haware : ∃ l ∈ s.box.chain, l.role = .configurationAware)
    (hsingle : d.isSingleton = true) (hintercepts : d.cls.intercepts = true) :
    ∃ stamp p, t.box.targets.get? name = some (.object ⟨stamp, .enhanced p (some s.box.id)⟩) := by
  rw [create] at h
  simp only [hfactory, hctor] at h
  obtain ⟨raw, u, hraw, h⟩ := bind_eq_ok h
  obtain ⟨stamp, p, rfl⟩ := construct_intercepting hraw hobject
  have hhook := (hookFrame_hooked.keeps_construct _).of_ok hraw
  have hbox : u.box = { s.box with detectorFlags := u.box.detectorFlags } := hhook
  refine ⟨stamp, p, ?_⟩
  rw [throughChain_target h (by rw [Container.definition?, hhook.definitions_eq]; exact hdef)
    (by rw [hbox]; exact haware) hsingle hintercepts, hhook.id_eq]

theorem effectiveDefinition_box_eq {name : String} {s t : Machine} {d : Definition}
    (h : effectiveDefinition name s = .ok d t) :
    t.box = { s.box with effective := t.box.effective } := by
  simp only [effectiveDefinition, bind_apply, get_apply] at h
  cases he : s.box.effective.get? name with
  | some d' =>
    rw [he] at h
    cases h
    rfl
  | none =>
    rw [he] at h
    cases hd : s.box.definition? name with
    | none =>
      rw [hd] at h
      cases h
    | some d' =>
      rw [hd] at h
      cases h
      rfl

theorem handOut_targets {name : String} {cap : Capability} {d : Definition} {j i : Instance}
    {s t : Machine} (h : handOut name cap d j s = .ok i t) : t.box.targets = s.box.targets := by
  rw [handOut_apply] at h
  split at h
  · simp only [EStateM.Result.ok.injEq] at h
    obtain ⟨-, rfl⟩ := h
    split <;> rfl
  · cases h

/-- The first creation of an enhanced configuration, with the configuration-aware processor in
the chain, caches it and keeps as its factory-method owner an enhanced object that carries the
container. -/
theorem materializeWith_target {b depth : Nat} {name : String} {cap : Capability}
    {d : Definition} {parent : Constructor} {s t : Machine} {i : Instance}
    (h : materializeWith b depth name cap s = .ok i t) (hnone : s.box.singletons.get? name = none)
    (heff : ∃ u, effectiveDefinition name s = .ok d u) (hfactory : d.factory = none)
    (hctor : d.cls.constructor = some (.intercepting parent))
    (hobject : ∀ u j u', construct parent u = .ok j u' → ∃ m, j = .object m)
    (hdef : ∃ d', s.box.definition? name = some d' ∧
      d'.cls.hasCapability .enhancedConfiguration = true)
    (haware : ∃ l ∈ s.box.chain, l.role = .configurationAware)
    (hsingle : d.isSingleton = true) (hintercepts : d.cls.intercepts = true) :
    t.box.singletons.get? name = some i ∧
      ∃ raw, t.box.targets.get? name = some raw ∧ raw.enhanced = true ∧
        raw.injected = some t.box.id := by
  obtain ⟨s₁, he⟩ := heff
  have hid : t.box.id = s.box.id := ((creation_persists.1 b depth name cap).of_ok h).box.id_eq
  refine ⟨?_, ?_⟩
  · rcases materializeWith_ok_cached h with hcached | ⟨_, d', u, he', hprototype⟩
    · exact hcached
    · rw [he] at he'
      cases he'
      rw [hsingle] at hprototype
      cases hprototype
  · obtain ⟨d', s₁', _, j, u, he', -, hrun, hout⟩ := materializeWith_uncached_ok hnone h
    rw [he] at he'
    cases he'
    have hbox := effectiveDefinition_box_eq he
    obtain ⟨stamp, p, htarget⟩ := create_target hrun hfactory hctor hobject
      (by rw [Container.definition?, hbox]; exact hdef) (by rw [hbox]; exact haware)
      hsingle hintercepts
    -- handing out changes the targets of no state, here of `u` with `name` out of creation
    have htargets := handOut_targets hout
    refine ⟨_, by rw [htargets]; exact htarget, rfl, ?_⟩
    have hid₁ : s₁.box.id = s.box.id := by rw [hbox]
    simp only [Instance.injected, Payload.injected, hid, hid₁]

theorem call_intercepted {b depth : Nat} {cls : ComponentClass} {m : String} {decl : FactoryMethod}
    {o : Instance} {u : Machine} (hdecl : cls.factoryMethod? m = some decl)
    (hintercepts : cls.intercepts = true) (hstatic : decl.isStatic = false)
    (henhanced : o.enhanced = true) (hinjected : o.injected = some u.box.id) :
    call b depth cls (some o) m u = materializeWith b depth decl.target .component u := by
  rw [call]
  simp only [hdecl, hintercepts, hstatic, Bool.not_false, Bool.and_self, if_true, bind_apply,
    injectedHere, get_apply, pure_apply, henhanced, hinjected, beq_self_eq_true, Bool.not_true,
    Bool.false_eq_true, if_false]

theorem call_direct {b depth : Nat} {cls : ComponentClass} {owner : Option Instance} {m : String}
    {decl : FactoryMethod} (hdecl : cls.factoryMethod? m = some decl)
    (hdirect : cls.intercepts = false ∨ decl.isStatic = true) :
    call b depth cls owner m = invoke b depth cls owner m := by
  rw [call]
  simp only [hdecl]
  rcases hdirect with h | h <;> simp [h]

theorem call_on_target {name : String} {t u : Machine} {raw : Instance}
    (hcached : (t.box.singletons.get? name).isSome) (htarget : t.box.targets.get? name = some raw)
    (henhanced : raw.enhanced = true) (hinjected : raw.injected = some t.box.id)
    (hu : t.box.Retains u.box) (b depth : Nat) (exposed : Instance) {cls : ComponentClass}
    {m : String} {decl : FactoryMethod} (hintercepts : cls.intercepts = true)
    (hdecl : cls.factoryMethod? m = some decl) (hstatic : decl.isStatic = false) :
    call b depth cls (some ((u.box.targets.get? name).getD exposed)) m u =
      materializeWith b depth decl.target .component u := by
  rw [hu.targets name raw hcached htarget, Option.getD_some]
  exact call_intercepted hdecl hintercepts hstatic henhanced (by rw [hinjected, hu.id_eq])

theorem enhanceNames_keeps (e : Enhancer) (n : String) (dn : Definition) :
    ∀ (names : List String) (c c' : Container) (k : Nat), enhanceNames e names c = .ok k c' →
      c.definition? n = some dn → c.enhanceable n dn = false →
      c'.definition? n = some dn ∧ c'.singletons = c.singletons
  | [], c, c', k, h, hn, _ => by
    cases h
    exact ⟨hn, rfl⟩
  | name :: rest, c, c', k, h, hn, hskip => by
    unfold enhanceNames at h
    replace h := get_bind_eq_ok h
    dsimp only at h
    -- the step either skips `name` or rewrites the definition of `name` only
    have hstep : ∀ f : Definition → Definition, name ≠ n →
        (c.modifyDefinition name f).definition? n = some dn ∧
          (c.modifyDefinition name f).enhanceable n dn = false := fun f hne => by
      rw [Container.definition?_modifyDefinition, if_neg (Ne.symm hne)]
      exact ⟨hn, hskip⟩
    cases hd : c.definition? name with
    | none =>
      simp only [hd] at h
      exact enhanceNames_keeps e n dn rest c c' k h hn hskip
    | some d =>
      simp only [hd] at h
      by_cases hvisit : (!c.enhanceable name d) = true
      · rw [if_pos hvisit] at h
        exact enhanceNames_keeps e n dn rest c c' k h hn hskip
      · rw [if_neg hvisit] at h
        have hne : name ≠ n := by
          rintro rfl
          rw [hn] at hd
          cases hd
          simp [hskip] at hvisit
        cases hreplace : e.enhance d.cls with
        | error err =>
          simp only [hreplace] at h
          cases h
        | ok replacement =>
          simp only [hreplace] at h
          cases replacement with
          | none =>
            obtain ⟨_, c₂, hset, h⟩ := bind_eq_ok h
            simp only [set_apply, EStateM.Result.ok.injEq] at hset
            obtain ⟨-, rfl⟩ := hset
            exact enhanceNames_keeps e n dn rest (c.modifyDefinition name _) c' k h
              (hstep _ hne).1 (hstep _ hne).2
          | some cls =>
            obtain ⟨_, c₂, hset, h⟩ := bind_eq_ok h
            simp only [set_apply, EStateM.Result.ok.injEq] at hset
            obtain ⟨-, rfl⟩ := hset
            obtain ⟨k', c₃, hrest, h⟩ := bind_eq_ok h
            simp only [pure_apply, EStateM.Result.ok.injEq] at h
            obtain ⟨-, rfl⟩ := h
            exact enhanceNames_keeps e n dn rest (c.modifyDefinition name _) c₃ k' hrest
              (hstep _ hne).1 (hstep _ hne).2

theorem enhanceAll_keeps {e : Enhancer} {c c' : Container} {k : Nat} {n : String}
    {dn : Definition} (h : enhanceAll e c = .ok k c') (hn : c.definition? n = some dn)
    (hskip : c.enhanceable n dn = false) : c'.definition? n = some dn := by
  unfold enhanceAll at h
  replace h := get_bind_eq_ok h
  obtain ⟨k', c₁, hnames, h⟩ := bind_eq_ok h
  have hkeep := (enhanceNames_keeps e n dn _ c c₁ k' hnames hn hskip).1
  -- clearing the effective cache leaves the definitions alone
  dsimp only at h
  split at h
  · simp only [bind_apply, modify_apply, pure_apply, EStateM.Result.ok.injEq] at h
    obtain ⟨-, rfl⟩ := h
    exact hkeep
  · simp only [pure_apply, EStateM.Result.ok.injEq] at h
    obtain ⟨-, rfl⟩ := h
    exact hkeep

/-- Sibling calls on an enhanced configuration. Let the configuration `name` be a singleton whose
class enhancement replaced by an intercepting subclass of a class whose own constructor makes
objects, created (for the first time) while the configuration-aware processor is in the chain.
In every later state that keeps the container's id, its cached singletons and their raw targets
(`Container.Retains`), a sibling call of a non-static method from a body run on it is a lookup
of the method's component; once such a call has succeeded for a singleton product, every later
call hands out the same instance (or refuses the capability) without running anything. Without
interception, or for a static method, a sibling call runs the body, and enhancement leaves the
class of a locked, lite or already created configuration as it is. -/
theorem enhanced_sibling_call_is_lookup {b depth : Nat} {name : String} {cap : Capability}
    {d : Definition} {k : ComponentClass} {enhancedName : String} {ctor : Constructor}
    {s t : Machine} {i : Instance}
    (hrun : materializeWith b depth name cap s = .ok i t)
    (hnone : s.box.singletons.get? name = none) (hdef : s.box.definition? name = some d)
    (heff : ∃ u, effectiveDefinition name s = .ok d u)
    (hclass : d.cls = k.interceptingSubclass enhancedName (.intercepting ctor))
    (hobject : ∀ u j u', construct ctor u = .ok j u' → ∃ m, j = .object m)
    (hfactory : d.factory = none) (hsingle : d.isSingleton = true)
    (haware : ∃ l ∈ s.box.chain, l.role = .configurationAware) :
    (∀ u : Machine, t.box.Retains u.box → ∀ b' depth' exposed (cls : ComponentClass) m decl,
      cls.intercepts = true → cls.factoryMethod? m = some decl → decl.isStatic = false →
      call b' depth' cls (some ((u.box.targets.get? name).getD exposed)) m u =
          materializeWith b' depth' decl.target .component u ∧
        ∀ j v, call b' depth' cls (some ((u.box.targets.get? name).getD exposed)) m u = .ok j v →
          (∀ w : Machine, v.box.Retains w.box → ∀ b'' depth'' exposed',
            call b'' depth'' cls (some ((w.box.targets.get? name).getD exposed')) m w = .ok j w ∨
            call b'' depth'' cls (some ((w.box.targets.get? name).getD exposed')) m w =
              .error (.capabilityMismatch decl.target .component) w) ∨
          (u.box.singletons.get? decl.target = none ∧
            ∃ d' u', effectiveDefinition decl.target u = .ok d' u' ∧ d'.isSingleton = false)) ∧
    (∀ b' depth' (cls : ComponentClass) owner m decl, cls.factoryMethod? m = some decl →
      (cls.intercepts = false ∨ decl.isStatic = true) →
      call b' depth' cls owner m = invoke b' depth' cls owner m) ∧
    (∀ (e : Enhancer) (c c' : Container) k n dn, enhanceAll e c = .ok k c' →
      c.definition? n = some dn → c.enhanceable n dn = false → c'.definition? n = some dn) := by
  have hctor : d.cls.constructor = some (.intercepting ctor) := by rw [hclass]; rfl
  have hintercepts : d.cls.intercepts = true := by rw [hclass]; rfl
  have henhancedDef : ∃ d', s.box.definition? name = some d' ∧
      d'.cls.hasCapability .enhancedConfiguration = true :=
    ⟨d, hdef, by rw [hclass]; exact ComponentClass.interceptingSubclass_enhanced _ _ _⟩
  obtain ⟨hcached, raw, htarget, henhanced, hinjected⟩ := materializeWith_target hrun hnone heff
    hfactory hctor hobject henhancedDef haware hsingle hintercepts
  have hsome : (t.box.singletons.get? name).isSome := by rw [hcached]; rfl
  refine ⟨fun u hu b' depth' exposed cls m decl hint hdecl hstatic => ?_,
    fun _ _ _ _ _ _ hdecl hdirect => call_direct hdecl hdirect,
    fun _ _ _ _ _ _ h hn hskip => enhanceAll_keeps h hn hskip⟩
  have hcall := call_on_target hsome htarget henhanced hinjected hu b' depth' exposed hint hdecl
    hstatic
  refine ⟨hcall, fun j v hj => ?_⟩
  rw [hcall] at hj
  rcases materializeWith_ok_cached hj with hproduct | hprototype
  · -- the product is cached from here on, and every later call looks it up
    refine .inl fun w hw b'' depth'' exposed' => ?_
    have huv : u.box.Retains v.box :=
      ((creation_persists.1 b' depth' decl.target .component).of_ok hj).box.retains
    rw [call_on_target hsome htarget henhanced hinjected ((hu.trans huv).trans hw) b'' depth''
      exposed' hint hdecl hstatic]
    exact materializeWith_of_cached (hw.singletons _ _ hproduct)
  · exact .inr hprototype

def sampleConfigClass : ComponentClass :=
  { ComponentClass.bare "app.Config" with
    metadata := { className := "app.Config"
                  factoryMethods := [{ name := "product", returnClass := .bare "app.Product" }] }
    constructor := some (.recipe "app.Config" (.value "cfg"))
    bodies := Roster.empty.insert "product" ⟨"app.Config", "product", [.fail "boom"], .value "product"⟩ }

def sampleConfigDefinition : Definition :=
  { cls := sampleConfigClass.interceptingSubclass "app.Config$$Intercepted"
      (.intercepting (.recipe "app.Config" (.value "cfg")))
    configuration := some .full }

def sampleProductDefinition : Definition :=
  { cls := .bare "app.Product", factory := some ⟨.component "config", "product"⟩ }

def sampleMachine : Machine :=
  { box := { Container.create ⟨0⟩ true with
      definitions := (Roster.empty.insert "config" sampleConfigDefinition).insert "product"
        sampleProductDefinition
      chain := [⟨0, .configurationAware⟩] } }

theorem sample_config_created :
    ∃ i t, materializeWith 2 0 "config" .component sampleMachine = .ok i t := by
  rw [materializeWith_uncached rfl,
    show effectiveDefinition "config" _ = .ok sampleConfigDefinition _ from rfl]
  dsimp only
  rw [if_neg (by decide), create]
  exact ⟨_, _, rfl⟩

theorem sample_sibling_call_is_lookup :
    ∃ i t, materializeWith 2 0 "config" .component sampleMachine = .ok i t ∧
      call 2 1 sampleConfigDefinition.cls (some ((t.box.targets.get? "config").getD i)) "product" t =
        materializeWith 2 1 "product" .component t := by
  obtain ⟨i, t, hrun⟩ := sample_config_created
  have hobject : ∀ u j u', construct (.recipe "app.Config" (.value "cfg")) u = .ok j u' →
      ∃ m, j = .object m := by
    intro u j u' h
    simp only [construct, make, note, fresh, bind_apply, modify_apply, modifyGet_apply,
      pure_apply, EStateM.Result.ok.injEq] at h
    exact ⟨_, h.1.symm⟩
  exact ⟨i, t, hrun, ((enhanced_sibling_call_is_lookup hrun rfl rfl ⟨_, rfl⟩ rfl hobject rfl rfl
    ⟨_, List.mem_singleton.2 rfl, rfl⟩).1 t (Container.Retains.refl _) 2 1 i
      sampleConfigDefinition.cls "product" { name := "product", returnClass := .bare "app.Product" }
      rfl rfl rfl).1⟩

/-- A creation that fails is not cached, so every call or lookup runs the body again: `product`
is asked for twice after `config` was created, and its body runs twice. -/
theorem failed_product_body_runs_again :
    ∃ i t₁ e t₂ t₃, materialize "config" .component sampleMachine = .ok i t₁ ∧
      materialize "product" .component t₁ = .error e t₂ ∧
      materialize "product" .component t₂ = .error e t₃ ∧
      t₃.journal = #["new:app.Config", "body:app.Config.product", "body:app.Config.product"] := by
  refine ⟨?i, ?t₁, ?e, ?t₂, ?t₃, ?config, ?first, ?second, ?journal⟩
  case config =>
    simp only [materialize, bind_apply, get_apply]
    rw [show creationBudget sampleMachine = 1 + 1 from rfl, materializeWith_uncached rfl,
      show effectiveDefinition "config" _ = .ok sampleConfigDefinition _ from rfl]
    dsimp only
    rw [if_neg (by decide), create]
    rfl
  -- both lookups find `config` cached and run the failing body of `product`
  case first | second =>
    simp only [materialize, bind_apply, get_apply]
    rw [show creationBudget _ = _ + 1 from rfl, materializeWith_uncached rfl,
      show effectiveDefinition "product" _ = .ok sampleProductDefinition _ from rfl]
    dsimp only
    rw [if_neg (by decide), create]
    dsimp only [sampleProductDefinition]
    rw [invokeFactoryMethod]
    dsimp only
    rw [bind_apply, bind_apply, materializeWith_cached (show _ = some _ from rfl),
      if_pos (by decide)]
    simp only
    rw [bind_apply, get_apply]
    simp only
    rw [bind_apply, show effectiveDefinition "config" _ = .ok sampleConfigDefinition _ from rfl]
    simp only
    rw [invoke, show sampleConfigDefinition.cls.body? "product" =
      some ⟨"app.Config", "product", [.fail "boom"], .value "product"⟩ from rfl]
    simp only
    rw [bind_apply, note, modify_apply]
    simp only
    rw [dif_neg (by decide), bind_apply, runSteps]
    rfl
  case journal => rfl

end Machine

end Wiring
