import Mathlib.Data.Finset.Card
import Wiring.Proofs.Creation.Hooks

namespace Wiring

/-! What creating components keeps. Whatever runs, the container keeps its label, its names in
creation come back as they were, a cached singleton stays cached with the same instance, a name
in creation is never cached by what runs inside its creation, and the raw instance kept for a
cached intercepting singleton stays the one it was. Creation is the only place that writes the
singleton cache for a name not cached yet, and it writes a name only after its own creation. -/

namespace Container

/-- What every operation keeps of a container, from `c` to `c'`. -/
structure Persists (c c' : Container) : Prop where
  id_eq : c'.id = c.id
  inCreation_eq : c'.inCreation = c.inCreation
  cached : ∀ n i, c.singletons.get? n = some i → c'.singletons.get? n = some i
  pending : ∀ n ∈ c.inCreation, c.singletons.get? n = none → c'.singletons.get? n = none
  targets : ∀ n r, (c.singletons.get? n).isSome → c.targets.get? n = some r →
    c'.targets.get? n = some r

theorem Persists.refl (c : Container) : c.Persists c :=
  ⟨rfl, rfl, fun _ _ h => h, fun _ _ h => h, fun _ _ _ h => h⟩

theorem Persists.trans {c₁ c₂ c₃ : Container} (h₁ : c₁.Persists c₂) (h₂ : c₂.Persists c₃) :
    c₁.Persists c₃ := by
  refine ⟨h₂.id_eq.trans h₁.id_eq, h₂.inCreation_eq.trans h₁.inCreation_eq,
    fun n i h => h₂.cached n i (h₁.cached n i h), fun n hn h => ?_, fun n r hn h => ?_⟩
  · exact h₂.pending n (h₁.inCreation_eq ▸ hn) (h₁.pending n hn h)
  · obtain ⟨i, hi⟩ := Option.isSome_iff_exists.1 hn
    exact h₂.targets n r (by rw [h₁.cached n i hi]; rfl) (h₁.targets n r hn h)

/-- Every singleton cached in `c` is cached in `c'` with the same instance. -/
def KeepsSingletons (c c' : Container) : Prop :=
  ∀ n i, c.singletons.get? n = some i → c'.singletons.get? n = some i

/-- What a later state keeps of a container, whatever creations are running in it: its label,
its cached singletons, and the raw instance of every cached intercepting singleton. -/
structure Retains (c c' : Container) : Prop where
  id_eq : c'.id = c.id
  singletons : c.KeepsSingletons c'
  targets : ∀ n r, (c.singletons.get? n).isSome → c.targets.get? n = some r →
    c'.targets.get? n = some r

theorem Persists.retains {c c' : Container} (h : c.Persists c') : c.Retains c' :=
  ⟨h.id_eq, h.cached, h.targets⟩

theorem Retains.refl (c : Container) : c.Retains c :=
  ⟨rfl, fun _ _ h => h, fun _ _ _ h => h⟩

theorem Retains.trans {c₁ c₂ c₃ : Container} (h₁ : c₁.Retains c₂) (h₂ : c₂.Retains c₃) :
    c₁.Retains c₃ := by
  refine ⟨h₂.id_eq.trans h₁.id_eq, fun n i h => h₂.singletons n i (h₁.singletons n i h),
    fun n r hn h => ?_⟩
  obtain ⟨i, hi⟩ := Option.isSome_iff_exists.1 hn
  exact h₂.targets n r (by rw [h₁.singletons n i hi]; rfl) (h₁.targets n r hn h)

theorem Persists.of_eq {c c' : Container} (hid : c'.id = c.id)
    (hcreation : c'.inCreation = c.inCreation) (hsingletons : c'.singletons = c.singletons)
    (htargets : c'.targets = c.targets) : c.Persists c' :=
  ⟨hid, hcreation, fun _ _ h => hsingletons ▸ h, fun _ _ h => hsingletons ▸ h,
    fun _ _ _ h => htargets ▸ h⟩

theorem Persists.cache {c : Container} {n : String} {i : Instance}
    (hnone : c.singletons.get? n = none) (hcreation : n ∉ c.inCreation) :
    c.Persists { c with singletons := c.singletons.insert n i } := by
  refine ⟨rfl, rfl, fun m j h => ?_, fun m hm h => ?_, fun m r _ h => h⟩
  · have hne : m ≠ n := by
      rintro rfl
      rw [hnone] at h
      cases h
    rw [Roster.get?_insert, if_neg hne]
    exact h
  · have hne : m ≠ n := fun h => hcreation (h ▸ hm)
    rw [Roster.get?_insert, if_neg hne]
    exact h

/-- The names with a definition, registered or effective: the names a creation can take. -/
def scope (c : Container) : Finset String :=
  c.definitions.keys.toFinset ∪ c.effective.keys.toFinset

theorem mem_scope {c : Container} {n : String} :
    n ∈ c.scope ↔ n ∈ c.definitions.keys ∨ n ∈ c.effective.keys := by
  simp [scope]

theorem scope_cacheEffective {c : Container} {n : String} {d : Definition}
    (hd : c.definition? n = some d) :
    { c with effective := c.effective.insert n d }.scope = c.scope := by
  have hn : n ∈ c.definitions.keys := Roster.mem_keys_iff.2 ⟨d, hd⟩
  unfold scope
  cases hc : c.effective.contains n with
  | true => simp only [Roster.keys_insert_of_contains _ _ _ hc]
  | false =>
    rw [Roster.keys_insert_of_not_contains _ _ _ hc, List.toFinset_append, ← Finset.union_assoc]
    simp [hn]

end Container

namespace Machine

/-- What creating keeps of a machine: `Container.Persists` of its container, and no name gains a
definition, registered or effective, that it did not have. -/
structure Persists (s t : Machine) : Prop where
  box : s.box.Persists t.box
  scope : t.box.scope ⊆ s.box.scope

theorem Persists.of_box_eq {s t : Machine} (h : t.box = s.box) : Persists s t :=
  ⟨h ▸ Container.Persists.refl s.box, h ▸ Finset.Subset.refl _⟩

theorem Persists.trans {s₁ s₂ s₃ : Machine} (h₁ : Persists s₁ s₂) (h₂ : Persists s₂ s₃) :
    Persists s₁ s₃ :=
  ⟨h₁.box.trans h₂.box, h₂.scope.trans h₁.scope⟩

instance : Std.Refl Persists := ⟨fun _ => .of_box_eq rfl⟩

instance : Trans Persists Persists Persists := ⟨Persists.trans⟩

theorem keeps_effectiveDefinition (name : String) : Keeps Persists (effectiveDefinition name) := by
  intro s
  simp only [effectiveDefinition, bind_apply, get_apply]
  cases s.box.effective.get? name with
  | some d => exact Std.Refl.refl s
  | none =>
    cases hd : s.box.definition? name with
    | none => exact Std.Refl.refl s
    | some d =>
      simp only [bind_apply, onBox_apply, pure_apply, endState_ok]
      exact ⟨.of_eq rfl rfl rfl rfl, (Container.scope_cacheEffective hd).subset⟩

/-- Only the listener-detector flags of the container changed: all that the lifecycle hooks and
the steps of a constructor do to a container. -/
def Hooked (s t : Machine) : Prop :=
  t.box = { s.box with detectorFlags := t.box.detectorFlags }

instance : Std.Refl Hooked := ⟨fun _ => rfl⟩

instance : Trans Hooked Hooked Hooked := ⟨fun h₁ h₂ => by unfold Hooked at *; rw [h₂, h₁]⟩

theorem Persists.of_hooked {s t : Machine} (h : Hooked s t) : Persists s t := by
  unfold Hooked at h
  exact ⟨.of_eq (by rw [h]) (by rw [h]) (by rw [h]) (by rw [h]),
    by rw [h]; exact Finset.Subset.refl _⟩

theorem keeps_of_hooked {α : Type} {act : Step α} (h : Keeps Hooked act) : Keeps Persists act :=
  h.weaken fun _ _ => Persists.of_hooked

theorem hookFrame_hooked : HookFrame Hooked :=
  ⟨⟨fun _ _ => rfl, fun _ => rfl⟩, fun _ _ => rfl, fun _ _ _ _ => rfl⟩

theorem Persists.still_pending {s t : Machine} (h : Persists s t) {n : String}
    (hn : n ∈ s.box.inCreation) (hnone : s.box.singletons.get? n = none) :
    n ∈ t.box.inCreation ∧ t.box.singletons.get? n = none :=
  ⟨h.box.inCreation_eq ▸ hn, h.box.pending n hn hnone⟩

/-- `act` keeps `Persists` when it starts with `name` in creation and not cached: the shape of
every step of the creation of `name`. -/
def KeepsPending {α : Type} (name : String) (act : Step α) : Prop :=
  ∀ s, name ∈ s.box.inCreation → s.box.singletons.get? name = none → Persists s (endState (act s))

namespace KeepsPending

variable {α β : Type} {name : String}

theorem of_keeps {act : Step α} (h : Keeps Persists act) : KeepsPending name act :=
  fun s _ _ => h s

theorem bind {x : Step α} {f : α → Step β} (hx : Keeps Persists x)
    (hf : ∀ a, KeepsPending name (f a)) : KeepsPending name (x >>= f) := by
  intro s hn hnone
  rw [bind_apply]
  have hxs := hx s
  cases h : x s with
  | ok a t =>
    rw [h] at hxs
    obtain ⟨hn', hnone'⟩ := Persists.still_pending hxs hn hnone
    exact Trans.trans hxs (hf a t hn' hnone')
  | error e t =>
    rw [h] at hxs
    exact hxs

end KeepsPending

theorem Container.Persists.target {c : Container} {n : String} {r : Instance}
    (hnone : c.singletons.get? n = none) :
    c.Persists { c with targets := c.targets.insert n r } := by
  refine ⟨rfl, rfl, fun _ _ h => h, fun _ _ h => h, fun m r' hm h => ?_⟩
  have hne : m ≠ n := by
    rintro rfl
    rw [hnone] at hm
    cases hm
  simp only [Roster.get?_insert, if_neg hne]
  exact h

theorem keepsPending_throughChain (name : String) (d : Definition) (raw : Instance) :
    KeepsPending name (throughChain name d raw) := by
  unfold throughChain
  refine KeepsPending.bind Keeps.get' fun s => ?_
  have hR := hookFrame_hooked
  refine KeepsPending.bind (keeps_of_hooked (hR.keeps_mergedHooks _ _ _)) fun _ => ?_
  refine KeepsPending.bind (keeps_of_hooked (hR.keeps_propertyHooks _ _ _)) fun raw => ?_
  refine KeepsPending.bind (keeps_of_hooked (hR.keeps_beforeHooks _ _ _)) fun i => ?_
  refine KeepsPending.bind (keeps_of_hooked (hR.keeps_afterHooks _ _ _)) fun i => ?_
  dsimp only
  split
  · intro s hn hnone
    simp only [bind_apply, onBox_apply, pure_apply, endState_ok]
    exact ⟨Container.Persists.target hnone, Finset.Subset.refl _⟩
  · exact .of_keeps (Keeps.pure' _)

theorem ensuring_onBox_apply {α : Type} (act : Step α) (f : Container → Container) (s : Machine) :
    ensuring act (onBox f) s = match act s with
      | .ok a t => .ok a { t with box := f t.box }
      | .error e t => .error e { t with box := f t.box } := by
  unfold ensuring
  cases act s <;> rfl

theorem materializeWith_cached {b depth : Nat} {name : String} {cap : Capability} {s : Machine}
    {i : Instance} (h : s.box.singletons.get? name = some i) :
    materializeWith b depth name cap s =
      if i.provides cap then .ok i s else .error (.capabilityMismatch name cap) s := by
  rw [materializeWith]
  simp only [bind_apply, get_apply, h]
  split <;> rfl

/-- The run of `materializeWith` for a name that is not cached: read its definition, stop on a
circular reference or an exhausted budget, else create it with the name in creation and hand it
out after taking the name out again. -/
theorem materializeWith_uncached {b depth : Nat} {name : String} {cap : Capability} {s : Machine}
    (hnone : s.box.singletons.get? name = none) :
    materializeWith b depth name cap s =
      match effectiveDefinition name s with
      | .error e t => .error e t
      | .ok d t =>
        if t.box.inCreation.contains name then .error (.circularCreation name) t
        else match b with
          | 0 => .error (.circularCreation name) t
          | b + 1 =>
            match create b depth name d
                { t with box := { t.box with inCreation := t.box.inCreation ++ [name] } } with
            | .ok i u => handOut name cap d i
                { u with box := { u.box with inCreation := u.box.inCreation.filter (· != name) } }
            | .error e u => .error e
                { u with box := { u.box with inCreation := u.box.inCreation.filter (· != name) } } := by
  rw [materializeWith]
  simp only [bind_apply, get_apply, hnone]
  cases effectiveDefinition name s with
  | error e t => rfl
  | ok d t =>
    dsimp only
    split
    · rfl
    · cases b with
      | zero => rfl
      | succ b =>
        simp only [bind_apply, onBox_apply, ensuring_onBox_apply]
        cases create b depth name d
          { t with box := { t.box with inCreation := t.box.inCreation ++ [name] } } <;> rfl

theorem effectiveDefinition_box (name : String) (s : Machine) :
    (endState (effectiveDefinition name s)).box.singletons = s.box.singletons ∧
      (endState (effectiveDefinition name s)).box.inCreation = s.box.inCreation := by
  simp only [effectiveDefinition, bind_apply, get_apply]
  cases s.box.effective.get? name with
  | some d => simp
  | none => cases s.box.definition? name <;> simp [bind_apply]

theorem handOut_apply (name : String) (cap : Capability) (d : Definition) (i : Instance)
    (s : Machine) :
    handOut name cap d i s =
      if i.provides cap then
        .ok i (if d.isSingleton then
          { s with box := { s.box with singletons := s.box.singletons.insert name i } } else s)
      else .error (.capabilityMismatch name cap) s := by
  unfold handOut
  cases i.provides cap <;> cases d.isSingleton <;> rfl

theorem persists_handOut (name : String) (cap : Capability) (d : Definition) (i : Instance)
    {s : Machine} (hnone : s.box.singletons.get? name = none) (hfree : name ∉ s.box.inCreation) :
    Persists s (endState (handOut name cap d i s)) := by
  rw [handOut_apply]
  split
  · rw [endState_ok]
    split
    · exact ⟨Container.Persists.cache hnone hfree, Finset.Subset.refl _⟩
    · exact Std.Refl.refl s
  · exact Std.Refl.refl s

theorem persists_push_pop {name : String} {c c' : Container} (hfree : name ∉ c.inCreation)
    (hnone : c.singletons.get? name = none)
    (h : Container.Persists { c with inCreation := c.inCreation ++ [name] } c') :
    c.Persists { c' with inCreation := c'.inCreation.filter (· != name) } ∧
      c'.singletons.get? name = none ∧ name ∉ c'.inCreation.filter (· != name) := by
  have hpop : c'.inCreation.filter (· != name) = c.inCreation := by
    rw [h.inCreation_eq, List.filter_append]
    simp only [List.filter_cons, bne_self_eq_false, Bool.false_eq_true, if_false, List.filter_nil,
      List.append_nil]
    refine List.filter_eq_self.2 fun x hx => ?_
    simp only [bne_iff_ne, ne_eq]
    exact fun h => hfree (h ▸ hx)
  have hpending : c'.singletons.get? name = none := h.pending name (by simp) hnone
  refine ⟨⟨h.id_eq, hpop, fun n i hi => h.cached n i hi, fun n hn hn' => ?_,
    fun n r hn hr => h.targets n r hn hr⟩, hpending, hpop ▸ hfree⟩
  exact h.pending n (List.mem_append_left _ hn) hn'

/-- Materializing keeps `Persists` when the creation it may start does: a cached name is handed
out as it is; otherwise the name is in creation only while it is created, and it is cached at
most once, at the end. -/
theorem keeps_materializeWith {budget depth : Nat} {name : String} {cap : Capability}
    (hcreate : ∀ b, budget = b + 1 → ∀ d, KeepsPending name (create b depth name d)) :
    Keeps Persists (materializeWith budget depth name cap) := by
  intro s
  cases hs : s.box.singletons.get? name with
  | some i =>
    rw [materializeWith_cached hs]
    split <;> exact Std.Refl.refl s
  | none =>
    rw [materializeWith_uncached hs]
    have hbox := effectiveDefinition_box name s
    cases he : effectiveDefinition name s with
    | error e t => exact (keeps_effectiveDefinition name).of_error he
    | ok d s₁ =>
      have hed := (keeps_effectiveDefinition name).of_ok he
      rw [he, endState_ok] at hbox
      dsimp only
      split
      · exact hed
      · next hfree =>
        cases budget with
        | zero => exact hed
        | succ b =>
          have hfree' : name ∉ s₁.box.inCreation := by simpa using hfree
          have hnone₁ : s₁.box.singletons.get? name = none := by rw [hbox.1, hs]
          have hc := hcreate b rfl d
            { s₁ with box := { s₁.box with inCreation := s₁.box.inCreation ++ [name] } } (by simp)
            hnone₁
          dsimp only
          -- the creation runs with the name in creation; taking it out restores the list
          cases hrun : create b depth name d
              { s₁ with box := { s₁.box with inCreation := s₁.box.inCreation ++ [name] } } with
          | ok i s₃ =>
            rw [hrun, endState_ok] at hc
            obtain ⟨hpop, hnone₃, hfree₃⟩ := persists_push_pop hfree' hnone₁ hc.box
            have hmid : Persists s₁
                { s₃ with box := { s₃.box with inCreation := s₃.box.inCreation.filter (· != name) } } :=
              ⟨hpop, hc.scope⟩
            exact hed.trans (hmid.trans (persists_handOut name cap d i hnone₃ hfree₃))
          | error e s₃ =>
            rw [hrun, endState_error] at hc
            exact hed.trans ⟨(persists_push_pop hfree' hnone₁ hc.box).1, hc.scope⟩

/-- Every function of the creation block keeps `Persists`; a creation does when its name is in
creation and not cached, as `materializeWith` starts it. By the functions' own induction: each
case composes the frames of the steps it runs. -/
theorem creation_persists :
    (∀ b d n c, Keeps Persists (materializeWith b d n c)) ∧
    (∀ b d n dfn, KeepsPending n (create b d n dfn)) ∧
    (∀ b d ref, Keeps Persists (invokeFactoryMethod b d ref)) ∧
    (∀ b d cls owner m, Keeps Persists (invoke b d cls owner m)) ∧
    (∀ b d cls owner body steps, Keeps Persists (runSteps b d cls owner body steps)) ∧
    (∀ b d cls owner m, Keeps Persists (call b d cls owner m)) := by
  refine materializeWith.mutual_induct
    (fun b d n c => Keeps Persists (materializeWith b d n c))
    (fun b d n dfn => KeepsPending n (create b d n dfn))
    (fun b d ref => Keeps Persists (invokeFactoryMethod b d ref))
    (fun b d cls owner m => Keeps Persists (invoke b d cls owner m))
    (fun b d cls owner body steps => Keeps Persists (runSteps b d cls owner body steps))
    (fun b d cls owner m => Keeps Persists (call b d cls owner m))
    (fun _ _ _ _ ih => keeps_materializeWith fun _ hb d => by subst hb; exact ih d)
    ?factory ?noConstructor ?constructor ?component ?static ?noBody ?body ?nil ?callStep ?componentStep ?ownerStep ?failStep
    ?unreadableStep ?noDecl ?intercepted ?direct
  case factory =>
    intro budget depth name d ref hfactory ih
    rw [create]
    simp only [hfactory]
    exact KeepsPending.bind ih fun raw => keepsPending_throughChain name d raw
  case noConstructor =>
    intro budget depth name d hfactory hctor
    rw [create]
    simp only [hfactory, hctor]
    exact KeepsPending.bind (Keeps.throw' _) fun raw => keepsPending_throughChain name d raw
  case constructor =>
    intro budget depth name d hfactory ctor hctor
    rw [create]
    simp only [hfactory, hctor]
    exact KeepsPending.bind (keeps_of_hooked (hookFrame_hooked.keeps_construct ctor)) fun raw =>
      keepsPending_throughChain name d raw
  case component =>
    intro budget depth ref owner howner ihOwner ihInvoke
    rw [invokeFactoryMethod]
    simp only [howner]
    exact Keeps.bind ihOwner fun exposed => Keeps.read fun m =>
      Keeps.bind (keeps_effectiveDefinition owner) fun d => ihInvoke exposed m d
  case static =>
    intro budget depth ref k hstatic ih
    rw [invokeFactoryMethod]
    simp only [hstatic]
    exact ih
  case noBody =>
    intro budget depth cls owner method hbody
    rw [invoke]
    simp only [hbody]
    exact Keeps.throw' _
  case body =>
    intro budget depth cls owner method b hbody ih
    rw [invoke]
    simp only [hbody]
    refine Keeps.bind (keeps_of_hooked (hookFrame_hooked.keeps_note _)) fun _ => ?_
    split
    · exact Keeps.throw' _
    · next hdepth =>
      exact Keeps.bind (ih hdepth) fun results => keeps_of_hooked (hookFrame_hooked.keeps_make _ _)
  case nil =>
    intro budget depth cls owner b
    rw [runSteps]
    exact Keeps.pure' _
  case callStep =>
    intro budget depth cls owner b rest method ihRest ihCall
    rw [runSteps]
    exact Keeps.bind (Keeps.map _ ihCall) fun r => Keeps.bind ihRest fun _ => Keeps.pure' _
  case componentStep =>
    intro budget depth cls owner b rest name ihRest ihMaterialize
    rw [runSteps]
    exact Keeps.bind (Keeps.map _ ihMaterialize) fun r => Keeps.bind ihRest fun _ => Keeps.pure' _
  case ownerStep =>
    intro budget depth cls owner b rest ihRest
    rw [runSteps]
    exact Keeps.bind (Keeps.pure' _) fun r => Keeps.bind ihRest fun _ => Keeps.pure' _
  case failStep =>
    intro budget depth cls owner b rest message ihRest
    rw [runSteps]
    exact Keeps.bind (Keeps.throw' _) fun r => Keeps.bind ihRest fun _ => Keeps.pure' _
  case unreadableStep =>
    intro budget depth cls owner b rest reason ihRest
    rw [runSteps]
    exact Keeps.bind (Keeps.throw' _) fun r => Keeps.bind ihRest fun _ => Keeps.pure' _
  case noDecl =>
    intro budget depth cls owner method hdecl
    rw [call]
    simp only [hdecl]
    exact Keeps.throw' _
  case intercepted =>
    intro budget depth cls owner method decl hdecl hintercepts ih
    rw [call]
    simp only [hdecl, hintercepts, if_true]
    refine Keeps.bind (keeps_of_hooked (keeps_injectedHere owner)) fun injected => ?_
    split
    · exact Keeps.throw' _
    · exact ih
  case direct =>
    intro budget depth cls owner method decl hdecl hdirect ih
    rw [call]
    simp only [hdecl, hdirect]
    exact ih

end Machine

end Wiring
