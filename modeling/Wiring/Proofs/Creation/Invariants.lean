import Wiring.Proofs.Creation.Hooks

namespace Wiring

/-! Relations that every creation keeps. Besides what hooks and constructors write, creation
caches effective definitions, moves names into and out of creation, caches singletons and keeps
raw instances of intercepting singletons; none of these touches the registered definitions, the
effective cache (but for the lookup that fills it), the lifecycle chain or the registry view. A
relation kept by each of these writes is kept by every function of the creation block, whether
it succeeds or fails. -/

namespace Machine

theorem Keeps.ensuring {R : Machine → Machine → Prop} [Trans R R R] {α : Type} {act : Step α}
    {cleanup : Step Unit} (hact : Keeps R act) (hcleanup : Keeps R cleanup) :
    Keeps R (ensuring act cleanup) := by
  intro s
  unfold Machine.ensuring
  -- the cleanup starts where the action ended, and its end is the end of the whole run
  cases hrun : act s with
  | ok a u =>
    have hu := hcleanup u
    cases hclean : cleanup u <;> simp only [hclean, endState_ok, endState_error] at hu ⊢ <;>
      exact Trans.trans (hact.of_ok hrun) hu
  | error e u =>
    have hu := hcleanup u
    cases hclean : cleanup u <;> simp only [hclean, endState_ok, endState_error] at hu ⊢ <;>
      exact Trans.trans (hact.of_error hrun) hu

theorem keeps_instantiateSingletons {R : Machine → Machine → Prop} [Std.Refl R] [Trans R R R]
    (hR : ∀ name, Keeps R (materialize name .component)) : Keeps R instantiateSingletons := by
  unfold instantiateSingletons
  refine Keeps.read fun s => Keeps.foldlM (fun k name => Keeps.read fun s' => ?_) _ _
  split
  · exact Keeps.pure' _
  · exact Keeps.bind (Keeps.map _ (hR name)) fun _ => Keeps.pure' _

def Guarded (R : Machine → Machine → Prop) (P : Machine → Prop) (s t : Machine) : Prop :=
  P s → R s t

/-- A relation kept by the writes of creation outside the lifecycle chain (a journal entry, a new
stamp, the lookup of an effective definition, and any change of the container that keeps its
definitions, its effective cache, its chain, its registry view and its detector flags) and by the
pass of a name through the chain from a machine where `Ready` holds of the name and its definition.
The lookup that starts a creation makes `Ready` hold and `R` keeps it, so every pass a creation
makes starts ready. -/
structure PassFrame (R : Machine → Machine → Prop)
    (Ready : String → Definition → Machine → Prop) : Prop extends StampFrame R where
  effective : ∀ name, Keeps R (effectiveDefinition name)
  box : ∀ (s : Machine) (c : Container), c.definitions = s.box.definitions →
    c.effective = s.box.effective → c.chain = s.box.chain → c.sealed = s.box.sealed →
    c.detectorFlags = s.box.detectorFlags → R s { s with box := c }
  ready : ∀ name d (s t : Machine), effectiveDefinition name s = .ok d t → Ready name d t
  stable : ∀ name d (s t : Machine), R s t → Ready name d s → Ready name d t
  pass : ∀ name d raw (s : Machine), Ready name d s → R s (endState (throughChain name d raw s))

section

variable {R : Machine → Machine → Prop}

theorem guarded_refl [Std.Refl R] (P : Machine → Prop) : Std.Refl (Guarded R P) :=
  ⟨fun s _ => Std.Refl.refl s⟩

theorem keeps_guarded {α : Type} {P : Machine → Prop} {act : Step α} (h : Keeps R act) :
    Keeps (Guarded R P) act :=
  h.weaken fun _ _ hst _ => hst

theorem keeps_bind_guarded [Trans R R R] {α β : Type} {x : Step α} {f : α → Step β}
    {P : α → Machine → Prop} (hx : Keeps R x) (hP : ∀ a s t, x s = .ok a t → P a t)
    (hf : ∀ a, Keeps (Guarded R (P a)) (f a)) : Keeps R (x >>= f) := by
  intro s
  rw [bind_apply]
  cases h : x s with
  | ok a t => exact Trans.trans (hx.of_ok h) (hf a t (hP a s t h))
  | error e t => exact hx.of_error h

end

namespace PassFrame

variable {R : Machine → Machine → Prop} {Ready : String → Definition → Machine → Prop}
  (hR : PassFrame R Ready)
include hR

theorem keeps_pass (name : String) (d : Definition) (raw : Instance) :
    Keeps (Guarded R (Ready name d)) (throughChain name d raw) :=
  fun s hready => hR.pass name d raw s hready

variable [Trans R R R]

@[reducible] def guardedTrans (name : String) (d : Definition) :
    Trans (Guarded R (Ready name d)) (Guarded R (Ready name d)) (Guarded R (Ready name d)) :=
  ⟨fun h₁ h₂ hs => Trans.trans (h₁ hs) (h₂ (hR.stable _ _ _ _ (h₁ hs) hs))⟩

variable [Std.Refl R]

theorem keeps_handOut (name : String) (cap : Capability) (d : Definition) (i : Instance) :
    Keeps R (handOut name cap d i) := by
  unfold handOut
  split
  · exact Keeps.throw' _
  · dsimp only
    split
    · exact Keeps.bind (Keeps.modify' fun s => hR.box s _ rfl rfl rfl rfl rfl) fun _ =>
        Keeps.pure' _
    · exact Keeps.pure' _

theorem keeps_creation :
    (∀ b d n c, Keeps R (materializeWith b d n c)) ∧
    (∀ b d n dfn, Keeps (Guarded R (Ready n dfn)) (create b d n dfn)) ∧
    (∀ b d ref, Keeps R (invokeFactoryMethod b d ref)) ∧
    (∀ b d cls owner m, Keeps R (invoke b d cls owner m)) ∧
    (∀ b d cls owner body steps, Keeps R (runSteps b d cls owner body steps)) ∧
    (∀ b d cls owner m, Keeps R (call b d cls owner m)) := by
  refine materializeWith.mutual_induct
    (fun b d n c => Keeps R (materializeWith b d n c))
    (fun b d n dfn => Keeps (Guarded R (Ready n dfn)) (create b d n dfn))
    (fun b d ref => Keeps R (invokeFactoryMethod b d ref))
    (fun b d cls owner m => Keeps R (invoke b d cls owner m))
    (fun b d cls owner body steps => Keeps R (runSteps b d cls owner body steps))
    (fun b d cls owner m => Keeps R (call b d cls owner m))
    ?materialize ?factory ?noConstructor ?constructor ?component ?static ?noBody ?body ?nil
    ?callStep ?componentStep ?ownerStep ?failStep ?unreadableStep ?noDecl ?intercepted ?direct
  case materialize =>
    intro budget depth name cap ih
    rw [materializeWith]
    refine Keeps.read fun s => ?_
    split
    · split
      · exact Keeps.pure' _
      · exact Keeps.throw' _
    · -- the lookup makes the name ready, and the rest keeps `R` from a ready machine
      refine keeps_bind_guarded (hR.effective name) (hR.ready name) fun d => ?_
      have := guarded_refl (R := R) (Ready name d)
      have := hR.guardedTrans name d
      refine Keeps.read fun s' => ?_
      split
      · exact Keeps.throw' _
      · split
        · exact Keeps.throw' _
        · -- the name goes into creation and comes out again around the creation
          refine Keeps.bind (keeps_guarded (Keeps.modify' fun s => hR.box s _ rfl rfl rfl rfl rfl))
            fun _ => ?_
          refine Keeps.bind (Keeps.ensuring (ih d)
            (keeps_guarded (Keeps.modify' fun s => hR.box s _ rfl rfl rfl rfl rfl))) fun i => ?_
          exact keeps_guarded (hR.keeps_handOut name cap d i)
  case factory =>
    intro budget depth name d ref hfactory ih
    have := guarded_refl (R := R) (Ready name d)
    have := hR.guardedTrans name d
    rw [create]
    simp only [hfactory]
    exact Keeps.bind (keeps_guarded ih) fun raw => hR.keeps_pass name d raw
  case noConstructor =>
    intro budget depth name d hfactory hctor
    have := guarded_refl (R := R) (Ready name d)
    have := hR.guardedTrans name d
    rw [create]
    simp only [hfactory, hctor]
    exact Keeps.bind (Keeps.throw' _) fun raw => hR.keeps_pass name d raw
  case constructor =>
    intro budget depth name d hfactory ctor hctor
    have := guarded_refl (R := R) (Ready name d)
    have := hR.guardedTrans name d
    rw [create]
    simp only [hfactory, hctor]
    exact Keeps.bind (keeps_guarded (hR.keeps_construct ctor)) fun raw => hR.keeps_pass name d raw
  case component =>
    intro budget depth ref owner howner ihOwner ihInvoke
    rw [invokeFactoryMethod]
    simp only [howner]
    exact Keeps.bind ihOwner fun exposed => Keeps.read fun m =>
      Keeps.bind (hR.effective owner) fun d => ihInvoke exposed m d
  case static =>
    intro budget depth ref k hstatic ih
    rw [invokeFactoryMethod]
    simp only [hstatic]
    exact ih
  case noBody =>
    intro budget depth cls owner method hbody
    rw [invoke]
    simp only [hbody]
    exact Keeps.throw' _
  case body =>
    intro budget depth cls owner method b hbody ih
    rw [invoke]
    simp only [hbody]
    refine Keeps.bind (hR.keeps_note _) fun _ => ?_
    split
    · exact Keeps.throw' _
    · next hdepth => exact Keeps.bind (ih hdepth) fun results => hR.keeps_make _ _
  case nil =>
    intro budget depth cls owner b
    rw [runSteps]
    exact Keeps.pure' _
  case callStep =>
    intro budget depth cls owner b rest method ihRest ihCall
    rw [runSteps]
    exact Keeps.bind (Keeps.map _ ihCall) fun r => Keeps.bind ihRest fun _ => Keeps.pure' _
  case componentStep =>
    intro budget depth cls owner b rest name ihRest ihMaterialize
    rw [runSteps]
    exact Keeps.bind (Keeps.map _ ihMaterialize) fun r => Keeps.bind ihRest fun _ => Keeps.pure' _
  case ownerStep =>
    intro budget depth cls owner b rest ihRest
    rw [runSteps]
    exact Keeps.bind (Keeps.pure' _) fun r => Keeps.bind ihRest fun _ => Keeps.pure' _
  case failStep =>
    intro budget depth cls owner b rest message ihRest
    rw [runSteps]
    exact Keeps.bind (Keeps.throw' _) fun r => Keeps.bind ihRest fun _ => Keeps.pure' _
  case unreadableStep =>
    intro budget depth cls owner b rest reason ihRest
    rw [runSteps]
    exact Keeps.bind (Keeps.throw' _) fun r => Keeps.bind ihRest fun _ => Keeps.pure' _
  case noDecl =>
    intro budget depth cls owner method hdecl
    rw [call]
    simp only [hdecl]
    exact Keeps.throw' _
  case intercepted =>
    intro budget depth cls owner method decl hdecl hintercepts ih
    rw [call]
    simp only [hdecl, hintercepts, if_true]
    refine Keeps.bind (keeps_injectedHere owner) fun injected => ?_
    split
    · exact Keeps.throw' _
    · exact ih
  case direct =>
    intro budget depth cls owner method decl hdecl hdirect ih
    rw [call]
    simp only [hdecl, hdirect]
    exact ih

theorem keeps_materialize (name : String) (cap : Capability) : Keeps R (materialize name cap) :=
  Keeps.read fun _ => hR.keeps_creation.1 _ _ name cap

end PassFrame

/-- A relation kept by every write of creation: those of hooks and constructors, the lookup of an
effective definition, and any change of the container that keeps its definitions, its effective
cache, its chain and its registry view. -/
structure CreationFrame (R : Machine → Machine → Prop) : Prop extends HookFrame R where
  effective : ∀ name, Keeps R (effectiveDefinition name)
  box : ∀ (s : Machine) (c : Container), c.definitions = s.box.definitions →
    c.effective = s.box.effective → c.chain = s.box.chain → c.sealed = s.box.sealed →
    R s { s with box := c }

namespace CreationFrame

variable {R : Machine → Machine → Prop} (hR : CreationFrame R) [Std.Refl R] [Trans R R R]
include hR

theorem toPassFrame : PassFrame R fun _ _ _ => True where
  toStampFrame := hR.toStampFrame
  effective := hR.effective
  box s c hdefinitions heffective hchain hsealed _ := hR.box s c hdefinitions heffective hchain hsealed
  ready _ _ _ _ _ := trivial
  stable _ _ _ _ _ _ := trivial
  pass name d raw s _ :=
    hR.toHookFrame.keeps_throughChain (fun s _ _ => hR.box s _ rfl rfl rfl rfl) name d raw s

theorem keeps_creation :
    (∀ b d n c, Keeps R (materializeWith b d n c)) ∧
    (∀ b d n dfn, Keeps R (create b d n dfn)) ∧
    (∀ b d ref, Keeps R (invokeFactoryMethod b d ref)) ∧
    (∀ b d cls owner m, Keeps R (invoke b d cls owner m)) ∧
    (∀ b d cls owner body steps, Keeps R (runSteps b d cls owner body steps)) ∧
    (∀ b d cls owner m, Keeps R (call b d cls owner m)) := by
  obtain ⟨hmaterialize, hcreate, hrest⟩ := hR.toPassFrame.keeps_creation
  exact ⟨hmaterialize, fun b d n dfn s => hcreate b d n dfn s trivial, hrest⟩

theorem keeps_materialize (name : String) (cap : Capability) : Keeps R (materialize name cap) :=
  hR.toPassFrame.keeps_materialize name cap

end CreationFrame

end Machine

end Wiring
