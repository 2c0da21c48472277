import Wiring.Proofs.Creation.Untouched

namespace Wiring

/-! The stamps of the lifecycle processors that creation hands out. A lifecycle processor is made
only from a recipe of a class (a constructor, or the result of a factory-method body) or handed
out from the singletons. So when every such recipe and singleton carries a stamp below `n`, so
does every lifecycle processor creation answers, and the container keeps that property, since
creation caches only what it made. With `n` the stamp counter, a stamp taken later is new to
every processor creation can hand out. -/

def Recipe.StampBelow (n : Nat) : Recipe → Prop
  | .lifecycle stamp _ => stamp < n
  | _ => True

def Constructor.StampBelow (n : Nat) : Constructor → Prop
  | .recipe _ r => r.StampBelow n
  | .expansion _ => True
  | .intercepting parent => parent.StampBelow n

def Instance.StampBelow (n : Nat) : Instance → Prop
  | .lifecycle l => l.stamp < n
  | _ => True

/-- Every lifecycle processor a class makes, by its constructor or a factory-method body, has a
stamp below `n`. -/
def ComponentClass.MakesBelow (n : Nat) (cls : ComponentClass) : Prop :=
  (∀ ctor, cls.constructor = some ctor → ctor.StampBelow n) ∧
    ∀ m b, cls.body? m = some b → b.returns.StampBelow n

/-- Every lifecycle processor made for a definition has a stamp below `n`: by its class, or by
the class of its static factory method. -/
def Definition.MakesBelow (n : Nat) (d : Definition) : Prop :=
  d.cls.MakesBelow n ∧ ∀ ref k, d.factory = some ref → ref.owner = .static k → k.MakesBelow n

/-- Every lifecycle processor a container can hand out has a stamp below `n`. -/
structure Container.MakesBelow (n : Nat) (c : Container) : Prop where
  definitions : ∀ name d, c.definition? name = some d → d.MakesBelow n
  effective : ∀ name d, c.effective.get? name = some d → d.MakesBelow n
  singletons : ∀ name i, c.singletons.get? name = some i → i.StampBelow n

theorem Machine.stampBelow_bodyResult {n : Nat} {b : Body} (h : b.returns.StampBelow n)
    (results : List String) : (Machine.bodyResult b results).StampBelow n := by
  unfold Machine.bodyResult
  split <;> simp_all [Recipe.StampBelow]

namespace Machine

section

variable (n : Nat)

def BelowKept (s t : Machine) : Prop :=
  s.box.MakesBelow n → t.box.MakesBelow n

instance : Std.Refl (BelowKept n) := ⟨fun _ h => h⟩

instance : Trans (BelowKept n) (BelowKept n) (BelowKept n) := ⟨fun h₁ h₂ hs => h₂ (h₁ hs)⟩

theorem hookFrame_belowKept : HookFrame (BelowKept n) :=
  ⟨⟨fun _ _ h => h, fun _ h => h⟩, fun _ _ h => h,
    fun _ _ _ _ h => ⟨h.definitions, h.effective, h.singletons⟩⟩

/-- From a container handing out only stamps below `n`, `act` ends in such a container on either
outcome, and its answer satisfies `Q`. -/
def StaysBelow {α : Type} (Q : α → Prop) (act : Step α) : Prop :=
  ∀ s, s.box.MakesBelow n → (endState (act s)).box.MakesBelow n ∧ ∀ a t, act s = .ok a t → Q a

end

namespace StaysBelow

variable {n : Nat} {α β : Type} {P : α → Prop} {Q : β → Prop}

theorem of_keeps {act : Step β} (h : Keeps (BelowKept n) act) (hQ : ∀ b, Q b) :
    StaysBelow n Q act :=
  fun s hs => ⟨h s hs, fun b _ _ => hQ b⟩

theorem pure' {b : β} (hQ : Q b) : StaysBelow n Q (pure b) :=
  fun _ hs => ⟨hs, fun _ _ h => by simp only [pure_apply, EStateM.Result.ok.injEq] at h; exact h.1 ▸ hQ⟩

theorem throw' (e : BootError) : StaysBelow n Q (throw e : Step β) :=
  fun _ hs => ⟨hs, fun _ _ h => by cases h⟩

theorem bind {x : Step α} {f : α → Step β} (hx : StaysBelow n P x)
    (hf : ∀ a, P a → StaysBelow n Q (f a)) : StaysBelow n Q (x >>= f) := by
  intro s hs
  rw [bind_apply]
  obtain ⟨hend, hans⟩ := hx s hs
  cases h : x s with
  | ok a u =>
    rw [h, endState_ok] at hend
    exact hf a (hans a u h) u hend
  | error e u =>
    rw [h, endState_error] at hend
    exact ⟨hend, fun _ _ h => by cases h⟩

theorem read {f : Machine → Step β} (hf : ∀ s, s.box.MakesBelow n → StaysBelow n Q (f s)) :
    StaysBelow n Q (get >>= f) :=
  fun s hs => hf s hs s hs

theorem map {x : Step α} {g : α → β} (hx : StaysBelow n P x) (hg : ∀ a, P a → Q (g a)) :
    StaysBelow n Q (g <$> x) := by
  intro s hs
  rw [map_apply]
  obtain ⟨hend, hans⟩ := hx s hs
  cases h : x s with
  | ok a u =>
    rw [h, endState_ok] at hend
    exact ⟨hend, fun _ _ hb => by cases hb; exact hg a (hans a u h)⟩
  | error e u =>
    rw [h, endState_error] at hend
    exact ⟨hend, fun _ _ hb => by cases hb⟩

theorem ensuring {act : Step β} {cleanup : Step Unit} (hact : StaysBelow n Q act)
    (hcleanup : Keeps (BelowKept n) cleanup) : StaysBelow n Q (Machine.ensuring act cleanup) := by
  intro s hs
  obtain ⟨hend, hans⟩ := hact s hs
  unfold Machine.ensuring
  -- the cleanup runs on both outcomes and keeps the answer of the action
  cases hrun : act s with
  | ok b u =>
    rw [hrun, endState_ok] at hend
    have hu := hcleanup u hend
    cases hclean : cleanup u <;> simp only [hclean, endState_ok, endState_error] at hu ⊢
    · exact ⟨hu, fun _ _ h => by cases h; exact hans b u hrun⟩
    · exact ⟨hu, fun _ _ h => by cases h⟩
  | error e u =>
    rw [hrun, endState_error] at hend
    have hu := hcleanup u hend
    cases hclean : cleanup u <;> simp only [hclean, endState_ok, endState_error] at hu ⊢ <;>
      exact ⟨hu, fun _ _ h => by cases h⟩

end StaysBelow

variable {n : Nat}

theorem stays_make {r : Recipe} (hr : r.StampBelow n) (who : String) :
    StaysBelow n (·.StampBelow n) (make r who) := by
  have hR := hookFrame_belowKept n
  cases r with
  | value t => exact .bind (.of_keeps hR.keeps_fresh fun _ => trivial) fun _ _ => .pure' trivial
  | importAware t => exact .bind (.of_keeps hR.keeps_fresh fun _ => trivial) fun _ _ => .pure' trivial
  | factoryAware t =>
    exact .bind (.of_keeps hR.keeps_fresh fun _ => trivial) fun _ _ => .pure' trivial
  | registryProcessor stamp s => exact .pure' trivial
  | factoryProcessor stamp s => exact .pure' trivial
  | lifecycle stamp rec => exact .pure' hr
  | fail message => exact .throw' _

theorem stays_construct : ∀ {ctor : Constructor}, ctor.StampBelow n →
    StaysBelow n (·.StampBelow n) (construct ctor)
  | .recipe className r, hr =>
    .bind (.of_keeps ((hookFrame_belowKept n).keeps_note _) fun _ => trivial) fun _ _ =>
      stays_make hr className
  | .expansion i, _ => .pure' trivial
  | .intercepting parent, hparent => by
    refine .bind (stays_construct hparent) fun i hi => ?_
    cases i with
    | object m =>
      exact .bind (.of_keeps (hookFrame_belowKept n).keeps_fresh fun _ => trivial) fun _ _ =>
        .pure' trivial
    | post p => exact .pure' hi
    | lifecycle l => exact .pure' hi

theorem stays_propertyHooks (name : String) :
    ∀ {raw : Instance} (chain : List Lifecycle), raw.StampBelow n →
      StaysBelow n (·.StampBelow n) (propertyHooks name raw chain)
  | raw, [], hraw => .pure' hraw
  | raw, l :: ls, hraw => by
    have hR := hookFrame_belowKept n
    unfold propertyHooks
    split
    · exact .bind (.of_keeps (hR.keeps_recordHook _ _ _ _) fun _ => trivial) fun _ _ =>
        stays_propertyHooks name ls hraw
    · refine .read fun s _ => ?_
      dsimp only
      -- the processor only injects into objects, which are no lifecycle processors
      split
      · exact stays_propertyHooks name ls trivial
      · exact .bind (.of_keeps (hR.keeps_note _) fun _ => trivial) fun _ _ =>
          stays_propertyHooks name ls hraw
      · exact stays_propertyHooks name ls hraw
    · exact stays_propertyHooks name ls hraw

theorem stays_beforeHooks (name : String) {i : Instance} (hi : i.StampBelow n) :
    ∀ chain : List Lifecycle, StaysBelow n (·.StampBelow n) (beforeHooks name i chain)
  | [] => .pure' hi
  | l :: ls => by
    have hR := hookFrame_belowKept n
    unfold beforeHooks
    dsimp only
    split
    · exact .bind (.of_keeps (hR.keeps_recordHook _ _ _ _) fun _ => trivial) fun _ _ =>
        stays_beforeHooks name hi ls
    · exact .bind (.of_keeps (hR.keeps_deliverImport _ _) fun _ => trivial) fun _ _ =>
        stays_beforeHooks name hi ls
    · exact stays_beforeHooks name hi ls

theorem stays_afterHooks (name : String) :
    ∀ {i : Instance} (chain : List Lifecycle), i.StampBelow n →
      StaysBelow n (·.StampBelow n) (afterHooks name i chain)
  | i, [], hi => .pure' hi
  | i, l :: ls, hi => by
    have hR := hookFrame_belowKept n
    unfold afterHooks
    dsimp only
    split
    · refine .bind (.of_keeps (hR.keeps_recordHook _ _ _ _) fun _ => trivial) fun _ _ => ?_
      -- wrapping makes a new object
      split
      · exact .bind (.of_keeps hR.keeps_fresh fun _ => trivial) fun _ _ =>
          stays_afterHooks name ls trivial
      · exact stays_afterHooks name ls hi
    · refine .read fun s _ => ?_
      split
      · exact .bind (.of_keeps (hR.keeps_onBook _ _) fun _ => trivial) fun _ _ =>
          stays_afterHooks name ls hi
      · exact .bind (.of_keeps (hR.keeps_onBook _ _) fun _ => trivial) fun _ _ =>
          stays_afterHooks name ls hi
      · exact stays_afterHooks name ls hi
    · exact stays_afterHooks name ls hi

theorem stays_throughChain (name : String) (d : Definition) {raw : Instance}
    (hraw : raw.StampBelow n) : StaysBelow n (·.StampBelow n) (throughChain name d raw) := by
  have hR := hookFrame_belowKept n
  unfold throughChain
  refine .read fun s _ => ?_
  refine .bind (.of_keeps (hR.keeps_mergedHooks _ _ _) fun _ => trivial) fun _ _ => ?_
  refine .bind (stays_propertyHooks name _ hraw) fun raw' hraw' => ?_
  refine .bind (stays_beforeHooks name hraw' _) fun i hi => ?_
  refine .bind (stays_afterHooks name _ hi) fun i' hi' => ?_
  dsimp only
  split
  · -- the raw instance is kept among the targets, which hand out nothing
    exact .bind (.of_keeps (Keeps.modify' fun _ h => ⟨h.definitions, h.effective, h.singletons⟩)
      fun _ => trivial) fun _ _ => .pure' hi'
  · exact .pure' hi'

theorem stays_effectiveDefinition (name : String) :
    StaysBelow n (·.MakesBelow n) (effectiveDefinition name) := by
  intro s hs
  simp only [effectiveDefinition, bind_apply, get_apply]
  cases he : s.box.effective.get? name with
  | some d =>
    exact ⟨hs, fun _ _ h => by cases h; exact hs.effective name d he⟩
  | none =>
    cases hd : s.box.definition? name with
    | none => exact ⟨hs, fun _ _ h => by cases h⟩
    | some d =>
      -- the registered definition is cached as effective
      simp only [bind_apply, onBox_apply, pure_apply, endState_ok]
      refine ⟨⟨hs.definitions, fun m d' hm => ?_, hs.singletons⟩, fun _ _ h => ?_⟩
      · rw [Roster.get?_insert] at hm
        split at hm
        · cases hm
          exact hs.definitions name d hd
        · exact hs.effective m d' hm
      · cases h
        exact hs.definitions name d hd

theorem stays_handOut (name : String) (cap : Capability) (d : Definition) {i : Instance}
    (hi : i.StampBelow n) : StaysBelow n (·.StampBelow n) (handOut name cap d i) := by
  intro s hs
  rw [handOut_apply]
  split
  · refine ⟨?_, fun _ _ h => by cases h; exact hi⟩
    rw [endState_ok]
    split
    · -- caching the instance it made
      refine ⟨hs.definitions, hs.effective, fun m j hm => ?_⟩
      rw [Roster.get?_insert] at hm
      split at hm
      · cases hm
        exact hi
      · exact hs.singletons m j hm
    · exact hs
  · exact ⟨hs, fun _ _ h => by cases h⟩

/-- Creation from a container handing out only stamps below `n` answers only such stamps and
keeps the container so, on either outcome. By the functions' own induction; a creation is
given a definition, a method call a class, with only such stamps. -/
theorem creation_stays_below :
    (∀ b d name cap, StaysBelow n (·.StampBelow n) (materializeWith b d name cap)) ∧
    (∀ b d name dfn, dfn.MakesBelow n → StaysBelow n (·.StampBelow n) (create b d name dfn)) ∧
    (∀ b d (ref : FactoryRef), (∀ k, ref.owner = .static k → k.MakesBelow n) →
      StaysBelow n (·.StampBelow n) (invokeFactoryMethod b d ref)) ∧
    (∀ b d cls owner m, ComponentClass.MakesBelow n cls →
      StaysBelow n (·.StampBelow n) (invoke b d cls owner m)) ∧
    (∀ b d cls owner body steps, ComponentClass.MakesBelow n cls →
      StaysBelow n (fun _ => True) (runSteps b d cls owner body steps)) ∧
    (∀ b d cls owner m, ComponentClass.MakesBelow n cls →
      StaysBelow n (·.StampBelow n) (call b d cls owner m)) := by
  have hR := hookFrame_belowKept n
  -- the steps that only move names in and out of creation keep the container as it was
  have hinCreation : ∀ f : List String → List String,
      Keeps (BelowKept n) (onBox fun c => { c with inCreation := f c.inCreation }) :=
    fun _ => Keeps.modify' fun _ h => ⟨h.definitions, h.effective, h.singletons⟩
  refine materializeWith.mutual_induct
    (fun b d name cap => StaysBelow n (·.StampBelow n) (materializeWith b d name cap))
    (fun b d name dfn => dfn.MakesBelow n → StaysBelow n (·.StampBelow n) (create b d name dfn))
    (fun b d ref => (∀ k, ref.owner = .static k → k.MakesBelow n) →
      StaysBelow n (·.StampBelow n) (invokeFactoryMethod b d ref))
    (fun b d cls owner m => ComponentClass.MakesBelow n cls →
      StaysBelow n (·.StampBelow n) (invoke b d cls owner m))
    (fun b d cls owner body steps => ComponentClass.MakesBelow n cls →
      StaysBelow n (fun _ => True) (runSteps b d cls owner body steps))
    (fun b d cls owner m => ComponentClass.MakesBelow n cls →
      StaysBelow n (·.StampBelow n) (call b d cls owner m))
    ?materialize ?factory ?noConstructor ?constructor ?component ?static ?noBody ?body ?nil
    ?callStep ?componentStep ?ownerStep ?failStep ?unreadableStep ?noDecl ?intercepted ?direct
  case materialize =>
    intro budget depth name cap ih
    rw [materializeWith]
    refine .read fun s hs => ?_
    split
    · next i hi =>
      -- a cached singleton has such a stamp
      split
      · exact .pure' (hs.singletons name i hi)
      · exact .throw' _
    · refine .bind (stays_effectiveDefinition name) fun d hd => .read fun s' _ => ?_
      split
      · exact .throw' _
      · split
        · exact .throw' _
        · exact .bind (.of_keeps (hinCreation (· ++ [name])) fun _ => trivial) fun _ _ =>
            .bind (.ensuring (ih d hd) (hinCreation (·.filter (· != name)))) fun i hi =>
              stays_handOut name cap d hi
  case factory =>
    intro budget depth name d ref hfactory ih hd
    rw [create]
    simp only [hfactory]
    exact .bind (ih fun k hk => hd.2 ref k hfactory hk) fun raw hraw =>
      stays_throughChain name d hraw
  case noConstructor =>
    intro budget depth name d hfactory hctor hd
    rw [create]
    simp only [hfactory, hctor]
    exact .bind (.throw' _) fun raw hraw => stays_throughChain name d hraw
  case constructor =>
    intro budget depth name d hfactory ctor hctor hd
    rw [create]
    simp only [hfactory, hctor]
    exact .bind (stays_construct (hd.1.1 ctor hctor)) fun raw hraw => stays_throughChain name d hraw
  case component =>
    intro budget depth ref owner howner ihOwner ihInvoke _
    rw [invokeFactoryMethod]
    simp only [howner]
    -- the method runs on the owner's class, which the owner's definition vouches for
    exact .bind ihOwner fun exposed _ => .read fun m _ =>
      .bind (stays_effectiveDefinition owner) fun d hd => ihInvoke exposed m d hd.1
  case static =>
    intro budget depth ref k hstatic ih hk
    rw [invokeFactoryMethod]
    simp only [hstatic]
    exact ih (hk k hstatic)
  case noBody =>
    intro budget depth cls owner method hbody _
    rw [invoke]
    simp only [hbody]
    exact .throw' _
  case body =>
    intro budget depth cls owner method b hbody ih hcls
    rw [invoke]
    simp only [hbody]
    refine .bind (.of_keeps (hR.keeps_note _) fun _ => trivial) fun _ _ => ?_
    split
    · exact .throw' _
    · next hdepth =>
      exact .bind (ih hdepth hcls) fun results _ =>
        stays_make (stampBelow_bodyResult (hcls.2 method b hbody) results) _
  case nil =>
    intro budget depth cls owner b _
    rw [runSteps]
    exact .pure' trivial
  case callStep =>
    intro budget depth cls owner b rest method ihRest ihCall hcls
    rw [runSteps]
    exact .bind (.map (Q := fun _ => True) (ihCall hcls) fun _ _ => trivial) fun _ _ =>
      .bind (ihRest hcls) fun _ _ => .pure' trivial
  case componentStep =>
    intro budget depth cls owner b rest name ihRest ihMaterialize hcls
    rw [runSteps]
    exact .bind (.map (Q := fun _ => True) ihMaterialize fun _ _ => trivial) fun _ _ =>
      .bind (ihRest hcls) fun _ _ => .pure' trivial
  case ownerStep =>
    intro budget depth cls owner b rest ihRest hcls
    rw [runSteps]
    exact .bind (.pure' (Q := fun _ => True) trivial) fun _ _ =>
      .bind (ihRest hcls) fun _ _ => .pure' trivial
  case failStep =>
    intro budget depth cls owner b rest message ihRest hcls
    rw [runSteps]
    exact .bind (.throw' _) fun _ (_ : True) => .bind (ihRest hcls) fun _ _ => .pure' trivial
  case unreadableStep =>
    intro budget depth cls owner b rest reason ihRest hcls
    rw [runSteps]
    exact .bind (.throw' _) fun _ (_ : True) => .bind (ihRest hcls) fun _ _ => .pure' trivial
  case noDecl =>
    intro budget depth cls owner method hdecl _
    rw [call]
    simp only [hdecl]
    exact .throw' _
  case intercepted =>
    intro budget depth cls owner method decl hdecl hintercepts ih _
    rw [call]
    simp only [hdecl, hintercepts, if_true]
    refine .bind (.of_keeps (keeps_injectedHere owner) fun _ => trivial) fun injected _ => ?_
    split
    · exact .throw' _
    · exact ih
  case direct =>
    intro budget depth cls owner method decl hdecl hdirect ih hcls
    rw [call]
    simp only [hdecl, hdirect]
    exact ih hcls

theorem stays_materialize (name : String) (cap : Capability) :
    StaysBelow n (·.StampBelow n) (materialize name cap) :=
  .read fun _ _ => creation_stays_below.1 _ _ name cap

end Machine

end Wiring
