import Wiring.Proofs.Creation.Frame

namespace Wiring

/-! The nesting budget of creation never runs out. A creation nested in another takes one more
name with a definition into creation, and names in creation are never taken again, so the names
with a definition that are not in creation bound how deep creations can still nest. That bound
never grows while a creation runs, and `materialize` starts with a budget at least as large:
giving any creation more budget than the bound changes nothing. -/

namespace Container

/-- How many names with a definition are not in creation. -/
def gap (c : Container) : Nat :=
  (c.scope \ c.inCreation.toFinset).card

theorem gap_le_budget (c : Container) : c.gap ≤ c.definitions.size + c.effective.size := by
  calc c.gap ≤ c.scope.card := Finset.card_le_card Finset.sdiff_subset
    _ ≤ c.definitions.keys.toFinset.card + c.effective.keys.toFinset.card :=
      Finset.card_union_le _ _
    _ ≤ c.definitions.keys.length + c.effective.keys.length :=
      Nat.add_le_add (List.toFinset_card_le _) (List.toFinset_card_le _)
    _ = c.definitions.size + c.effective.size := by simp [Roster.keys, Roster.size]

theorem length_add_gap {c : Container} (hnodup : c.inCreation.Nodup)
    (hin : ∀ n ∈ c.inCreation, n ∈ c.scope) : c.inCreation.length + c.gap = c.scope.card := by
  have hsub : c.inCreation.toFinset ⊆ c.scope := fun n hn => hin n (List.mem_toFinset.1 hn)
  have hcard := Finset.card_le_card hsub
  unfold gap
  rw [Finset.card_sdiff_of_subset hsub, List.toFinset_card_of_nodup hnodup] at *
  omega

theorem scope_card_le {c : Container} (heff : ∀ n ∈ c.effective.keys, n ∈ c.definitions.keys) :
    c.scope.card ≤ c.definitions.size := by
  have hscope : c.scope ⊆ c.definitions.keys.toFinset := by
    intro n hn
    rcases mem_scope.1 hn with hn | hn
    · exact List.mem_toFinset.2 hn
    · exact List.mem_toFinset.2 (heff n hn)
  calc c.scope.card ≤ c.definitions.keys.toFinset.card := Finset.card_le_card hscope
    _ ≤ c.definitions.keys.length := List.toFinset_card_le _
    _ = c.definitions.size := by simp [Roster.keys, Roster.size]

theorem gap_mono {c c' : Container} (hscope : c'.scope ⊆ c.scope)
    (hcreation : c'.inCreation = c.inCreation) : c'.gap ≤ c.gap := by
  unfold gap
  rw [hcreation]
  exact Finset.card_le_card (Finset.sdiff_subset_sdiff hscope le_rfl)

theorem gap_push {c : Container} {n : String} (hn : n ∈ c.scope) (hfree : n ∉ c.inCreation) :
    { c with inCreation := c.inCreation ++ [n] }.gap + 1 = c.gap := by
  have hmem : n ∈ c.scope \ c.inCreation.toFinset := by simp [hn, hfree]
  unfold gap
  simp only [List.toFinset_append, List.toFinset_cons, List.toFinset_nil, insert_empty_eq,
    Finset.union_singleton, Finset.sdiff_insert]
  exact Finset.card_erase_add_one hmem

theorem pos_gap {c : Container} {n : String} (hn : n ∈ c.scope) (hfree : n ∉ c.inCreation) :
    0 < c.gap :=
  Finset.card_pos.2 ⟨n, by simp [hn, hfree]⟩

end Container

namespace Machine

theorem Persists.gap_le {s t : Machine} (h : Persists s t) : t.box.gap ≤ s.box.gap :=
  Container.gap_mono h.scope h.box.inCreation_eq

theorem mem_scope_of_effectiveDefinition {name : String} {s t : Machine} {d : Definition}
    (h : effectiveDefinition name s = .ok d t) : name ∈ t.box.scope := by
  simp only [effectiveDefinition, bind_apply, get_apply] at h
  cases he : s.box.effective.get? name with
  | some d' =>
    rw [he] at h
    cases h
    exact Container.mem_scope.2 (.inr (Roster.mem_keys_iff.2 ⟨_, he⟩))
  | none =>
    rw [he] at h
    cases hd : s.box.definition? name with
    | none => rw [hd] at h; cases h
    | some d' =>
      rw [hd] at h
      cases h
      exact Container.mem_scope.2 (.inl (Roster.mem_keys_iff.2 ⟨_, hd⟩))

def Agree {α : Type} (b : Nat) (x y : Step α) : Prop :=
  ∀ s, s.box.gap ≤ b → x s = y s

namespace Agree

variable {α β : Type} {b : Nat}

theorem refl (x : Step α) : Agree b x x :=
  fun _ _ => rfl

theorem bind {x y : Step α} {k k' : α → Step β} (hxy : Agree b x y) (hy : Keeps Persists y)
    (hk : ∀ a, Agree b (k a) (k' a)) : Agree b (x >>= k) (y >>= k') := by
  intro s hs
  rw [bind_apply, bind_apply, hxy s hs]
  have hys := hy s
  cases h : y s with
  | ok a t =>
    rw [h] at hys
    exact hk a t (le_trans hys.gap_le hs)
  | error e t => rfl

theorem map {x y : Step α} (f : α → β) (hxy : Agree b x y) : Agree b (f <$> x) (f <$> y) := by
  intro s hs
  rw [map_apply, map_apply, hxy s hs]

end Agree

/-- Materializing with one more budget agrees while the gap is within the budget, when the
creation it may start does: with no budget left the name would be the last one with a
definition out of creation, and a name found in creation fails before the budget is read. -/
theorem agree_materializeWith {b depth : Nat} {name : String} {cap : Capability}
    (hcreate : ∀ b', b = b' + 1 → ∀ d,
      Agree b' (create (b' + 1) depth name d) (create b' depth name d)) :
    Agree b (materializeWith (b + 1) depth name cap) (materializeWith b depth name cap) := by
  intro s hs
  cases hnone : s.box.singletons.get? name with
  | some i => rw [materializeWith_cached hnone, materializeWith_cached hnone]
  | none =>
    rw [materializeWith_uncached hnone, materializeWith_uncached hnone]
    cases he : effectiveDefinition name s with
    | error e t => rfl
    | ok d s₁ =>
      have hed := (keeps_effectiveDefinition name).of_ok he
      have hmem := mem_scope_of_effectiveDefinition he
      dsimp only
      split
      · rfl
      · next hfree =>
        have hfree' : name ∉ s₁.box.inCreation := by simpa using hfree
        have hpush := Container.gap_push hmem hfree'
        have hle := hed.gap_le
        cases b with
        | zero => exact absurd (Container.pos_gap hmem hfree') (by omega)
        | succ b' =>
          dsimp only
          rw [hcreate b' rfl d _ (by simp only at hpush ⊢; omega)]

/-- One more budget changes no function of the creation block while the gap is within the
budget. By the functions' own induction; the frame of each first step keeps the gap within the
budget for the steps after it. -/
theorem budget_agrees :
    (∀ b d n c, Agree b (materializeWith (b + 1) d n c) (materializeWith b d n c)) ∧
    (∀ b d n dfn, Agree b (create (b + 1) d n dfn) (create b d n dfn)) ∧
    (∀ b d ref, Agree b (invokeFactoryMethod (b + 1) d ref) (invokeFactoryMethod b d ref)) ∧
    (∀ b d cls owner m, Agree b (invoke (b + 1) d cls owner m) (invoke b d cls owner m)) ∧
    (∀ b d cls owner body steps,
      Agree b (runSteps (b + 1) d cls owner body steps) (runSteps b d cls owner body steps)) ∧
    (∀ b d cls owner m, Agree b (call (b + 1) d cls owner m) (call b d cls owner m)) := by
  obtain ⟨hmat, -, hfac, hinv, hsteps, hcall⟩ := creation_persists
  refine materializeWith.mutual_induct
    (fun b d n c => Agree b (materializeWith (b + 1) d n c) (materializeWith b d n c))
    (fun b d n dfn => Agree b (create (b + 1) d n dfn) (create b d n dfn))
    (fun b d ref => Agree b (invokeFactoryMethod (b + 1) d ref) (invokeFactoryMethod b d ref))
    (fun b d cls owner m => Agree b (invoke (b + 1) d cls owner m) (invoke b d cls owner m))
    (fun b d cls owner body steps =>
      Agree b (runSteps (b + 1) d cls owner body steps) (runSteps b d cls owner body steps))
    (fun b d cls owner m => Agree b (call (b + 1) d cls owner m) (call b d cls owner m))
    (fun _ _ _ _ ih => agree_materializeWith fun _ hb d => by subst hb; exact ih d) ?factory
    ?noConstructor ?constructor ?component ?static ?noBody ?body ?nil ?callStep ?componentStep
    ?ownerStep ?failStep ?unreadableStep ?noDecl ?intercepted ?direct
  case factory =>
    intro budget depth name d ref hfactory ih
    rw [create, create]
    simp only [hfactory]
    exact Agree.bind ih (hfac _ _ _) fun raw => Agree.refl _
  case noConstructor =>
    intro budget depth name d hfactory hctor
    rw [create, create]
    simp only [hfactory, hctor]
    exact Agree.refl _
  case constructor =>
    intro budget depth name d hfactory ctor hctor
    rw [create, create]
    simp only [hfactory, hctor]
    exact Agree.refl _
  case component =>
    intro budget depth ref owner howner ihOwner ihInvoke
    rw [invokeFactoryMethod, invokeFactoryMethod]
    simp only [howner]
    exact Agree.bind ihOwner (hmat _ _ _ _) fun exposed => Agree.bind (Agree.refl _) Keeps.get'
      fun m => Agree.bind (Agree.refl _) (keeps_effectiveDefinition owner) fun d =>
        ihInvoke exposed m d
  case static =>
    intro budget depth ref k hstatic ih
    rw [invokeFactoryMethod, invokeFactoryMethod]
    simp only [hstatic]
    exact ih
  case noBody =>
    intro budget depth cls owner method hbody
    rw [invoke, invoke]
    simp only [hbody]
    exact Agree.refl _
  case body =>
    intro budget depth cls owner method b hbody ih
    rw [invoke, invoke]
    simp only [hbody]
    refine Agree.bind (Agree.refl _) (keeps_of_hooked (hookFrame_hooked.keeps_note _)) fun _ => ?_
    by_cases hdepth : depth + 1 > bodyDepthLimit
    · rw [dif_pos hdepth, dif_pos hdepth]
      exact Agree.refl _
    · rw [dif_neg hdepth, dif_neg hdepth]
      exact Agree.bind (ih hdepth) (hsteps _ _ _ _ _ _) fun results => Agree.refl _
  case nil =>
    intro budget depth cls owner b
    rw [runSteps, runSteps]
    exact Agree.refl _
  case callStep =>
    intro budget depth cls owner b rest method ihRest ihCall
    rw [runSteps, runSteps]
    exact Agree.bind (Agree.map _ ihCall) (Keeps.map _ (hcall _ _ _ _ _)) fun r =>
      Agree.bind ihRest (hsteps _ _ _ _ _ _) fun _ => Agree.refl _
  case componentStep =>
    intro budget depth cls owner b rest name ihRest ihMaterialize
    rw [runSteps, runSteps]
    exact Agree.bind (Agree.map _ ihMaterialize) (Keeps.map _ (hmat _ _ _ _)) fun r =>
      Agree.bind ihRest (hsteps _ _ _ _ _ _) fun _ => Agree.refl _
  case ownerStep =>
    intro budget depth cls owner b rest ihRest
    rw [runSteps, runSteps]
    exact Agree.bind (Agree.refl _) (Keeps.pure' _) fun r =>
      Agree.bind ihRest (hsteps _ _ _ _ _ _) fun _ => Agree.refl _
  case failStep =>
    intro budget depth cls owner b rest message ihRest
    rw [runSteps, runSteps]
    exact Agree.bind (Agree.refl _) (Keeps.throw' _) fun r =>
      Agree.bind ihRest (hsteps _ _ _ _ _ _) fun _ => Agree.refl _
  case unreadableStep =>
    intro budget depth cls owner b rest reason ihRest
    rw [runSteps, runSteps]
    exact Agree.bind (Agree.refl _) (Keeps.throw' _) fun r =>
      Agree.bind ihRest (hsteps _ _ _ _ _ _) fun _ => Agree.refl _
  case noDecl =>
    intro budget depth cls owner method hdecl
    rw [call, call]
    simp only [hdecl]
    exact Agree.refl _
  case intercepted =>
    intro budget depth cls owner method decl hdecl hintercepts ih
    rw [call, call]
    simp only [hdecl, hintercepts, if_true]
    refine Agree.bind (Agree.refl _) (keeps_of_hooked (keeps_injectedHere owner))
      fun injected => ?_
    by_cases hinjected : injected = true
    · simpa [hinjected] using ih
    · simp only [hinjected]
      exact Agree.refl _
  case direct =>
    intro budget depth cls owner method decl hdecl hdirect ih
    rw [call, call]
    simp only [hdecl, hdirect]
    exact ih

theorem materializeWith_budget_add {b depth : Nat} {name : String} {cap : Capability} {s : Machine}
    (hs : s.box.gap ≤ b) (k : Nat) :
    materializeWith (b + k) depth name cap s = materializeWith b depth name cap s := by
  induction k with
  | zero => rfl
  | succ k ih => rw [← Nat.add_assoc, budget_agrees.1 (b + k) depth name cap s (by omega), ih]

theorem materializeWith_gap_suffices {b depth : Nat} {name : String} {cap : Capability}
    {s : Machine} (hb : s.box.gap ≤ b) :
    materializeWith b depth name cap s = materializeWith s.box.gap depth name cap s := by
  obtain ⟨k, rfl⟩ := Nat.exists_eq_add_of_le hb
  exact materializeWith_budget_add le_rfl k

theorem materialize_budget_suffices (name : String) (cap : Capability) (s : Machine) (k : Nat) :
    materializeWith (creationBudget s + k) 0 name cap s = materialize name cap s := by
  have hs : s.box.gap ≤ creationBudget s := Container.gap_le_budget s.box
  rw [materializeWith_budget_add hs k]
  rfl

end Machine

end Wiring
