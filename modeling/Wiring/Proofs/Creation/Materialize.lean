import Wiring.Proofs.Creation.Budget

namespace Wiring

/-! What one call of `materialize` does to its own name. A cached singleton is handed out as it
is, with nothing run. A name in creation fails as a circular reference before anything runs. A
creation that fails leaves the name uncached, and one that succeeds for a singleton caches the
instance for good: every later state the frame of `Wiring.Proofs.Creation.Frame` reaches hands
out the same instance. -/

namespace Machine

variable {b depth : Nat} {name : String} {cap : Capability} {s : Machine}

theorem materializeWith_uncached_ok {i : Instance} {t : Machine}
    (hnone : s.box.singletons.get? name = none) (h : materializeWith b depth name cap s = .ok i t) :
    ∃ d t' b' j u, effectiveDefinition name s = .ok d t' ∧ b = b' + 1 ∧
      create b' depth name d
        { t' with box := { t'.box with inCreation := t'.box.inCreation ++ [name] } } = .ok j u ∧
      handOut name cap d j
        { u with box := { u.box with inCreation := u.box.inCreation.filter (· != name) } } =
          .ok i t := by
  rw [materializeWith_uncached hnone] at h
  cases he : effectiveDefinition name s with
  | error e t' =>
    rw [he] at h
    cases h
  | ok d t' =>
    rw [he] at h
    dsimp only at h
    split at h
    · cases h
    · cases b with
      | zero => cases h
      | succ b =>
        dsimp only at h
        cases hrun : create b depth name d
            { t' with box := { t'.box with inCreation := t'.box.inCreation ++ [name] } } with
        | error e u =>
          rw [hrun] at h
          cases h
        | ok j u =>
          rw [hrun] at h
          exact ⟨d, t', b, j, u, rfl, rfl, hrun, h⟩

theorem effectiveDefinition_of_mem_scope (h : name ∈ s.box.scope) :
    ∃ d, effectiveDefinition name s = .ok d (endState (effectiveDefinition name s)) := by
  simp only [effectiveDefinition, bind_apply, get_apply]
  cases he : s.box.effective.get? name with
  | some d => exact ⟨d, rfl⟩
  | none =>
    cases hd : s.box.definition? name with
    | some d => exact ⟨d, rfl⟩
    | none =>
      exfalso
      rcases Container.mem_scope.1 h with h | h <;> obtain ⟨d, hget⟩ := Roster.mem_keys_iff.1 h
      · exact absurd hget (by rw [← Container.definition?, hd]; simp)
      · exact absurd hget (by rw [he]; simp)

theorem materializeWith_in_creation (hnone : s.box.singletons.get? name = none)
    (hin : name ∈ s.box.inCreation) (hdef : name ∈ s.box.scope) :
    materializeWith b depth name cap s =
      .error (.circularCreation name) (endState (effectiveDefinition name s)) := by
  obtain ⟨d, he⟩ := effectiveDefinition_of_mem_scope hdef
  have hcreation := (effectiveDefinition_box name s).2
  rw [materializeWith_uncached hnone, he]
  dsimp only
  rw [if_pos (by rw [hcreation]; exact List.elem_eq_true_of_mem hin)]
  rfl

theorem materializeWith_error_uncached {e : BootError} {t : Machine}
    (hnone : s.box.singletons.get? name = none) (h : materializeWith b depth name cap s = .error e t) :
    t.box.singletons.get? name = none := by
  rw [materializeWith_uncached hnone] at h
  have hbox := effectiveDefinition_box name s
  cases he : effectiveDefinition name s with
  | error e' t' =>
    rw [he] at h hbox
    cases h
    rw [endState_error] at hbox
    rw [hbox.1]
    exact hnone
  | ok d t' =>
    rw [he] at h hbox
    rw [endState_ok] at hbox
    have hnone' : t'.box.singletons.get? name = none := by rw [hbox.1]; exact hnone
    dsimp only at h
    split at h
    · cases h
      exact hnone'
    · cases b with
      | zero =>
        cases h
        exact hnone'
      | succ b =>
        dsimp only at h
        have hc := creation_persists.2.1 b depth name d
          { t' with box := { t'.box with inCreation := t'.box.inCreation ++ [name] } } (by simp)
          hnone'
        cases hrun : create b depth name d
            { t' with box := { t'.box with inCreation := t'.box.inCreation ++ [name] } } with
        | ok i u =>
          rw [hrun] at h hc
          have hu : u.box.singletons.get? name = none := hc.box.pending name (by simp) hnone'
          dsimp only at h
          rw [handOut_apply] at h
          split at h
          · cases h
          · cases h
            exact hu
        | error e' u =>
          rw [hrun] at h hc
          cases h
          exact hc.box.pending name (by simp) hnone'

theorem materializeWith_ok_cached {i : Instance} {t : Machine}
    (h : materializeWith b depth name cap s = .ok i t) :
    t.box.singletons.get? name = some i ∨
      (s.box.singletons.get? name = none ∧
        ∃ d u, effectiveDefinition name s = .ok d u ∧ d.isSingleton = false) := by
  cases hs : s.box.singletons.get? name with
  | some j =>
    rw [materializeWith_cached hs] at h
    split at h
    · cases h
      exact .inl hs
    · cases h
  | none =>
    obtain ⟨d, t', _, j, u, he, -, -, hout⟩ := materializeWith_uncached_ok hs h
    rw [handOut_apply] at hout
    split at hout
    · -- the instance is handed out; only a singleton definition caches it
      simp only [EStateM.Result.ok.injEq] at hout
      obtain ⟨rfl, rfl⟩ := hout
      cases hsingle : d.isSingleton
      · exact .inr ⟨rfl, d, t', he, hsingle⟩
      · left
        simp [Roster.get?_insert]
    · cases hout

theorem materializeWith_of_cached {i : Instance} (h : s.box.singletons.get? name = some i) :
    materializeWith b depth name cap s = .ok i s ∨
      materializeWith b depth name cap s = .error (.capabilityMismatch name cap) s := by
  rw [materializeWith_cached h]
  split
  · exact .inl rfl
  · exact .inr rfl

theorem materializeWith_of_in_creation (hin : name ∈ s.box.inCreation) :
    endState (materializeWith b depth name cap s) = s ∨
      endState (materializeWith b depth name cap s) = endState (effectiveDefinition name s) := by
  cases hs : s.box.singletons.get? name with
  | some i =>
    left
    rcases materializeWith_of_cached hs with h | h <;> rw [h] <;> rfl
  | none =>
    right
    have hcreation := (effectiveDefinition_box name s).2
    rw [materializeWith_uncached hs]
    cases he : effectiveDefinition name s with
    | error e t => rfl
    | ok d t =>
      rw [he, endState_ok] at hcreation
      dsimp only
      rw [if_pos (by rw [hcreation]; exact List.elem_eq_true_of_mem hin)]
      rfl

/-- The contract of one call for its own name, at any budget and depth, so for nested calls
too. The names in creation come back as they were, and a name in creation is never created
again, so the names in creation are the distinct names of the creations running. The creations
a call begins nest no deeper than the names with a definition out of creation, and with the
names already in creation they nest at most as deep as there are definitions; the budget
`materialize` starts with never stops it. A name not cached, with a definition and in creation
fails as a circular reference having only read its definition; a failed call does not cache its
name; and a successful call for a singleton leaves its instance to every later state that keeps
the cached singletons, which hands it out unchanged (or refuses the capability) without running
anything. -/
theorem creation_contract (b depth : Nat) (name : String) (cap : Capability) (s : Machine) :
    (endState (materializeWith b depth name cap s)).box.inCreation = s.box.inCreation ∧
    (name ∈ s.box.inCreation →
      endState (materializeWith b depth name cap s) = s ∨
        endState (materializeWith b depth name cap s) = endState (effectiveDefinition name s)) ∧
    (∀ b', s.box.gap ≤ b' →
      materializeWith b' depth name cap s = materializeWith s.box.gap depth name cap s) ∧
    (s.box.inCreation.Nodup → (∀ n ∈ s.box.inCreation, n ∈ s.box.scope) →
      (∀ n ∈ s.box.effective.keys, n ∈ s.box.definitions.keys) →
      s.box.inCreation.length + s.box.gap ≤ s.box.definitions.size) ∧
    (∀ k, materializeWith (creationBudget s + k) 0 name cap s = materialize name cap s) ∧
    (s.box.singletons.get? name = none → name ∈ s.box.inCreation → name ∈ s.box.scope →
      materializeWith b depth name cap s =
        .error (.circularCreation name) (endState (effectiveDefinition name s))) ∧
    (∀ e t, materializeWith b depth name cap s = .error e t →
      s.box.singletons.get? name = none → t.box.singletons.get? name = none) ∧
    (∀ i t, materializeWith b depth name cap s = .ok i t →
      (∀ u : Machine, t.box.KeepsSingletons u.box → ∀ b' depth' cap',
        materializeWith b' depth' name cap' u = .ok i u ∨
          materializeWith b' depth' name cap' u = .error (.capabilityMismatch name cap') u) ∨
      (s.box.singletons.get? name = none ∧
        ∃ d u, effectiveDefinition name s = .ok d u ∧ d.isSingleton = false)) := by
  refine ⟨(creation_persists.1 b depth name cap s).box.inCreation_eq,
    materializeWith_of_in_creation, fun _ hb => materializeWith_gap_suffices hb,
    fun hnodup hin heff => ?_, materialize_budget_suffices name cap s, materializeWith_in_creation,
    fun e t h hnone => materializeWith_error_uncached hnone h, fun i t h => ?_⟩
  · rw [Container.length_add_gap hnodup hin]
    exact Container.scope_card_le heff
  · rcases materializeWith_ok_cached h with hcached | hprototype
    · exact .inl fun u hu _ _ _ => materializeWith_of_cached (hu name i hcached)
    · exact .inr hprototype

theorem nested_self_lookup_is_circular :
    materializeWith 1 1 "looping" .component
        { box := { Container.create ⟨0⟩ true with
            definitions := Roster.empty.insert "looping" (.ofClass (.bare "app.Loop"))
            inCreation := ["looping"] } } =
      .error (.circularCreation "looping")
        { box := { Container.create ⟨0⟩ true with
            definitions := Roster.empty.insert "looping" (.ofClass (.bare "app.Loop"))
            effective := Roster.empty.insert "looping" (.ofClass (.bare "app.Loop"))
            inCreation := ["looping"] } } :=
  (creation_contract 1 1 "looping" .component _).2.2.2.2.2.1 rfl (List.mem_singleton.2 rfl)
    (Container.mem_scope.2 (.inl (Roster.mem_keys_iff.2 ⟨_, rfl⟩)))

def selfLookupClass : ComponentClass :=
  { ComponentClass.bare "app.LoopConfig" with
    bodies := Roster.empty.insert "looping"
      ⟨"app.LoopConfig", "looping", [.component "looping"], .value "looping"⟩ }

def selfLookupDefinition : Definition :=
  { cls := .bare "app.Loop", factory := some ⟨.static selfLookupClass, "looping"⟩ }

/-- A circular reference found inside a creation fails every creation around it with the same
error: `looping` is neither cached nor in creation when it is asked for, and the call still fails
as a circular reference to `looping`, found by its own body's lookup. -/
theorem self_lookup_fails_outside_creation :
    ∃ t, materialize "looping" .component
        { box := { Container.create ⟨0⟩ true with
            definitions := Roster.empty.insert "looping" selfLookupDefinition } } =
      .error (.circularCreation "looping") t ∧
      (Container.create ⟨0⟩ true).singletons.get? "looping" = none ∧
      "looping" ∉ (Container.create ⟨0⟩ true).inCreation := by
  -- the body of `looping` looks `looping` up while it is in creation
  have hcreate : ∀ p : Machine, p.box.singletons.get? "looping" = none →
      "looping" ∈ p.box.inCreation → "looping" ∈ p.box.scope →
      ∃ u, create 0 0 "looping" selfLookupDefinition p = .error (.circularCreation "looping") u := by
    intro p hnone hin hscope
    rw [create]
    simp only [selfLookupDefinition]
    rw [bind_apply, invokeFactoryMethod]
    dsimp only
    rw [invoke, show selfLookupClass.body? "looping" =
      some ⟨"app.LoopConfig", "looping", [.component "looping"], .value "looping"⟩ from rfl]
    dsimp only
    rw [bind_apply, note, modify_apply]
    dsimp only
    rw [dif_neg (by decide), bind_apply, runSteps, bind_apply, map_apply,
      materializeWith_in_creation (s := { p with journal := p.journal.push _ }) hnone hin hscope]
    exact ⟨_, rfl⟩
  -- so its creation, started with the name out of creation, fails the same way
  have hrun : ∀ s t : Machine, s.box.singletons.get? "looping" = none →
      effectiveDefinition "looping" s = .ok selfLookupDefinition t → "looping" ∉ t.box.inCreation →
      ∃ u, materializeWith 1 0 "looping" .component s = .error (.circularCreation "looping") u := by
    intro s t hnone he hfree
    have hbox := effectiveDefinition_box "looping" s
    rw [he, endState_ok] at hbox
    rw [materializeWith_uncached hnone, he]
    dsimp only
    rw [if_neg (by simpa using hfree)]
    obtain ⟨u, hu⟩ := hcreate
      { t with box := { t.box with inCreation := t.box.inCreation ++ ["looping"] } }
      (by rw [← hnone, ← hbox.1]) (by simp)
      (show "looping" ∈ t.box.scope from mem_scope_of_effectiveDefinition he)
    rw [hu]
    exact ⟨_, rfl⟩
  obtain ⟨u, hu⟩ := hrun { box := { Container.create ⟨0⟩ true with
      definitions := Roster.empty.insert "looping" selfLookupDefinition } } _ rfl rfl (by decide)
  exact ⟨u, hu, rfl, by decide⟩

end Machine

end Wiring
