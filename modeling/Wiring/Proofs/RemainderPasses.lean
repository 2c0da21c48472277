import Wiring.Proofs.TierDiscipline
import Wiring.Proofs.Expansion.Guard
import Wiring.Proofs.Expansion.Overriding
import Wiring.Proofs.Expansion.Writes

namespace Wiring

/-! The remainder passes stop. Each pass takes the registry processors not processed yet, marks
them processed and runs them; what they run may register more. A processed name is never
unmarked, and no write of the registry phase removes a name from the table or moves one, so every
pass marks at least one registered name that was not marked before. The passes are therefore at
most the names registered by the end of the loop and not processed at its start: the measure is
the registered names left unprocessed, out of the names the run registers. -/

def Container.NamesKept (c c' : Container) : Prop := c.names <+: c'.names

instance : Std.Refl Container.NamesKept := ⟨fun c => List.prefix_refl c.names⟩

instance : Trans Container.NamesKept Container.NamesKept Container.NamesKept :=
  ⟨List.IsPrefix.trans⟩

namespace Container

theorem namesKept_of_definitions_eq {c c' : Container} (h : c'.definitions = c.definitions) :
    NamesKept c c' := by
  rw [NamesKept, names, names, h]

theorem expansionFrame_namesKept : ExpansionFrame NamesKept where
  register _ _ _ _ h := register_keeps_names h
  mark c _ name _ _ := by rw [NamesKept, names_modifyDefinition]
  publish _ _ _ _ h := namesKept_of_definitions_eq (definitions_registerSingleton h)

end Container

namespace Machine

open Wiring.Container

theorem namesKept_of_untouched {s t : Machine} (h : Untouched s t) : OnBox NamesKept s t :=
  namesKept_of_definitions_eq h.definitions_eq

theorem namesKept_materialize (name : String) (cap : Capability) :
    Keeps (OnBox NamesKept) (materialize name cap) :=
  (untouched_materialize name cap).weaken fun _ _ => namesKept_of_untouched

theorem namesKept_make (r : Recipe) (who : String) : Keeps (OnBox NamesKept) (make r who) :=
  (hookFrame_untouched.keeps_make r who).weaken fun _ _ => namesKept_of_untouched

theorem namesKept_registerSpec (spec : DefinitionSpec) :
    Keeps (OnBox NamesKept) (registerSpec spec) :=
  Keeps.read fun _ => keeps_updateBox fun _ _ h => register_keeps_names h

theorem namesKept_note (entry : String) : Keeps (ε := BootError) (OnBox NamesKept) (note entry) :=
  Keeps.modify' fun s => Std.Refl.refl (r := NamesKept) s.box

theorem namesKept_mutate (label name : String) (change : Mutation) :
    Keeps (OnBox NamesKept) (mutate label name change) := by
  unfold mutate
  refine Keeps.read fun s => ?_
  split
  · refine Keeps.bind (Keeps.modify' fun s => ?_) fun _ => ?_
    · show NamesKept s.box (s.box.modifyDefinition _ _)
      rw [NamesKept, names_modifyDefinition]
    · split
      · exact Keeps.throw' _
      · exact Keeps.pure' _
  · exact namesKept_note _

theorem namesKept_registryActions (label : String) :
    ∀ acts : List (RegistryAction Recipe), Keeps (OnBox NamesKept) (registryActions label acts)
  | [] => Keeps.pure' _
  | a :: rest => by
    unfold registryActions
    have hrest := namesKept_registryActions label rest
    dsimp only
    cases a with
    | register spec => exact Keeps.bind (namesKept_registerSpec spec) fun _ => hrest
    | registerSingleton name value =>
      refine Keeps.bind (namesKept_make value label) fun _ => Keeps.bind ?_ fun _ => hrest
      exact keeps_updateBox fun _ _ h =>
        namesKept_of_definitions_eq (definitions_registerSingleton h)
    | mutate name change => exact Keeps.bind (namesKept_mutate label name change) fun _ => hrest
    | listNames => exact Keeps.read fun _ => Keeps.bind (namesKept_note _) fun _ => hrest
    | fail message => exact Keeps.bind (Keeps.throw' _) fun _ => hrest
    | unreadable reason => exact Keeps.bind (Keeps.throw' _) fun _ => hrest

theorem namesKept_markPhase (i : Nat) (phase : Phase) :
    Keeps (OnBox NamesKept) (markPhase i phase) := by
  intro s
  rw [markPhase_apply]
  split <;> exact Std.Refl.refl (r := NamesKept) s.box

theorem namesKept_postRegistry : ∀ p : PostProcessor, Keeps (OnBox NamesKept) (postRegistry p)
  | .registry _ script =>
    Keeps.bind (namesKept_note _) fun _ => namesKept_registryActions script.label _
  | .factory _ _ => Keeps.pure' _
  | .expansion i =>
    Keeps.bind (Keeps.discard (namesKept_markPhase i _)) fun _ =>
      Keeps.discard (expansionFrame_namesKept.keeps_expand i)

theorem namesKept_registryBatch :
    ∀ (processed names : List String), Keeps (OnBox NamesKept) (registryBatch processed names)
  | processed, [] => Keeps.pure' _
  | processed, name :: rest => by
    unfold registryBatch
    refine Keeps.read fun s => Keeps.bind (namesKept_materialize name _) fun i => ?_
    -- whichever way the instance is checked, the rest of the batch follows
    have hrest : ∀ p : PostProcessor, Keeps (OnBox NamesKept)
        (registryBatch (processed ++ [name]) rest >>= fun batch =>
          pure ((⟨name, s.box.classify name, p.order, p⟩ : Ranked PostProcessor) :: batch.1,
            batch.2)) :=
      fun _ => Keeps.bind (namesKept_registryBatch _ rest) fun _ => Keeps.pure' _
    dsimp only
    split
    · split
      · exact Keeps.bind (Keeps.pure' _) hrest
      · exact Keeps.bind (Keeps.throw' _) hrest
    · exact Keeps.bind (Keeps.throw' _) hrest

theorem namesKept_runRegistryBatch :
    ∀ (done : List PostProcessor) (rs : List (Ranked PostProcessor)),
      Keeps (OnBox NamesKept) (runRegistryBatch done rs)
  | _, [] => Keeps.pure' _
  | _, r :: rest =>
    Keeps.bind (namesKept_postRegistry r.processor) fun _ => namesKept_runRegistryBatch _ rest

theorem namesKept_registryPass (processed : List String) (done : List PostProcessor)
    (names : List String) : Keeps (OnBox NamesKept) (registryPass processed done names) :=
  Keeps.bind (namesKept_registryBatch processed names) fun _ =>
    Keeps.bind (namesKept_runRegistryBatch _ _) fun _ => Keeps.pure' _

theorem namesKept_remainderPasses :
    ∀ (fuel : Nat) (processed : List String) (done : List PostProcessor),
      Keeps (OnBox NamesKept) (remainderPasses fuel processed done)
  | 0, processed, done => by
    unfold remainderPasses
    refine Keeps.bind (Keeps.read fun _ => Keeps.pure' _) fun names => ?_
    split
    · exact Keeps.pure' _
    · exact Keeps.throw' _
  | fuel + 1, processed, done => by
    unfold remainderPasses
    refine Keeps.bind (Keeps.read fun _ => Keeps.pure' _) fun names => ?_
    split
    · exact Keeps.pure' _
    · exact Keeps.bind (namesKept_registryPass _ _ _) fun _ => namesKept_remainderPasses fuel _ _

/-- The registry processors not processed yet, in registration order: what the next remainder
pass takes. -/
def unprocessedNames (processed : List String) (s : Machine) : List String :=
  (s.box.namesFor .registryProcessor true false).filter (!processed.contains ·)

theorem mem_unprocessedNames {processed : List String} {s : Machine} {n : String}
    (h : n ∈ unprocessedNames processed s) : n ∈ s.box.names ∧ n ∉ processed := by
  rw [unprocessedNames, List.mem_filter] at h
  exact ⟨mem_names_of_mem_namesFor h.1, by simpa using h.2⟩

theorem remainderPasses_apply (fuel : Nat) (processed : List String) (done : List PostProcessor)
    (s : Machine) :
    remainderPasses fuel processed done s =
      if unprocessedNames processed s = [] then .ok (processed, done) s
      else match fuel with
        | 0 => .error passLimitError s
        | fuel + 1 =>
          match registryPass processed done (unprocessedNames processed s) s with
          | .ok (processed', done') u => remainderPasses fuel processed' done' u
          | .error e t => .error e t := by
  rw [remainderPasses]
  simp only [bind_apply, unprocessedRegistryNames_apply, List.isEmpty_iff]
  by_cases hnone : unprocessedNames processed s = []
  · simp only [unprocessedNames] at hnone
    simp only [unprocessedNames, hnone, if_true]
    rfl
  · simp only [unprocessedNames] at hnone
    simp only [unprocessedNames, hnone, if_false]
    cases fuel with
    | zero => rfl
    | succ fuel =>
      simp only [bind_apply]
      cases registryPass processed done _ s <;> rfl

/-- The remainder loop from `processed` and `done` in `s` makes `p` passes and ends with `r`: it
stops when no registry processor is left unprocessed, and otherwise runs a pass over those left,
which either fails, ending the loop, or succeeds, and the loop goes on. -/
inductive Remains : Nat → List String → List PostProcessor → Machine →
    EStateM.Result BootError Machine (List String × List PostProcessor) → Prop
  | settled {processed : List String} {done : List PostProcessor} {s : Machine} :
      unprocessedNames processed s = [] → Remains 0 processed done s (.ok (processed, done) s)
  | failed {processed : List String} {done : List PostProcessor} {s t : Machine} {e : BootError} :
      unprocessedNames processed s ≠ [] →
      registryPass processed done (unprocessedNames processed s) s = .error e t →
      Remains 1 processed done s (.error e t)
  | pass {p : Nat} {processed processed' : List String} {done done' : List PostProcessor}
      {s u : Machine} {r : EStateM.Result BootError Machine (List String × List PostProcessor)} :
      unprocessedNames processed s ≠ [] →
      registryPass processed done (unprocessedNames processed s) s = .ok (processed', done') u →
      Remains p processed' done' u r → Remains (p + 1) processed done s r

theorem Remains.remainderPasses_eq {p : Nat} {processed : List String} {done : List PostProcessor}
    {s : Machine} {r : EStateM.Result BootError Machine (List String × List PostProcessor)}
    (h : Remains p processed done s r) :
      ∀ fuel, p ≤ fuel → remainderPasses fuel processed done s = r := by
  induction h with
  | settled hnone =>
    intro fuel _
    rw [remainderPasses_apply, if_pos hnone]
  | failed hne hpass =>
    intro fuel hfuel
    obtain ⟨fuel, rfl⟩ : ∃ f, fuel = f + 1 := ⟨fuel - 1, by omega⟩
    rw [remainderPasses_apply, if_neg hne]
    simp only [hpass]
  | pass hne hpass _ ih =>
    intro fuel hfuel
    obtain ⟨fuel, rfl⟩ : ∃ f, fuel = f + 1 := ⟨fuel - 1, by omega⟩
    rw [remainderPasses_apply, if_neg hne]
    simp only [hpass]
    exact ih fuel (by omega)

theorem Remains.namesKept {p : Nat} {processed : List String} {done : List PostProcessor}
    {s : Machine} {r : EStateM.Result BootError Machine (List String × List PostProcessor)}
    (h : Remains p processed done s r) : NamesKept s.box (endState r).box := by
  have hkeep := namesKept_remainderPasses p processed done s
  rw [h.remainderPasses_eq p (Nat.le_refl p)] at hkeep
  exact hkeep

theorem card_unprocessed_lt {E processed names : List String} {n : String} (hn : n ∈ names)
    (hE : n ∈ E) (hfree : n ∉ processed) :
    (E.toFinset \ (processed ++ names).toFinset).card < (E.toFinset \ processed.toFinset).card := by
  apply Finset.card_lt_card
  rw [Finset.ssubset_iff_of_subset]
  · exact ⟨n, by simp [hE, hfree], by simp [hn]⟩
  · apply Finset.sdiff_subset_sdiff (Finset.Subset.refl _)
    rw [List.toFinset_append]
    exact Finset.subset_union_left

theorem card_unprocessed_pos {processed : List String} {s : Machine} {E : List String}
    (hne : unprocessedNames processed s ≠ []) (hE : s.box.names <+: E) :
    0 < (E.toFinset \ processed.toFinset).card := by
  obtain ⟨n, hn⟩ := List.exists_mem_of_ne_nil _ hne
  obtain ⟨hs, hfree⟩ := mem_unprocessedNames hn
  exact Finset.card_pos.2 ⟨n, by simp [hE.subset hs, hfree]⟩

theorem card_after_pass {processed processed' : List String} {done done' : List PostProcessor}
    {s u : Machine} {E : List String} (hne : unprocessedNames processed s ≠ [])
    (hpass : registryPass processed done (unprocessedNames processed s) s =
      .ok (processed', done') u)
    (hE : u.box.names <+: E) :
    (E.toFinset \ processed'.toFinset).card < (E.toFinset \ processed.toFinset).card := by
  obtain ⟨n, hn⟩ := List.exists_mem_of_ne_nil _ hne
  obtain ⟨hs, hfree⟩ := mem_unprocessedNames hn
  obtain ⟨-, -, hprocessed, -⟩ := registryPass_calls hpass
  have hsu : s.box.names <+: u.box.names := (namesKept_registryPass _ _ _).of_ok hpass
  rw [hprocessed]
  exact card_unprocessed_lt hn ((hsu.trans hE).subset hs) hfree

theorem Remains.passes_le {p : Nat} {processed : List String} {done : List PostProcessor}
    {s : Machine} {r : EStateM.Result BootError Machine (List String × List PostProcessor)}
    (h : Remains p processed done s r) :
    p ≤ ((endState r).box.names.toFinset \ processed.toFinset).card := by
  induction h with
  | settled _ => exact Nat.zero_le _
  | @failed processed done s t e hne hpass =>
    -- the failing pass took a registered name that was not processed, and it stays registered
    exact card_unprocessed_pos hne ((namesKept_registryPass _ _ _).of_error hpass)
  | pass hne hpass hrest ih =>
    have hlt := card_after_pass hne hpass hrest.namesKept
    omega

theorem remains_of_card_le : ∀ (fuel : Nat) (processed : List String) (done : List PostProcessor)
    (s : Machine),
    ((endState (remainderPasses fuel processed done s)).box.names.toFinset \
      processed.toFinset).card ≤ fuel →
    ∃ p, p ≤ fuel ∧ Remains p processed done s (remainderPasses fuel processed done s) := by
  intro fuel
  induction fuel with
  | zero =>
    intro processed done s hcard
    by_cases hnone : unprocessedNames processed s = []
    · rw [remainderPasses_apply, if_pos hnone]
      exact ⟨0, Nat.le_refl 0, .settled hnone⟩
    · -- a spent bound would leave a registered name unprocessed
      rw [remainderPasses_apply, if_neg hnone, endState_error] at hcard
      have hpos := card_unprocessed_pos hnone (List.prefix_refl s.box.names)
      omega
  | succ fuel ih =>
    intro processed done s hcard
    by_cases hnone : unprocessedNames processed s = []
    · rw [remainderPasses_apply, if_pos hnone]
      exact ⟨0, Nat.zero_le _, .settled hnone⟩
    · rw [remainderPasses_apply, if_neg hnone] at hcard ⊢
      cases hpass : registryPass processed done (unprocessedNames processed s) s with
      | error e t => exact ⟨1, by omega, .failed hnone hpass⟩
      | ok r u =>
        obtain ⟨processed', done'⟩ := r
        simp only [hpass] at hcard ⊢
        have hlt := card_after_pass hnone hpass (namesKept_remainderPasses fuel processed' done' u)
        obtain ⟨p, hp, hrest⟩ := ih processed' done' u (by omega)
        exact ⟨p + 1, by omega, .pass hnone hpass hrest⟩

/-- The remainder passes stop. A run of the loop makes at most as many passes as the names
registered by its end and not processed at its start, and any bound at least that large runs it
to that end. So when the names a run registers stay within a set `U` and the bound is at least
`|U|`, the loop makes at most `|U \ processed|` passes, never spends its bound, and ends as it would
under any larger bound. -/
theorem remainder_passes_terminate :
    (∀ p processed done s r, Remains p processed done s r →
      p ≤ ((endState r).box.names.toFinset \ processed.toFinset).card) ∧
    (∀ p processed done s r, Remains p processed done s r →
      ∀ fuel, p ≤ fuel → remainderPasses fuel processed done s = r) ∧
    (∀ fuel processed done s (U : Finset String),
      (endState (remainderPasses fuel processed done s)).box.names.toFinset ⊆ U → U.card ≤ fuel →
      ∃ p, p ≤ (U \ processed.toFinset).card ∧
        Remains p processed done s (remainderPasses fuel processed done s)) := by
  refine ⟨fun _ _ _ _ _ h => h.passes_le, fun _ _ _ _ _ h => h.remainderPasses_eq, ?_⟩
  intro fuel processed done s U hU hfuel
  have hsub := Finset.sdiff_subset_sdiff hU (Finset.Subset.refl processed.toFinset)
  obtain ⟨p, -, hrun⟩ := remains_of_card_le fuel processed done s
    ((Finset.card_le_card hsub).trans ((Finset.card_le_card Finset.sdiff_subset).trans hfuel))
  exact ⟨p, hrun.passes_le.trans (Finset.card_le_card hsub), hrun⟩

/-- A registry processor, made already, whose registry phase registers the plain component
`q`. -/
def registeringProcessor : PostProcessor :=
  .registry 0 ⟨"R", none, [.register { name := "q", classKey := "app.Q" }], []⟩

def registeringMachine : Machine where
  box :=
    { id := ⟨0⟩
      definitions := ⟨[("r", .ofClass { ComponentClass.bare "app.R" with
        capabilities := [.registryProcessor] })], by decide⟩
      singletons := ⟨[("r", .post registeringProcessor)], by decide⟩ }

theorem materialize_registering :
    materialize "r" .registryProcessor registeringMachine =
      .ok (.post registeringProcessor) registeringMachine := by
  simp only [materialize, bind_apply, get_apply]
  rw [materializeWith_cached rfl]
  rfl

theorem registering_processor_settles :
    ∃ p, p ≤ 2 ∧
      Remains p [] [] registeringMachine (remainderPasses 2 [] [] registeringMachine) := by
  obtain ⟨-, -, hbound⟩ := remainder_passes_terminate
  have hnames : (endState (remainderPasses 2 [] [] registeringMachine)).box.names = ["r", "q"] := by
    rw [remainderPasses_apply, if_neg (by decide),
      show unprocessedNames [] registeringMachine = ["r"] from by decide]
    simp only [registryPass, registryBatch, bind_apply, get_apply, materialize_registering,
      show registeringProcessor.isRegistry = true from rfl, if_true, pure_apply, Ranked.sort,
      List.mergeSort_singleton]
    decide
  obtain ⟨p, hp, hrun⟩ := hbound 2 [] [] registeringMachine {"r", "q"}
    (by rw [hnames]; decide) (by decide)
  exact ⟨p, hp.trans (by decide), hrun⟩

end Machine

end Wiring
