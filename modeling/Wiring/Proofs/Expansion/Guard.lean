import Wiring.Processor.Run
import Wiring.Proofs.Frame

namespace Wiring

/-! The processed-container guard of an expansion processor. A phase is recorded before its work
starts; a phase already run for a container is rejected, and so is the registry phase after the
factory phase. Along any sequence of calls the guard records exactly the calls it accepted
(`registries_afterCalls`, `mark_afterCalls_filter`), and on a machine the factory phase runs the
expansion exactly when the registry phase has not run and a registry view exists
(`expansion_guard`). -/

section

variable {ε σ α : Type}

theorem Keeps.discard {R : σ → σ → Prop} {x : EStateM ε σ α} (hx : Keeps R x) :
    Keeps R (discard x : EStateM ε σ PUnit) := by
  intro s
  rw [discard_apply]
  have hxs := hx s
  cases h : x s with
  | ok a t => rw [h] at hxs; exact hxs
  | error e t => rw [h] at hxs; exact hxs

end

namespace Expansion

/-- What the guard has recorded: the containers whose registry phase ran, and those whose
factory phase ran. -/
def guard (e : Expansion) : List ContainerId × List ContainerId :=
  (e.registries, e.factories)

/-- Whether the guard lets a phase run against a container. -/
def accepts (e : Expansion) (phase : Phase) (c : ContainerId) : Bool :=
  (e.mark phase c).isOk

/-- The processor after a phase call against a container: an accepted call is recorded, a
rejected one leaves the processor as it was. -/
def afterCall (e : Expansion) (phase : Phase) (c : ContainerId) : Expansion :=
  match e.mark phase c with
  | .ok (_, e') => e'
  | .error _ => e

/-- The processor after phase calls against containers, in order. -/
def afterCalls (e : Expansion) (calls : List (Phase × ContainerId)) : Expansion :=
  calls.foldl (fun e call => e.afterCall call.1 call.2) e

/-- The containers of the calls of one phase that the guard accepts along a sequence of calls,
in order. -/
def accepted (phase : Phase) : Expansion → List (Phase × ContainerId) → List ContainerId
  | _, [] => []
  | e, (p, c) :: rest =>
    (if p = phase ∧ e.accepts p c = true then [c] else []) ++ accepted phase (e.afterCall p c) rest

variable {e : Expansion} {phase : Phase} {c : ContainerId}

theorem accepts_iff : e.accepts phase c = true ↔
    c ∉ e.factories ∧ (phase = .registry → c ∉ e.registries) := by
  unfold accepts mark
  cases phase <;> by_cases hf : c ∈ e.factories <;> by_cases hr : c ∈ e.registries <;>
    simp [hf, hr, Except.isOk, Except.toBool]

theorem mark_of_accepts (h : e.accepts phase c = true) :
    e.mark phase c = .ok (e.registries.contains c, e.afterCall phase c) := by
  unfold afterCall
  unfold accepts at h
  cases hmark : e.mark phase c with
  | error err => rw [hmark] at h; cases h
  | ok r =>
    obtain ⟨ran, e'⟩ := r
    unfold mark at hmark
    split at hmark
    · cases hmark
    · cases phase <;> simp only [Except.ok.injEq, Prod.mk.injEq] at hmark <;> rw [hmark.1]

theorem mark_of_rejects (h : e.accepts phase c = false) :
    e.mark phase c = .error (.alreadyProcessed phase c) := by
  have hguard : ¬ (c ∉ e.factories ∧ (phase = .registry → c ∉ e.registries)) := by
    rw [← accepts_iff, h]
    simp
  -- a rejected call finds its factory phase recorded, or its registry phase
  have hran : c ∈ e.factories ∨ (phase = .registry ∧ c ∈ e.registries) := by
    by_cases hf : c ∈ e.factories
    · exact .inl hf
    · by_cases hr : phase = .registry ∧ c ∈ e.registries
      · exact .inr hr
      · exact absurd ⟨hf, fun hp hc => hr ⟨hp, hc⟩⟩ hguard
  unfold mark
  rw [if_pos]
  rcases hran with hf | ⟨rfl, hr⟩
  · simp [hf]
  · simp [hr]

theorem afterCall_of_rejects (h : e.accepts phase c = false) : e.afterCall phase c = e := by
  rw [afterCall, mark_of_rejects h]

theorem registries_afterCall (e : Expansion) (phase : Phase) (c : ContainerId) :
    (e.afterCall phase c).registries =
      e.registries ++ (if phase = .registry ∧ e.accepts phase c = true then [c] else []) := by
  cases hacc : e.accepts phase c with
  | false => simp [afterCall_of_rejects hacc]
  | true =>
    have hmark := mark_of_accepts hacc
    unfold mark at hmark
    split at hmark
    · cases hmark
    · cases phase <;> simp only [Except.ok.injEq, Prod.mk.injEq] at hmark <;> simp [← hmark.2]

theorem factories_afterCall (e : Expansion) (phase : Phase) (c : ContainerId) :
    (e.afterCall phase c).factories =
      e.factories ++ (if phase = .factory ∧ e.accepts phase c = true then [c] else []) := by
  cases hacc : e.accepts phase c with
  | false => simp [afterCall_of_rejects hacc]
  | true =>
    have hmark := mark_of_accepts hacc
    unfold mark at hmark
    split at hmark
    · cases hmark
    · cases phase <;> simp only [Except.ok.injEq, Prod.mk.injEq] at hmark <;> simp [← hmark.2]

@[simp] theorem afterCalls_nil (e : Expansion) : e.afterCalls [] = e := rfl

@[simp] theorem afterCalls_cons (e : Expansion) (p : Phase) (c : ContainerId)
    (rest : List (Phase × ContainerId)) :
    e.afterCalls ((p, c) :: rest) = (e.afterCall p c).afterCalls rest := rfl

theorem registries_afterCalls (e : Expansion) (calls : List (Phase × ContainerId)) :
    (e.afterCalls calls).registries = e.registries ++ accepted .registry e calls := by
  induction calls generalizing e with
  | nil => simp [accepted]
  | cons call rest ih =>
    obtain ⟨p, c⟩ := call
    rw [afterCalls_cons, ih, registries_afterCall, accepted, List.append_assoc]

theorem factories_afterCalls (e : Expansion) (calls : List (Phase × ContainerId)) :
    (e.afterCalls calls).factories = e.factories ++ accepted .factory e calls := by
  induction calls generalizing e with
  | nil => simp [accepted]
  | cons call rest ih =>
    obtain ⟨p, c⟩ := call
    rw [afterCalls_cons, ih, factories_afterCall, accepted, List.append_assoc]

def recordOf (e : Expansion) : Phase → List ContainerId
  | .registry => e.registries
  | .factory => e.factories

theorem not_mem_accepted {calls : List (Phase × ContainerId)} (h : c ∈ e.recordOf phase) :
    c ∉ accepted phase e calls := by
  induction calls generalizing e with
  | nil => simp [accepted]
  | cons call rest ih =>
    obtain ⟨p, c'⟩ := call
    -- the record only grows, so `c` stays recorded after the call
    have hkept : c ∈ (e.afterCall p c').recordOf phase := by
      cases phase
      · simp only [recordOf, registries_afterCall] at h ⊢
        exact List.mem_append_left _ h
      · simp only [recordOf, factories_afterCall] at h ⊢
        exact List.mem_append_left _ h
    simp only [accepted, List.mem_append, not_or]
    refine ⟨?_, ih hkept⟩
    split
    · rename_i hacc
      obtain ⟨rfl, hacc⟩ := hacc
      rw [List.mem_singleton]
      rintro rfl
      cases p
      · exact (accepts_iff.1 hacc).2 rfl h
      · exact (accepts_iff.1 hacc).1 h
    · simp

theorem accepted_nodup (phase : Phase) (e : Expansion) (calls : List (Phase × ContainerId)) :
    (accepted phase e calls).Nodup := by
  induction calls generalizing e with
  | nil => simp [accepted]
  | cons call rest ih =>
    obtain ⟨p, c⟩ := call
    rw [accepted, List.nodup_append]
    refine ⟨by split <;> simp, ih _, ?_⟩
    split
    · rename_i hacc
      obtain ⟨rfl, hacc⟩ := hacc
      -- the accepted call is recorded, so the rest never accepts it again
      have hrec : c ∈ (e.afterCall p c).recordOf p := by
        cases p <;> simp [recordOf, registries_afterCall, factories_afterCall, hacc]
      intro a ha b hb hab
      rw [List.mem_singleton] at ha
      subst ha
      subst hab
      exact not_mem_accepted hrec hb
    · simp

theorem mark_map_fst (e : Expansion) (phase : Phase) (c : ContainerId) :
    (e.mark phase c).map Prod.fst =
      if e.accepts phase c then .ok (e.registries.contains c)
      else .error (.alreadyProcessed phase c) := by
  cases hacc : e.accepts phase c with
  | false => rw [mark_of_rejects hacc]; rfl
  | true => rw [mark_of_accepts hacc]; rfl

theorem mem_accepted_filter {e₁ e₂ : Expansion} (hreg : c ∈ e₁.registries ↔ c ∈ e₂.registries)
    (hfac : c ∈ e₁.factories ↔ c ∈ e₂.factories) (phase : Phase)
    (calls : List (Phase × ContainerId)) :
    (c ∈ accepted phase e₁ calls ↔ c ∈ accepted phase e₂ (calls.filter (·.2 == c))) ∧
      (c ∈ (e₁.afterCalls calls).registries ↔
        c ∈ (e₂.afterCalls (calls.filter (·.2 == c))).registries) ∧
      (c ∈ (e₁.afterCalls calls).factories ↔
        c ∈ (e₂.afterCalls (calls.filter (·.2 == c))).factories) := by
  induction calls generalizing e₁ e₂ with
  | nil => exact ⟨by simp [accepted], hreg, hfac⟩
  | cons call rest ih =>
    obtain ⟨p, c'⟩ := call
    by_cases hc : c' = c
    · -- a call against `c`: both processors take it and still agree
      subst hc
      have hacc : e₁.accepts p c' = e₂.accepts p c' := by
        apply Bool.eq_iff_iff.2
        rw [accepts_iff, accepts_iff, hreg, hfac]
      have hreg' : c' ∈ (e₁.afterCall p c').registries ↔ c' ∈ (e₂.afterCall p c').registries := by
        simp only [registries_afterCall, List.mem_append, hreg, hacc]
      have hfac' : c' ∈ (e₁.afterCall p c').factories ↔ c' ∈ (e₂.afterCall p c').factories := by
        simp only [factories_afterCall, List.mem_append, hfac, hacc]
      obtain ⟨hacc', hreg'', hfac''⟩ := ih hreg' hfac'
      have hkeep : (((p, c') :: rest).filter (·.2 == c')) =
          (p, c') :: rest.filter (·.2 == c') := List.filter_cons_of_pos (by simp)
      rw [hkeep, accepted, accepted, afterCalls_cons, afterCalls_cons, List.mem_append,
        List.mem_append, hacc, hacc']
      exact ⟨Iff.rfl, hreg'', hfac''⟩
    · -- a call against another container changes nothing for `c`
      have hreg' : c ∈ (e₁.afterCall p c').registries ↔ c ∈ e₂.registries := by
        rw [registries_afterCall, List.mem_append, ← hreg]
        split <;> simp [Ne.symm hc]
      have hfac' : c ∈ (e₁.afterCall p c').factories ↔ c ∈ e₂.factories := by
        rw [factories_afterCall, List.mem_append, ← hfac]
        split <;> simp [Ne.symm hc]
      obtain ⟨hacc', hreg'', hfac''⟩ := ih hreg' hfac'
      have hskip : ((p, c').2 == c) = false := by simpa using hc
      rw [List.filter_cons_of_neg (by simp [hskip]), accepted, afterCalls_cons, List.mem_append]
      refine ⟨?_, hreg'', hfac''⟩
      rw [← hacc']
      constructor
      · rintro (hhead | hrest)
        · split at hhead
          · exact absurd (List.mem_singleton.1 hhead).symm hc
          · simp at hhead
        · exact hrest
      · exact Or.inr

theorem mark_afterCalls_filter (e : Expansion) (pre : List (Phase × ContainerId))
    (phase : Phase) (c : ContainerId) :
    ((e.afterCalls pre).mark phase c).map Prod.fst =
      ((e.afterCalls (pre.filter (·.2 == c))).mark phase c).map Prod.fst := by
  obtain ⟨-, hreg, hfac⟩ := mem_accepted_filter (Iff.rfl : c ∈ e.registries ↔ _) Iff.rfl phase pre
  have hacc : (e.afterCalls pre).accepts phase c =
      (e.afterCalls (pre.filter (·.2 == c))).accepts phase c := by
    apply Bool.eq_iff_iff.2
    rw [accepts_iff, accepts_iff, hreg, hfac]
  have hran : (e.afterCalls pre).registries.contains c =
      (e.afterCalls (pre.filter (·.2 == c))).registries.contains c := by
    apply Bool.eq_iff_iff.2
    simp only [List.contains_iff_mem, hreg]
  rw [mark_map_fst, mark_map_fst, hacc, hran]

end Expansion

namespace Machine

open Expansion

/-- A phase of the expansion processor `i`, as a processor call. -/
def expansionPhase (i : Nat) : Phase → Step Unit
  | .registry => postRegistry (.expansion i)
  | .factory => postFactory (.expansion i)

/-- The factory phase of the expansion processor `i` once its guard and any expansion run are
done: the enhancement pass, then a new configuration-aware lifecycle processor. -/
def configureFactory (i : Nat) : Step Unit := do
  discard <| withBox (enhanceAll ((← get).expansion i).enhancer)
  let stamp ← fresh
  onBox (·.addLifecycle ⟨stamp, .configurationAware⟩)

theorem postFactory_expansion (i : Nat) : postFactory (.expansion i) = (do
    let ran ← markPhase i .factory
    if !ran && !(← get).box.sealed then discard <| expand i
    configureFactory i) := rfl

def SameGuards (m m' : Machine) : Prop :=
  ∀ j, (m'.expansion j).guard = (m.expansion j).guard

instance : Std.Refl SameGuards := ⟨fun _ _ => rfl⟩

instance : Trans SameGuards SameGuards SameGuards := ⟨fun h₁ h₂ j => (h₂ j).trans (h₁ j)⟩

theorem SameGuards.of_expansions {m m' : Machine} (h : m'.expansions = m.expansions) :
    SameGuards m m' := by
  intro j
  simp only [expansion, h]

theorem keeps_withBox {α : Type} (act : EStateM BootError Container α) :
    Keeps SameGuards (withBox act) := by
  intro m
  unfold withBox focus
  split <;> exact SameGuards.of_expansions rfl

theorem keeps_fresh : Keeps (ε := BootError) SameGuards fresh :=
  Keeps.modifyGet' fun _ => SameGuards.of_expansions rfl

theorem keeps_onBox (f : Container → Container) : Keeps (ε := BootError) SameGuards (onBox f) :=
  Keeps.modify' fun _ => SameGuards.of_expansions rfl

theorem keeps_expand (i : Nat) : Keeps SameGuards (expand i) := by
  intro m
  simp only [expand, bind_apply, get_apply]
  have hafter : ∀ p, SameGuards m (afterPass i m p) := by
    intro p j
    simp only [afterPass, expansion, Array.getElem?_modify]
    split
    · cases m.expansions[j]? <;> rfl
    · rfl
  unfold focus
  split
  · exact hafter _
  · exact hafter _

theorem keeps_configureFactory (i : Nat) : Keeps SameGuards (configureFactory i) :=
  Keeps.read fun _ => Keeps.bind (Keeps.discard (keeps_withBox _)) fun _ =>
    Keeps.bind keeps_fresh fun _ => keeps_onBox _

theorem keeps_factoryTail (i : Nat) (ran : Bool) :
    Keeps SameGuards (do
      if !ran && !(← get).box.sealed then discard <| expand i
      configureFactory i) := by
  refine Keeps.read fun s => ?_
  dsimp only
  split
  · exact Keeps.bind (Keeps.discard (keeps_expand i)) fun _ => keeps_configureFactory i
  · exact keeps_configureFactory i

theorem markPhase_apply (i : Nat) (phase : Phase) (m : Machine) :
    markPhase i phase m = match (m.expansion i).mark phase m.box.id with
      | .ok (ran, e) => .ok ran { m with expansions := m.expansions.set! i e }
      | .error err => .error err m := by
  simp only [markPhase, bind_apply, get_apply]
  cases (m.expansion i).mark phase m.box.id with
  | ok r => rfl
  | error err => rfl

theorem expansion_set {m : Machine} {i : Nat} (hi : i < m.expansions.size) (e : Expansion)
    (j : Nat) :
    ({ m with expansions := m.expansions.set! i e } : Machine).expansion j =
      if j = i then e else m.expansion j := by
  simp only [expansion, Array.set!_eq_setIfInBounds, Array.getElem?_setIfInBounds]
  by_cases hj : j = i
  · subst hj
    simp [hi]
  · simp [Ne.symm hj, hj]

theorem expansionPhase_rejected {i : Nat} {phase : Phase} {m : Machine}
    (h : (m.expansion i).accepts phase m.box.id = false) :
    expansionPhase i phase m = .error (.alreadyProcessed phase m.box.id) m := by
  have hmark := markPhase_apply i phase m
  rw [mark_of_rejects h] at hmark
  cases phase
  · simp only [expansionPhase, postRegistry, bind_apply, discard_apply, hmark]
  · simp only [expansionPhase, postFactory_expansion, bind_apply, hmark]

theorem guards_expansionPhase {i : Nat} (phase : Phase) {m : Machine}
    (hi : i < m.expansions.size) (j : Nat) :
    ((endState (expansionPhase i phase m)).expansion j).guard =
      (if j = i then (m.expansion i).afterCall phase m.box.id else m.expansion j).guard := by
  cases hacc : (m.expansion i).accepts phase m.box.id with
  | false =>
    rw [expansionPhase_rejected hacc, endState_error, afterCall_of_rejects hacc]
    split
    · rename_i hj
      rw [hj]
    · rfl
  | true =>
    -- after the record, the work keeps every guard
    have hmark := markPhase_apply i phase m
    rw [mark_of_accepts hacc] at hmark
    have hkept : SameGuards
        { m with expansions := m.expansions.set! i ((m.expansion i).afterCall phase m.box.id) }
        (endState (expansionPhase i phase m)) := by
      cases phase
      · show SameGuards _
          (endState ((discard (markPhase i .registry) >>= fun _ => discard (expand i)) m))
        rw [bind_apply, discard_apply, hmark]
        dsimp only
        exact Keeps.discard (keeps_expand i) _
      · rw [expansionPhase, postFactory_expansion, bind_apply, hmark]
        exact keeps_factoryTail i _ _
    rw [hkept j, expansion_set hi]

theorem postFactory_accepted {i : Nat} {m : Machine}
    (h : (m.expansion i).accepts .factory m.box.id = true) :
    postFactory (.expansion i) m =
      (do
        if !(m.expansion i).registries.contains m.box.id && !m.box.sealed then
          discard <| expand i
        configureFactory i)
      { m with expansions := m.expansions.set! i ((m.expansion i).afterCall .factory m.box.id) } := by
  have hmark := markPhase_apply i .factory m
  rw [mark_of_accepts h] at hmark
  rw [postFactory_expansion, bind_apply, hmark]
  rfl

end Machine

open Machine Expansion in
/-- The processed-container guard of the expansion processor `i`. On a machine, a call the guard
rejects fails with `alreadyProcessed` and changes nothing; any call leaves the guards of all
processors as `afterCall` records it, whether its work succeeds or fails; and an accepted
factory phase runs the expansion itself exactly when the registry phase has not run for the
container and the container's registry view is available (it is not sealed). Along any sequence
of calls against any containers, from any processor `e`: the guard records exactly the calls it
accepted; each phase is accepted at most once per container; the registry phase is accepted
exactly while neither phase ran for the container, and the factory phase while it did not run;
the factory phase answers whether the registry phase ran; and what a call gets depends only on
the calls made against the same container. -/
theorem expansion_guard (i : Nat) :
    (∀ (m : Machine) (phase : Phase), i < m.expansions.size →
      ((m.expansion i).accepts phase m.box.id = false →
        expansionPhase i phase m = .error (.alreadyProcessed phase m.box.id) m) ∧
      ∀ j, ((endState (expansionPhase i phase m)).expansion j).guard =
        (if j = i then (m.expansion i).afterCall phase m.box.id else m.expansion j).guard) ∧
    (∀ m : Machine, (m.expansion i).accepts .factory m.box.id = true →
      postFactory (.expansion i) m =
        (do
          if !(m.expansion i).registries.contains m.box.id && !m.box.sealed then
            discard <| expand i
          configureFactory i)
        { m with expansions := m.expansions.set! i ((m.expansion i).afterCall .factory m.box.id) }) ∧
    ∀ (e : Expansion) (pre : List (Phase × ContainerId)) (phase : Phase) (c : ContainerId),
      (e.afterCalls pre).registries = e.registries ++ accepted .registry e pre ∧
      (e.afterCalls pre).factories = e.factories ++ accepted .factory e pre ∧
      (accepted phase e pre).Nodup ∧
      ((e.afterCalls pre).accepts .registry c = true ↔
        c ∉ e.registries ++ accepted .registry e pre ∧
          c ∉ e.factories ++ accepted .factory e pre) ∧
      ((e.afterCalls pre).accepts .factory c = true ↔
        c ∉ e.factories ++ accepted .factory e pre) ∧
      (∀ ran e', (e.afterCalls pre).mark .factory c = .ok (ran, e') →
        (ran = true ↔ c ∈ e.registries ++ accepted .registry e pre)) ∧
      ((e.afterCalls pre).mark phase c).map Prod.fst =
        ((e.afterCalls (pre.filter (·.2 == c))).mark phase c).map Prod.fst := by
  refine ⟨fun m phase hi => ⟨expansionPhase_rejected, guards_expansionPhase phase hi⟩,
    fun m h => postFactory_accepted h, fun e pre phase c => ?_⟩
  have hreg := registries_afterCalls e pre
  have hfac := factories_afterCalls e pre
  refine ⟨hreg, hfac, accepted_nodup phase e pre, ?_, ?_, ?_, mark_afterCalls_filter e pre phase c⟩
  · rw [accepts_iff, ← hreg, ← hfac]
    simp only [forall_const]
    exact and_comm
  · rw [accepts_iff, ← hfac]
    simp
  · intro ran e' hmark
    -- an accepted call answers whether the registry phase ran
    have hacc : (e.afterCalls pre).accepts .factory c = true := by
      simp [accepts, hmark, Except.isOk, Except.toBool]
    rw [mark_of_accepts hacc, Except.ok.injEq, Prod.mk.injEq] at hmark
    rw [← hmark.1, List.contains_iff_mem, hreg]

/-- A machine whose container `f0` has had its registry phase run by the expansion processor
`0`. -/
def registryRanMachine : Machine :=
  { box := Container.create ⟨0⟩ true
    expansions := #[{ (default : Expansion) with registries := [⟨0⟩] }] }

open Machine Expansion in
theorem second_registry_phase_rejected :
    0 < registryRanMachine.expansions.size ∧
      (registryRanMachine.expansion 0).accepts .registry registryRanMachine.box.id = false ∧
      expansionPhase 0 .registry registryRanMachine =
        .error (.alreadyProcessed .registry ⟨0⟩) registryRanMachine := by
  have hsize : 0 < registryRanMachine.expansions.size := by decide
  have hrejected :
      (registryRanMachine.expansion 0).accepts .registry registryRanMachine.box.id = false := rfl
  exact ⟨hsize, hrejected, ((expansion_guard 0).1 registryRanMachine .registry hsize).1 hrejected⟩

end Wiring
