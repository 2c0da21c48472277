import Wiring.Proofs.Creation.Materialize
import Wiring.Proofs.Creation.Untouched
import Wiring.Proofs.DefinitionTable
import Wiring.Proofs.EffectiveCache

namespace Wiring

/-! Pre-instantiation of singletons. The loop takes the eager singletons (singleton scope, not
lazy) once, in registration order, and reaches each in turn: a name cached by then, by an earlier
step or as a dependency created inside one, is passed over, and any other is materialized and
counted. Creation keeps cached singletons and the registered definitions, so in a coherent state
every name the loop materializes ends cached. An effective entry taken before a definition was
changed in place can still say prototype, and then the loop creates the name without caching it. -/

theorem Roster.contains_iff_isSome {α : Type} {r : Roster α} {k : String} :
    r.contains k = true ↔ (r.get? k).isSome := by
  rw [contains_iff_mem_keys, mem_keys_iff, Option.isSome_iff_exists]

namespace Container

theorem eagerSingletons_eq_filter (c : Container) :
    c.eagerSingletons = c.names.filter fun n =>
      (c.definition? n).any fun d => d.isSingleton && !d.lazyInit :=
  c.entries_filter_map_fst fun d => d.isSingleton && !d.lazyInit

theorem mem_eagerSingletons {c : Container} {n : String} :
    n ∈ c.eagerSingletons ↔
      ∃ d, c.definition? n = some d ∧ d.isSingleton = true ∧ d.lazyInit = false := by
  rw [eagerSingletons_eq_filter, List.mem_filter]
  constructor
  · rintro ⟨-, hany⟩
    cases hd : c.definition? n with
    | none => simp [hd] at hany
    | some d =>
      simp only [hd, Option.any_some, Bool.and_eq_true, Bool.not_eq_true'] at hany
      exact ⟨d, rfl, hany⟩
  · rintro ⟨d, hd, hsingle, hlazy⟩
    exact ⟨mem_names_iff.2 ⟨d, hd⟩, by simp [hd, hsingle, hlazy]⟩

end Container

namespace Machine

def instantiateStep (k : Nat) (name : String) : Step Nat := do
  if (← get).box.singletons.contains name then return k
  discard <| materialize name .component
  return k + 1

theorem instantiateSingletons_eq (s : Machine) :
    instantiateSingletons s = s.box.eagerSingletons.foldlM instantiateStep 0 s := rfl

theorem instantiateStep_cached {s : Machine} {name : String} {k : Nat}
    (h : s.box.singletons.contains name = true) : instantiateStep k name s = .ok k s := by
  simp [instantiateStep, bind_apply, get_apply, h, pure_apply]

theorem instantiateStep_uncached {s : Machine} {name : String} {k : Nat}
    (h : s.box.singletons.contains name = false) :
    instantiateStep k name s = match materialize name .component s with
      | .ok _ u => .ok (k + 1) u
      | .error e u => .error e u := by
  simp only [instantiateStep, bind_apply, get_apply, h, Bool.false_eq_true, if_false]
  rw [discard_apply]
  cases materialize name .component s <;> rfl

/-- The runs of the loop over `names` from `s` to `t` that create `k` names: a name cached when
the loop reaches it is passed over, any other is materialized and counted. -/
inductive Instantiates : List String → Machine → Nat → Machine → Prop
  | nil (s : Machine) : Instantiates [] s 0 s
  | cached {name : String} {names : List String} {s t : Machine} {k : Nat} :
      s.box.singletons.contains name = true → Instantiates names s k t →
      Instantiates (name :: names) s k t
  | created {name : String} {names : List String} {s u t : Machine} {i : Instance} {k : Nat} :
      s.box.singletons.contains name = false → materialize name .component s = .ok i u →
      Instantiates names u k t → Instantiates (name :: names) s (k + 1) t

theorem foldlM_instantiateStep_ok :
    ∀ (names : List String) (k₀ : Nat) (s : Machine) {k : Nat} {t : Machine},
      names.foldlM instantiateStep k₀ s = .ok k t ↔ ∃ n, k = k₀ + n ∧ Instantiates names s n t
  | [], k₀, s, k, t => by
    simp only [List.foldlM_nil, pure_apply, EStateM.Result.ok.injEq]
    constructor
    · rintro ⟨rfl, rfl⟩
      exact ⟨0, rfl, .nil s⟩
    · rintro ⟨n, rfl, hrun⟩
      cases hrun
      exact ⟨rfl, rfl⟩
  | name :: names, k₀, s, k, t => by
    rw [List.foldlM_cons, bind_apply]
    cases hc : s.box.singletons.contains name with
    | true =>
      rw [instantiateStep_cached hc]
      dsimp only
      rw [foldlM_instantiateStep_ok names k₀ s]
      constructor
      · rintro ⟨n, rfl, hrest⟩
        exact ⟨n, rfl, .cached hc hrest⟩
      · rintro ⟨n, rfl, hrun⟩
        cases hrun with
        | cached _ hrest => exact ⟨n, rfl, hrest⟩
        | created hc' => simp [hc] at hc'
    | false =>
      rw [instantiateStep_uncached hc]
      cases hm : materialize name .component s with
      | error e u =>
        simp only [reduceCtorEq, false_iff, not_exists, not_and]
        intro n _ hrun
        cases hrun with
        | cached hc' => simp [hc] at hc'
        | created _ hm' => simp [hm] at hm'
      | ok i u =>
        dsimp only
        rw [foldlM_instantiateStep_ok names (k₀ + 1) u]
        constructor
        · rintro ⟨n, rfl, hrest⟩
          exact ⟨n + 1, by omega, .created hc hm hrest⟩
        · rintro ⟨n, rfl, hrun⟩
          cases hrun with
          | cached hc' => simp [hc] at hc'
          | created _ hm' hrest =>
            rw [hm, EStateM.Result.ok.injEq] at hm'
            obtain ⟨rfl, rfl⟩ := hm'
            exact ⟨_, by omega, hrest⟩

theorem foldlM_instantiateStep_error :
    ∀ (names : List String) (k₀ : Nat) (s : Machine) {e : BootError} {t : Machine},
      names.foldlM instantiateStep k₀ s = .error e t →
      ∃ pre name post n u, names = pre ++ name :: post ∧ Instantiates pre s n u ∧
        u.box.singletons.contains name = false ∧ materialize name .component u = .error e t
  | [], k₀, s, e, t, h => by simp [pure_apply] at h
  | name :: names, k₀, s, e, t, h => by
    rw [List.foldlM_cons, bind_apply] at h
    cases hc : s.box.singletons.contains name with
    | true =>
      rw [instantiateStep_cached hc] at h
      obtain ⟨pre, name', post, n, u, rfl, hpre, hfree, hfail⟩ :=
        foldlM_instantiateStep_error names k₀ s h
      exact ⟨name :: pre, name', post, n, u, rfl, .cached hc hpre, hfree, hfail⟩
    | false =>
      rw [instantiateStep_uncached hc] at h
      cases hm : materialize name .component s with
      | error e' u =>
        rw [hm] at h
        cases h
        exact ⟨[], name, names, 0, s, rfl, .nil s, hc, hm⟩
      | ok i u =>
        rw [hm] at h
        obtain ⟨pre, name', post, n, u', rfl, hpre, hfree, hfail⟩ :=
          foldlM_instantiateStep_error names (k₀ + 1) u h
        exact ⟨name :: pre, name', post, n + 1, u', rfl, .created hc hm hpre, hfree, hfail⟩

theorem Instantiates.keeps {R : Machine → Machine → Prop} [Std.Refl R] [Trans R R R]
    (hR : ∀ name, Keeps R (materialize name .component)) {names : List String} {s t : Machine}
    {k : Nat} (h : Instantiates names s k t) : R s t := by
  induction h with
  | nil s => exact Std.Refl.refl s
  | cached _ _ ih => exact ih
  | @created name _ s _ _ _ _ _ hm _ ih => exact Trans.trans ((hR name).of_ok hm) ih

theorem persists_materialize (name : String) (cap : Capability) :
    Keeps Persists (materialize name cap) :=
  Keeps.read fun _ => creation_persists.1 _ _ name cap

theorem materialize_caches_singleton {s t : Machine} {name : String} {cap : Capability}
    {d : Definition} {i : Instance} (hs : s.box.Coherent) (hd : s.box.definition? name = some d)
    (hsingle : d.isSingleton = true) (h : materialize name cap s = .ok i t) :
    t.box.singletons.get? name = some i := by
  simp only [materialize, bind_apply, get_apply] at h
  rcases materializeWith_ok_cached h with hcached | ⟨-, d', u, hlookup, hprototype⟩
  · exact hcached
  · obtain ⟨d'', hd'', hagree⟩ := effectiveDefinition_agrees hs hlookup
    rw [hd, Option.some.injEq] at hd''
    subst hd''
    have hsame : d'.isSingleton = d.isSingleton := by
      simp only [Definition.isSingleton, hagree.scope_eq]
    rw [hsame, hsingle] at hprototype
    cases hprototype

theorem Instantiates.cached_of_coherent {names : List String} {s t : Machine} {k : Nat}
    (h : Instantiates names s k t) : s.box.Coherent →
      (∀ n ∈ names, ∃ d, s.box.definition? n = some d ∧ d.isSingleton = true) →
      ∀ n ∈ names, (t.box.singletons.get? n).isSome := by
  -- what is cached at some step stays cached to the end of the run
  have hkept : ∀ {u t : Machine} {names : List String} {k : Nat} {n : String} {i : Instance},
      Instantiates names u k t → u.box.singletons.get? n = some i →
      (t.box.singletons.get? n).isSome := by
    intro u t names k n i hrun hi
    rw [(hrun.keeps fun name => persists_materialize name _).box.cached n i hi]
    rfl
  induction h with
  | nil s => simp
  | @cached name names s t k hc hrest ih =>
    intro hs hsingle n hn
    rcases List.mem_cons.1 hn with rfl | hn
    · obtain ⟨i, hi⟩ := Option.isSome_iff_exists.1 (Roster.contains_iff_isSome.1 hc)
      exact hkept hrest hi
    · exact ih hs (fun m hm => hsingle m (List.mem_cons_of_mem _ hm)) n hn
  | @created name names s u t i k hc hm hrest ih =>
    intro hs hsingle n hn
    -- the step keeps the state coherent and the definitions as they were
    have hu : u.box.Coherent := (creationFrame_coherenceKept.keeps_materialize name _).of_ok hm hs
    have hdefs : u.box.definitions = s.box.definitions :=
      ((untouched_materialize name _).of_ok hm).definitions_eq
    rcases List.mem_cons.1 hn with rfl | hn
    · obtain ⟨d, hd, hd_single⟩ := hsingle n (List.mem_cons_self ..)
      exact hkept hrest (materialize_caches_singleton hs hd hd_single hm)
    · refine ih hu (fun m hm' => ?_) n hn
      obtain ⟨d, hd, hd_single⟩ := hsingle m (List.mem_cons_of_mem _ hm')
      exact ⟨d, by rw [Container.definition?, hdefs]; exact hd, hd_single⟩

/-- Pre-instantiation reaches the eager singletons, the table's singleton and non-lazy names in
registration order, and answers how many of them were not cached when it reached them. From a
coherent state each of them ends cached; a run that fails stops at the first one it cannot
create, with those before it cached. Whatever the outcome, a cached singleton stays cached with
the same instance. -/
theorem singleton_preinstantiation :
    (∀ c : Container, c.eagerSingletons = c.names.filter fun n =>
      (c.definition? n).any fun d => d.isSingleton && !d.lazyInit) ∧
    (∀ (s : Machine) k t,
      instantiateSingletons s = .ok k t ↔ Instantiates s.box.eagerSingletons s k t) ∧
    (∀ (s : Machine) k t, s.box.Coherent → instantiateSingletons s = .ok k t →
      ∀ n d, s.box.definition? n = some d → d.isSingleton = true → d.lazyInit = false →
        (t.box.singletons.get? n).isSome) ∧
    (∀ (s : Machine) e t, s.box.Coherent → instantiateSingletons s = .error e t →
      ∃ pre name post n u, s.box.eagerSingletons = pre ++ name :: post ∧
        Instantiates pre s n u ∧ materialize name .component u = .error e t ∧
        ∀ m ∈ pre, (t.box.singletons.get? m).isSome) ∧
    Keeps Persists instantiateSingletons := by
  refine ⟨Container.eagerSingletons_eq_filter, fun s k t => ?_, ?_, ?_, ?_⟩
  · rw [instantiateSingletons_eq, foldlM_instantiateStep_ok]
    simp
  · intro s k t hs h n d hd hsingle hlazy
    rw [instantiateSingletons_eq, foldlM_instantiateStep_ok] at h
    obtain ⟨k', -, hrun⟩ := h
    refine hrun.cached_of_coherent hs (fun m hm => ?_) n
      (Container.mem_eagerSingletons.2 ⟨d, hd, hsingle, hlazy⟩)
    obtain ⟨d', hd', hsingle', -⟩ := Container.mem_eagerSingletons.1 hm
    exact ⟨d', hd', hsingle'⟩
  · intro s e t hs h
    rw [instantiateSingletons_eq] at h
    obtain ⟨pre, name, post, n, u, heq, hpre, -, hfail⟩ := foldlM_instantiateStep_error _ 0 s h
    refine ⟨pre, name, post, n, u, heq, hpre, hfail, fun m hm => ?_⟩
    -- cached when the failing step started, and kept by it
    have hcached := hpre.cached_of_coherent hs (fun m' hm' => ?_) m hm
    · obtain ⟨i, hi⟩ := Option.isSome_iff_exists.1 hcached
      have hstep := persists_materialize name .component u
      rw [hfail, endState_error] at hstep
      rw [hstep.box.cached m i hi]
      rfl
    · have hmem : m' ∈ s.box.eagerSingletons := by
        rw [heq]
        exact List.mem_append_left _ hm'
      obtain ⟨d', hd', hsingle', -⟩ := Container.mem_eagerSingletons.1 hmem
      exact ⟨d', hd', hsingle'⟩
  · exact keeps_instantiateSingletons fun name => persists_materialize name _

def eagerMachine : Machine :=
  { box := { Container.create ⟨0⟩ false with
      definitions := Roster.empty.insert "p" { snapshotDefinition with scope := .singleton } } }

theorem eager_singleton_instantiated :
    ∃ t, instantiateSingletons eagerMachine = .ok 1 t ∧ (t.box.singletons.get? "p").isSome := by
  obtain ⟨-, -, hcached, -, -⟩ := singleton_preinstantiation
  have hcoherent : eagerMachine.box.Coherent := by
    intro n d h
    simp [eagerMachine, Container.create, Roster.empty, Roster.get?] at h
  obtain ⟨t, hrun⟩ : ∃ t, instantiateSingletons eagerMachine = .ok 1 t := by
    refine ⟨?t, ?run⟩
    case run =>
      rw [instantiateSingletons_eq, show eagerMachine.box.eagerSingletons = ["p"] from rfl,
        List.foldlM_cons, bind_apply, instantiateStep_uncached rfl]
      simp only [materialize, bind_apply, get_apply]
      rw [show creationBudget _ = _ + 1 from rfl, materializeWith_uncached rfl,
        show effectiveDefinition "p" _ = .ok { snapshotDefinition with scope := .singleton } _
          from rfl]
      dsimp only
      rw [if_neg (by decide), create]
      rfl
  exact ⟨t, hrun, hcached eagerMachine 1 t hcoherent hrun "p" _ rfl rfl rfl⟩

def staleScopeMachine : Machine :=
  { box := { Container.create ⟨0⟩ false with
      definitions := Roster.empty.insert "p" { snapshotDefinition with scope := .singleton }
      effective := Roster.empty.insert "p" snapshotDefinition } }

/-- From a stale effective entry, pre-instantiation creates the singleton `p` as a prototype,
counts it, and leaves it uncached. -/
theorem stale_prototype_entry_left_uncached :
    ∃ t, instantiateSingletons staleScopeMachine = .ok 1 t ∧ t.box.singletons.get? "p" = none ∧
      t.journal = #["new:app.A"] := by
  refine ⟨?t, ?run, ?uncached, ?journal⟩
  case run =>
    rw [instantiateSingletons_eq, show staleScopeMachine.box.eagerSingletons = ["p"] from rfl,
      List.foldlM_cons, bind_apply, instantiateStep_uncached rfl]
    simp only [materialize, bind_apply, get_apply]
    rw [show creationBudget _ = _ + 1 from rfl, materializeWith_uncached rfl,
      show effectiveDefinition "p" _ = .ok snapshotDefinition _ from rfl]
    dsimp only
    rw [if_neg (by decide), create]
    rfl
  case uncached => rfl
  case journal => rfl

end Machine

end Wiring
