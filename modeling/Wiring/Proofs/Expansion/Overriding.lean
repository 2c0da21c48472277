import Mathlib.Logic.Relation
import Wiring.Proofs.Expansion.Reloading

namespace Wiring

/-! The override policy of loading models. Every registration a load makes is one of three writes
(`Loader.Write`): a model's imported configuration and its scanned classes take only free names,
and a factory method's product may replace a replaceable definition that is not a product of the
same configuration. Writes neither remove nor move names, so a load keeps the names it found, in
order, ahead of those it adds, whether it succeeds or fails (`load_override_policy`). -/

section

variable {ε σ α β : Type}

theorem endState_bind_pure (x : EStateM ε σ α) (f : α → β) (s : σ) :
    endState ((x >>= fun a => pure (f a)) s) = endState (x s) := by
  rw [bind_apply]
  cases x s <;> rfl

end

namespace Container

/-- No definition outside factory methods has the user class `className`. -/
def NoPlainDefinition (c : Container) (className : String) : Prop :=
  ∀ n d, c.definition? n = some d → d.factory = none → d.cls.userName ≠ className

theorem registeredNameOf_eq_none_iff {c : Container} {className : String} :
    c.registeredNameOf className = none ↔ c.NoPlainDefinition className := by
  unfold registeredNameOf NoPlainDefinition
  rw [Option.map_eq_none_iff, List.find?_eq_none]
  constructor
  · intro h n d hd hfactory hname
    have hnot := h (n, d) (Roster.get?_eq_some_iff.1 hd)
    simp [Definition.hasFactory, hfactory, hname] at hnot
  · intro h e he hfound
    have hplain : e.2.factory = none ∧ e.2.cls.userName = className := by
      simpa [Definition.hasFactory] using hfound
    exact h e.1 e.2 (Roster.get?_eq_some_iff.2 he) hplain.1 hplain.2

theorem definition?_eq_none {c : Container} {n : String} (h : c.definitions.contains n = false) :
    c.definition? n = none := by
  cases hd : c.definition? n with
  | none => rfl
  | some d =>
    have hmem := (Roster.contains_iff_mem_keys _ _).2 (mem_names_iff.2 ⟨d, hd⟩)
    rw [h] at hmem
    cases hmem

theorem register_keeps_names {c c' : Container} {name : String} {d : Definition}
    (h : c.register name d = .ok c') : c.names <+: c'.names := by
  rw [names_register h]
  split
  · exact List.prefix_refl _
  · exact List.prefix_append _ _

end Container

namespace Loader

open Container Relation

variable {l : Loader} {m : Model} {owner : String}

/-- The name under which the imported configuration of a model is registered. -/
def importName (l : Loader) (m : Model) : String :=
  l.importNames.generate { cls := m.cls, source := .imported }

def scanName (l : Loader) (k : ComponentClass) : String :=
  l.scanNames.generate { cls := k, source := .scanned }

/-- The owner of a model's factory methods in the container where its loading starts: its
component name, else the first definition outside factory methods of its class, else its import
name. -/
def ownerOf (l : Loader) (m : Model) (c : Container) : String :=
  match m.componentName with
  | some n => n
  | none => (c.registeredNameOf m.identity).getD (l.importName m)

/-- A definition that already counts as a product of the configuration loaded as `m` under the
owner `owner`: made by a factory method on that owner, or static on a class of the model's
identity. -/
def OwnProduct (m : Model) (owner : String) (e : Definition) : Prop :=
  match e.factory with
  | some ⟨.component o, _⟩ => o = owner
  | some ⟨.static k, _⟩ => k.userName = m.identity
  | none => False

/-- A definition a factory method may replace: an infrastructure one, or a scanned one when the
policy overrides scanned definitions. -/
def Replaceable (l : Loader) (e : Definition) : Prop :=
  e.isInfrastructure = true ∨ (e.source = .scanned ∧ l.overrideScanned = true)

theorem blocks_eq_false_iff {e : Definition} :
    l.blocks m owner e = false ↔ l.Replaceable e ∧ ¬ OwnProduct m owner e := by
  unfold blocks Replaceable OwnProduct
  cases hf : e.factory with
  | none => cases e.isInfrastructure <;> cases l.overrideScanned <;> simp
  | some ref =>
    obtain ⟨o, meth⟩ := ref
    cases o <;> cases e.isInfrastructure <;> cases l.overrideScanned <;> simp [and_comm]

/-- One registration that loading the model `m`, whose factory methods are owned by `owner`,
can make. -/
inductive Write (l : Loader) (m : Model) (owner : String) (c : Container) : Container → Prop
  /-- The imported configuration, under its free import name, while no definition outside
  factory methods has its class. -/
  | imported {c' : Container} :
      m.componentName = none → c.NoPlainDefinition m.identity →
      c.definition? (l.importName m) = none →
      c.register (l.importName m) { cls := m.cls, source := .imported } = .ok c' →
      Write l m owner c c'
  /-- A class the model scanned, under its free scan name, while no definition outside factory
  methods has its class. -/
  | scanned {c' : Container} (k : ComponentClass) :
      k ∈ m.scanned → c.definition? (l.scanName k) = none → c.NoPlainDefinition k.userName →
      c.register (l.scanName k) { cls := k, source := .scanned } = .ok c' →
      Write l m owner c c'
  /-- The product of a factory method of the model, in place of a definition only when that
  one is replaceable and not a product of this configuration. -/
  | product {c' : Container} (decl : FactoryMethod) :
      decl ∈ m.factoryMethods →
      (∀ e, c.definition? decl.target = some e → l.Replaceable e ∧ ¬ OwnProduct m owner e) →
      c.register decl.target (methodDefinition m owner decl) = .ok c' →
      Write l m owner c c'

theorem Write.keeps_names {c c' : Container} (h : Write l m owner c c') :
    c.names <+: c'.names := by
  cases h with
  | imported _ _ _ hreg => exact register_keeps_names hreg
  | scanned _ _ _ _ hreg => exact register_keeps_names hreg
  | product _ _ _ hreg => exact register_keeps_names hreg

/-- A write changes at most the definition under its own name. A definition it changes was
replaceable and no product of the same configuration, and a factory method's product takes its
place. -/
theorem Write.replaced {c c' : Container} (h : Write l m owner c c') {n : String}
    {e : Definition} (he : c.definition? n = some e) (hchanged : c'.definition? n ≠ some e) :
    l.Replaceable e ∧ ¬ OwnProduct m owner e ∧
      ∃ decl ∈ m.factoryMethods, n = decl.target ∧
        c'.definition? n = some (methodDefinition m owner decl) := by
  cases h with
  | imported _ _ hfree hreg =>
    rw [definition?_register hreg] at hchanged
    split at hchanged
    · -- the import name was free, so nothing stood under it
      rename_i hn
      rw [hn, hfree] at he
      cases he
    · exact absurd he hchanged
  | scanned k _ hfree _ hreg =>
    rw [definition?_register hreg] at hchanged
    split at hchanged
    · rename_i hn
      rw [hn, hfree] at he
      cases he
    · exact absurd he hchanged
  | product decl hdecl hreplace hreg =>
    rw [definition?_register hreg] at hchanged ⊢
    split at hchanged
    · rename_i hn
      subst hn
      obtain ⟨hreplaceable, hown⟩ := hreplace e he
      exact ⟨hreplaceable, hown, decl, hdecl, rfl, if_pos rfl⟩
    · exact absurd he hchanged

theorem writes_keep_names {c c' : Container} (h : ReflTransGen (Write l m owner) c c') :
    c.names <+: c'.names := by
  induction h with
  | refl => exact List.prefix_refl _
  | tail _ hstep ih => exact ih.trans hstep.keeps_names

/-- The writes of a load of `ms` from `c` that reached `c'`: model after model, each with the
owner resolved when its loading starts. A load that fails stops inside a model. -/
inductive Loads (l : Loader) : List Model → Container → Container → Prop
  | stop {ms : List Model} {c : Container} : Loads l ms c c
  | model {m : Model} {ms : List Model} {c c₁ c₂ : Container} :
      ReflTransGen (Write l m (l.ownerOf m c)) c c₁ → Loads l ms c₁ c₂ → Loads l (m :: ms) c c₂

theorem Loads.keeps_names {ms : List Model} {c c' : Container} (h : Loads l ms c c') :
    c.names <+: c'.names := by
  induction h with
  | stop => exact List.prefix_refl _
  | model hwrites _ ih => exact (writes_keep_names hwrites).trans ih

/-! ### Each step of a load is a write -/

theorem registerIn_apply (name : String) (d : Definition) (c : Container) :
    registerIn name d c = match c.register name d with
      | .ok c' => .ok () c'
      | .error e => .error e c := by
  simp only [registerIn, bind_apply, get_apply]
  cases c.register name d <;> rfl

theorem reach_registerIn_bind {β : Type} {R : Container → Container → Prop} {name : String}
    {d : Definition} {next : EStateM BootError Container β} {c : Container}
    (hwrite : ∀ c', c.register name d = .ok c' → R c c') (hnext : Keeps (ReflTransGen R) next) :
    ReflTransGen R c (endState ((registerIn name d >>= fun _ => next) c)) := by
  rw [bind_apply, registerIn_apply]
  cases hreg : c.register name d with
  | ok c' => exact .head (hwrite c' hreg) (hnext c')
  | error e => exact .refl

theorem ownerName_spec (owner : String) (m : Model) (c : Container) :
    ReflTransGen (Write l m owner) c (endState (l.ownerName m c)) ∧
      ∀ r c', l.ownerName m c = .ok r c' → r.1 = l.ownerOf m c := by
  unfold ownerName
  cases hname : m.componentName with
  | some n =>
    simp only [pure_apply, endState_ok, EStateM.Result.ok.injEq]
    refine ⟨.refl, fun r c' h => ?_⟩
    rw [← h.1, ownerOf, hname]
  | none =>
    simp only [bind_apply, get_apply]
    cases hexisting : c.registeredNameOf m.identity with
    | some existing =>
      simp only [pure_apply, endState_ok, EStateM.Result.ok.injEq]
      refine ⟨.refl, fun r c' h => ?_⟩
      rw [← h.1, ownerOf, hname, hexisting, Option.getD_some]
    | none =>
      have hplain := registeredNameOf_eq_none_iff.1 hexisting
      have howner : l.ownerOf m c = l.importName m := by
        rw [ownerOf, hname, hexisting, Option.getD_none]
      cases htaken : c.definition? (l.importName m) with
      | some taken =>
        simp only [importName] at htaken
        simp only [htaken]
        split
        · exact ⟨.refl, fun r c' h => by cases h⟩
        · simp only [pure_apply, endState_ok, EStateM.Result.ok.injEq]
          exact ⟨.refl, fun r c' h => by rw [← h.1, howner, importName]⟩
      | none =>
        simp only [importName] at htaken
        simp only [htaken]
        rw [bind_apply, registerIn_apply]
        cases hreg : c.register (l.importNames.generate { cls := m.cls, source := .imported })
            { cls := m.cls, source := .imported } with
        | ok c' =>
          simp only [pure_apply, endState_ok, EStateM.Result.ok.injEq]
          exact ⟨.single (.imported hname hplain htaken hreg),
            fun r c'' h => by rw [← h.1, howner, importName]⟩
        | error e => exact ⟨.refl, fun r c'' h => by cases h⟩

theorem loadScans_writes {ks : List ComponentClass} (hks : ∀ k ∈ ks, k ∈ m.scanned) :
    Keeps (ReflTransGen (Write l m owner)) (l.loadScans ks) := by
  induction ks with
  | nil => exact Keeps.pure' 0
  | cons k ks ih =>
    have hrest := ih fun x hx => hks x (List.mem_cons_of_mem _ hx)
    intro c
    simp only [loadScans, bind_apply, get_apply]
    split
    · exact hrest c
    · -- the scan name is free and no definition outside factory methods has the class
      rename_i hfree
      simp only [Bool.or_eq_true, not_or, Bool.not_eq_true, Option.isSome_eq_false_iff,
        Option.isNone_iff_eq_none] at hfree
      exact reach_registerIn_bind (fun c' hreg =>
          Write.scanned k (hks k (List.mem_cons_self ..)) (definition?_eq_none hfree.1)
            (registeredNameOf_eq_none_iff.1 hfree.2) hreg)
        (Keeps.bind hrest fun _ => Keeps.pure' _)

theorem loadMethods_writes {decls : List FactoryMethod}
    (hdecls : ∀ decl ∈ decls, decl ∈ m.factoryMethods) :
    Keeps (ReflTransGen (Write l m owner)) (l.loadMethods m owner decls) := by
  induction decls with
  | nil => exact Keeps.pure' 0
  | cons decl rest ih =>
    have hrest := ih fun x hx => hdecls x (List.mem_cons_of_mem _ hx)
    intro c
    have hregister : (∀ e, c.definition? decl.target = some e →
        l.Replaceable e ∧ ¬ OwnProduct m owner e) →
        ReflTransGen (Write l m owner) c (endState ((registerIn decl.target
          (methodDefinition m owner decl) >>= fun _ => do
            let n ← l.loadMethods m owner rest
            pure (n + 1)) c)) := fun hreplace =>
      reach_registerIn_bind
        (fun c' hreg => Write.product decl (hdecls decl (List.mem_cons_self ..)) hreplace hreg)
        (Keeps.bind hrest fun _ => Keeps.pure' _)
    simp only [loadMethods, bind_apply, get_apply]
    cases hdef : c.definition? decl.target with
    | none =>
      simp only [Bool.false_eq_true, if_false]
      exact hregister fun e he => by rw [hdef] at he; cases he
    | some existing =>
      simp only
      split
      · exact hrest c
      · -- not blocked: the definition under the name may be replaced
        rename_i hnot
        refine hregister fun e he => ?_
        rw [hdef, Option.some.injEq] at he
        subst he
        exact blocks_eq_false_iff.1 (by simpa using hnot)

theorem loadModel_writes (m : Model) (c : Container) :
    ReflTransGen (Write l m (l.ownerOf m c)) c (endState (l.loadModel m c)) := by
  obtain ⟨hwrites, howner⟩ := ownerName_spec (l := l) (l.ownerOf m c) m c
  unfold loadModel
  rw [bind_apply]
  cases h : l.ownerName m c with
  | error e c₁ =>
    rw [h] at hwrites
    exact hwrites
  | ok r c₁ =>
    rw [h] at hwrites
    obtain ⟨o, imported⟩ := r
    have ho : o = l.ownerOf m c := howner _ _ h
    rw [ho]
    exact hwrites.trans ((Keeps.bind (loadScans_writes fun _ hk => hk) fun _ =>
      Keeps.bind (loadMethods_writes fun _ hd => hd) fun _ => Keeps.pure' _) c₁)

theorem load_loads (ms : List Model) (c : Container) : Loads l ms c (endState (l.load ms c)) := by
  induction ms generalizing c with
  | nil => exact .stop
  | cons m ms ih =>
    have hmodel := loadModel_writes (l := l) m c
    simp only [load]
    rw [bind_apply]
    cases h : l.loadModel m c with
    | ok k c₁ =>
      rw [h] at hmodel
      dsimp only
      rw [endState_bind_pure]
      exact .model hmodel (ih c₁)
    | error e c₁ =>
      rw [h] at hmodel
      exact .model hmodel .stop

/-! ### Imported configurations and the names they need -/

theorem loadModel_import_name_taken {c : Container} {taken : Definition}
    (hname : m.componentName = none) (hplain : c.NoPlainDefinition m.identity)
    (htaken : c.definition? (l.importName m) = some taken)
    (hother : taken.cls.userName ≠ m.identity) :
    l.loadModel m c = .error (.invalidConfiguration
      (.importNameTaken (l.importName m) m.identity taken.cls.userName)) c := by
  have hnone := registeredNameOf_eq_none_iff.2 hplain
  simp only [importName] at htaken ⊢
  simp only [loadModel, ownerName, hname, bind_apply, get_apply, hnone, htaken,
    bne_iff_ne, ne_eq, hother, not_false_eq_true, if_true, throw_apply]

/-- An imported model, with no definition of its class outside factory methods, whose import
name a definition of its own class holds is owned by that name, and nothing is registered for
the import. -/
theorem ownerName_of_holder {c : Container} {taken : Definition}
    (hname : m.componentName = none) (hplain : c.NoPlainDefinition m.identity)
    (htaken : c.definition? (l.importName m) = some taken)
    (hsame : taken.cls.userName = m.identity) :
    l.ownerName m c = .ok (l.importName m, 0) c := by
  have hnone := registeredNameOf_eq_none_iff.2 hplain
  simp only [importName] at htaken ⊢
  simp only [ownerName, hname, bind_apply, get_apply, hnone, htaken, hsame, bne_self_eq_false,
    Bool.false_eq_true, if_false, pure_apply]

theorem load_append_error {ms₁ ms₂ : List Model} {c c₁ c₂ : Container} {k : Nat} {e : BootError}
    (h₁ : l.load ms₁ c = .ok k c₁) (h₂ : l.load ms₂ c₁ = .error e c₂) :
    l.load (ms₁ ++ ms₂) c = .error e c₂ := by
  induction ms₁ generalizing c k with
  | nil =>
    simp only [load, pure_apply, EStateM.Result.ok.injEq] at h₁
    rw [← h₁.2] at h₂
    exact h₂
  | cons m ms ih =>
    obtain ⟨k₁, u, hmodel, hrest⟩ := bind_eq_ok h₁
    obtain ⟨k₂, v, hload, hv⟩ := bind_eq_ok hrest
    simp only [pure_apply, EStateM.Result.ok.injEq] at hv
    rw [hv.2] at hload
    rw [List.cons_append, load, bind_apply, hmodel]
    dsimp only
    rw [bind_apply, ih hload]

/-- The override policy of loading. Every load, successful or not, keeps the names it found in
their order ahead of the names it adds, and all it registers are the writes of its models, each
with the owner resolved when that model's loading starts. An imported model without a
definition of its class outside factory methods needs its import name: held by another class,
the load fails where that model starts, before anything is registered for it; held by a
definition of its own class, that name owns the model's products and nothing is registered for
the import. -/
theorem load_override_policy (l : Loader) :
    (∀ ms c, c.names <+: (endState (l.load ms c)).names ∧ l.Loads ms c (endState (l.load ms c))) ∧
    ∀ ms₁ m ms₂ c c₁ k taken, l.load ms₁ c = .ok k c₁ →
      m.componentName = none → c₁.NoPlainDefinition m.identity →
      c₁.definition? (l.importName m) = some taken →
      (taken.cls.userName ≠ m.identity →
        l.load (ms₁ ++ m :: ms₂) c = .error (.invalidConfiguration
          (.importNameTaken (l.importName m) m.identity taken.cls.userName)) c₁) ∧
      (taken.cls.userName = m.identity →
        l.ownerName m c₁ = .ok (l.importName m, 0) c₁ ∧
          ReflTransGen (Write l m (l.importName m)) c₁ (endState (l.loadModel m c₁))) := by
  refine ⟨fun ms c => ⟨(load_loads ms c).keeps_names, load_loads ms c⟩, ?_⟩
  intro ms₁ m ms₂ c c₁ k taken hbefore hname hplain htaken
  constructor
  · intro hother
    refine load_append_error hbefore ?_
    simp only [load, bind_apply, loadModel_import_name_taken hname hplain htaken hother]
  · intro hsame
    have howner : l.ownerOf m c₁ = l.importName m := by
      rw [ownerOf, hname, registeredNameOf_eq_none_iff.2 hplain, Option.getD_none]
    refine ⟨ownerName_of_holder hname hplain htaken hsame, ?_⟩
    rw [← howner]
    exact loadModel_writes m c₁

/-- A container where the name `app.TimeConfig` holds a definition of the unrelated class
`app.Unrelated`. -/
def unrelatedHolder : Container :=
  { Container.create ⟨0⟩ true with
    definitions := Roster.empty.insert "app.TimeConfig" (.ofClass (.bare "app.Unrelated")) }

theorem imported_clock_rejects_unrelated_holder :
    clockModel.componentName = none ∧
      unrelatedHolder.NoPlainDefinition clockModel.identity ∧
      unrelatedHolder.definition? ((⟨.qualified, .short, true⟩ : Loader).importName clockModel) =
        some (.ofClass (.bare "app.Unrelated")) ∧
      (⟨.qualified, .short, true⟩ : Loader).load [clockModel] unrelatedHolder =
        .error (.invalidConfiguration
          (.importNameTaken "app.TimeConfig" "app.TimeConfig" "app.Unrelated")) unrelatedHolder := by
  have hplain : unrelatedHolder.NoPlainDefinition clockModel.identity :=
    registeredNameOf_eq_none_iff.1 rfl
  refine ⟨rfl, hplain, rfl, ?_⟩
  exact ((load_override_policy _).2 [] clockModel [] unrelatedHolder unrelatedHolder 0
    (.ofClass (.bare "app.Unrelated")) rfl rfl hplain rfl).1 (by decide)

end Loader

end Wiring
