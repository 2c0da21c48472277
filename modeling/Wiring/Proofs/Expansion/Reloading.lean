import Wiring.Proofs.Expansion.Loading

namespace Wiring

/-! Loading the same models a second time. While no definition can be replaced, loading only
appends definitions under new names and leaves every model it loaded settled, so a second load
registers nothing (`load_again_registers_nothing`). A product that takes the name of an imported
configuration's infrastructure definition makes the next load fail instead
(`reload_fails_after_import_name_takeover`). -/

namespace Container

def Appends (c c' : Container) : Prop :=
  c.definitions.entries <+: c'.definitions.entries

/-- No definition of the container has the infrastructure role. -/
def NoInfrastructure (c : Container) : Prop :=
  ∀ n d, c.definition? n = some d → d.isInfrastructure = false

theorem Appends.refl (c : Container) : c.Appends c :=
  List.prefix_refl _

theorem Appends.trans {c₁ c₂ c₃ : Container} (h₁ : c₁.Appends c₂) (h₂ : c₂.Appends c₃) :
    c₁.Appends c₃ :=
  List.IsPrefix.trans h₁ h₂

theorem Appends.definition? {c c' : Container} (h : c.Appends c') {n : String} {d : Definition}
    (hd : c.definition? n = some d) : c'.definition? n = some d := by
  rw [Container.definition?, Roster.get?_eq_some_iff] at hd ⊢
  exact h.subset hd

theorem Appends.mem_names {c c' : Container} (h : c.Appends c') {n : String} (hn : n ∈ c.names) :
    n ∈ c'.names := by
  obtain ⟨d, hd⟩ := mem_names_iff.1 hn
  exact mem_names_iff.2 ⟨d, h.definition? hd⟩

theorem Appends.contains {c c' : Container} (h : c.Appends c') {n : String}
    (hn : c.definitions.contains n = true) : c'.definitions.contains n = true :=
  (Roster.contains_iff_mem_keys _ _).2 (h.mem_names ((Roster.contains_iff_mem_keys _ _).1 hn))

theorem Appends.registeredNameOf {c c' : Container} (h : c.Appends c') {x : String}
    (hx : (c.registeredNameOf x).isSome) : c'.registeredNameOf x = c.registeredNameOf x := by
  obtain ⟨added, hadded⟩ := h
  unfold Container.registeredNameOf at hx ⊢
  rw [Option.isSome_map] at hx
  obtain ⟨e, he⟩ := Option.isSome_iff_exists.1 hx
  rw [← hadded, List.find?_append, he, Option.some_or]

theorem contains_eq_false {c : Container} {n : String} (h : c.definition? n = none) :
    c.definitions.contains n = false :=
  Roster.contains_eq_false_of_get? h

theorem appends_register {c c' : Container} {name : String} {d : Definition}
    (hfree : c.definition? name = none) (h : c.register name d = .ok c') : c.Appends c' := by
  unfold register at h
  split at h
  · cases h
  · cases h
    show c.definitions.entries <+: (c.definitions.insert name d).entries
    rw [Roster.insert, dif_neg (by simp [contains_eq_false hfree])]
    exact List.prefix_append _ _

end Container

namespace Loader

open Container

variable {l : Loader}

theorem registerIn_fresh {name : String} {d : Definition} {c c' : Container}
    (h : registerIn name d c = .ok () c') (hfree : c.definition? name = none)
    (hd : d.isInfrastructure = false) (hc : c.NoInfrastructure) :
    c.Appends c' ∧ c'.NoInfrastructure ∧ c'.definition? name = some d := by
  have hreg := registerIn_ok h
  refine ⟨appends_register hfree hreg, fun n d' hd' => ?_, ?_⟩
  · rw [definition?_register hreg] at hd'
    split at hd'
    · cases hd'
      exact hd
    · exact hc n d' hd'
  · rw [definition?_register hreg, if_pos rfl]

/-- The owner of a model is found without registering: it has a component name, or its class is
registered, or the name an import would take holds a definition of its class. -/
def OwnerKnown (l : Loader) (m : Model) (c : Container) : Prop :=
  m.componentName = none → (c.registeredNameOf m.identity).isSome ∨
    ∃ taken, c.definition? (l.importNames.generate { cls := m.cls, source := .imported }) =
      some taken ∧ taken.cls.userName = m.identity

def ScanTaken (l : Loader) (k : ComponentClass) (c : Container) : Prop :=
  c.definitions.contains (l.scanNames.generate { cls := k, source := .scanned }) = true ∨
    (c.registeredNameOf k.userName).isSome

/-- Loading the model into the container finds everything it would register in place. -/
structure Settled (l : Loader) (m : Model) (c : Container) : Prop where
  owner : OwnerKnown l m c
  scans : ∀ k ∈ m.scanned, ScanTaken l k c
  methods : ∀ decl ∈ m.factoryMethods, decl.target ∈ c.names

theorem OwnerKnown.mono {m : Model} {c c' : Container} (h : OwnerKnown l m c)
    (happ : c.Appends c') : OwnerKnown l m c' := by
  intro hnone
  rcases h hnone with hreg | ⟨taken, htaken, hsame⟩
  · exact .inl (happ.registeredNameOf hreg ▸ hreg)
  · exact .inr ⟨taken, happ.definition? htaken, hsame⟩

theorem ScanTaken.mono {k : ComponentClass} {c c' : Container} (h : ScanTaken l k c)
    (happ : c.Appends c') : ScanTaken l k c' := by
  rcases h with hname | hreg
  · exact .inl (happ.contains hname)
  · exact .inr (happ.registeredNameOf hreg ▸ hreg)

theorem Settled.mono {m : Model} {c c' : Container} (h : Settled l m c) (happ : c.Appends c') :
    Settled l m c' :=
  ⟨h.owner.mono happ, fun k hk => (h.scans k hk).mono happ,
    fun decl hdecl => happ.mem_names (h.methods decl hdecl)⟩

/-! ### Loading settled models writes nothing -/

theorem ownerName_known {m : Model} {c : Container} (h : OwnerKnown l m c) :
    ∃ owner, l.ownerName m c = .ok (owner, 0) c := by
  unfold ownerName
  cases hname : m.componentName with
  | some n => exact ⟨n, rfl⟩
  | none =>
    simp only [bind_apply, get_apply]
    cases hexisting : c.registeredNameOf m.identity with
    | some existing => exact ⟨existing, rfl⟩
    | none =>
      -- with no registered class, the import's name holds a definition of the model's class
      obtain ⟨taken, htaken, hsame⟩ := (h hname).resolve_left (by simp [hexisting])
      simp only [htaken, hsame, bne_self_eq_false, Bool.false_eq_true, if_false, pure_apply]
      exact ⟨_, rfl⟩

theorem loadScans_taken {ks : List ComponentClass} {c : Container}
    (hks : ∀ k ∈ ks, ScanTaken l k c) : l.loadScans ks c = .ok 0 c := by
  induction ks with
  | nil => rfl
  | cons k ks ih =>
    have hskip : (c.definitions.contains (l.scanNames.generate { cls := k, source := .scanned }) ||
        (c.registeredNameOf k.userName).isSome) = true := by
      rcases hks k (List.mem_cons_self ..) with hname | hreg
      · simp [hname]
      · simp [hreg]
    simp only [loadScans, bind_apply, get_apply, hskip, if_true]
    exact ih fun x hx => hks x (List.mem_cons_of_mem _ hx)

theorem blocks_of_fixed (hscanned : l.overrideScanned = false) (m : Model) (owner : String)
    {existing : Definition} (hinfra : existing.isInfrastructure = false) :
    l.blocks m owner existing = true := by
  simp [blocks, hscanned, hinfra]

theorem loadMethods_registered (hscanned : l.overrideScanned = false) {m : Model}
    {owner : String} {decls : List FactoryMethod} {c : Container} (hc : c.NoInfrastructure)
    (hdecls : ∀ decl ∈ decls, decl.target ∈ c.names) : l.loadMethods m owner decls c = .ok 0 c := by
  induction decls with
  | nil => rfl
  | cons decl rest ih =>
    obtain ⟨existing, hexisting⟩ := mem_names_iff.1 (hdecls decl (List.mem_cons_self ..))
    simp only [loadMethods, bind_apply, get_apply, hexisting,
      blocks_of_fixed hscanned m owner (hc _ _ hexisting), if_true]
    exact ih fun x hx => hdecls x (List.mem_cons_of_mem _ hx)

theorem loadModel_settled (hscanned : l.overrideScanned = false) {m : Model} {c : Container}
    (hc : c.NoInfrastructure) (h : Settled l m c) : l.loadModel m c = .ok 0 c := by
  obtain ⟨owner, howner⟩ := ownerName_known h.owner
  simp only [loadModel, bind_apply, howner, loadScans_taken h.scans,
    loadMethods_registered hscanned hc h.methods, pure_apply]

theorem load_settled (hscanned : l.overrideScanned = false) {ms : List Model} {c : Container}
    (hc : c.NoInfrastructure) (hms : ∀ m ∈ ms, Settled l m c) : l.load ms c = .ok 0 c := by
  induction ms with
  | nil => rfl
  | cons m ms ih =>
    simp only [load, bind_apply, loadModel_settled hscanned hc (hms m (List.mem_cons_self ..)),
      ih fun x hx => hms x (List.mem_cons_of_mem _ hx), pure_apply]

/-! ### A load that replaces nothing settles what it loads -/

theorem ownerName_appends {m : Model} {c c' : Container} {r : String × Nat}
    (hid : m.componentName = none → m.identity = m.cls.userName) (hc : c.NoInfrastructure)
    (h : l.ownerName m c = .ok r c') :
    c.Appends c' ∧ c'.NoInfrastructure ∧ OwnerKnown l m c' := by
  unfold ownerName at h
  cases hname : m.componentName with
  | some n =>
    simp only [hname, pure_apply, EStateM.Result.ok.injEq] at h
    rw [← h.2]
    exact ⟨.refl c, hc, fun hnone => by simp [hname] at hnone⟩
  | none =>
    simp only [hname, bind_apply, get_apply] at h
    cases hexisting : c.registeredNameOf m.identity with
    | some existing =>
      simp only [hexisting, pure_apply, EStateM.Result.ok.injEq] at h
      rw [← h.2]
      exact ⟨.refl c, hc, fun _ => .inl (by simp [hexisting])⟩
    | none =>
      simp only [hexisting] at h
      cases htaken : c.definition? (l.importNames.generate { cls := m.cls, source := .imported }) with
      | some taken =>
        simp only [htaken] at h
        split at h
        · cases h
        · rename_i hsame
          simp only [pure_apply, EStateM.Result.ok.injEq] at h
          rw [← h.2]
          exact ⟨.refl c, hc, fun _ => .inr ⟨taken, htaken, by simpa using hsame⟩⟩
      | none =>
        simp only [htaken] at h
        obtain ⟨_, u, hreg, h⟩ := bind_eq_ok h
        simp only [pure_apply, EStateM.Result.ok.injEq] at h
        rw [← h.2]
        -- the imported configuration is registered under the import's name, as its own class
        obtain ⟨happ, hu, hdef⟩ := registerIn_fresh hreg htaken rfl hc
        exact ⟨happ, hu, fun _ => .inr ⟨_, hdef, (hid hname).symm⟩⟩

theorem loadScans_appends {ks : List ComponentClass} {c c' : Container} {k : Nat}
    (hc : c.NoInfrastructure) (h : l.loadScans ks c = .ok k c') :
    c.Appends c' ∧ c'.NoInfrastructure ∧ ∀ x ∈ ks, ScanTaken l x c' := by
  induction ks generalizing c k with
  | nil =>
    simp only [loadScans, pure_apply, EStateM.Result.ok.injEq] at h
    rw [← h.2]
    exact ⟨.refl c, hc, by simp⟩
  | cons x xs ih =>
    simp only [loadScans, bind_apply, get_apply] at h
    split at h
    · -- skipped: the reason to skip it stays true as names are appended
      rename_i hskip
      obtain ⟨happ, hc', hrest⟩ := ih hc h
      have htaken : ScanTaken l x c := by
        rcases Bool.or_eq_true_iff.1 hskip with hname | hreg
        · exact .inl hname
        · exact .inr hreg
      refine ⟨happ, hc', fun y hy => ?_⟩
      rcases List.mem_cons.1 hy with rfl | hy
      · exact htaken.mono happ
      · exact hrest y hy
    · rename_i hfree
      obtain ⟨_, u, hreg, h⟩ := bind_eq_ok h
      obtain ⟨k', v, hrest, h⟩ := bind_eq_ok h
      simp only [pure_apply, EStateM.Result.ok.injEq] at h
      obtain ⟨-, rfl⟩ := h
      have hnone : c.definition? (l.scanNames.generate { cls := x, source := .scanned }) = none := by
        cases hdef : c.definition? (l.scanNames.generate { cls := x, source := .scanned }) with
        | none => rfl
        | some d =>
          have hname := (Roster.contains_iff_mem_keys _ _).2 (mem_names_iff.2 ⟨d, hdef⟩)
          simp [hname] at hfree
      obtain ⟨happ, hu, hdef⟩ := registerIn_fresh hreg hnone rfl hc
      obtain ⟨happ', hc', hrestTaken⟩ := ih hu hrest
      have htaken : ScanTaken l x u :=
        .inl ((Roster.contains_iff_mem_keys _ _).2 (mem_names_iff.2 ⟨_, hdef⟩))
      refine ⟨happ.trans happ', hc', fun y hy => ?_⟩
      rcases List.mem_cons.1 hy with rfl | hy
      · exact htaken.mono happ'
      · exact hrestTaken y hy

theorem loadMethods_appends (hscanned : l.overrideScanned = false) {m : Model} {owner : String}
    {decls : List FactoryMethod} {c c' : Container} {k : Nat}
    (hdecls : ∀ decl ∈ decls, decl.role = .application) (hc : c.NoInfrastructure)
    (h : l.loadMethods m owner decls c = .ok k c') :
    c.Appends c' ∧ c'.NoInfrastructure ∧ ∀ decl ∈ decls, decl.target ∈ c'.names := by
  induction decls generalizing c k with
  | nil =>
    simp only [loadMethods, pure_apply, EStateM.Result.ok.injEq] at h
    rw [← h.2]
    exact ⟨.refl c, hc, by simp⟩
  | cons decl rest ih =>
    have hrestRoles : ∀ x ∈ rest, x.role = .application :=
      fun x hx => hdecls x (List.mem_cons_of_mem _ hx)
    simp only [loadMethods, bind_apply, get_apply] at h
    cases hdef : c.definition? decl.target with
    | some existing =>
      -- an existing definition cannot be replaced, so the method is skipped
      simp only [hdef, blocks_of_fixed hscanned m owner (hc _ _ hdef), if_true] at h
      obtain ⟨happ, hc', hrest⟩ := ih hrestRoles hc h
      refine ⟨happ, hc', fun x hx => ?_⟩
      rcases List.mem_cons.1 hx with rfl | hx
      · exact happ.mem_names (mem_names_iff.2 ⟨existing, hdef⟩)
      · exact hrest x hx
    | none =>
      simp only [hdef, Bool.false_eq_true, if_false] at h
      obtain ⟨_, u, hreg, h⟩ := bind_eq_ok h
      obtain ⟨k', v, hrest, h⟩ := bind_eq_ok h
      simp only [pure_apply, EStateM.Result.ok.injEq] at h
      obtain ⟨-, rfl⟩ := h
      have hrole : (methodDefinition m owner decl).isInfrastructure = false := by
        simp [methodDefinition, Definition.isInfrastructure, hdecls decl (List.mem_cons_self ..)]
      obtain ⟨happ, hu, hdef'⟩ := registerIn_fresh hreg hdef hrole hc
      obtain ⟨happ', hc', hrestNames⟩ := ih hrestRoles hu hrest
      refine ⟨happ.trans happ', hc', fun x hx => ?_⟩
      rcases List.mem_cons.1 hx with rfl | hx
      · exact happ'.mem_names (mem_names_iff.2 ⟨_, hdef'⟩)
      · exact hrestNames x hx

theorem loadModel_appends (hscanned : l.overrideScanned = false) {m : Model} {c c' : Container}
    {k : Nat} (hdecls : ∀ decl ∈ m.factoryMethods, decl.role = .application)
    (hid : m.componentName = none → m.identity = m.cls.userName) (hc : c.NoInfrastructure)
    (h : l.loadModel m c = .ok k c') :
    c.Appends c' ∧ c'.NoInfrastructure ∧ Settled l m c' := by
  obtain ⟨⟨owner, imported⟩, u₁, howner, h⟩ := bind_eq_ok h
  obtain ⟨scanned, u₂, hscans, h⟩ := bind_eq_ok h
  obtain ⟨methods, u₃, hmethods, h⟩ := bind_eq_ok h
  simp only [pure_apply, EStateM.Result.ok.injEq] at h
  obtain ⟨-, rfl⟩ := h
  obtain ⟨happ₁, hc₁, hknown⟩ := ownerName_appends hid hc howner
  obtain ⟨happ₂, hc₂, htaken⟩ := loadScans_appends hc₁ hscans
  obtain ⟨happ₃, hc₃, hnames⟩ := loadMethods_appends hscanned hdecls hc₂ hmethods
  exact ⟨happ₁.trans (happ₂.trans happ₃), hc₃,
    ⟨(hknown.mono happ₂).mono happ₃, fun x hx => (htaken x hx).mono happ₃, hnames⟩⟩

theorem load_appends (hscanned : l.overrideScanned = false) {ms : List Model} {c c' : Container}
    {k : Nat} (hdecls : ∀ m ∈ ms, ∀ decl ∈ m.factoryMethods, decl.role = .application)
    (hid : ∀ m ∈ ms, m.componentName = none → m.identity = m.cls.userName)
    (hc : c.NoInfrastructure) (h : l.load ms c = .ok k c') :
    c.Appends c' ∧ c'.NoInfrastructure ∧ ∀ m ∈ ms, Settled l m c' := by
  induction ms generalizing c k with
  | nil =>
    simp only [load, pure_apply, EStateM.Result.ok.injEq] at h
    rw [← h.2]
    exact ⟨.refl c, hc, by simp⟩
  | cons m ms ih =>
    obtain ⟨n, u, hmodel, h⟩ := bind_eq_ok h
    obtain ⟨n', v, hrest, h⟩ := bind_eq_ok h
    simp only [pure_apply, EStateM.Result.ok.injEq] at h
    obtain ⟨-, rfl⟩ := h
    obtain ⟨happ, hu, hsettled⟩ := loadModel_appends hscanned (hdecls m (List.mem_cons_self ..))
      (hid m (List.mem_cons_self ..)) hc hmodel
    obtain ⟨happ', hc', hrest⟩ := ih (fun x hx => hdecls x (List.mem_cons_of_mem _ hx))
      (fun x hx => hid x (List.mem_cons_of_mem _ hx)) hu hrest
    refine ⟨happ.trans happ', hc', fun x hx => ?_⟩
    rcases List.mem_cons.1 hx with rfl | hx
    · exact hsettled.mono happ'
    · exact hrest x hx

/-- Loading is idempotent while nothing can be replaced: when scanned definitions are not
overridden, no definition of the container and no factory method of the models has the
infrastructure role, and every imported model is known by its class's user name (as every
parsed model is), loading the models again after a successful load registers nothing and leaves
the container exactly as it was. -/
theorem load_again_registers_nothing {ms : List Model} {c c' : Container} {k : Nat}
    (hscanned : l.overrideScanned = false) (hc : c.NoInfrastructure)
    (hdecls : ∀ m ∈ ms, ∀ decl ∈ m.factoryMethods, decl.role = .application)
    (hid : ∀ m ∈ ms, m.componentName = none → m.identity = m.cls.userName)
    (h : l.load ms c = .ok k c') : l.load ms c' = .ok 0 c' := by
  obtain ⟨-, hc', hsettled⟩ := load_appends hscanned hdecls hid hc h
  exact load_settled hscanned hc' hsettled

def clockConfig : ComponentClass :=
  { ComponentClass.bare "app.TimeConfig" with
    metadata := { className := "app.TimeConfig", configuration := true
                  factoryMethods := [{ name := "clock", returnClass := .bare "app.Clock" }] } }

def clockModel : Model :=
  { cls := clockConfig, metadata := clockConfig.metadata, componentName := none
    importedBy := ["app.Root"], factoryMethods := clockConfig.metadata.factoryMethods }

theorem clock_model_reloads_to_nothing :
    ∃ c', (⟨.qualified, .short, false⟩ : Loader).load [clockModel] (Container.create ⟨0⟩ true) =
      .ok 2 c' ∧ (⟨.qualified, .short, false⟩ : Loader).load [clockModel] c' = .ok 0 c' := by
  obtain ⟨c', hfirst⟩ : ∃ c', (⟨.qualified, .short, false⟩ : Loader).load [clockModel]
      (Container.create ⟨0⟩ true) = .ok 2 c' := ⟨_, rfl⟩
  refine ⟨c', hfirst, load_again_registers_nothing rfl ?_ ?_ ?_ hfirst⟩
  · intro n d hd
    simp [Container.definition?, Container.create, Roster.get?, Roster.empty] at hd
  · simp [clockModel, clockConfig]
  · simp [clockModel, Model.identity, ComponentClass.userName]

/-! ### A replacement that breaks the second load -/

def importedConfig : ComponentClass :=
  { ComponentClass.bare "app.Imp" with metadata := { className := "app.Imp", configuration := true } }

/-- A configuration importing `importedConfig`, whose factory method `take` produces a component
under the name `app.Imp`. -/
def importerConfig : ComponentClass :=
  { ComponentClass.bare "app.Root" with
    metadata := { className := "app.Root", configuration := true, imports := ["app.Imp"]
                  factoryMethods := [{ name := "take", componentName := some "app.Imp"
                                       returnClass := .bare "app.Product" }] } }

def takeoverModels : List Model :=
  [{ cls := importedConfig, metadata := importedConfig.metadata, componentName := none
     importedBy := ["app.Root"], factoryMethods := [] },
   { cls := importerConfig, metadata := importerConfig.metadata, componentName := some "root"
     factoryMethods := importerConfig.metadata.factoryMethods }]

/-- A container where `app.Imp` is already registered, as a marked infrastructure definition of
the imported class, next to the marked importer `root`. -/
def takeoverContainer : Container :=
  { Container.create ⟨0⟩ true with
    definitions := (Roster.empty.insert "app.Imp"
        { cls := importedConfig, role := .infrastructure, configuration := some .full }).insert
      "root" { cls := importerConfig, configuration := some .full } }

/-- The first load finds the imported configuration registered as `app.Imp`, and then the
importer's factory method replaces that infrastructure definition with its product. The second
load no longer finds a definition of the imported class, and its import name is held by the
product's class: the load fails. -/
theorem reload_fails_after_import_name_takeover :
    ∃ c₁ c₂, (⟨.qualified, .short, true⟩ : Loader).load takeoverModels takeoverContainer =
        .ok 1 c₁ ∧
      (⟨.qualified, .short, true⟩ : Loader).load takeoverModels c₁ =
        .error (.invalidConfiguration (.importNameTaken "app.Imp" "app.Imp" "app.Product")) c₂ :=
  ⟨_, _, rfl, rfl⟩

end Loader

end Wiring
