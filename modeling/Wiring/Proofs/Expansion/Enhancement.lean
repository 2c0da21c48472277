import Wiring.Configuration.Enhance
import Wiring.Proofs.Frame

namespace Wiring

/-! The enhancement pass. The pass walks the definition names in registration order. A definition
it visits is marked to keep its target class and takes the class its enhancer answers; the first
class the enhancer refuses stops the pass. What a pass leaves is therefore a pointwise function of
the container it started from (`EnhancedOver`), and how it ends is `PassOutcome`. For the subclass
enhancer the classes that change are exactly those that do not intercept yet, each replaced by an
intercepting subclass of itself, and a second pass finds nothing left to do. -/

namespace Roster

variable {α : Type}

theorem replaceIn_eq_self {k : String} {v : α} :
    ∀ {es : List (String × α)}, (es.map (·.1)).Nodup → (k, v) ∈ es → replaceIn k v es = es
  | [], _, h => by cases h
  | e :: es, hnodup, h => by
    by_cases hek : e.1 = k
    · have he : e = (k, v) := eq_of_mem_of_fst_eq hnodup List.mem_cons_self h hek
      subst he
      simp [replaceIn]
    · have hrest : (k, v) ∈ es := by
        rcases List.mem_cons.1 h with h | h
        · exact absurd (congrArg Prod.fst h).symm hek
        · exact h
      rw [List.map_cons, List.nodup_cons] at hnodup
      simp [replaceIn, hek, replaceIn_eq_self hnodup.2 hrest]

theorem insert_eq_self {r : Roster α} {k : String} {v : α} (h : r.get? k = some v) :
    r.insert k v = r := by
  have hmem := get?_eq_some_iff.1 h
  have hk : r.contains k = true := (contains_iff_mem_keys r k).2 (List.mem_map.2 ⟨_, hmem, rfl⟩)
  obtain ⟨es, hnodup⟩ := r
  simp only [insert, hk, dite_true, Roster.mk.injEq]
  exact replaceIn_eq_self hnodup hmem

theorem modify_eq_self {r : Roster α} {k : String} {f : α → α}
    (h : ∀ v, r.get? k = some v → f v = v) : r.modify k f = r := by
  obtain ⟨es, hnodup⟩ := r
  simp only [modify, Roster.mk.injEq]
  refine (List.map_congr_left fun e he => ?_).trans (List.map_id es)
  by_cases hek : e.1 = k
  · have hmem : (k, e.2) ∈ es := by
      rw [← hek]
      exact he
    have hfix : f e.2 = e.2 := h e.2 (get?_eq_some_iff.2 hmem)
    simp only [hek, beq_self_eq_true, if_true, hfix]
    exact Prod.ext hek.symm rfl
  · simp [hek]

end Roster

namespace Capability

theorem mem_insertSorted {x c : Capability} :
    ∀ {cs : List Capability}, x ∈ insertSorted c cs ↔ x = c ∨ x ∈ cs
  | [] => by simp [insertSorted]
  | d :: ds => by
    unfold insertSorted
    split
    · next h =>
      subst h
      simp
    · split
      · simp
      · simp only [List.mem_cons, mem_insertSorted]
        exact or_left_comm

end Capability

namespace ComponentClass

/-- `k'` is an intercepting subclass of `k`: it extends `k` and intercepts factory methods, keeps
the metadata of `k` (so its user class name) and its method bodies, and advertises the
capabilities of `k` and `enhancedConfiguration`. -/
structure SubclassOf (k' k : ComponentClass) : Prop where
  superclass_eq : k'.superclass = some k
  intercepts_eq : k'.intercepts = true
  metadata_eq : k'.metadata = k.metadata
  bodies_eq : k'.bodies = k.bodies
  mem_capabilities : ∀ cap, cap ∈ k'.capabilities ↔ cap ∈ k.capabilities ∨
    cap = .enhancedConfiguration

theorem interceptingSubclass_subclassOf (k : ComponentClass) (name : String) (ctor : Constructor) :
    (k.interceptingSubclass name ctor).SubclassOf k where
  superclass_eq := rfl
  intercepts_eq := rfl
  metadata_eq := rfl
  bodies_eq := rfl
  mem_capabilities cap := by
    simp only [interceptingSubclass, Capability.mem_insertSorted]
    exact or_comm

end ComponentClass

/-- A definition as the pass leaves one it visits: marked to keep its target class, with the
replacement class when the enhancer gives one. -/
def Definition.enhanced (d : Definition) (r : Option ComponentClass) : Definition :=
  { d with attributes := d.attributes.insert preserveTargetClass "true", cls := r.getD d.cls }

namespace Container

def replaces (c : Container) (e : Enhancer) (n : String) : Bool :=
  match c.definition? n with
  | some d => c.enhanceable n d &&
    match e.enhance d.cls with
    | .ok (some _) => true
    | _ => false
  | none => false

/-- The pass visits the definition of `n` and its enhancer refuses the class, so the pass fails
there. -/
def refuses (c : Container) (e : Enhancer) (n : String) : Bool :=
  match c.definition? n with
  | some d => c.enhanceable n d &&
    match e.enhance d.cls with
    | .error _ => true
    | .ok _ => false
  | none => false

/-- The subclass enhancer gives the definition of `n` a new class: the pass visits it and its
class does not intercept factory methods. -/
def needsSubclass (c : Container) (n : String) : Bool :=
  match c.definition? n with
  | some d => c.enhanceable n d && !d.cls.intercepts
  | none => false

/-- The subclass enhancer cannot subclass the class of `n`: the pass visits it, and its class
neither intercepts nor has a constructor. -/
def cannotSubclass (c : Container) (n : String) : Bool :=
  match c.definition? n with
  | some d => c.enhanceable n d && !d.cls.intercepts && d.cls.constructor.isNone
  | none => false

theorem enhanceable_congr {c₁ c : Container} (h : c₁.singletons = c.singletons) :
    c₁.enhanceable = c.enhanceable := by
  funext n d
  simp only [enhanceable, h]

@[simp] theorem enhanceable_enhanced (c : Container) (n : String) (d : Definition)
    (r : Option ComponentClass) : c.enhanceable n (d.enhanced r) = c.enhanceable n d := rfl

end Container

/-- `c'` is `c` after the pass visited the names `ns` without failing: only definitions changed;
each definition of `ns` that the pass visits is marked and takes the class the enhancer answered,
and every other definition is as it was. -/
structure EnhancedOver (e : Enhancer) (c c' : Container) (ns : List String) : Prop where
  frame : { c' with definitions := c.definitions } = c
  names_eq : c'.names = c.names
  visited : ∀ n ∈ ns, ∀ d, c.definition? n = some d → c.enhanceable n d = true →
    ∃ r, e.enhance d.cls = .ok r ∧ c'.definition? n = some (d.enhanced r)
  kept : ∀ n d, c.definition? n = some d → (n ∈ ns → c.enhanceable n d = false) →
    c'.definition? n = some d

namespace EnhancedOver

variable {e : Enhancer} {c c₁ c₂ : Container} {ns ns₁ ns₂ : List String}

theorem singletons_eq (h : EnhancedOver e c c₁ ns) : c₁.singletons = c.singletons := by
  have hsingletons := congrArg Container.singletons h.frame
  exact hsingletons

theorem of_unvisited (h : ∀ n ∈ ns, ∀ d, c.definition? n = some d → c.enhanceable n d = false) :
    EnhancedOver e c c ns where
  frame := rfl
  names_eq := rfl
  visited n hn d hd hvisit := by simp [h n hn d hd] at hvisit
  kept _ _ hd _ := hd

theorem single {name : String} {d : Definition} {r : Option ComponentClass}
    (hd : c.definition? name = some d) (hvisit : c.enhanceable name d = true)
    (hanswer : e.enhance d.cls = .ok r) :
    EnhancedOver e c (c.modifyDefinition name (·.enhanced r)) [name] where
  frame := rfl
  names_eq := Container.names_modifyDefinition _ _ _
  visited n hn d' hd' _ := by
    rw [List.mem_singleton] at hn
    subst hn
    rw [hd] at hd'
    cases hd'
    exact ⟨r, hanswer, by rw [Container.definition?_modifyDefinition, if_pos rfl, hd]; rfl⟩
  kept n d' hd' hskip := by
    rw [Container.definition?_modifyDefinition]
    split
    · next hn =>
      subst hn
      rw [hd] at hd'
      cases hd'
      simp [hvisit] at hskip
    · exact hd'

theorem append (h₁ : EnhancedOver e c c₁ ns₁) (h₂ : EnhancedOver e c₁ c₂ ns₂)
    (hdisj : ∀ n ∈ ns₂, n ∉ ns₁) : EnhancedOver e c c₂ (ns₁ ++ ns₂) where
  frame := by
    calc { c₂ with definitions := c.definitions }
        = { { c₂ with definitions := c₁.definitions } with definitions := c.definitions } := rfl
      _ = c := by rw [h₂.frame, h₁.frame]
  names_eq := h₂.names_eq.trans h₁.names_eq
  visited n hn d hd hvisit := by
    have hsame := Container.enhanceable_congr h₁.singletons_eq
    rcases List.mem_append.1 hn with hn₁ | hn₂
    · -- the first pass rewrote `n` and the second leaves it alone
      obtain ⟨r, hanswer, hd₁⟩ := h₁.visited n hn₁ d hd hvisit
      exact ⟨r, hanswer, h₂.kept n _ hd₁ fun hn₂ => absurd hn₁ (hdisj n hn₂)⟩
    · have hd₁ := h₁.kept n d hd fun hn₁ => absurd hn₁ (hdisj n hn₂)
      exact h₂.visited n hn₂ d hd₁ (by rw [hsame]; exact hvisit)
  kept n d hd hskip := by
    have hsame := Container.enhanceable_congr h₁.singletons_eq
    have hd₁ := h₁.kept n d hd fun hn₁ => hskip (List.mem_append_left _ hn₁)
    exact h₂.kept n d hd₁ fun hn₂ => by rw [hsame]; exact hskip (List.mem_append_right _ hn₂)

end EnhancedOver

/-- How a pass over `ns` from `c` can end. It succeeds when no visited class is refused,
answering how many classes changed, with `EnhancedOver` as its end state; otherwise it fails at the
first refused class, with every name before it enhanced. -/
def PassOutcome (e : Enhancer) (c : Container) (ns : List String) :
    EStateM.Result BootError Container Nat → Prop
  | .ok k c' => (∀ n ∈ ns, c.refuses e n = false) ∧ k = (ns.filter (c.replaces e)).length ∧
      EnhancedOver e c c' ns
  | .error err s => ∃ pre n post d ex, ns = pre ++ n :: post ∧
      (∀ m ∈ pre, c.refuses e m = false) ∧ c.definition? n = some d ∧
      c.enhanceable n d = true ∧ e.enhance d.cls = .error ex ∧
      err = .enhancementFailed n d.cls.name ex.message ∧ EnhancedOver e c s pre

def shiftCount (j : Nat) : EStateM.Result BootError Container Nat → EStateM.Result BootError Container Nat
  | .ok k s => .ok (k + j) s
  | .error err s => .error err s

section Steps

variable {e : Enhancer} {name : String} {rest : List String} {c : Container}

theorem visits_or_skips (c : Container) (name : String) :
    (∃ d, c.definition? name = some d ∧ c.enhanceable name d = true) ∨
      ∀ d, c.definition? name = some d → c.enhanceable name d = false := by
  by_cases hvisit : ∃ d, c.definition? name = some d ∧ c.enhanceable name d = true
  · exact .inl hvisit
  · exact .inr fun d hd => by simpa using fun h => hvisit ⟨d, hd, h⟩

theorem enhanceNames_cons_unvisited
    (hskip : ∀ d, c.definition? name = some d → c.enhanceable name d = false) :
    enhanceNames e (name :: rest) c = enhanceNames e rest c := by
  simp only [enhanceNames, bind_apply, get_apply]
  cases hd : c.definition? name with
  | none => rfl
  | some d => simp [hskip d hd]

theorem enhanceNames_cons_visit {d : Definition} (hd : c.definition? name = some d)
    (hvisit : c.enhanceable name d = true) :
    enhanceNames e (name :: rest) c =
      match e.enhance d.cls with
      | .error ex => .error (.enhancementFailed name d.cls.name ex.message) c
      | .ok r =>
        shiftCount (if r.isSome then 1 else 0)
          (enhanceNames e rest (c.modifyDefinition name (·.enhanced r))) := by
  simp only [enhanceNames, bind_apply, get_apply, hd, hvisit, Bool.not_true, Bool.false_eq_true,
    if_false]
  cases e.enhance d.cls with
  | error ex => rfl
  | ok r =>
    cases r with
    | none =>
      show enhanceNames e rest (c.modifyDefinition name (·.enhanced none)) =
        shiftCount 0 (enhanceNames e rest (c.modifyDefinition name (·.enhanced none)))
      cases enhanceNames e rest (c.modifyDefinition name (·.enhanced none)) <;> rfl
    | some k =>
      show (set (c.modifyDefinition name (·.enhanced (some k))) >>= fun _ =>
          enhanceNames e rest >>= fun n => pure (n + 1)) c = _
      simp only [bind_apply, set_apply]
      cases enhanceNames e rest (c.modifyDefinition name (·.enhanced (some k))) <;> rfl

theorem enhanceAll_apply :
    enhanceAll e c =
      match enhanceNames e c.names c with
      | .ok k s => .ok k (if 0 < k then s.clearCache else s)
      | .error err s => .error err s := by
  simp only [enhanceAll, bind_apply, get_apply]
  cases enhanceNames e c.names c with
  | ok k s =>
    by_cases hk : 0 < k
    · simp only [gt_iff_lt, hk, if_true, bind_apply, modify_apply, pure_apply]
    · simp only [gt_iff_lt, hk, if_false, pure_apply]
  | error err s => rfl

theorem definition?_modifyDefinition_of_ne {f : Definition → Definition} {n : String}
    (hn : n ≠ name) : (c.modifyDefinition name f).definition? n = c.definition? n := by
  rw [Container.definition?_modifyDefinition, if_neg hn]

theorem replaces_modifyDefinition {f : Definition → Definition} {n : String} (hn : n ≠ name) :
    (c.modifyDefinition name f).replaces e n = c.replaces e n := by
  unfold Container.replaces
  rw [definition?_modifyDefinition_of_ne hn]
  rfl

theorem refuses_modifyDefinition {f : Definition → Definition} {n : String} (hn : n ≠ name) :
    (c.modifyDefinition name f).refuses e n = c.refuses e n := by
  unfold Container.refuses
  rw [definition?_modifyDefinition_of_ne hn]
  rfl

end Steps

namespace PassOutcome

variable {e : Enhancer} {name : String} {rest : List String} {c : Container}
  {res : EStateM.Result BootError Container Nat}

theorem cons_unvisited (hskip : ∀ d, c.definition? name = some d → c.enhanceable name d = false)
    (hname : name ∉ rest) (h : PassOutcome e c rest res) : PassOutcome e c (name :: rest) res := by
  have hquiet : c.refuses e name = false ∧ c.replaces e name = false := by
    unfold Container.refuses Container.replaces
    cases hd : c.definition? name with
    | none => exact ⟨rfl, rfl⟩
    | some d => simp [hskip d hd]
  have hstep : EnhancedOver e c c [name] := EnhancedOver.of_unvisited fun n hn d hd => by
    rw [List.mem_singleton] at hn
    subst hn
    exact hskip d hd
  have hdisj : ∀ m ∈ rest, m ∉ [name] := fun m hm hm' => hname (List.mem_singleton.1 hm' ▸ hm)
  cases res with
  | ok k c' =>
    obtain ⟨hclean, rfl, hover⟩ := h
    exact ⟨List.forall_mem_cons.2 ⟨hquiet.1, hclean⟩, by simp [hquiet.2], hstep.append hover hdisj⟩
  | error err s =>
    obtain ⟨pre, n, post, d, ex, rfl, hclean, hd, hvisit, hanswer, rfl, hover⟩ := h
    exact ⟨name :: pre, n, post, d, ex, rfl, List.forall_mem_cons.2 ⟨hquiet.1, hclean⟩, hd, hvisit,
      hanswer, rfl, hstep.append hover fun m hm => hdisj m (List.mem_append_left _ hm)⟩

theorem cons_refused {d : Definition} {ex : BootError} (hd : c.definition? name = some d)
    (hvisit : c.enhanceable name d = true) (hanswer : e.enhance d.cls = .error ex) :
    PassOutcome e c (name :: rest) (.error (.enhancementFailed name d.cls.name ex.message) c) :=
  ⟨[], name, rest, d, ex, rfl, by simp, hd, hvisit, hanswer, rfl,
    EnhancedOver.of_unvisited (by simp)⟩

theorem cons_answered {d : Definition} {r : Option ComponentClass}
    (hd : c.definition? name = some d) (hvisit : c.enhanceable name d = true)
    (hanswer : e.enhance d.cls = .ok r) (hname : name ∉ rest)
    (h : PassOutcome e (c.modifyDefinition name (·.enhanced r)) rest res) :
    PassOutcome e c (name :: rest) (shiftCount (if r.isSome then 1 else 0) res) := by
  have hstep := EnhancedOver.single hd hvisit hanswer
  have hne : ∀ m ∈ rest, m ≠ name := fun m hm hmn => hname (hmn ▸ hm)
  have hrefuses : c.refuses e name = false := by
    simp [Container.refuses, hd, hvisit, hanswer]
  have hreplaces : c.replaces e name = r.isSome := by
    cases r <;> simp [Container.replaces, hd, hvisit, hanswer]
  have hdisj : ∀ m ∈ rest, m ∉ [name] := fun m hm hm' =>
    hne m hm (List.mem_singleton.1 hm')
  cases res with
  | ok k c' =>
    obtain ⟨hclean, rfl, hover⟩ := h
    refine ⟨List.forall_mem_cons.2 ⟨hrefuses, fun n hn => ?_⟩, ?_, hstep.append hover hdisj⟩
    · rw [← refuses_modifyDefinition (hne n hn)]
      exact hclean n hn
    · have hsame : rest.filter ((c.modifyDefinition name (·.enhanced r)).replaces e) =
          rest.filter (c.replaces e) :=
        List.filter_congr fun m hm => replaces_modifyDefinition (hne m hm)
      rw [hsame, List.filter_cons, hreplaces]
      cases r <;> simp
  | error err s =>
    obtain ⟨pre, n, post, d', ex, rfl, hclean, hd', hvisit', hanswer', rfl, hover⟩ := h
    have hn : n ≠ name := hne n (List.mem_append_right _ List.mem_cons_self)
    refine ⟨name :: pre, n, post, d', ex, rfl, List.forall_mem_cons.2 ⟨hrefuses, fun m hm => ?_⟩, ?_,
      hvisit', hanswer', rfl, hstep.append hover fun m hm => hdisj m (List.mem_append_left _ hm)⟩
    · rw [← refuses_modifyDefinition (hne m (List.mem_append_left _ hm))]
      exact hclean m hm
    · rw [← definition?_modifyDefinition_of_ne hn]
      exact hd'

end PassOutcome

theorem enhanceNames_outcome (e : Enhancer) :
    ∀ (ns : List String) (c : Container), ns.Nodup → PassOutcome e c ns (enhanceNames e ns c)
  | [], c, _ => ⟨by simp, rfl, EnhancedOver.of_unvisited (by simp)⟩
  | name :: rest, c, hnodup => by
    obtain ⟨hname, hrest⟩ := List.nodup_cons.1 hnodup
    rcases visits_or_skips c name with ⟨d, hd, hvisit⟩ | hskip
    · rw [enhanceNames_cons_visit hd hvisit]
      cases hanswer : e.enhance d.cls with
      | error ex => exact PassOutcome.cons_refused hd hvisit hanswer
      | ok r =>
        exact PassOutcome.cons_answered hd hvisit hanswer hname (enhanceNames_outcome e rest _ hrest)
    · rw [enhanceNames_cons_unvisited hskip]
      exact PassOutcome.cons_unvisited hskip hname (enhanceNames_outcome e rest c hrest)

/-! ### The subclass enhancer -/

section Subclass

variable {k : ComponentClass}

theorem subclass_enhance_ok {r : Option ComponentClass} (h : Enhancer.subclass.enhance k = .ok r) :
    (k.intercepts = true ∧ r = none) ∨ (k.intercepts = false ∧ ∃ k', r = some k' ∧ k'.SubclassOf k) := by
  unfold Enhancer.enhance at h
  cases hk : k.intercepts with
  | true =>
    simp only [hk, if_true, Except.ok.injEq] at h
    exact .inl ⟨rfl, h.symm⟩
  | false =>
    simp only [hk, Bool.false_eq_true, if_false] at h
    cases hctor : k.constructor with
    | none => simp [hctor] at h
    | some ctor =>
      simp only [hctor, Except.ok.injEq] at h
      exact .inr ⟨rfl, _, h.symm, k.interceptingSubclass_subclassOf _ _⟩

theorem subclass_enhance_error {ex : BootError} (h : Enhancer.subclass.enhance k = .error ex) :
    k.intercepts = false ∧ k.constructor = none ∧
      ex = .notInstantiable k.name "configuration class declares no constructor" := by
  unfold Enhancer.enhance at h
  cases hk : k.intercepts with
  | true => simp [hk] at h
  | false =>
    simp only [hk, Bool.false_eq_true, if_false] at h
    cases hctor : k.constructor with
    | none =>
      simp only [hctor, Except.error.injEq] at h
      exact ⟨rfl, rfl, h.symm⟩
    | some ctor => simp [hctor] at h

theorem refuses_subclass (c : Container) (n : String) :
    c.refuses .subclass n = c.cannotSubclass n := by
  unfold Container.refuses Container.cannotSubclass
  cases c.definition? n with
  | none => rfl
  | some d =>
    simp only [Enhancer.enhance]
    cases d.cls.intercepts <;> cases d.cls.constructor <;> simp

theorem replaces_subclass {c : Container} {n : String} (h : c.cannotSubclass n = false) :
    c.replaces .subclass n = c.needsSubclass n := by
  unfold Container.cannotSubclass at h
  unfold Container.replaces Container.needsSubclass
  cases hd : c.definition? n with
  | none => rfl
  | some d =>
    simp only [hd] at h
    simp only [Enhancer.enhance]
    cases hi : d.cls.intercepts <;> cases hctor : d.cls.constructor <;> simp_all

end Subclass

/-- Every definition the pass would visit already has an intercepting class and is marked to keep
its target class: the subclass enhancer has nothing left to do. -/
def Container.Settled (c : Container) : Prop :=
  ∀ n d, c.definition? n = some d → c.enhanceable n d = true →
    d.cls.intercepts = true ∧ d.attributes.get? preserveTargetClass = some "true"

theorem enhanced_none_of_marked {d : Definition}
    (h : d.attributes.get? preserveTargetClass = some "true") : d.enhanced none = d := by
  unfold Definition.enhanced
  rw [Roster.insert_eq_self h]
  rfl

theorem enhanceNames_settled {c : Container} (hs : c.Settled) :
    ∀ ns, enhanceNames .subclass ns c = .ok 0 c
  | [] => rfl
  | name :: rest => by
    rcases visits_or_skips c name with ⟨d, hd, hvisit⟩ | hskip
    · obtain ⟨hintercepts, hmarked⟩ := hs name d hd hvisit
      have hanswer : Enhancer.subclass.enhance d.cls = .ok none := by
        simp [Enhancer.enhance, hintercepts]
      -- marking a marked definition again leaves the container as it was
      have hsame : c.modifyDefinition name (·.enhanced none) = c := by
        have hfix : ∀ v, c.definitions.get? name = some v → v.enhanced none = v := fun v hv => by
          have hvd : v = d := Option.some.inj (hv.symm.trans hd)
          subst hvd
          exact enhanced_none_of_marked hmarked
        show { c with definitions := c.definitions.modify name (·.enhanced none) } = c
        rw [Roster.modify_eq_self hfix]
      rw [enhanceNames_cons_visit hd hvisit, hanswer]
      simp only [hsame, enhanceNames_settled hs rest, Option.isSome_none]
      rfl
    · rw [enhanceNames_cons_unvisited hskip, enhanceNames_settled hs rest]

theorem EnhancedOver.settled {c c' : Container} (h : EnhancedOver .subclass c c' c.names) :
    c'.Settled := by
  intro n d' hd' hvisit'
  have hsame := Container.enhanceable_congr h.singletons_eq
  obtain ⟨d, hd⟩ := Container.mem_names_iff.1 (h.names_eq ▸ Container.mem_names_iff.2 ⟨d', hd'⟩)
  have hn : n ∈ c.names := Container.mem_names_iff.2 ⟨d, hd⟩
  cases hvisit : c.enhanceable n d with
  | false =>
    -- a definition the pass did not visit is as it was, so a second pass does not visit it either
    have hkept := h.kept n d hd fun _ => hvisit
    rw [hd'] at hkept
    cases hkept
    rw [hsame, hvisit] at hvisit'
    cases hvisit'
  | true =>
    obtain ⟨r, hanswer, hd₁⟩ := h.visited n hn d hd hvisit
    rw [hd'] at hd₁
    cases hd₁
    refine ⟨?_, by simp [Definition.enhanced, Roster.get?_insert]⟩
    rcases subclass_enhance_ok hanswer with ⟨hintercepts, rfl⟩ | ⟨-, k', rfl, hk'⟩
    · exact hintercepts
    · exact hk'.intercepts_eq

theorem enhanceAll_eq_ok {e : Enhancer} {c c' : Container} {k : Nat}
    (h : enhanceAll e c = .ok k c') :
    ∃ s, enhanceNames e c.names c = .ok k s ∧ c' = if 0 < k then s.clearCache else s := by
  rw [enhanceAll_apply] at h
  cases hres : enhanceNames e c.names c with
  | ok k₀ s =>
    rw [hres] at h
    cases h
    exact ⟨s, rfl, rfl⟩
  | error err s =>
    rw [hres] at h
    cases h

theorem enhanceAll_eq_error {e : Enhancer} {c s : Container} {err : BootError}
    (h : enhanceAll e c = .error err s) : enhanceNames e c.names c = .error err s := by
  rw [enhanceAll_apply] at h
  cases hres : enhanceNames e c.names c with
  | ok k₀ s₀ =>
    rw [hres] at h
    cases h
  | error err₀ s₀ =>
    rw [hres] at h
    exact h

theorem EnhancedOver.subclass_definition {c c' : Container} {ns : List String}
    (h : EnhancedOver .subclass c c' ns) {n : String} (hn : n ∈ ns) {d : Definition}
    (hd : c.definition? n = some d) :
    (c.enhanceable n d = false → c'.definition? n = some d) ∧
    (c.enhanceable n d = true → d.cls.intercepts = true →
      c'.definition? n = some (d.enhanced none)) ∧
    (c.enhanceable n d = true → d.cls.intercepts = false →
      ∃ k', k'.SubclassOf d.cls ∧ c'.definition? n = some (d.enhanced (some k'))) := by
  refine ⟨fun hskip => h.kept n d hd fun _ => hskip, fun hvisit hintercepts => ?_,
    fun hvisit hintercepts => ?_⟩
  · obtain ⟨r, hanswer, hd'⟩ := h.visited n hn d hd hvisit
    rcases subclass_enhance_ok hanswer with ⟨-, rfl⟩ | ⟨hfalse, -⟩
    · exact hd'
    · simp [hintercepts] at hfalse
  · obtain ⟨r, hanswer, hd'⟩ := h.visited n hn d hd hvisit
    rcases subclass_enhance_ok hanswer with ⟨htrue, -⟩ | ⟨-, k', rfl, hk'⟩
    · simp [hintercepts] at htrue
    · exact ⟨k', hk', hd'⟩

/-- The enhancement pass with the subclass enhancer. The pass walks the definitions in
registration order. When it succeeds with `k`, it has changed nothing but definitions and,
exactly when `k > 0`, the cleared effective cache; it has kept every definition it does not visit
(one that is not a full configuration, is locked, or whose singleton exists), marked every one it
visits to keep its target class, and given each visited one whose class does not intercept an
intercepting subclass of that class; `k` counts those; and a second pass at once changes nothing
and answers `0`. It fails exactly when some visited definition has a class that neither
intercepts nor has a constructor, and then names the first such definition in registration
order. -/
theorem enhanceAll_subclass (c : Container) :
    (∀ k c', enhanceAll .subclass c = .ok k c' →
      c'.names = c.names ∧
      { c' with definitions := c.definitions } = (if 0 < k then c.clearCache else c) ∧
      (∀ n d, c.definition? n = some d →
        (c.enhanceable n d = false → c'.definition? n = some d) ∧
        (c.enhanceable n d = true → d.cls.intercepts = true →
          c'.definition? n = some (d.enhanced none)) ∧
        (c.enhanceable n d = true → d.cls.intercepts = false →
          ∃ k', k'.SubclassOf d.cls ∧ c'.definition? n = some (d.enhanced (some k')))) ∧
      k = (c.names.filter c.needsSubclass).length ∧
      enhanceAll .subclass c' = .ok 0 c') ∧
    ((∃ k c', enhanceAll .subclass c = .ok k c') ↔ ∀ n ∈ c.names, c.cannotSubclass n = false) ∧
    (∀ err s, enhanceAll .subclass c = .error err s →
      ∃ pre n post d, c.names = pre ++ n :: post ∧ (∀ m ∈ pre, c.cannotSubclass m = false) ∧
        c.definition? n = some d ∧ c.cannotSubclass n = true ∧
        err = .enhancementFailed n d.cls.name
          (BootError.notInstantiable d.cls.name "configuration class declares no constructor").message) := by
  have hrun := enhanceNames_outcome .subclass c.names c c.names_nodup
  refine ⟨fun k c' h => ?_, ⟨fun ⟨k, c', h⟩ n hn => ?_, fun hclean => ?_⟩, fun err s h => ?_⟩
  · -- success: the pass's end state, then the cache step
    obtain ⟨s, hres, rfl⟩ := enhanceAll_eq_ok h
    rw [hres] at hrun
    obtain ⟨hclean, hcount, hover⟩ := hrun
    have hdef : ∀ n, (if 0 < k then s.clearCache else s).definition? n = s.definition? n := by
      intro n
      split <;> rfl
    have hsettled : (if 0 < k then s.clearCache else s).Settled := by
      split
      · exact hover.settled
      · exact hover.settled
    have hframe : { (if 0 < k then s.clearCache else s) with definitions := c.definitions } =
        if 0 < k then c.clearCache else c := by
      split
      · calc { s.clearCache with definitions := c.definitions }
            = ({ s with definitions := c.definitions } : Container).clearCache := rfl
          _ = c.clearCache := by rw [hover.frame]
      · exact hover.frame
    refine ⟨by split <;> exact hover.names_eq, hframe, fun n d hd => ?_, ?_, ?_⟩
    · have hn : n ∈ c.names := Container.mem_names_iff.2 ⟨d, hd⟩
      simpa only [hdef] using hover.subclass_definition hn hd
    · rw [hcount]
      congr 1
      exact List.filter_congr fun n hn =>
        replaces_subclass ((refuses_subclass c n).symm.trans (hclean n hn))
    · rw [enhanceAll_apply, enhanceNames_settled hsettled]
      rfl
  · -- a successful pass refuses nothing
    obtain ⟨s, hres, -⟩ := enhanceAll_eq_ok h
    rw [hres] at hrun
    rw [← refuses_subclass]
    exact hrun.1 n hn
  · -- with nothing refused the pass cannot fail
    cases hres : enhanceNames .subclass c.names c with
    | ok k s => exact ⟨k, _, by rw [enhanceAll_apply, hres]⟩
    | error err s =>
      rw [hres] at hrun
      obtain ⟨pre, n, post, d, ex, hsplit, -, hd, hvisit, hanswer, -⟩ := hrun
      have hn : n ∈ c.names := by
        rw [hsplit]
        exact List.mem_append_right _ List.mem_cons_self
      have hrefuses : c.refuses .subclass n = true := by
        simp [Container.refuses, hd, hvisit, hanswer]
      rw [refuses_subclass, hclean n hn] at hrefuses
      cases hrefuses
  · -- failure: the first refused class, which is the first that cannot be subclassed
    rw [enhanceAll_eq_error h] at hrun
    obtain ⟨pre, n, post, d, ex, hsplit, hclean, hd, hvisit, hanswer, rfl, -⟩ := hrun
    obtain ⟨hintercepts, hctor, rfl⟩ := subclass_enhance_error hanswer
    refine ⟨pre, n, post, d, hsplit, fun m hm => ?_, hd, ?_, rfl⟩
    · rw [← refuses_subclass]
      exact hclean m hm
    · simp [Container.cannotSubclass, hd, hvisit, hintercepts, hctor]

def appConfigBox : Container :=
  { Container.create ⟨0⟩ true with
    definitions := Roster.empty.insert "appConfig"
      { cls := { ComponentClass.bare "app.AppConfig" with
          constructor := some (.recipe "app.AppConfig" (.value "config")) }
        configuration := some .full } }

theorem enhancing_app_config_settles :
    enhanceAll .subclass appConfigBox = .ok 1 (endState (enhanceAll .subclass appConfigBox)) ∧
      enhanceAll .subclass (endState (enhanceAll .subclass appConfigBox)) =
        .ok 0 (endState (enhanceAll .subclass appConfigBox)) :=
  ⟨rfl, ((enhanceAll_subclass appConfigBox).1 1 _ rfl).2.2.2.2⟩

end Wiring
