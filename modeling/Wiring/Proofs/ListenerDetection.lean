import Wiring.Proofs.Creation.Invariants
import Wiring.Proofs.LifecycleRegistration
import Mathlib.Logic.Relation

/-! Listener detection. A detector's merged-definition hook flags whether a listener definition
is singleton-scoped, in a flag per name that nothing clears, and its after-initialization hook
lists or unlists the name by that flag. What a detector knows of a name (`Sighting`) moves only
by creations of that name (`Sighting.Reachable`), so a class that is no listener can be listed by
the flag an earlier listener definition left (`stale_flag_lists_non_listener`). -/

namespace Wiring

namespace Listeners

/-- What a detector's after-initialization hook does to its registry, by the flag it holds for the
name: a singleton flag lists the name, a prototype flag unlists it, no flag leaves the registry. -/
def settle (l : Listeners) (name : String) : Option Bool → Listeners
  | some true => l.add name
  | some false => (l.remove name).2
  | none => l

theorem contains_add (l : Listeners) (n m : String) :
    (l.add n).contains m = true ↔ m = n ∨ l.contains m = true := by
  unfold add contains
  split
  · rename_i h
    constructor
    · exact Or.inr
    · rintro (rfl | hm)
      · exact h
      · exact hm
  · simp [or_comm]

theorem contains_remove (l : Listeners) (n m : String) :
    (l.remove n).2.contains m = true ↔ m ≠ n ∧ l.contains m = true := by
  simp [remove, contains, and_comm]

theorem contains_settle (l : Listeners) (n m : String) (f : Option Bool) :
    (l.settle n f).contains m = if m = n then f.getD (l.contains m) else l.contains m := by
  by_cases hm : m = n
  · subst hm
    cases f with
    | none => simp [settle]
    | some b =>
      cases b with
      | false => simpa [settle] using (contains_remove l m m).not
      | true => simpa [settle] using (contains_add l m m).2 (.inl rfl)
  · rw [if_neg hm]
    cases f with
    | none => rfl
    | some b =>
      rw [Bool.eq_iff_iff]
      cases b with
      | false => exact (contains_remove l n m).trans ⟨And.right, fun h => ⟨hm, h⟩⟩
      | true => exact (contains_add l n m).trans (or_iff_right hm)

theorem filter_settle (l : Listeners) (n : String) (f : Option Bool) :
    (l.settle n f).names.filter (· != n) = l.names.filter (· != n) := by
  cases f with
  | none => rfl
  | some b =>
    cases b with
    | false => simp [settle, remove, List.filter_filter]
    | true =>
      show (l.add n).names.filter _ = _
      unfold add
      split
      · rfl
      · simp

theorem names_settle_of_not_contains {l : Listeners} {n : String} (h : l.contains n = false) :
    (l.settle n (some true)).names = l.names ++ [n] := by
  have hn : n ∉ l.names := by simpa [contains] using h
  simp [settle, add, hn]

theorem nodup_settle {l : Listeners} (n : String) (f : Option Bool) (h : l.names.Nodup) :
    (l.settle n f).names.Nodup := by
  cases f with
  | none => exact h
  | some b =>
    cases b with
    | false => exact h.filter _
    | true =>
      show (l.add n).names.Nodup
      unfold add
      split
      · exact h
      · rename_i hn
        refine List.nodup_append.2 ⟨h, List.nodup_singleton n, ?_⟩
        intro a ha b hb hab
        rw [List.mem_singleton] at hb
        subst hb hab
        exact hn (by simpa using ha)

end Listeners
/-- Whether a class is an event listener. -/
def Definition.listens (d : Definition) : Bool := d.cls.hasCapability .eventListener

/-- The flag a detector holds for a name after the merged-definition hook of a creation with `d`:
a listener class records whether `d` is singleton-scoped; any other class leaves the flag. -/
def mergeFlag (d : Definition) (f : Option Bool) : Option Bool :=
  if d.listens then some d.isSingleton else f

/-- What a listener detector knows of one name: its flag, and whether the name is listed. -/
structure Sighting where
  flag : Option Bool
  listed : Bool
  deriving DecidableEq, Repr

namespace Sighting

/-- The merged-definition hook of a creation with `d`. -/
def merge (d : Definition) (v : Sighting) : Sighting :=
  { v with flag := mergeFlag d v.flag }

/-- The after-initialization hook: a flag decides whether the name is listed. -/
def settle (v : Sighting) : Sighting :=
  { v with listed := v.flag.getD v.listed }

/-- One creation of a name with definition `d`, as its detector sees it: the merged hook always
runs, the after hook only when every hook before it in the chain succeeded. -/
inductive Pass (d : Definition) : Sighting → Sighting → Prop
  | stopped (v : Sighting) : Pass d v (v.merge d)
  | finished (v : Sighting) : Pass d v (v.merge d).settle

/-- Where creations with `d` can take a sighting, in closed form. A listener class fixes the flag
to its scope and lists or unlists by it; any other class keeps the flag and can only settle the
name by it, so a flag an earlier listener definition left decides. -/
def Reachable (d : Definition) (v w : Sighting) : Prop :=
  if d.listens then
    w = v ∨ (w.flag = some d.isSingleton ∧ (w.listed = v.listed ∨ w.listed = d.isSingleton))
  else w.flag = v.flag ∧ (w.listed = v.listed ∨ v.flag = some w.listed)

instance (d : Definition) (v w : Sighting) : Decidable (Reachable d v w) :=
  inferInstanceAs (Decidable (if d.listens then _ else _))

theorem reachable_refl (d : Definition) (v : Sighting) : Reachable d v v := by
  unfold Reachable
  split <;> simp

theorem Reachable.pass {d : Definition} {u v w : Sighting} (h : Reachable d u v)
    (hpass : Pass d v w) : Reachable d u w := by
  unfold Reachable at h ⊢
  cases hpass with
  | stopped =>
    split at h
    · rename_i hl
      simp only [merge, mergeFlag, hl, if_true]
      rcases h with rfl | ⟨_, hlisted⟩
      · simp
      · simp [hlisted]
    · rename_i hl
      simpa [merge, mergeFlag, hl] using h
  | finished =>
    split at h
    · rename_i hl
      simp [merge, settle, mergeFlag, hl]
    · rename_i hl
      obtain ⟨hflag, hlisted⟩ := h
      simp only [merge, settle, mergeFlag, hl, Bool.false_eq_true, if_false]
      refine ⟨hflag, ?_⟩
      cases hv : v.flag with
      | none => simpa [hflag, hv] using hlisted
      | some f => simp [← hflag, hv]

theorem reachable_of_passes {d : Definition} {v w : Sighting}
    (h : Relation.ReflTransGen (Pass d) v w) : Reachable d v w := by
  induction h with
  | refl => exact reachable_refl d v
  | tail _ hpass ih => exact ih.pass hpass

theorem passes_of_reachable {d : Definition} {v w : Sighting} (h : Reachable d v w) :
    Relation.ReflTransGen (Pass d) v w := by
  unfold Reachable at h
  split at h
  · rename_i hl
    rcases h with rfl | ⟨hflag, hlisted | hlisted⟩
    · exact .refl
    · have hw : w = v.merge d := by
        cases w
        simp_all [merge, mergeFlag]
      exact hw ▸ .single (.stopped v)
    · have hw : w = (v.merge d).settle := by
        cases w
        simp_all [merge, settle, mergeFlag]
      exact hw ▸ .single (.finished v)
  · rename_i hl
    obtain ⟨hflag, hlisted | hlisted⟩ := h
    · have hw : w = v := by
        cases w; cases v
        simp_all
      exact hw ▸ .refl
    · have hw : w = (v.merge d).settle := by
        cases w; cases v
        simp_all [merge, settle, mergeFlag]
      exact hw ▸ .single (.finished v)

theorem passes_iff_reachable {d : Definition} {v w : Sighting} :
    Relation.ReflTransGen (Pass d) v w ↔ Reachable d v w :=
  ⟨reachable_of_passes, passes_of_reachable⟩

theorem Reachable.listens_of_listed {d : Definition} {w : Sighting}
    (h : Reachable d ⟨none, false⟩ w) (hlisted : w.listed = true) :
    d.listens = true ∧ d.isSingleton = true := by
  unfold Reachable at h
  split at h
  · rename_i hl
    rcases h with rfl | ⟨-, hw | hw⟩
    · cases hlisted
    · rw [hlisted] at hw
      cases hw
    · exact ⟨hl, hw ▸ hlisted⟩
  · obtain ⟨-, hw | hw⟩ := h
    · rw [hlisted] at hw
      cases hw
    · cases hw

end Sighting

namespace Container

theorem flag?_setFlag (c : Container) (σ' σ : Nat) (n m : String) (v : Bool) :
    (c.setFlag σ' n v).flag? σ m = if σ' = σ ∧ m = n then some v else c.flag? σ m := by
  unfold setFlag flag?
  by_cases hσ : σ' = σ
  · subst hσ
    have hnone : (c.detectorFlags.filter (·.1 != σ')).find? (·.1 == σ') = none := by
      simp [List.find?_eq_none]
    simp only [List.find?_append, hnone, Option.none_or, List.find?_singleton, beq_self_eq_true,
      if_true, Roster.get?_insert, true_and]
    split
    · rfl
    · cases c.detectorFlags.find? (·.1 == σ') with
      | none => rfl
      | some e => rfl
  · have hfind : (c.detectorFlags.filter (·.1 != σ')).find? (·.1 == σ) =
        c.detectorFlags.find? (·.1 == σ) := by
      rw [List.find?_filter]
      congr 1
      funext e
      by_cases he : e.1 = σ
      · simp [he, Ne.symm hσ]
      · simp [he]
    simp [List.find?_append, hfind, hσ]

end Container

/-- A listener registry, by book. -/
def Books.get (bs : Books) : Book → Listeners
  | .own => bs.own
  | .context => bs.context

/-- What detector `σ` holds, a flag per name, and the registry `b` it writes. -/
structure DetectorView where
  flags : String → Option Bool
  book : Listeners

namespace DetectorView

/-- The merged-definition hook of a creation of `n` with `d`. -/
def merge (v : DetectorView) (n : String) (d : Definition) : DetectorView :=
  { v with flags := Function.update v.flags n (mergeFlag d (v.flags n)) }

/-- The after-initialization hook of a creation of `n`: the flag of `n` decides. -/
def settle (v : DetectorView) (n : String) : DetectorView :=
  { v with book := v.book.settle n (v.flags n) }

/-- The sighting of a name. -/
def sighting (v : DetectorView) (m : String) : Sighting :=
  ⟨v.flags m, v.book.contains m⟩

theorem sighting_merge (v : DetectorView) (n m : String) (d : Definition) :
    (v.merge n d).sighting m = if m = n then (v.sighting n).merge d else v.sighting m := by
  by_cases hm : m = n
  · subst hm
    simp [merge, sighting, Sighting.merge]
  · simp [merge, sighting, hm]

theorem sighting_settle (v : DetectorView) (n m : String) :
    (v.settle n).sighting m = if m = n then (v.sighting n).settle else v.sighting m := by
  by_cases hm : m = n
  · subst hm
    simp [settle, sighting, Sighting.settle, Listeners.contains_settle]
  · simp [settle, sighting, Listeners.contains_settle, hm]

end DetectorView

namespace Machine

/-- What the detector with stamp `σ` holds in a machine, and the registry `b` it writes. -/
def detectorView (σ : Nat) (b : Book) (s : Machine) : DetectorView :=
  ⟨s.box.flag? σ, s.books.get b⟩

/-- What the detector with stamp `σ`, writing registry `b`, knows of a name. -/
def sighting (σ : Nat) (b : Book) (n : String) (s : Machine) : Sighting :=
  (s.detectorView σ b).sighting n

/-- Neither the container nor the registries change: only the journal and the stamp counter
may. -/
def Calm (s t : Machine) : Prop :=
  t.box = s.box ∧ t.books = s.books

instance : Std.Refl Calm := ⟨fun _ => ⟨rfl, rfl⟩⟩

instance : Trans Calm Calm Calm := ⟨fun h₁ h₂ => ⟨h₂.1.trans h₁.1, h₂.2.trans h₁.2⟩⟩

theorem stampFrame_calm : StampFrame Calm :=
  ⟨fun _ _ => ⟨rfl, rfl⟩, fun _ => ⟨rfl, rfl⟩⟩

theorem Calm.detectorView_eq {s t : Machine} (h : Calm s t) (σ : Nat) (b : Book) :
    t.detectorView σ b = s.detectorView σ b := by
  simp only [detectorView, h.1, h.2]

/-- A chain with no listener detector. -/
def Undetected (chain : List Lifecycle) : Prop :=
  ∀ l ∈ chain, ∀ b, l.role ≠ .listenerDetector b

theorem mergedHooks_append (d : Definition) (name : String) (xs ys : List Lifecycle) :
    mergedHooks d name (xs ++ ys) = (mergedHooks d name xs >>= fun _ => mergedHooks d name ys) := by
  induction xs with
  | nil => simp [mergedHooks]
  | cons l xs ih =>
    simp only [List.cons_append, mergedHooks, ih]
    split
    · split <;> simp [bind_assoc]
    · split <;> simp [bind_assoc]
    · simp

theorem afterHooks_append (name : String) :
    ∀ (i : Instance) (xs ys : List Lifecycle),
      afterHooks name i (xs ++ ys) = (afterHooks name i xs >>= fun i' => afterHooks name i' ys)
  | i, [], ys => by simp [afterHooks]
  | i, l :: xs, ys => by
    simp only [List.cons_append, afterHooks]
    split
    · simp only [bind_assoc]
      apply bind_congr
      intro u
      split <;> simp [bind_assoc, afterHooks_append]
    · simp only [bind_assoc]
      apply bind_congr
      intro u
      split <;> simp [bind_assoc, afterHooks_append]
    · exact afterHooks_append name i xs ys

theorem mergedHooks_ok (d : Definition) (name : String) :
    ∀ (chain : List Lifecycle) (s : Machine), ∃ t, mergedHooks d name chain s = .ok () t
  | [], s => ⟨s, rfl⟩
  | l :: ls, s => by
    unfold mergedHooks
    split
    · split
      · exact mergedHooks_ok d name ls _
      · exact mergedHooks_ok d name ls s
    · split
      · exact mergedHooks_ok d name ls _
      · exact mergedHooks_ok d name ls s
    · exact mergedHooks_ok d name ls s

theorem onBook_apply (b : Book) (f : Listeners → Listeners) (s : Machine) :
    ∃ t, onBook b f s = .ok () t ∧ t.box = s.box ∧ t.books.get b = f (s.books.get b) := by
  cases b with
  | own => exact ⟨_, rfl, rfl, rfl⟩
  | context => exact ⟨_, rfl, rfl, rfl⟩

theorem afterHooks_detector (name : String) (i : Instance) (σ : Nat) (b : Book) (s : Machine) :
    ∃ t, afterHooks name i [⟨σ, .listenerDetector b⟩] s = .ok i t ∧ t.box = s.box ∧
      t.detectorView σ b = (s.detectorView σ b).settle name := by
  have hview : ∀ t : Machine, t.box = s.box →
      t.books.get b = (s.books.get b).settle name (s.box.flag? σ name) →
      t.detectorView σ b = (s.detectorView σ b).settle name := by
    intro t hbox hbook
    simp only [detectorView, DetectorView.settle, hbox, hbook]
  simp only [afterHooks, bind_apply, get_apply]
  cases hf : s.box.flag? σ name with
  | none => exact ⟨s, rfl, rfl, hview s rfl (by simp [hf, Listeners.settle])⟩
  | some f =>
    cases f with
    | false =>
      obtain ⟨t, hrun, hbox, hbook⟩ := onBook_apply b (fun l => (l.remove name).2) s
      dsimp only
      rw [bind_apply, hrun]
      exact ⟨t, rfl, hbox, hview t hbox (by simp [hbook, hf, Listeners.settle])⟩
    | true =>
      obtain ⟨t, hrun, hbox, hbook⟩ := onBook_apply b (·.add name) s
      dsimp only
      rw [bind_apply, hrun]
      exact ⟨t, rfl, hbox, hview t hbox (by simp [hbook, hf, Listeners.settle])⟩

theorem detectorView_merged (σ : Nat) (b : Book) {d : Definition} {name : String} {s t : Machine}
    (hbooks : t.books = s.books)
    (hbox : t.box = if d.listens then s.box.setFlag σ name d.isSingleton else s.box) :
    t.detectorView σ b = (s.detectorView σ b).merge name d := by
  simp only [detectorView, DetectorView.merge, hbooks, DetectorView.mk.injEq, and_true]
  funext m
  rw [hbox, Function.update_apply]
  by_cases hm : m = name <;> cases hl : d.listens <;>
    simp [Container.flag?_setFlag, mergeFlag, hl, hm]

theorem throughChain_of_merged {name : String} {d : Definition} {raw : Instance} {s s₁ : Machine}
    (hmerged : mergedHooks d name s.box.chain s = .ok () s₁) :
    throughChain name d raw s = (do
      let raw ← propertyHooks name raw s.box.chain
      let i ← beforeHooks name raw s.box.chain
      let i ← afterHooks name i s.box.chain
      if d.isSingleton && d.cls.intercepts then
        onBox fun c => { c with targets := c.targets.insert name raw }
      return i) s₁ := by
  simp only [throughChain, bind_apply, get_apply, hmerged]

section

variable {pre : List Lifecycle} (hpre : Undetected pre) (σ : Nat) (b : Book)
include hpre

theorem mergedHooks_detectorLast (d : Definition) (name : String) (s : Machine) :
    ∃ t, mergedHooks d name (pre ++ [⟨σ, .listenerDetector b⟩]) s = .ok () t ∧ t.books = s.books ∧
      t.box = if d.listens then s.box.setFlag σ name d.isSingleton else s.box := by
  obtain ⟨u, hu⟩ := mergedHooks_ok d name pre s
  have hcalm : Calm s u := (stampFrame_calm.keeps_mergedHooks d name pre
    fun l hl b' hrole => absurd hrole (hpre l hl b')).of_ok hu
  rw [mergedHooks_append, bind_apply, hu]
  cases hl : d.listens with
  | false =>
    refine ⟨u, ?_, hcalm.2, by simp [hcalm.1]⟩
    simp only [mergedHooks]
    simp [Definition.listens] at hl
    simp [hl]
  | true =>
    refine ⟨{ u with box := u.box.setFlag σ name d.isSingleton }, ?_, hcalm.2, by simp [hcalm.1]⟩
    simp only [mergedHooks]
    simp [Definition.listens] at hl
    simp [hl]

/-- Over a chain whose one detector comes last, the after hooks fail only before the detector,
having changed neither the container nor the registries; when they pass, the detector has listed
or unlisted the name by its flag. -/
theorem afterHooks_detectorLast (name : String) (i : Instance) (s : Machine) :
    (∀ i' t, afterHooks name i (pre ++ [⟨σ, .listenerDetector b⟩]) s = .ok i' t →
      t.box = s.box ∧ t.detectorView σ b = (s.detectorView σ b).settle name) ∧
    (∀ e t, afterHooks name i (pre ++ [⟨σ, .listenerDetector b⟩]) s = .error e t → Calm s t) := by
  have hkeep : Keeps Calm (afterHooks name i pre) := stampFrame_calm.keeps_afterHooks name i pre
    fun l hl b' hrole => absurd hrole (hpre l hl b')
  rw [afterHooks_append, bind_apply]
  cases hrun : afterHooks name i pre s with
  | error e u =>
    refine ⟨fun _ _ h => (by cases h), fun e' t h => ?_⟩
    cases h
    exact hkeep.of_error hrun
  | ok i₁ u =>
    have hcalm := hkeep.of_ok hrun
    obtain ⟨t, hdet, hbox, hview⟩ := afterHooks_detector name i₁ σ b u
    dsimp only
    rw [hdet]
    refine ⟨fun i' t' h => ?_, fun e t' h => (by cases h)⟩
    cases h
    exact ⟨hbox.trans hcalm.1, hview.trans (by rw [hcalm.detectorView_eq])⟩

/-- One creation's pass through a chain whose one detector comes last, as that detector sees
it: the merged hook always runs, and the after hook runs exactly when the pass succeeds, since
nothing after the detector can fail. -/
theorem throughChain_detectorLast {s : Machine}
    (hchain : s.box.chain = pre ++ [⟨σ, .listenerDetector b⟩]) (name : String) (d : Definition)
    (raw : Instance) :
    (∀ i t, throughChain name d raw s = .ok i t →
      t.detectorView σ b = ((s.detectorView σ b).merge name d).settle name) ∧
    (∀ e t, throughChain name d raw s = .error e t →
      t.detectorView σ b = (s.detectorView σ b).merge name d) := by
  obtain ⟨s₁, hmerged, hbooks, hbox⟩ := mergedHooks_detectorLast hpre σ b d name s
  have hview₁ := detectorView_merged σ b hbooks hbox
  rw [← hchain] at hmerged
  rw [throughChain_of_merged hmerged, hchain]
  constructor
  · intro i t h
    obtain ⟨raw', s₂, hprop, h⟩ := bind_eq_ok h
    obtain ⟨i₁, s₃, hbefore, h⟩ := bind_eq_ok h
    obtain ⟨i₂, s₄, hafter, h⟩ := bind_eq_ok h
    have h₂ := (stampFrame_calm.keeps_propertyHooks name raw _).of_ok hprop
    have h₃ := (stampFrame_calm.keeps_beforeHooks name raw' _).of_ok hbefore
    obtain ⟨-, h₄⟩ := (afterHooks_detectorLast hpre σ b name i₁ s₃).1 i₂ s₄ hafter
    -- keeping the raw instance of an intercepting singleton touches no flag and no registry
    have h₅ : t.detectorView σ b = s₄.detectorView σ b := by
      split at h <;>
        simp only [bind_apply, onBox_apply, pure_apply, EStateM.Result.ok.injEq] at h <;>
        obtain ⟨-, rfl⟩ := h <;> rfl
    rw [h₅, h₄, h₃.detectorView_eq, h₂.detectorView_eq, hview₁]
  · intro e t h
    rcases bind_eq_error h with hprop | ⟨raw', s₂, hprop, h⟩
    · rw [((stampFrame_calm.keeps_propertyHooks name raw _).of_error hprop).detectorView_eq, hview₁]
    have h₂ := (stampFrame_calm.keeps_propertyHooks name raw _).of_ok hprop
    rcases bind_eq_error h with hbefore | ⟨i₁, s₃, hbefore, h⟩
    · rw [((stampFrame_calm.keeps_beforeHooks name raw' _).of_error hbefore).detectorView_eq,
        h₂.detectorView_eq, hview₁]
    have h₃ := (stampFrame_calm.keeps_beforeHooks name raw' _).of_ok hbefore
    rcases bind_eq_error h with hafter | ⟨i₂, s₄, hafter, h⟩
    · rw [((afterHooks_detectorLast hpre σ b name i₁ s₃).2 e t hafter).detectorView_eq,
        h₃.detectorView_eq, h₂.detectorView_eq, hview₁]
    -- what follows the after hooks cannot fail
    dsimp only at h
    split at h <;> simp [bind_apply, onBox_apply, pure_apply] at h

end

def SameCache (s t : Machine) : Prop :=
  t.box.effective = s.box.effective ∧ t.box.chain = s.box.chain

instance : Std.Refl SameCache := ⟨fun _ => ⟨rfl, rfl⟩⟩

instance : Trans SameCache SameCache SameCache :=
  ⟨fun h₁ h₂ => ⟨h₂.1.trans h₁.1, h₂.2.trans h₁.2⟩⟩

theorem hookFrame_sameCache : HookFrame SameCache :=
  ⟨⟨fun _ _ => ⟨rfl, rfl⟩, fun _ => ⟨rfl, rfl⟩⟩, fun _ _ => ⟨rfl, rfl⟩, fun _ _ _ _ => ⟨rfl, rfl⟩⟩

theorem sameCache_throughChain (name : String) (d : Definition) (raw : Instance) :
    Keeps SameCache (throughChain name d raw) :=
  hookFrame_sameCache.keeps_throughChain (fun _ _ _ => ⟨rfl, rfl⟩) name d raw

theorem effectiveDefinition_cached {name : String} {s t : Machine} {d : Definition}
    (h : effectiveDefinition name s = .ok d t) : t.box.effective.get? name = some d := by
  simp only [effectiveDefinition, bind_apply, get_apply] at h
  cases he : s.box.effective.get? name with
  | some d' =>
    rw [he] at h
    cases h
    exact he
  | none =>
    rw [he] at h
    cases hd : s.box.definition? name with
    | none => simp [hd] at h
    | some d' =>
      simp only [hd, bind_apply, onBox_apply, pure_apply, EStateM.Result.ok.injEq] at h
      obtain ⟨rfl, rfl⟩ := h
      simp [Roster.get?_insert]

theorem effectiveDefinition_grows (name : String) (s : Machine) :
    let t := endState (effectiveDefinition name s)
    (∀ n d, s.box.effective.get? n = some d → t.box.effective.get? n = some d) ∧
    t.box.chain = s.box.chain ∧ t.box.detectorFlags = s.box.detectorFlags ∧ t.books = s.books := by
  simp only [effectiveDefinition, bind_apply, get_apply]
  cases he : s.box.effective.get? name with
  | some d' => exact ⟨fun _ _ h => h, rfl, rfl, rfl⟩
  | none =>
    cases hd : s.box.definition? name with
    | none => exact ⟨fun _ _ h => h, rfl, rfl, rfl⟩
    | some d' =>
      refine ⟨fun n d hn => ?_, rfl, rfl, rfl⟩
      simp only [bind_apply, onBox_apply, pure_apply, endState_ok, Roster.get?_insert]
      have hne : n ≠ name := fun h => by simp [h, he] at hn
      simp [hne, hn]

theorem flag?_congr {c c' : Container} (h : c'.detectorFlags = c.detectorFlags) (σ : Nat) :
    c'.flag? σ = c.flag? σ := by
  funext n
  simp only [Container.flag?, h]

/-- From `s` to `t` the effective cache only grew and the chain stayed; and when `s` has the
chain `pre` followed by the detector `σ` writing `b`, each name's sighting moved only by
creations of the name with the definition `t` caches for it. -/
structure Sighted (pre : List Lifecycle) (σ : Nat) (b : Book) (s t : Machine) : Prop where
  effective : ∀ n d, s.box.effective.get? n = some d → t.box.effective.get? n = some d
  chain : t.box.chain = s.box.chain
  moves : s.box.chain = pre ++ [⟨σ, .listenerDetector b⟩] → ∀ n,
    Relation.ReflTransGen (fun v w => ∃ d, t.box.effective.get? n = some d ∧ Sighting.Pass d v w)
      (s.sighting σ b n) (t.sighting σ b n)

namespace Sighted

variable {pre : List Lifecycle} {σ : Nat} {b : Book}

theorem of_same {s t : Machine}
    (heffective : ∀ n d, s.box.effective.get? n = some d → t.box.effective.get? n = some d)
    (hchain : t.box.chain = s.box.chain) (hflags : t.box.detectorFlags = s.box.detectorFlags)
    (hbooks : t.books = s.books) : Sighted pre σ b s t := by
  refine ⟨heffective, hchain, fun _ n => ?_⟩
  have hsame : t.sighting σ b n = s.sighting σ b n := by
    simp only [sighting, detectorView, flag?_congr hflags, hbooks]
  rw [hsame]

instance : Std.Refl (Sighted pre σ b) :=
  ⟨fun _ => of_same (fun _ _ h => h) rfl rfl rfl⟩

theorem trans {s u t : Machine} (h₁ : Sighted pre σ b s u) (h₂ : Sighted pre σ b u t) :
    Sighted pre σ b s t := by
  refine ⟨fun n d h => h₂.effective n d (h₁.effective n d h), h₂.chain.trans h₁.chain,
    fun hchain n => ?_⟩
  -- the creations up to `u` used definitions `u` caches, and `t` caches them still
  have hfirst : Relation.ReflTransGen
      (fun v w => ∃ d, t.box.effective.get? n = some d ∧ Sighting.Pass d v w)
      (s.sighting σ b n) (u.sighting σ b n) :=
    Relation.ReflTransGen.mono (fun _ _ ⟨d, hd, hpass⟩ => ⟨d, h₂.effective n d hd, hpass⟩) _ _
      (h₁.moves hchain n)
  exact hfirst.trans (h₂.moves (h₁.chain.trans hchain) n)

instance : Trans (Sighted pre σ b) (Sighted pre σ b) (Sighted pre σ b) := ⟨trans⟩

end Sighted

theorem sighted_throughChain {pre : List Lifecycle} (hpre : Undetected pre) (σ : Nat) (b : Book)
    {name : String} {d : Definition} (raw : Instance) {s : Machine}
    (hready : s.box.effective.get? name = some d) :
    Sighted pre σ b s (endState (throughChain name d raw s)) := by
  have hsame := sameCache_throughChain name d raw s
  refine ⟨fun n d' h => by rw [hsame.1]; exact h, hsame.2, fun hchain n => ?_⟩
  have hcached : (endState (throughChain name d raw s)).box.effective.get? name = some d := by
    rw [hsame.1]
    exact hready
  obtain ⟨hok, herror⟩ := throughChain_detectorLast hpre σ b hchain name d raw
  revert hcached
  cases hrun : throughChain name d raw s with
  | ok i t =>
    intro hcached
    simp only [endState_ok, sighting]
    rw [hok i t hrun, DetectorView.sighting_settle, DetectorView.sighting_merge]
    by_cases hn : n = name
    · subst hn
      simp only [if_true]
      exact .single ⟨d, hcached, .finished _⟩
    · simp only [hn, if_false, DetectorView.sighting_merge]
      rfl
  | error e t =>
    intro hcached
    simp only [endState_error, sighting]
    rw [herror e t hrun, DetectorView.sighting_merge]
    by_cases hn : n = name
    · subst hn
      simp only [if_true]
      exact .single ⟨d, hcached, .stopped _⟩
    · simp only [hn, if_false]
      rfl

theorem passFrame_sighted {pre : List Lifecycle} (hpre : Undetected pre) (σ : Nat) (b : Book) :
    PassFrame (Sighted pre σ b) fun name d s => s.box.effective.get? name = some d where
  journal _ _ := .of_same (fun _ _ h => h) rfl rfl rfl
  stamp _ := .of_same (fun _ _ h => h) rfl rfl rfl
  effective name s := by
    obtain ⟨heffective, hchain, hflags, hbooks⟩ := effectiveDefinition_grows name s
    exact .of_same heffective hchain hflags hbooks
  box _ _ _ heffective hchain _ hflags :=
    .of_same (fun _ _ h => by rw [heffective]; exact h) hchain hflags rfl
  ready _ _ _ _ h := effectiveDefinition_cached h
  stable name d _ _ h hready := h.effective name d hready
  pass _ _ raw _ hready := sighted_throughChain hpre σ b raw hready

/-- The machine after materializing each name in turn, each call starting where the one before
ended, whatever its outcome. -/
def materializeEach : List (String × Capability) → Machine → Machine
  | [], s => s
  | (name, cap) :: calls, s => materializeEach calls (endState (materialize name cap s))

theorem sighted_materializeEach {pre : List Lifecycle} (hpre : Undetected pre) (σ : Nat)
    (b : Book) (calls : List (String × Capability)) (s : Machine) :
    Sighted pre σ b s (materializeEach calls s) := by
  induction calls generalizing s with
  | nil => exact Std.Refl.refl s
  | cons call calls ih =>
    exact Sighted.trans ((passFrame_sighted hpre σ b).keeps_materialize call.1 call.2 s) (ih _)

/-- Over any sequence of materializations from a machine whose chain ends with its one detector,
a name with no cached definition keeps its sighting, and a name with one reaches only what
creations with that definition reach. -/
theorem sighting_materializeEach {pre : List Lifecycle} (hpre : Undetected pre) {σ : Nat}
    {b : Book} {s : Machine} (hchain : s.box.chain = pre ++ [⟨σ, .listenerDetector b⟩])
    (calls : List (String × Capability)) (n : String) :
    let t := materializeEach calls s
    (t.box.effective.get? n = none → t.sighting σ b n = s.sighting σ b n) ∧
    ∀ d, t.box.effective.get? n = some d →
      Sighting.Reachable d (s.sighting σ b n) (t.sighting σ b n) := by
  have hmoves := (sighted_materializeEach hpre σ b calls s).moves hchain n
  refine ⟨fun hnone => ?_, fun d hd => ?_⟩
  · -- with nothing cached for the name, no creation of it ran
    refine (Relation.reflTransGen_iff_eq fun w hstep => ?_).1 hmoves
    obtain ⟨d, hd, -⟩ := hstep
    simp [hnone] at hd
  · refine Sighting.reachable_of_passes (Relation.ReflTransGen.mono ?_ _ _ hmoves)
    rintro v w ⟨d', hd', hpass⟩
    rw [hd] at hd'
    cases hd'
    exact hpass

/-- Listener detection, with the detector the last and only one of its chain. One creation of a
name: its merged hook sets the flag of a listener class to the definition's scope, and its after
hook, which runs exactly when the pass succeeds, lists or unlists the name by the flag, a name
listed anew going last and every other name keeping its place. Any sequence of materializations: a
name with no cached definition keeps its sighting, and one with a cached definition reaches only
what creations with that definition reach, so a class that is no listener settles its name by the
flag it finds. -/
theorem detector_lists_by_remembered_flags {pre : List Lifecycle} (hpre : Undetected pre)
    (σ : Nat) (b : Book) :
    (∀ s name d raw, s.box.chain = pre ++ [⟨σ, .listenerDetector b⟩] →
      (∀ i t, throughChain name d raw s = .ok i t →
        t.detectorView σ b = ((s.detectorView σ b).merge name d).settle name) ∧
      (∀ e t, throughChain name d raw s = .error e t →
        t.detectorView σ b = (s.detectorView σ b).merge name d)) ∧
    (∀ (l : Listeners) name f,
      (l.settle name f).names.filter (· != name) = l.names.filter (· != name) ∧
      (l.contains name = false → (l.settle name (some true)).names = l.names ++ [name]) ∧
      (l.names.Nodup → (l.settle name f).names.Nodup)) ∧
    (∀ s calls name, s.box.chain = pre ++ [⟨σ, .listenerDetector b⟩] →
      let t := materializeEach calls s
      (t.box.effective.get? name = none → t.sighting σ b name = s.sighting σ b name) ∧
      ∀ d, t.box.effective.get? name = some d →
        Sighting.Reachable d (s.sighting σ b name) (t.sighting σ b name)) :=
  ⟨fun _ name d raw hchain => throughChain_detectorLast hpre σ b hchain name d raw,
    fun l name f => ⟨Listeners.filter_settle l name f, Listeners.names_settle_of_not_contains,
      Listeners.nodup_settle name f⟩,
    fun _ calls name hchain => sighting_materializeEach hpre hchain calls name⟩

/-- From a detector with no flag for a name and no listing of it, materializations list the name
only when its cached definition is a singleton listener: prototype listeners and classes that are
no listener stay unlisted. -/
theorem listed_caches_singleton_listener {pre : List Lifecycle} (hpre : Undetected pre) {σ : Nat}
    {b : Book} {s : Machine} (hchain : s.box.chain = pre ++ [⟨σ, .listenerDetector b⟩])
    {n : String} (hfresh : s.sighting σ b n = ⟨none, false⟩) (calls : List (String × Capability))
    (hlisted : ((materializeEach calls s).sighting σ b n).listed = true) :
    ∃ d, (materializeEach calls s).box.effective.get? n = some d ∧
      d.listens = true ∧ d.isSingleton = true := by
  obtain ⟨hnone, hsome⟩ := sighting_materializeEach hpre hchain calls n
  cases hd : (materializeEach calls s).box.effective.get? n with
  | none =>
    rw [hnone hd, hfresh] at hlisted
    cases hlisted
  | some d =>
    have hreach := hsome d hd
    rw [hfresh] at hreach
    exact ⟨d, rfl, hreach.listens_of_listed hlisted⟩

/-! A non-listener listed by a stale flag: `x` is registered as a singleton listener, a detector
is installed, and `x` is created through the whole chain and listed (its hand-out then fails, so it
is not cached). `x` is registered again as a class that is no listener and a second detector is
installed; the one materialization that follows creates `x` from the new class, and the first
detector's flag, left by the listener definition, keeps it listed. -/

def listenerClass : ComponentClass :=
  { ComponentClass.bare "app.L" with
    capabilities := [.component, .eventListener]
    constructor := some (.recipe "app.L" (.value "l")) }

def plainClass : ComponentClass :=
  { ComponentClass.bare "app.P" with constructor := some (.recipe "app.P" (.value "p")) }

def registeredListener : Machine :=
  { box := { Container.create ⟨0⟩ true with
      definitions := Roster.empty.insert "x" (.ofClass listenerClass) } }

def installed : Machine :=
  { registeredListener with
    nextStamp := 2
    box := { registeredListener.box with
      chain := [⟨0, .chainChecker 1⟩, ⟨1, .listenerDetector .own⟩] } }

theorem install_run : registerLifecycle .own registeredListener = .ok () installed := by
  have hnames : registeredListener.box.namesFor .lifecycleProcessor true false = [] := by decide
  rw [registerLifecycle_cached (fun _ => ⟨0, .configurationAware⟩) .own ?h]
  case h => simp [hnames]
  simp only [hnames, List.filter_nil, List.map_nil, List.append_nil,
    List.length_nil]
  simp [Lifecycle.chainAfter, Lifecycle.lastAdded, Lifecycle.addedIn, Ranked.sort, withChain,
    Container.create,
    registeredListener, installed]

theorem registerLifecycle_of_none (book : Book) {s : Machine}
    (hnames : s.box.namesFor .lifecycleProcessor true false = []) :
    registerLifecycle book s = .ok () ({ s with nextStamp := s.nextStamp + 2 }.withChain
      (Lifecycle.chainAfter s.box.chain [⟨s.nextStamp, .chainChecker (s.box.chain.length + 1)⟩,
        ⟨s.nextStamp + 1, .listenerDetector book⟩])) := by
  rw [registerLifecycle_cached (fun _ => ⟨0, .configurationAware⟩) book ?h]
  case h => simp [hnames]
  simp [hnames, Ranked.sort]

theorem stale_flag_lists_non_listener :
    registerLifecycle .own registeredListener = .ok () installed ∧
    ∃ t₁, materialize "x" .registryProcessor installed =
        .error (.capabilityMismatch "x" .registryProcessor) t₁ ∧ t₁.books.own.names = ["x"] ∧
    ∃ c, t₁.box.register "x" (.ofClass plainClass) = .ok c ∧
    ∃ t₂, registerLifecycle .own { t₁ with box := c } = .ok () t₂ ∧
      t₂.box.chain = [⟨0, .chainChecker 1⟩, ⟨1, .listenerDetector .own⟩, ⟨3, .chainChecker 3⟩,
        ⟨4, .listenerDetector .own⟩] ∧
    ∃ i t₃, materialize "x" .component t₂ = .ok i t₃ ∧
      t₃.journal = #["new:app.L", "new:app.P"] ∧ (Definition.ofClass plainClass).listens = false ∧
      t₃.books.own.names = ["x"] := by
  refine ⟨install_run, ?t₁, ?first, ?listed, ?c, ?register, ?t₂, ?install, ?chain, ?i, ?t₃,
    ?second, ?journal, ?plain, ?stale⟩
  case first =>
    simp only [materialize, bind_apply, get_apply]
    rw [show creationBudget installed = 0 + 1 from rfl, materializeWith_uncached rfl,
      show effectiveDefinition "x" installed = .ok (.ofClass listenerClass) _ from rfl]
    dsimp only
    rw [if_neg (by decide), create]
    rfl
  case listed => rfl
  case register => rfl
  case install =>
    rw [registerLifecycle_of_none .own (by decide)]
  case second =>
    simp only [materialize, bind_apply, get_apply]
    rw [show creationBudget _ = 0 + 1 from rfl, materializeWith_uncached rfl,
      show effectiveDefinition "x" _ = .ok (.ofClass plainClass) _ from rfl]
    dsimp only
    rw [if_neg (by decide), create]
    rfl
  case chain => rfl
  case journal => rfl
  case plain => rfl
  -- the first detector still holds the flag the listener definition left
  case stale => rfl

theorem installed_detector_sightings :
    Undetected [⟨0, .chainChecker 1⟩] ∧
      installed.box.chain = [⟨0, .chainChecker 1⟩] ++ [⟨1, .listenerDetector .own⟩] ∧
      let t := materializeEach [("x", .component)] installed
      (t.box.effective.get? "x" = none → t.sighting 1 .own "x" = installed.sighting 1 .own "x") ∧
      ∀ d, t.box.effective.get? "x" = some d →
        Sighting.Reachable d (installed.sighting 1 .own "x") (t.sighting 1 .own "x") := by
  have hpre : Undetected [⟨0, .chainChecker 1⟩] := by
    intro l hl b'
    simp only [List.mem_singleton] at hl
    subst hl
    simp
  exact ⟨hpre, rfl, (detector_lists_by_remembered_flags hpre 1 .own).2.2 installed _ "x" rfl⟩

end Machine

end Wiring
