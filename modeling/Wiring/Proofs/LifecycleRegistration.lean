import Wiring.Proofs.LifecycleChain
import Wiring.Proofs.TierDiscipline

namespace Wiring

/-! Lifecycle registration, stage by stage. The registration adds a new chain checker, creates
the priority tier while classifying the discovered names, appends it sorted, creates and appends
the ordered tier sorted and the plain tier in discovery order, appends the processors with a
merged definition hook once more, sorted, and adds a new listener detector. Creation changes no
chain, so each tier is created while the chain holds exactly the additions made before it. -/

namespace Machine

open Lifecycle

/-- The machine with its chain replaced. -/
def withChain (m : Machine) (chain : List Lifecycle) : Machine :=
  { m with box := { m.box with chain := chain } }

/-- `Created chain tier s batch t`: the batch is made in order from `s` to `t`, each entry by
creating its name as a lifecycle processor in a machine whose chain is `chain`, and each entry
carries `tier` and the order of its processor. -/
inductive Created (chain : List Lifecycle) (tier : Tier) :
    Machine → List (Ranked Lifecycle) → Machine → Prop
  | nil (s : Machine) : Created chain tier s [] s
  | cons {s t u : Machine} {r : Ranked Lifecycle} {rs : List (Ranked Lifecycle)}
      (hchain : s.box.chain = chain)
      (hmade : materialize r.name .lifecycleProcessor s = .ok (.lifecycle r.processor) t)
      (htier : r.tier = tier) (horder : r.order = r.processor.order)
      (hrest : Created chain tier t rs u) : Created chain tier s (r :: rs) u

namespace Created

variable {chain : List Lifecycle} {tier : Tier} {s t : Machine} {rs : List (Ranked Lifecycle)}

theorem untouched (h : Created chain tier s rs t) : Untouched s t := by
  induction h with
  | nil s => exact Std.Refl.refl s
  | cons _ hmade _ _ _ ih =>
    exact ((untouched_materialize _ _).of_ok hmade).trans ih

theorem tier_eq (h : Created chain tier s rs t) : ∀ r ∈ rs, r.tier = tier := by
  induction h with
  | nil => simp
  | cons _ _ htier _ _ ih =>
    intro r hr
    rcases List.mem_cons.1 hr with rfl | hr
    · exact htier
    · exact ih r hr

theorem stampBelow {n : Nat} (h : Created chain tier s rs t) (hs : s.box.MakesBelow n) :
    t.box.MakesBelow n ∧ ∀ r ∈ rs, r.processor.stamp < n := by
  induction h with
  | nil => exact ⟨hs, by simp⟩
  | @cons s' _ _ r _ _ hmade _ _ _ ih =>
    obtain ⟨hend, hans⟩ := stays_materialize (n := n) r.name .lifecycleProcessor s' hs
    rw [hmade, endState_ok] at hend
    obtain ⟨hu, hrest⟩ := ih hend
    refine ⟨hu, fun x hx => ?_⟩
    rcases List.mem_cons.1 hx with rfl | hx
    · exact hans _ _ hmade
    · exact hrest x hx

end Created

theorem lifecycleProcessor_made {name : String} {tier : Tier} {s t : Machine}
    {r : Ranked Lifecycle} (h : lifecycleProcessor name tier s = .ok r t) :
    materialize name .lifecycleProcessor s = .ok (.lifecycle r.processor) t ∧ r.name = name ∧
      r.tier = tier ∧ r.order = r.processor.order := by
  simp only [lifecycleProcessor, bind_apply] at h
  split at h
  · rename_i made u hmade
    split at h
    · simp only [pure_apply, EStateM.Result.ok.injEq] at h
      obtain ⟨rfl, rfl⟩ := h
      exact ⟨hmade, rfl, rfl, rfl⟩
    · cases h
  · cases h

theorem lifecycleBatch_created {tier : Tier} {names : List String} {s t : Machine}
    {batch : List (Ranked Lifecycle)} (h : lifecycleBatch tier names s = .ok batch t) :
    batch.map (·.name) = names ∧ Created s.box.chain tier s batch t := by
  induction names generalizing s batch with
  | nil =>
    simp only [lifecycleBatch, pure_apply, EStateM.Result.ok.injEq] at h
    obtain ⟨rfl, rfl⟩ := h
    exact ⟨rfl, .nil s⟩
  | cons name rest ih =>
    obtain ⟨r, u, hmade, h⟩ := bind_eq_ok h
    obtain ⟨batch', v, hrest, h⟩ := bind_eq_ok h
    simp only [pure_apply, EStateM.Result.ok.injEq] at h
    obtain ⟨rfl, rfl⟩ := h
    obtain ⟨hcreate, rfl, htier, horder⟩ := lifecycleProcessor_made hmade
    obtain ⟨hnames, hcreated⟩ := ih hrest
    -- the rest starts after one creation, which left the chain as it was
    rw [((untouched_materialize _ _).of_ok hcreate).chain_eq] at hcreated
    exact ⟨by simp [hnames], .cons rfl hcreate htier horder hcreated⟩

theorem classifyLifecycle_tiers {names : List String} {s t : Machine}
    {priority : List (Ranked Lifecycle)} {ordered plain : List String}
    (h : classifyLifecycle names s = .ok (priority, ordered, plain) t)
    (hnames : ∀ n ∈ names, n ∈ s.box.names) :
    priority.map (·.name) = names.filter (s.box.classify · = .priority) ∧
      ordered = names.filter (s.box.classify · = .ordered) ∧
      plain = names.filter (s.box.classify · = .plain) ∧
      Created s.box.chain .priority s priority t := by
  induction names generalizing s priority ordered plain with
  | nil =>
    simp only [classifyLifecycle, pure_apply, EStateM.Result.ok.injEq, Prod.mk.injEq] at h
    obtain ⟨⟨rfl, rfl, rfl⟩, rfl⟩ := h
    exact ⟨rfl, rfl, rfl, .nil s⟩
  | cons name rest ih =>
    have hrestNames : ∀ n ∈ rest, n ∈ s.box.names :=
      fun n hn => hnames n (List.mem_cons_of_mem _ hn)
    simp only [classifyLifecycle, bind_apply, get_apply] at h
    -- the name joins the tier its class gives it; the other tiers are those of the rest
    have hin : ∀ tier, s.box.classify name = tier →
        (name :: rest).filter (s.box.classify · = tier) =
          name :: rest.filter (s.box.classify · = tier) :=
      fun tier htier => List.filter_cons_of_pos (by simpa using htier)
    have hout : ∀ tier, s.box.classify name ≠ tier →
        (name :: rest).filter (s.box.classify · = tier) = rest.filter (s.box.classify · = tier) :=
      fun tier htier => List.filter_cons_of_neg (by simpa using htier)
    cases htier : s.box.classify name with
    | priority =>
      simp only [htier] at h
      obtain ⟨r, u, hmade, h⟩ := bind_eq_ok h
      obtain ⟨⟨pr, o, pl⟩, v, hrest, h⟩ := bind_eq_ok h
      simp only [pure_apply, EStateM.Result.ok.injEq, Prod.mk.injEq] at h
      obtain ⟨⟨rfl, rfl, rfl⟩, rfl⟩ := h
      obtain ⟨hcreate, rfl, hrtier, horder⟩ := lifecycleProcessor_made hmade
      have hu : Untouched s u := (untouched_materialize _ _).of_ok hcreate
      -- the rest is classified after the creation, which changed no definition and no chain
      obtain ⟨hpr, ho, hpl, hcreated⟩ := ih hrest fun n hn => hu.names_eq ▸ hrestNames n hn
      have hsame := filter_classify_of_untouched hu hrestNames
      rw [hu.chain_eq] at hcreated
      refine ⟨?_, ?_, ?_, .cons rfl hcreate hrtier horder hcreated⟩
      · rw [hin _ htier, List.map_cons, hpr, hsame]
      · rw [hout _ (by simp [htier]), ho, hsame]
      · rw [hout _ (by simp [htier]), hpl, hsame]
    | ordered =>
      simp only [htier] at h
      obtain ⟨⟨pr, o, pl⟩, v, hrest, h⟩ := bind_eq_ok h
      simp only [pure_apply, EStateM.Result.ok.injEq, Prod.mk.injEq] at h
      obtain ⟨⟨rfl, rfl, rfl⟩, rfl⟩ := h
      obtain ⟨hpr, ho, hpl, hcreated⟩ := ih hrest hrestNames
      exact ⟨by rw [hout _ (by simp [htier]), hpr], by rw [hin _ htier, ho],
        by rw [hout _ (by simp [htier]), hpl], hcreated⟩
    | plain =>
      simp only [htier] at h
      obtain ⟨⟨pr, o, pl⟩, v, hrest, h⟩ := bind_eq_ok h
      simp only [pure_apply, EStateM.Result.ok.injEq, Prod.mk.injEq] at h
      obtain ⟨⟨rfl, rfl, rfl⟩, rfl⟩ := h
      obtain ⟨hpr, ho, hpl, hcreated⟩ := ih hrest hrestNames
      exact ⟨by rw [hout _ (by simp [htier]), hpr], by rw [hout _ (by simp [htier]), ho],
        by rw [hin _ htier, hpl], hcreated⟩

@[simp] theorem withChain_chain (m : Machine) (chain : List Lifecycle) :
    (m.withChain chain).box.chain = chain := rfl

@[simp] theorem withChain_nextStamp (m : Machine) (chain : List Lifecycle) :
    (m.withChain chain).nextStamp = m.nextStamp := rfl

@[simp] theorem withChain_withChain (m : Machine) (a b : List Lifecycle) :
    (m.withChain a).withChain b = m.withChain b := rfl

theorem withChain_with_nextStamp (m : Machine) (a : List Lifecycle) (k : Nat) :
    { m.withChain a with nextStamp := k } = { m with nextStamp := k }.withChain a := rfl

@[simp] theorem withChain_box_classify (m : Machine) (a : List Lifecycle) :
    (m.withChain a).box.classify = m.box.classify := rfl

theorem appendAll_apply (rs : List (Ranked Lifecycle)) (s : Machine) :
    appendAll rs s = .ok () (s.withChain (chainAfter s.box.chain (rs.map (·.processor)))) := by
  rw [appendAll, onBox_apply, ← List.foldl_map (g := Container.addLifecycle),
    foldl_addLifecycle]
  rfl

theorem onBox_addLifecycle (l : Lifecycle) (s : Machine) :
    onBox (·.addLifecycle l) s = .ok () (s.withChain (chainAfter s.box.chain [l])) := by
  have hone := foldl_addLifecycle [l] s.box
  rw [List.foldl_cons, List.foldl_nil] at hone
  rw [onBox_apply, hone]
  rfl

/-- A registration in stages. The priority tier is created while the chain holds the old chain and
the new checker, each later tier while it also holds the tiers before it, sorted where they are
sorted; the run ends by appending the plain tier, the processors with a merged hook again,
sorted, and a new detector. -/
theorem registerLifecycle_stages {book : Book} {s t : Machine}
    (h : registerLifecycle book s = .ok () t) :
    ∃ (priority ordered plain : List (Ranked Lifecycle)) (v₁ v₂ v₃ : Machine),
      let names := s.box.namesFor .lifecycleProcessor true false
      let checker : Lifecycle :=
        ⟨s.nextStamp, .chainChecker (s.box.chain.length + 1 + names.length)⟩
      let internal := (priority ++ ordered ++ plain).filter (·.processor.hasMergedHook)
      let C₁ := chainAfter s.box.chain [checker]
      let C₂ := chainAfter C₁ ((Ranked.sort priority).map (·.processor))
      let C₃ := chainAfter C₂ ((Ranked.sort ordered).map (·.processor))
      priority.map (·.name) = names.filter (s.box.classify · = .priority) ∧
      ordered.map (·.name) = names.filter (s.box.classify · = .ordered) ∧
      plain.map (·.name) = names.filter (s.box.classify · = .plain) ∧
      Created C₁ .priority ({ s with nextStamp := s.nextStamp + 1 }.withChain C₁) priority v₁ ∧
      Created C₂ .ordered (v₁.withChain C₂) ordered v₂ ∧
      Created C₃ .plain (v₂.withChain C₃) plain v₃ ∧
      t = { v₃ with nextStamp := v₃.nextStamp + 1 }.withChain (chainAfter C₃
        ((plain ++ Ranked.sort internal).map (fun r : Ranked Lifecycle => r.processor) ++
          [(⟨v₃.nextStamp, .listenerDetector book⟩ : Lifecycle)])) := by
  replace h := get_bind_eq_ok h
  replace h := get_bind_eq_ok h
  obtain ⟨checker, u₁, hfresh, h⟩ := bind_eq_ok h
  simp only [fresh, modifyGet_apply, EStateM.Result.ok.injEq] at hfresh
  obtain ⟨rfl, rfl⟩ := hfresh
  obtain ⟨⟨⟩, u₂, hadd, h⟩ := bind_eq_ok h
  rw [onBox_addLifecycle, EStateM.Result.ok.injEq] at hadd
  obtain ⟨-, rfl⟩ := hadd
  obtain ⟨⟨priority, orderedNames, plainNames⟩, v₁, hclassify, h⟩ := bind_eq_ok h
  obtain ⟨⟨⟩, u₃, happend, h⟩ := bind_eq_ok h
  rw [appendAll_apply, EStateM.Result.ok.injEq] at happend
  obtain ⟨-, rfl⟩ := happend
  obtain ⟨ordered, v₂, hordered, h⟩ := bind_eq_ok h
  obtain ⟨⟨⟩, u₄, happend, h⟩ := bind_eq_ok h
  rw [appendAll_apply, EStateM.Result.ok.injEq] at happend
  obtain ⟨-, rfl⟩ := happend
  obtain ⟨plain, v₃, hplain, h⟩ := bind_eq_ok h
  obtain ⟨⟨⟩, u₅, happend, h⟩ := bind_eq_ok h
  rw [appendAll_apply, EStateM.Result.ok.injEq] at happend
  obtain ⟨-, rfl⟩ := happend
  obtain ⟨⟨⟩, u₆, happend, h⟩ := bind_eq_ok h
  rw [appendAll_apply, EStateM.Result.ok.injEq] at happend
  obtain ⟨-, rfl⟩ := happend
  obtain ⟨detector, u₇, hfresh, h⟩ := bind_eq_ok h
  simp only [fresh, modifyGet_apply, EStateM.Result.ok.injEq] at hfresh
  obtain ⟨rfl, rfl⟩ := hfresh
  rw [onBox_addLifecycle, EStateM.Result.ok.injEq] at h
  obtain ⟨-, rfl⟩ := h
  obtain ⟨hpr, rfl, rfl, hcreated₁⟩ :=
    classifyLifecycle_tiers hclassify fun n hn => Container.mem_names_of_mem_namesFor hn
  obtain ⟨hordNames, hcreated₂⟩ := lifecycleBatch_created hordered
  obtain ⟨hplainNames, hcreated₃⟩ := lifecycleBatch_created hplain
  -- creation leaves each chain as the appends before it made it
  have hchain₁ := hcreated₁.untouched.chain_eq
  have hchain₂ := hcreated₂.untouched.chain_eq
  have hchain₃ := hcreated₃.untouched.chain_eq
  simp only [withChain_chain] at hchain₁ hchain₂ hchain₃ hcreated₂ hcreated₃
  rw [hchain₁] at hcreated₂ hchain₂
  rw [hchain₂] at hcreated₃ hchain₃
  refine ⟨priority, ordered, plain, v₁, v₂, v₃, hpr, hordNames, hplainNames, hcreated₁,
    hcreated₂, hcreated₃, ?_⟩
  simp only [withChain_chain, withChain_nextStamp, hchain₃, List.map_append, chainAfter_append]
  rfl

/-- When the discovered processors hold each stamp once, the last additions of the tiers and the
internal processors are the processors without a merged hook, in the order the tiers appended
them, and then the internal ones, sorted. -/
theorem lastAdded_of_found_once {found tiers : List (Ranked Lifecycle)} (hperm : tiers.Perm found)
    (hnodup : (found.map (·.processor.stamp)).Nodup) :
    lastAdded ((tiers ++ Ranked.sort (found.filter (·.processor.hasMergedHook))).map
        (·.processor)) =
      (tiers.filter (!·.processor.hasMergedHook) ++
        Ranked.sort (found.filter (·.processor.hasMergedHook))).map (·.processor) := by
  have hinternal := Ranked.sort_perm (found.filter (·.processor.hasMergedHook))
  have htiers : ((tiers.map (·.processor)).map (·.stamp)).Nodup := by
    rw [List.map_map]
    exact (hperm.map _).nodup_iff.2 hnodup
  have hsorted : (((Ranked.sort (found.filter (·.processor.hasMergedHook))).map
      (·.processor)).map (·.stamp)).Nodup := by
    rw [List.map_map]
    exact (hinternal.map _).nodup_iff.2 (hnodup.sublist (List.filter_sublist.map _))
  rw [List.map_append, lastAdded_append, lastAdded_of_nodup htiers, lastAdded_of_nodup hsorted,
    List.map_append, List.filter_map]
  refine congrArg (· ++ _) (congrArg _ (List.filter_congr fun r hr => ?_))
  -- a processor is appended again exactly when it has a merged hook: no other has its stamp
  have hfound : r ∈ found := hperm.subset hr
  simp only [Function.comp_apply, Bool.not_inj_iff]
  cases hhook : r.processor.hasMergedHook
  · rw [Bool.eq_false_iff, ne_eq, addedIn_iff, List.map_map]
    intro hmem
    obtain ⟨q, hq, hstamp⟩ := List.mem_map.1 hmem
    have hq' := List.mem_filter.1 (hinternal.subset hq)
    have hqr : q = r := List.inj_on_of_nodup_map hnodup hq'.1 hfound hstamp
    rw [← hqr, hq'.2] at hhook
    cases hhook
  · rw [addedIn_iff, List.map_map]
    exact List.mem_map_of_mem (hinternal.symm.subset (List.mem_filter.2 ⟨hfound, hhook⟩))

theorem Container.makesBelow_withChain {n : Nat} {m : Machine} (chain : List Lifecycle)
    (h : m.box.MakesBelow n) : (m.withChain chain).box.MakesBelow n :=
  ⟨h.definitions, h.effective, h.singletons⟩

/-- The chain a lifecycle registration builds. The old chain holds each processor once, with
stamps older than the counter, and the container makes only processors with older stamps, so
the checker and the detector the registration takes are new. The discovered names fall into
their tiers in discovery order; each tier is created while the chain holds the checker and the
tiers before it; the chain ends as the old processors not appended again, in their old order,
the checker, the last addition of each processor appended, in order, and the detector, each
processor once. When no processor is discovered twice, the appended part is the processors
without a merged hook in tier order and then those with one, sorted. -/
theorem registerLifecycle_builds_chain {book : Book} {s t : Machine}
    (hnodup : (s.box.chain.map (·.stamp)).Nodup) (hold : ∀ l ∈ s.box.chain, l.stamp < s.nextStamp)
    (hmakes : s.box.MakesBelow s.nextStamp) (h : registerLifecycle book s = .ok () t) :
    ∃ (priority ordered plain : List (Ranked Lifecycle)) (v₁ v₂ v₃ : Machine)
      (detector : Lifecycle),
      let names := s.box.namesFor .lifecycleProcessor true false
      let checker : Lifecycle :=
        ⟨s.nextStamp, .chainChecker (s.box.chain.length + 1 + names.length)⟩
      let internal := (priority ++ ordered ++ plain).filter (·.processor.hasMergedHook)
      let tiers := Ranked.sort priority ++ Ranked.sort ordered ++ plain
      let added := (tiers ++ Ranked.sort internal).map (·.processor)
      -- the tiers of the discovered names, in discovery order
      priority.map (·.name) = names.filter (s.box.classify · = .priority) ∧
      ordered.map (·.name) = names.filter (s.box.classify · = .ordered) ∧
      plain.map (·.name) = names.filter (s.box.classify · = .plain) ∧
      -- each tier is created while the chain holds the checker and the tiers before it
      Created (chainAfter s.box.chain [checker]) .priority
        ({ s with nextStamp := s.nextStamp + 1 }.withChain (chainAfter s.box.chain [checker]))
        priority v₁ ∧
      Created (chainAfter s.box.chain (checker :: (Ranked.sort priority).map (·.processor)))
        .ordered (v₁.withChain
          (chainAfter s.box.chain (checker :: (Ranked.sort priority).map (·.processor))))
        ordered v₂ ∧
      Created (chainAfter s.box.chain
          (checker :: (Ranked.sort priority ++ Ranked.sort ordered).map (·.processor))) .plain
        (v₂.withChain (chainAfter s.box.chain
          (checker :: (Ranked.sort priority ++ Ranked.sort ordered).map (·.processor))))
        plain v₃ ∧
      -- the sorted tiers are stable sorts by order, the internal processors by tier and order
      StablySorted (·.order) priority (Ranked.sort priority) ∧
      StablySorted (·.order) ordered (Ranked.sort ordered) ∧
      StablySorted Ranked.key internal (Ranked.sort internal) ∧
      -- the discovered processors are older than the call, the detector is taken during it
      (∀ r ∈ priority ++ ordered ++ plain, r.processor.stamp < s.nextStamp) ∧
      detector.role = .listenerDetector book ∧ s.nextStamp < detector.stamp ∧
      detector.stamp < t.nextStamp ∧
      -- the chain, each processor once
      t.box.chain = s.box.chain.filter (!addedIn added ·) ++ checker :: lastAdded added ++
        [detector] ∧
      (t.box.chain.map (·.stamp)).Nodup ∧
      -- with no processor discovered twice, the internal processors come last
      (((priority ++ ordered ++ plain).map (·.processor.stamp)).Nodup →
        lastAdded added =
          (tiers.filter (!·.processor.hasMergedHook) ++ Ranked.sort internal).map
            (·.processor)) := by
  obtain ⟨priority, ordered, plain, v₁, v₂, v₃, hpr, hord, hpl, hcreated₁, hcreated₂, hcreated₃,
    ht⟩ := registerLifecycle_stages h
  set checker : Lifecycle := ⟨s.nextStamp, .chainChecker
    (s.box.chain.length + 1 + (s.box.namesFor .lifecycleProcessor true false).length)⟩
  set detector : Lifecycle := ⟨v₃.nextStamp, .listenerDetector book⟩
  set internal := (priority ++ ordered ++ plain).filter
    (fun r : Ranked Lifecycle => r.processor.hasMergedHook)
  set tiers := Ranked.sort priority ++ Ranked.sort ordered ++ plain
  -- every processor created has an older stamp, and the counter only grows
  obtain ⟨hm₁, hst₁⟩ := hcreated₁.stampBelow (Container.makesBelow_withChain _ hmakes)
  obtain ⟨hm₂, hst₂⟩ := hcreated₂.stampBelow (Container.makesBelow_withChain _ hm₁)
  obtain ⟨-, hst₃⟩ := hcreated₃.stampBelow (Container.makesBelow_withChain _ hm₂)
  have hcount₁ := hcreated₁.untouched.stamp_le
  have hcount₂ := hcreated₂.untouched.stamp_le
  have hcount₃ := hcreated₃.untouched.stamp_le
  simp only [withChain_nextStamp] at hcount₁ hcount₂ hcount₃
  have hfound : ∀ r ∈ priority ++ ordered ++ plain, r.processor.stamp < s.nextStamp := by
    simp only [List.mem_append]
    rintro r ((hr | hr) | hr)
    exacts [hst₁ r hr, hst₂ r hr, hst₃ r hr]
  have htiers : tiers.Perm (priority ++ ordered ++ plain) :=
    ((Ranked.sort_perm priority).append (Ranked.sort_perm ordered)).append (List.Perm.refl plain)
  have hadded : ∀ l ∈ (tiers ++ Ranked.sort internal).map (fun r : Ranked Lifecycle => r.processor),
      l.stamp < s.nextStamp := by
    intro l hl
    obtain ⟨r, hr, rfl⟩ := List.mem_map.1 hl
    rcases List.mem_append.1 hr with hr | hr
    · exact hfound r (htiers.subset hr)
    · exact hfound r (List.mem_filter.1 ((Ranked.sort_perm internal).subset hr)).1
  -- the chain is the old chain after the checker, the appended processors and the detector
  have hchain : t.box.chain = chainAfter s.box.chain (checker ::
      (tiers ++ Ranked.sort internal).map (fun r : Ranked Lifecycle => r.processor) ++
        [detector]) := by
    rw [ht]
    simp only [withChain_chain, ← chainAfter_append, tiers, List.map_append, List.cons_append,
      List.nil_append, List.append_assoc]
  have htstamp : t.nextStamp = v₃.nextStamp + 1 := by
    rw [ht]
    rfl
  have hdetector : s.nextStamp < detector.stamp := by
    simp only [detector]
    omega
  refine ⟨priority, ordered, plain, v₁, v₂, v₃, detector, hpr, hord, hpl, hcreated₁, ?_, ?_,
    Ranked.stablySorted_sort_order hcreated₁.tier_eq,
    Ranked.stablySorted_sort_order hcreated₂.tier_eq, Ranked.stablySorted_sort internal, hfound,
    rfl, hdetector, by simp only [detector, htstamp]; omega, ?_, ?_,
    fun hnodup' => lastAdded_of_found_once htiers hnodup'⟩
  · rwa [← List.singleton_append, chainAfter_append]
  · rwa [← List.singleton_append, List.map_append, chainAfter_append, chainAfter_append]
  · rw [hchain]
    -- the checker and the detector take stamps from the counter on, new to older processors
    exact chainAfter_fresh ⟨stamp_not_mem_of_lt hold le_rfl, stamp_not_mem_of_lt hadded le_rfl⟩
      ⟨stamp_not_mem_of_lt hold hdetector.le, stamp_not_mem_of_lt hadded hdetector.le,
        hdetector.ne'⟩
  · rw [hchain]
    exact nodup_chainAfter hnodup _

/-! Registration when every discovered processor is made already: nothing is created, and the
chain comes out of the processors the singletons hold. -/

theorem lifecycleProcessor_cached {name : String} {tier : Tier} {s : Machine} {l : Lifecycle}
    (h : s.box.singletons.get? name = some (.lifecycle l)) :
    lifecycleProcessor name tier s = .ok ⟨name, tier, l.order, l⟩ s := by
  simp only [lifecycleProcessor, materialize, bind_apply, get_apply, materializeWith_cached h]
  rfl

section Cached

variable (made : String → Lifecycle)

theorem lifecycleBatch_cached {tier : Tier} {names : List String} {s : Machine}
    (h : ∀ n ∈ names, s.box.singletons.get? n = some (.lifecycle (made n))) :
    lifecycleBatch tier names s = .ok (names.map fun n => ⟨n, tier, (made n).order, made n⟩) s := by
  induction names with
  | nil => rfl
  | cons name rest ih =>
    simp only [lifecycleBatch, bind_apply,
      lifecycleProcessor_cached (h name List.mem_cons_self),
      ih fun n hn => h n (List.mem_cons_of_mem _ hn), pure_apply, List.map_cons]

theorem classifyLifecycle_cached {names : List String} {s : Machine}
    (h : ∀ n ∈ names, s.box.singletons.get? n = some (.lifecycle (made n))) :
    classifyLifecycle names s =
      .ok ((names.filter (s.box.classify · = .priority)).map
          (fun n => ⟨n, .priority, (made n).order, made n⟩),
        names.filter (s.box.classify · = .ordered),
        names.filter (s.box.classify · = .plain)) s := by
  induction names with
  | nil => rfl
  | cons name rest ih =>
    have hrest := ih fun n hn => h n (List.mem_cons_of_mem _ hn)
    simp only [classifyLifecycle, bind_apply, get_apply]
    cases htier : s.box.classify name <;>
      simp only [bind_apply, hrest, lifecycleProcessor_cached (h name List.mem_cons_self),
        pure_apply] <;>
      simp [htier]

/-- When every discovered name is made already, registration creates nothing: it takes two
stamps, for the checker and the detector, and builds the chain from the processors the
singletons hold, each ranked in the tier of its name. -/
theorem registerLifecycle_cached (book : Book) {s : Machine}
    (h : ∀ n ∈ s.box.namesFor .lifecycleProcessor true false,
      s.box.singletons.get? n = some (.lifecycle (made n))) :
    let names := s.box.namesFor .lifecycleProcessor true false
    let rank := fun (tier : Tier) (n : String) =>
      (⟨n, tier, (made n).order, made n⟩ : Ranked Lifecycle)
    let priority := (names.filter (s.box.classify · = .priority)).map (rank .priority)
    let ordered := (names.filter (s.box.classify · = .ordered)).map (rank .ordered)
    let plain := (names.filter (s.box.classify · = .plain)).map (rank .plain)
    let internal := (priority ++ ordered ++ plain).filter (·.processor.hasMergedHook)
    registerLifecycle book s = .ok () ({ s with nextStamp := s.nextStamp + 2 }.withChain
      (chainAfter s.box.chain
        ((⟨s.nextStamp, .chainChecker (s.box.chain.length + 1 + names.length)⟩ : Lifecycle) ::
          (Ranked.sort priority ++ Ranked.sort ordered ++ plain ++ Ranked.sort internal).map
            (fun r : Ranked Lifecycle => r.processor) ++
          [(⟨s.nextStamp + 1, .listenerDetector book⟩ : Lifecycle)]))) := by
  simp only [registerLifecycle, bind_apply, get_apply, fresh, modifyGet_apply, onBox_addLifecycle]
  -- the batches read the singletons, which no step of the registration changes
  rw [classifyLifecycle_cached made ?hclassify]
  case hclassify => exact h
  simp only [appendAll_apply]
  rw [lifecycleBatch_cached made ?hordered]
  case hordered => exact fun n hn => h n (List.mem_filter.1 hn).1
  simp only
  rw [lifecycleBatch_cached made ?hplain]
  case hplain => exact fun n hn => h n (List.mem_filter.1 hn).1
  simp only [withChain_chain, withChain_nextStamp, withChain_withChain, withChain_with_nextStamp,
    withChain_box_classify, ← chainAfter_append, List.map_append, List.cons_append,
    List.nil_append, List.append_assoc]
  rfl

end Cached

/-! A processor found under two names. The priority name "a" and the plain name "b" hold one
recorder, made already, and the ordered name "y" another: the plain tier appends the shared
recorder again, behind the ordered one, so the chain does not follow the tiers. -/

def sharedRecorder : Lifecycle :=
  ⟨0, .recorder ⟨"z", some 5, false, false, [], [], [], []⟩⟩

def orderedRecorder : Lifecycle :=
  ⟨1, .recorder ⟨"y", some 1, false, false, [], [], [], []⟩⟩

def twiceFound : Machine where
  box :=
    { id := ⟨0⟩
      definitions := ⟨[
        ("a", .ofClass { ComponentClass.bare "app.PA" with
          capabilities := [.lifecycleProcessor, .priorityOrdered] }),
        ("y", .ofClass { ComponentClass.bare "app.PY" with
          capabilities := [.lifecycleProcessor, .ordered] }),
        ("b", .ofClass { ComponentClass.bare "app.PB" with
          capabilities := [.lifecycleProcessor] })],
        by decide⟩
      singletons := ⟨[("a", .lifecycle sharedRecorder), ("y", .lifecycle orderedRecorder),
        ("b", .lifecycle sharedRecorder)], by decide⟩ }
  nextStamp := 2

theorem twiceFound_names :
    twiceFound.box.namesFor .lifecycleProcessor true false = ["a", "y", "b"] := by
  decide

theorem twiceFound_run :
    registerLifecycle .own twiceFound = .ok () ({ twiceFound with nextStamp := 4 }.withChain
      [⟨2, .chainChecker 4⟩, orderedRecorder, sharedRecorder, ⟨3, .listenerDetector .own⟩]) := by
  have hmade : ∀ n ∈ twiceFound.box.namesFor .lifecycleProcessor true false,
      twiceFound.box.singletons.get? n =
        some (.lifecycle (if n = "y" then orderedRecorder else sharedRecorder)) := by
    rw [twiceFound_names]
    simp only [List.mem_cons, List.not_mem_nil, or_false, forall_eq_or_imp, forall_eq]
    exact ⟨rfl, rfl, rfl⟩
  have ha : twiceFound.box.classify "a" = .priority := by decide
  have hy : twiceFound.box.classify "y" = .ordered := by decide
  have hb : twiceFound.box.classify "b" = .plain := by decide
  rw [registerLifecycle_cached _ .own hmade]
  simp only [twiceFound_names, List.filter_cons, ha, hy, hb]
  simp [Ranked.sort, chainAfter, lastAdded, addedIn, Lifecycle.hasMergedHook, sharedRecorder,
    orderedRecorder, twiceFound]

/-- The processor of the priority name "a" ends behind the processor of the ordered name "y". -/
theorem shared_processor_follows_ordered_tier :
    twiceFound.box.classify "a" = .priority ∧ twiceFound.box.classify "y" = .ordered ∧
      twiceFound.box.singletons.get? "a" = some (.lifecycle sharedRecorder) ∧
      twiceFound.box.singletons.get? "y" = some (.lifecycle orderedRecorder) ∧
      registerLifecycle .own twiceFound = .ok () ({ twiceFound with nextStamp := 4 }.withChain
        [⟨2, .chainChecker 4⟩, orderedRecorder, sharedRecorder, ⟨3, .listenerDetector .own⟩]) :=
  ⟨by decide, by decide, rfl, rfl, twiceFound_run⟩

theorem twiceFound_makesBelow : twiceFound.box.MakesBelow twiceFound.nextStamp := by
  refine ⟨fun name d hd => ?_, fun name d hd => ?_, fun name i hi => ?_⟩
  · -- the classes have no constructor, no bodies and no factory methods
    rw [Container.definition?, Roster.get?_eq_some_iff] at hd
    simp only [twiceFound, List.mem_cons, Prod.mk.injEq, List.not_mem_nil, or_false] at hd
    rcases hd with ⟨-, rfl⟩ | ⟨-, rfl⟩ | ⟨-, rfl⟩ <;>
      simp [Definition.MakesBelow, ComponentClass.MakesBelow, Definition.ofClass,
        ComponentClass.bare, ComponentClass.body?, Roster.get?, Roster.empty]
  · simp [twiceFound, Roster.get?, Roster.empty] at hd
  · rw [Roster.get?_eq_some_iff] at hi
    simp only [twiceFound, List.mem_cons, Prod.mk.injEq, List.not_mem_nil, or_false] at hi
    rcases hi with ⟨-, rfl⟩ | ⟨-, rfl⟩ | ⟨-, rfl⟩ <;>
      simp [Instance.StampBelow, sharedRecorder, orderedRecorder, twiceFound]


theorem twiceFound_builds_chain :
    (twiceFound.box.chain.map (·.stamp)).Nodup ∧
      (∀ l ∈ twiceFound.box.chain, l.stamp < twiceFound.nextStamp) ∧
      twiceFound.box.MakesBelow twiceFound.nextStamp ∧
      ∃ t, registerLifecycle .own twiceFound = .ok () t ∧
      ∃ (priority ordered plain : List (Ranked Lifecycle)) (v₁ v₂ v₃ : Machine)
        (detector : Lifecycle),
        let names := twiceFound.box.namesFor .lifecycleProcessor true false
        let checker : Lifecycle :=
          ⟨twiceFound.nextStamp, .chainChecker (twiceFound.box.chain.length + 1 + names.length)⟩
        let internal := (priority ++ ordered ++ plain).filter (·.processor.hasMergedHook)
        let tiers := Ranked.sort priority ++ Ranked.sort ordered ++ plain
        let added := (tiers ++ Ranked.sort internal).map (·.processor)
        priority.map (·.name) = names.filter (twiceFound.box.classify · = .priority) ∧
        ordered.map (·.name) = names.filter (twiceFound.box.classify · = .ordered) ∧
        plain.map (·.name) = names.filter (twiceFound.box.classify · = .plain) ∧
        Created (chainAfter twiceFound.box.chain [checker]) .priority
          ({ twiceFound with nextStamp := twiceFound.nextStamp + 1 }.withChain
            (chainAfter twiceFound.box.chain [checker]))
          priority v₁ ∧
        Created
          (chainAfter twiceFound.box.chain (checker :: (Ranked.sort priority).map (·.processor)))
          .ordered (v₁.withChain
            (chainAfter twiceFound.box.chain (checker :: (Ranked.sort priority).map (·.processor))))
          ordered v₂ ∧
        Created (chainAfter twiceFound.box.chain
            (checker :: (Ranked.sort priority ++ Ranked.sort ordered).map (·.processor))) .plain
          (v₂.withChain (chainAfter twiceFound.box.chain
            (checker :: (Ranked.sort priority ++ Ranked.sort ordered).map (·.processor))))
          plain v₃ ∧
        StablySorted (·.order) priority (Ranked.sort priority) ∧
        StablySorted (·.order) ordered (Ranked.sort ordered) ∧
        StablySorted Ranked.key internal (Ranked.sort internal) ∧
        (∀ r ∈ priority ++ ordered ++ plain, r.processor.stamp < twiceFound.nextStamp) ∧
        detector.role = .listenerDetector .own ∧ twiceFound.nextStamp < detector.stamp ∧
        detector.stamp < t.nextStamp ∧
        t.box.chain =
          twiceFound.box.chain.filter (!addedIn added ·) ++ checker :: lastAdded added ++
            [detector] ∧
        (t.box.chain.map (·.stamp)).Nodup ∧
        (((priority ++ ordered ++ plain).map (·.processor.stamp)).Nodup →
          lastAdded added =
            (tiers.filter (!·.processor.hasMergedHook) ++ Ranked.sort internal).map
              (·.processor)) := by
  have hnodup : (twiceFound.box.chain.map (·.stamp)).Nodup := List.nodup_nil
  have hold : ∀ l ∈ twiceFound.box.chain, l.stamp < twiceFound.nextStamp := fun _ h => by
    simp [twiceFound] at h
  exact ⟨hnodup, hold, twiceFound_makesBelow, _, twiceFound_run,
    registerLifecycle_builds_chain hnodup hold twiceFound_makesBelow twiceFound_run⟩

end Machine

end Wiring
