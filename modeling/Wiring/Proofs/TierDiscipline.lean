import Wiring.Proofs.RunnerCalls
import Wiring.Proofs.Ranking
import Wiring.Proofs.Creation.Untouched

namespace Wiring

/-! The tier discipline of the processor runner. A batch is ranked by the tier each name's class
gives it when the batch starts and by the processor's order, and runs in the stable sort
"priority tier first, then the lower order"; the factory-only tiers run the priority and the
ordered tier, each sorted by order, then the plain tier in registration order. Creating a
processor changes no definition, so a tier read at the start of a batch holds for all of it. -/

namespace Container

theorem mem_names_of_mem_namesFor {c : Container} {cap : Capability} {a b : Bool} {n : String}
    (h : n ∈ c.namesFor cap a b) : n ∈ c.names := by
  simp only [namesFor, List.mem_map, List.mem_filter] at h
  obtain ⟨e, ⟨he, -⟩, rfl⟩ := h
  exact List.mem_map_of_mem he

theorem classify_eq_of_definitions_eq {c c' : Container} (h : c'.definitions = c.definitions)
    {n : String} (hn : n ∈ c.names) : c'.classify n = c.classify n := by
  obtain ⟨d, hd⟩ := mem_names_iff.1 hn
  have hd' : c'.definition? n = some d := by
    rw [definition?, h]
    exact hd
  simp [classify, isTypeMatch, hd, hd']

end Container

def RankedIn (c : Container) (batch : List (Ranked PostProcessor)) : Prop :=
  ∀ r ∈ batch, r.tier = c.classify r.name ∧ r.order = r.processor.order

theorem RankedIn.of_definitions_eq {c c' : Container} {batch : List (Ranked PostProcessor)}
    (h : RankedIn c' batch) (hdefs : c'.definitions = c.definitions)
    (hnames : ∀ r ∈ batch, r.name ∈ c.names) : RankedIn c batch := fun r hr =>
  ⟨(h r hr).1.trans (Container.classify_eq_of_definitions_eq hdefs (hnames r hr)), (h r hr).2⟩

def registryRuns (rs : List (Ranked PostProcessor)) : List Call :=
  rs.map fun r => .registry (some r.name) r.processor

/-- A registry pass from `u` to `w`: the batch is created in its order, then the registry phases
run in the stable sort of the batch by its key. -/
def PassRuns (u : Machine) (batch : List (Ranked PostProcessor)) (w : Machine) : Prop :=
  ∃ sorted, StablySorted Ranked.key batch sorted ∧
    Calls u (createCalls .registryProcessor batch ++ registryRuns sorted) w

theorem passRuns_of_calls {u w : Machine} {batch : List (Ranked PostProcessor)}
    (h : Calls u (passCalls batch) w) : PassRuns u batch w :=
  ⟨Ranked.sort batch, Ranked.stablySorted_sort batch, h⟩

def unprocessed (cap : Capability) (u : Machine) (processed : List String) : List String :=
  (u.box.namesFor cap true false).filter (!processed.contains ·)

/-- A pass over the unprocessed registry processors that advertise `cap`, from `u` to `w`. -/
structure CapabilityPass (u : Machine) (processed : List String) (cap : Capability)
    (batch : List (Ranked PostProcessor)) (w : Machine) : Prop where
  names : batch.map (·.name) =
    (unprocessed .registryProcessor u processed).filter (u.box.isTypeMatch · cap)
  ranked : RankedIn u.box batch
  runs : PassRuns u batch w

/-- `Passes processed u batches v`: the remainder passes from `u`, with the names `processed`
done. Each pass takes every registry processor name not processed when it starts; the passes
stop once none is left. -/
inductive Passes : List String → Machine → List (List (Ranked PostProcessor)) → Machine → Prop
  | settled {processed : List String} {u : Machine}
      (hsettled : unprocessed .registryProcessor u processed = []) : Passes processed u [] u
  | pass {processed : List String} {u w v : Machine} {batch : List (Ranked PostProcessor)}
      {rest : List (List (Ranked PostProcessor))}
      (hnames : batch.map (·.name) = unprocessed .registryProcessor u processed)
      (hnonempty : batch ≠ []) (hranked : RankedIn u.box batch) (hruns : PassRuns u batch w)
      (hrest : Passes (processed ++ batch.map (·.name)) w rest v) :
      Passes processed u (batch :: rest) v

/-- The factory-only tiers from `u` to `w` over the factory processors not processed: each tier
holds the names its class puts there when the tiers start, in registration order; the priority
tier and then the ordered tier run stably sorted by order, then the plain tier in registration
order. -/
structure FactoryTiers (u : Machine) (processed : List String)
    (priority ordered plain : List (Ranked PostProcessor)) (w : Machine) : Prop where
  priority_names : priority.map (·.name) =
    (unprocessed .factoryProcessor u processed).filter (u.box.classify · = .priority)
  ordered_names : ordered.map (·.name) =
    (unprocessed .factoryProcessor u processed).filter (u.box.classify · = .ordered)
  plain_names : plain.map (·.name) =
    (unprocessed .factoryProcessor u processed).filter (u.box.classify · = .plain)
  ranked : RankedIn u.box (priority ++ ordered ++ plain)
  runs : ∃ sortedPriority sortedOrdered,
    StablySorted (·.order) priority sortedPriority ∧ StablySorted (·.order) ordered sortedOrdered ∧
    Calls u (createCalls .factoryProcessor priority ++
      factoryCalls (sortedPriority.map (·.processor)) ++ createCalls .factoryProcessor ordered ++
      factoryCalls (sortedOrdered.map (·.processor)) ++ createCalls .factoryProcessor plain ++
      factoryCalls (plain.map (·.processor))) w

namespace Machine

theorem Untouched.names_eq {s t : Machine} (h : Untouched s t) : t.box.names = s.box.names := by
  rw [Container.names, Container.names, h.definitions_eq]

theorem registryBatch_ranked {processed names : List String} {s t : Machine}
    {batch : List (Ranked PostProcessor)} {processed' : List String}
    (hnames : ∀ n ∈ names, n ∈ s.box.names)
    (h : registryBatch processed names s = .ok (batch, processed') t) :
    RankedIn s.box batch ∧ Untouched s t := by
  induction names generalizing processed s batch with
  | nil =>
    simp only [registryBatch, pure_apply, EStateM.Result.ok.injEq, Prod.mk.injEq] at h
    obtain ⟨⟨rfl, rfl⟩, rfl⟩ := h
    exact ⟨fun _ h => by simp at h, Std.Refl.refl s⟩
  | cons name rest ih =>
    simp only [registryBatch, bind_apply, get_apply] at h
    split at h
    · rename_i made u hmade
      have hu := (untouched_materialize name .registryProcessor).of_ok hmade
      split at h
      · split at h
        · simp only [bind_apply, pure_apply] at h
          split at h
          · rename_i r v hrest
            simp only [EStateM.Result.ok.injEq, Prod.mk.injEq] at h
            obtain ⟨⟨rfl, rfl⟩, rfl⟩ := h
            have hrestNames : ∀ n ∈ rest, n ∈ u.box.names := fun n hn => by
              rw [hu.names_eq]
              exact hnames n (List.mem_cons_of_mem _ hn)
            obtain ⟨hranked, hv⟩ := ih hrestNames hrest
            -- the rest of the batch is ranked where it started, which has the same definitions
            have hbatch := (registryBatch_calls hrest).2.1
            have hsame : RankedIn s.box r.1 := hranked.of_definitions_eq hu.definitions_eq
              fun x hx => hnames _ (List.mem_cons_of_mem _ (hbatch ▸ List.mem_map_of_mem hx))
            refine ⟨fun x hx => ?_, hu.trans hv⟩
            rcases List.mem_cons.1 hx with rfl | hx
            · exact ⟨rfl, rfl⟩
            · exact hsame x hx
          · cases h
        · simp [bind_apply] at h
      · simp [bind_apply] at h
    · cases h

theorem factoryBatch_ranked {tier : Tier} {names : List String} {s t : Machine}
    {batch : List (Ranked PostProcessor)} (h : factoryBatch tier names s = .ok batch t) :
    (∀ r ∈ batch, r.tier = tier ∧ r.order = r.processor.order) ∧ Untouched s t := by
  induction names generalizing s batch with
  | nil =>
    simp only [factoryBatch, pure_apply, EStateM.Result.ok.injEq] at h
    obtain ⟨rfl, rfl⟩ := h
    exact ⟨fun _ h => by simp at h, Std.Refl.refl s⟩
  | cons name rest ih =>
    obtain ⟨p, u, hmade, h⟩ := bind_eq_ok h
    obtain ⟨batch', v, hrest, h⟩ := bind_eq_ok h
    simp only [pure_apply, EStateM.Result.ok.injEq] at h
    obtain ⟨rfl, rfl⟩ := h
    have hu : Untouched s u :=
      (untouched_materialize name .factoryProcessor).of_ok (factoryProcessor_runs hmade)
    obtain ⟨hranked, hv⟩ := ih hrest
    refine ⟨fun r hr => ?_, hu.trans hv⟩
    rcases List.mem_cons.1 hr with rfl | hr
    · exact ⟨rfl, rfl⟩
    · exact hranked r hr

theorem filter_classify_of_untouched {s u : Machine} (hu : Untouched s u) {names : List String}
    (hnames : ∀ n ∈ names, n ∈ s.box.names) (tier : Tier) :
    names.filter (u.box.classify · = tier) = names.filter (s.box.classify · = tier) :=
  List.filter_congr fun n hn => by
    rw [Container.classify_eq_of_definitions_eq hu.definitions_eq (hnames n hn)]

theorem classifyFactory_tiers {processed names : List String} {s t : Machine}
    {priority : List (Ranked PostProcessor)} {ordered plain : List String}
    (hnames : ∀ n ∈ names, n ∈ s.box.names)
    (h : classifyFactory processed names s = .ok (priority, ordered, plain) t) :
    priority.map (·.name) =
        (names.filter (!processed.contains ·)).filter (s.box.classify · = .priority) ∧
      ordered = (names.filter (!processed.contains ·)).filter (s.box.classify · = .ordered) ∧
      plain = (names.filter (!processed.contains ·)).filter (s.box.classify · = .plain) ∧
      (∀ r ∈ priority, r.tier = .priority ∧ r.order = r.processor.order) ∧ Untouched s t := by
  induction names generalizing s priority ordered plain with
  | nil =>
    simp only [classifyFactory, pure_apply, EStateM.Result.ok.injEq, Prod.mk.injEq] at h
    obtain ⟨⟨rfl, rfl, rfl⟩, rfl⟩ := h
    exact ⟨rfl, rfl, rfl, fun _ h => by simp at h, Std.Refl.refl s⟩
  | cons name rest ih =>
    have hrestNames : ∀ n ∈ rest, n ∈ s.box.names := fun n hn => hnames n (List.mem_cons_of_mem _ hn)
    simp only [classifyFactory] at h
    by_cases hdone : processed.contains name = true
    · have hskip : (name :: rest).filter (!processed.contains ·) =
          rest.filter (!processed.contains ·) :=
        List.filter_cons_of_neg (by simpa using hdone)
      simp only [hdone, if_true] at h
      rw [hskip]
      exact ih hrestNames h
    have hkeep : (name :: rest).filter (!processed.contains ·) =
        name :: rest.filter (!processed.contains ·) :=
      List.filter_cons_of_pos (by simpa using hdone)
    simp only [hdone, Bool.false_eq_true, if_false, bind_apply, get_apply] at h
    rw [hkeep]
    -- the name joins the tier its class gives it; the other tiers are those of the rest
    have hin : ∀ tier, s.box.classify name = tier →
        (name :: rest.filter (!processed.contains ·)).filter (s.box.classify · = tier) =
          name :: (rest.filter (!processed.contains ·)).filter (s.box.classify · = tier) :=
      fun tier htier => List.filter_cons_of_pos (by simpa using htier)
    have hout : ∀ tier, s.box.classify name ≠ tier →
        (name :: rest.filter (!processed.contains ·)).filter (s.box.classify · = tier) =
          (rest.filter (!processed.contains ·)).filter (s.box.classify · = tier) :=
      fun tier htier => List.filter_cons_of_neg (by simpa using htier)
    cases htier : s.box.classify name with
    | priority =>
      simp only [htier] at h
      obtain ⟨p, u, hmade, h⟩ := bind_eq_ok h
      obtain ⟨⟨pr, o, pl⟩, v, hrest, h⟩ := bind_eq_ok h
      simp only [pure_apply, EStateM.Result.ok.injEq, Prod.mk.injEq] at h
      obtain ⟨⟨rfl, rfl, rfl⟩, rfl⟩ := h
      have hu : Untouched s u :=
        (untouched_materialize name .factoryProcessor).of_ok (factoryProcessor_runs hmade)
      -- the rest is classified after the creation, which changed no definition
      obtain ⟨hpr, ho, hpl, hranked, hv⟩ :=
        ih (fun n hn => hu.names_eq ▸ hrestNames n hn) hrest
      have hsame : ∀ tier, (rest.filter (!processed.contains ·)).filter (u.box.classify · = tier) =
          (rest.filter (!processed.contains ·)).filter (s.box.classify · = tier) :=
        filter_classify_of_untouched hu fun n hn => hrestNames n (List.mem_filter.1 hn).1
      refine ⟨?_, ?_, ?_, fun r hr => ?_, hu.trans hv⟩
      · rw [hin _ htier, List.map_cons, hpr, hsame]
      · rw [hout _ (by simp [htier]), ho, hsame]
      · rw [hout _ (by simp [htier]), hpl, hsame]
      · rcases List.mem_cons.1 hr with rfl | hr
        · exact ⟨rfl, rfl⟩
        · exact hranked r hr
    | ordered =>
      simp only [htier] at h
      obtain ⟨⟨pr, o, pl⟩, v, hrest, h⟩ := bind_eq_ok h
      simp only [pure_apply, EStateM.Result.ok.injEq, Prod.mk.injEq] at h
      obtain ⟨⟨rfl, rfl, rfl⟩, rfl⟩ := h
      obtain ⟨hpr, ho, hpl, hranked, hv⟩ := ih hrestNames hrest
      exact ⟨by rw [hout _ (by simp [htier]), hpr], by rw [hin _ htier, ho],
        by rw [hout _ (by simp [htier]), hpl], hranked, hv⟩
    | plain =>
      simp only [htier] at h
      obtain ⟨⟨pr, o, pl⟩, v, hrest, h⟩ := bind_eq_ok h
      simp only [pure_apply, EStateM.Result.ok.injEq, Prod.mk.injEq] at h
      obtain ⟨⟨rfl, rfl, rfl⟩, rfl⟩ := h
      obtain ⟨hpr, ho, hpl, hranked, hv⟩ := ih hrestNames hrest
      exact ⟨by rw [hout _ (by simp [htier]), hpr], by rw [hout _ (by simp [htier]), ho],
        by rw [hin _ htier, hpl], hranked, hv⟩

theorem registryPass_ranked {processed : List String} {done : List PostProcessor}
    {names : List String} {s t : Machine} {processed' : List String} {done' : List PostProcessor}
    (hnames : ∀ n ∈ names, n ∈ s.box.names)
    (h : registryPass processed done names s = .ok (processed', done') t) :
    ∃ batch : List (Ranked PostProcessor), batch.map (·.name) = names ∧ RankedIn s.box batch ∧
      PassRuns s batch t ∧ processed' = processed ++ names := by
  obtain ⟨⟨batch, marked⟩, u, hbatch, h⟩ := bind_eq_ok h
  obtain ⟨ran, v, hrun, h⟩ := bind_eq_ok h
  simp only [pure_apply, EStateM.Result.ok.injEq, Prod.mk.injEq] at h
  obtain ⟨⟨rfl, rfl⟩, rfl⟩ := h
  obtain ⟨hmarked, hbatchNames, hcreate⟩ := registryBatch_calls hbatch
  obtain ⟨-, hregistry⟩ := runRegistryBatch_calls hrun
  exact ⟨batch, hbatchNames, (registryBatch_ranked hnames hbatch).1,
    passRuns_of_calls (hcreate.append hregistry), hmarked⟩

theorem mem_names_of_mem_unprocessed {cap : Capability} {u : Machine} {processed : List String}
    {n : String} (h : n ∈ unprocessed cap u processed) : n ∈ u.box.names :=
  Container.mem_names_of_mem_namesFor (List.mem_filter.1 h).1

theorem remainderPasses_passes {fuel : Nat} {processed : List String} {done : List PostProcessor}
    {s t : Machine} {processed' : List String} {done' : List PostProcessor}
    (h : remainderPasses fuel processed done s = .ok (processed', done') t) :
    ∃ batches : List (List (Ranked PostProcessor)), Passes processed s batches t ∧
      processed' = processed ++ batches.flatMap (·.map (·.name)) := by
  by_cases hsettled : unprocessed .registryProcessor s processed = []
  · rw [remainderPasses_of_settled (List.isEmpty_iff.2 hsettled)] at h
    simp only [EStateM.Result.ok.injEq, Prod.mk.injEq] at h
    obtain ⟨⟨rfl, rfl⟩, rfl⟩ := h
    exact ⟨[], .settled hsettled, by simp⟩
  have hnotEmpty : (unprocessed .registryProcessor s processed).isEmpty = false := by
    simpa using hsettled
  rw [remainderPasses] at h
  simp only [bind_apply, unprocessedRegistryNames_apply] at h
  rw [show ((s.box.namesFor .registryProcessor true false).filter (!processed.contains ·)).isEmpty =
    false from hnotEmpty] at h
  cases fuel with
  | zero => cases h
  | succ fuel =>
    -- one pass over every unprocessed name, then the passes after it
    simp only [Bool.false_eq_true, if_false, bind_apply] at h
    split at h
    · rename_i r u hpass
      obtain ⟨batch, hnames, hranked, hruns, hmarked⟩ :=
        registryPass_ranked (fun n hn => mem_names_of_mem_unprocessed hn) hpass
      obtain ⟨batches, hpasses, hprocessed⟩ := remainderPasses_passes h
      have hnonempty : batch ≠ [] := by
        rintro rfl
        exact hsettled (by simpa using hnames.symm)
      refine ⟨batch :: batches, .pass hnames hnonempty hranked hruns ?_, ?_⟩
      · rwa [hnames, ← hmarked]
      · simp [hprocessed, hmarked, hnames]
    · cases h

theorem capabilityPass_pass {processed : List String} {done : List PostProcessor}
    {cap : Capability} {s t : Machine} {processed' : List String} {done' : List PostProcessor}
    (h : capabilityPass processed done cap s = .ok (processed', done') t) :
    ∃ batch : List (Ranked PostProcessor), CapabilityPass s processed cap batch t ∧
      processed' = processed ++ batch.map (·.name) := by
  simp only [capabilityPass, bind_apply, unprocessedRegistryNames_apply, get_apply] at h
  obtain ⟨batch, hnames, hranked, hruns, hmarked⟩ :=
    registryPass_ranked (fun n hn => mem_names_of_mem_unprocessed (List.mem_filter.1 hn).1) h
  exact ⟨batch, ⟨hnames, hranked, hruns⟩, by rw [hmarked, hnames]⟩

theorem registryPhase_tiers {explicit : List PostProcessor} {s t : Machine}
    {processed : List String} {ran deferred : List PostProcessor}
    (h : registryPhase explicit s = .ok (processed, ran, deferred) t) :
    ∃ (u₁ u₂ u₃ : Machine) (bp bo : List (Ranked PostProcessor))
      (rest : List (List (Ranked PostProcessor))),
      Calls s ((explicit.filter (·.isRegistry)).map (.registry none)) u₁ ∧
      CapabilityPass u₁ [] .priorityOrdered bp u₂ ∧
      CapabilityPass u₂ (bp.map (·.name)) .ordered bo u₃ ∧
      Passes (bp.map (·.name) ++ bo.map (·.name)) u₃ rest t ∧
      processed = (bp :: bo :: rest).flatMap (·.map (·.name)) := by
  obtain ⟨⟨ran₀, deferred₀⟩, u₁, hexplicit, h⟩ := bind_eq_ok h
  obtain ⟨⟨processed₁, ran₁⟩, u₂, hpriority, h⟩ := bind_eq_ok h
  obtain ⟨⟨processed₂, ran₂⟩, u₃, hordered, h⟩ := bind_eq_ok h
  replace h := get_bind_eq_ok h
  obtain ⟨⟨processed₃, ran₃⟩, u₅, hrest, h⟩ := bind_eq_ok h
  simp only [pure_apply, EStateM.Result.ok.injEq, Prod.mk.injEq] at h
  obtain ⟨⟨rfl, rfl, rfl⟩, rfl⟩ := h
  obtain ⟨bp, hbp, hprocessed₁⟩ := capabilityPass_pass hpriority
  obtain ⟨bo, hbo, hprocessed₂⟩ := capabilityPass_pass hordered
  obtain ⟨rest, hpasses, hprocessed₃⟩ := remainderPasses_passes hrest
  subst hprocessed₁ hprocessed₂
  refine ⟨u₁, u₂, u₃, bp, bo, rest, (explicitPhase_calls hexplicit).2.2, hbp, by simpa using hbo,
    by simpa using hpasses, by simp [hprocessed₃]⟩

theorem factoryTiers_tiers {processed : List String} {s t : Machine}
    (h : factoryTiers processed s = .ok () t) :
    ∃ priority ordered plain : List (Ranked PostProcessor),
      FactoryTiers s processed priority ordered plain t := by
  replace h := get_bind_eq_ok h
  obtain ⟨⟨priority, orderedNames, plainNames⟩, u₁, hclassify, h⟩ := bind_eq_ok h
  obtain ⟨⟨⟩, u₂, hpriorityRun, h⟩ := bind_eq_ok h
  obtain ⟨ordered, u₃, horderedMade, h⟩ := bind_eq_ok h
  obtain ⟨⟨⟩, u₄, horderedRun, h⟩ := bind_eq_ok h
  obtain ⟨plain, u₅, hplainMade, hplainRun⟩ := bind_eq_ok h
  obtain ⟨hpriorityNames, horderedNames, hplainNames, hpriorityRanked, -⟩ :=
    classifyFactory_tiers (fun n hn => Container.mem_names_of_mem_namesFor hn) hclassify
  obtain ⟨horderedMap, horderedCalls⟩ := factoryBatch_calls horderedMade
  obtain ⟨hplainMap, hplainCalls⟩ := factoryBatch_calls hplainMade
  have horderedRanked := (factoryBatch_ranked horderedMade).1
  have hplainRanked := (factoryBatch_ranked hplainMade).1
  -- an entry of a later tier has the tier its name was classified in
  have htierOf : ∀ {batch : List (Ranked PostProcessor)} {names : List String} {tier : Tier},
      batch.map (·.name) = names →
      names = ((s.box.namesFor .factoryProcessor true false).filter (!processed.contains ·)).filter
        (s.box.classify · = tier) →
      (∀ r ∈ batch, r.tier = tier ∧ r.order = r.processor.order) → RankedIn s.box batch := by
    intro batch names tier hmap hnames hbatch r hr
    have hname : r.name ∈ names := hmap ▸ List.mem_map_of_mem hr
    rw [hnames, List.mem_filter] at hname
    exact ⟨(hbatch r hr).1.trans (of_decide_eq_true hname.2).symm, (hbatch r hr).2⟩
  refine ⟨priority, ordered, plain, hpriorityNames, horderedMap.trans horderedNames,
    hplainMap.trans hplainNames, ?_, Ranked.sort priority, Ranked.sort ordered,
    Ranked.stablySorted_sort_order fun r hr => (hpriorityRanked r hr).1,
    Ranked.stablySorted_sort_order fun r hr => (horderedRanked r hr).1, ?_⟩
  · intro r hr
    simp only [List.mem_append] at hr
    rcases hr with (hr | hr) | hr
    · exact htierOf hpriorityNames rfl hpriorityRanked r hr
    · exact htierOf horderedMap horderedNames horderedRanked r hr
    · exact htierOf hplainMap hplainNames hplainRanked r hr
  · exact ((((((classifyFactory_calls hclassify).1.append (runFactoryPhase_calls hpriorityRun)).append
      horderedCalls).append (runFactoryPhase_calls horderedRun)).append hplainCalls).append
      (runFactoryPhase_calls hplainRun))

/-- The tier discipline of the runner. With a registry view, the explicit registry processors
run their registry phase first, in input order; then the priority pass over the unprocessed
registry processors that advertise priority order, the ordered pass over those left that
advertise order, and the remainder passes over every one left, until none is; each pass creates
its batch in registration order, every entry ranked by its class's tier when the pass starts and
its processor's order, and runs the registry phases in the stable sort of the batch by "priority
first, then the lower order". On a sealed container no registry phase runs. After the metadata
phase, the factory-only tiers take the unprocessed factory processors by the tier of their class
when the tiers start: the priority tier and then the ordered tier, each in the stable sort by
order, and then the plain tier in registration order. -/
theorem invokeProcessors_follows_tiers {explicit : List PostProcessor} {s t : Machine}
    (h : invokeProcessors explicit s = .ok () t) :
    ∃ (mid tiers last : Machine) (processed : List String) (metadata : List PostProcessor)
      (priority ordered plain : List (Ranked PostProcessor)),
      (if s.box.sealed then mid = s ∧ processed = []
        else ∃ (u₁ u₂ u₃ : Machine) (bp bo : List (Ranked PostProcessor))
          (rest : List (List (Ranked PostProcessor))),
          Calls s ((explicit.filter (·.isRegistry)).map (.registry none)) u₁ ∧
          CapabilityPass u₁ [] .priorityOrdered bp u₂ ∧
          CapabilityPass u₂ (bp.map (·.name)) .ordered bo u₃ ∧
          Passes (bp.map (·.name) ++ bo.map (·.name)) u₃ rest mid ∧
          processed = (bp :: bo :: rest).flatMap (·.map (·.name))) ∧
      Calls mid (factoryCalls metadata) tiers ∧
      FactoryTiers tiers processed priority ordered plain last ∧
      t = { last with box := last.box.clearCache } := by
  obtain ⟨_, u, hget, h⟩ := bind_eq_ok h
  simp only [get_apply, EStateM.Result.ok.injEq] at hget
  obtain ⟨rfl, rfl⟩ := hget
  -- the tiers and the cache clearing end every run
  have htail : ∀ {processed : List String} {tiers : Machine},
      (factoryTiers processed >>= fun _ => onBox Container.clearCache) tiers = .ok () t →
      ∃ priority ordered plain last, FactoryTiers tiers processed priority ordered plain last ∧
        t = { last with box := last.box.clearCache } := by
    intro processed tiers h
    obtain ⟨⟨⟩, last, htiers, hclear⟩ := bind_eq_ok h
    simp only [onBox_apply, EStateM.Result.ok.injEq] at hclear
    obtain ⟨priority, ordered, plain, hfactory⟩ := factoryTiers_tiers htiers
    exact ⟨priority, ordered, plain, last, hfactory, hclear.2.symm⟩
  dsimp only at h
  cases hsealed : s.box.sealed with
  | false =>
    simp only [hsealed, Bool.not_false, if_true] at h
    obtain ⟨⟨processed, ran, deferred⟩, u₁, hphase, h⟩ := bind_eq_ok h
    obtain ⟨⟨⟩, u₂, hran, h⟩ := bind_eq_ok h
    obtain ⟨⟨⟩, tiers, hdeferred, h⟩ := bind_eq_ok h
    obtain ⟨priority, ordered, plain, last, hfactory, ht⟩ := htail h
    have hmetadata : Calls u₁ (factoryCalls (ran ++ deferred)) tiers := by
      rw [factoryCalls, List.map_append]
      exact (runFactoryPhase_calls hran).append (runFactoryPhase_calls hdeferred)
    exact ⟨u₁, tiers, last, processed, ran ++ deferred, priority, ordered, plain,
      by simpa using registryPhase_tiers hphase, hmetadata, hfactory, ht⟩
  | true =>
    simp only [hsealed, Bool.not_true, Bool.false_eq_true, if_false] at h
    obtain ⟨⟨⟩, tiers, hrun, h⟩ := bind_eq_ok h
    obtain ⟨priority, ordered, plain, last, hfactory, ht⟩ := htail h
    exact ⟨s, tiers, last, [], explicit, priority, ordered, plain, by simp,
      runFactoryPhase_calls hrun, hfactory, ht⟩

theorem explicit_mix_follows_tiers :
    ∃ t, invokeProcessors [.registry 0 ⟨"R1", none, [], []⟩, .factory 1 ⟨"F", none, [], []⟩,
        .registry 2 ⟨"R2", none, [], []⟩] { box := Container.create ⟨0⟩ true } = .ok () t ∧
    ∃ (mid tiers last : Machine) (processed : List String) (metadata : List PostProcessor)
      (priority ordered plain : List (Ranked PostProcessor)),
      (if (Container.create ⟨0⟩ true).sealed then mid = { box := Container.create ⟨0⟩ true } ∧
          processed = []
        else ∃ (u₁ u₂ u₃ : Machine) (bp bo : List (Ranked PostProcessor))
          (rest : List (List (Ranked PostProcessor))),
          Calls { box := Container.create ⟨0⟩ true }
            (([PostProcessor.registry 0 ⟨"R1", none, [], []⟩, .factory 1 ⟨"F", none, [], []⟩,
              .registry 2 ⟨"R2", none, [], []⟩].filter (·.isRegistry)).map (.registry none)) u₁ ∧
          CapabilityPass u₁ [] .priorityOrdered bp u₂ ∧
          CapabilityPass u₂ (bp.map (·.name)) .ordered bo u₃ ∧
          Passes (bp.map (·.name) ++ bo.map (·.name)) u₃ rest mid ∧
          processed = (bp :: bo :: rest).flatMap (·.map (·.name))) ∧
      Calls mid (factoryCalls metadata) tiers ∧
      FactoryTiers tiers processed priority ordered plain last ∧
      t = { last with box := last.box.clearCache } := by
  obtain ⟨t, hrun⟩ : ∃ t, invokeProcessors [.registry 0 ⟨"R1", none, [], []⟩,
      .factory 1 ⟨"F", none, [], []⟩, .registry 2 ⟨"R2", none, [], []⟩]
      { box := Container.create ⟨0⟩ true } = .ok () t := by
    simp [invokeProcessors, registryPhase, explicitPhase, capabilityPass,
      remainderPasses_of_settled, unprocessedRegistryNames, registryPass, registryBatch,
      runRegistryBatch, postRegistry, registryActions, runFactoryPhase, postFactory,
      factoryActions, factoryTiers, classifyFactory, factoryBatch, note, bind_apply,
      Container.namesFor, Ranked.sort, Container.create, Roster.empty, PostProcessor.isRegistry]
  exact ⟨t, hrun, invokeProcessors_follows_tiers hrun⟩

end Machine

end Wiring
