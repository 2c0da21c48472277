import Wiring.Processor.Run
import Wiring.Proofs.Frame
import Mathlib.Data.List.Perm.Subperm

namespace Wiring

/-! The calls of the processor runner. A run of `invokeProcessors` is described by the calls it
makes into the rest of the engine, in order: processors created from their definitions, and the
registry and factory phases of processors. Each call is a run of the engine's own operation, so
a list of calls that leads from the first machine to the last one is the run itself, cut at the
points where the runner hands control to a processor. -/

/-- A call the runner makes: creating a processor from the definition of a name, or running
one phase of a processor. A registry phase carries the name its processor was discovered
under, or `none` for an explicit processor. -/
inductive Call where
  | create (name : String) (cap : Capability) (made : Instance)
  | registry (name : Option String) (p : PostProcessor)
  | factory (p : PostProcessor)

namespace Call

def Runs : Call → Machine → Machine → Prop
  | create name cap made, s, t => Machine.materialize name cap s = .ok made t
  | registry _ p, s, t => Machine.postRegistry p s = .ok () t
  | factory p, s, t => Machine.postFactory p s = .ok () t

def created? : Call → Option String
  | create name _ _ => some name
  | _ => none

def discovered? : Call → Option String
  | registry name _ => name
  | _ => none

def registered? : Call → Option PostProcessor
  | registry _ p => some p
  | _ => none

end Call

/-- `Calls s cs t`: the calls `cs`, made in order from `s`, all succeed and end in `t`. -/
inductive Calls : Machine → List Call → Machine → Prop
  | nil (s : Machine) : Calls s [] s
  | cons {s t u : Machine} {c : Call} {cs : List Call} (hcall : c.Runs s t)
      (hrest : Calls t cs u) : Calls s (c :: cs) u

namespace Calls

theorem append {s t u : Machine} {cs ds : List Call} (hfirst : Calls s cs t)
    (hsecond : Calls t ds u) : Calls s (cs ++ ds) u := by
  induction hfirst with
  | nil => exact hsecond
  | cons hcall _ ih => exact .cons hcall (ih hsecond)

theorem nil_iff {s t : Machine} : Calls s [] t ↔ t = s := by
  constructor
  · intro h
    cases h
    rfl
  · rintro rfl
    exact .nil _

end Calls

def createCalls (cap : Capability) (batch : List (Ranked PostProcessor)) : List Call :=
  batch.map fun r => .create r.name cap (.post r.processor)

/-- The factory phases of processors, in order. -/
def factoryCalls (ps : List PostProcessor) : List Call :=
  ps.map .factory

/-- One registry pass: the batch is created in discovery order, then its registry phases run in
the batch's sorted order. -/
def passCalls (batch : List (Ranked PostProcessor)) : List Call :=
  createCalls .registryProcessor batch ++
    (Ranked.sort batch).map fun r => .registry (some r.name) r.processor

/-- The registry phase with a registry view: the explicit registry processors in input order,
then the passes over discovered ones. -/
def registryCalls (explicit : List PostProcessor) (batches : List (List (Ranked PostProcessor))) :
    List Call :=
  (explicit.filter (·.isRegistry)).map (.registry none) ++ batches.flatMap passCalls

/-- The factory-only tiers: the priority batch was created while the names were classified;
each batch runs sorted, except the plain one, which runs in discovery order. -/
def tierCalls (priority ordered plain : List (Ranked PostProcessor)) : List Call :=
  createCalls .factoryProcessor priority ++
    factoryCalls ((Ranked.sort priority).map (·.processor)) ++
    createCalls .factoryProcessor ordered ++
    factoryCalls ((Ranked.sort ordered).map (·.processor)) ++
    createCalls .factoryProcessor plain ++ factoryCalls (plain.map (·.processor))

/-- The processors whose registry phase runs over a list of calls, in order. -/
def registeredBy (cs : List Call) : List PostProcessor :=
  cs.filterMap Call.registered?

@[simp] theorem registeredBy_append (cs ds : List Call) :
    registeredBy (cs ++ ds) = registeredBy cs ++ registeredBy ds :=
  List.filterMap_append

theorem registeredBy_passCalls (batch : List (Ranked PostProcessor)) :
    registeredBy (passCalls batch) = (Ranked.sort batch).map (·.processor) := by
  simp [registeredBy, passCalls, createCalls, List.filterMap_map, Function.comp_def,
    Call.registered?]

theorem created_createCalls (cap : Capability) (batch : List (Ranked PostProcessor)) :
    (createCalls cap batch).filterMap Call.created? = batch.map (·.name) := by
  simp [createCalls, List.filterMap_map, Function.comp_def, Call.created?]

theorem created_factoryCalls (ps : List PostProcessor) :
    (factoryCalls ps).filterMap Call.created? = [] :=
  List.filterMap_eq_nil_iff.2 (by simp [factoryCalls, Call.created?])

theorem filterMap_explicit_registry {β : Type} (ps : List PostProcessor) (f : Call → Option β)
    (hf : ∀ p, f (.registry none p) = none) : (ps.map (.registry none)).filterMap f = [] :=
  List.filterMap_eq_nil_iff.2 (by simp [hf])

theorem created_passCalls (batch : List (Ranked PostProcessor)) :
    (passCalls batch).filterMap Call.created? = batch.map (·.name) := by
  have hregistry : ((Ranked.sort batch).map fun r => Call.registry (some r.name) r.processor
      ).filterMap Call.created? = [] :=
    List.filterMap_eq_nil_iff.2 (by simp [Call.created?])
  rw [passCalls, List.filterMap_append, created_createCalls, hregistry, List.append_nil]

theorem discovered_passCalls (batch : List (Ranked PostProcessor)) :
    ((passCalls batch).filterMap Call.discovered?).Perm (batch.map (·.name)) := by
  have hsorted : ((passCalls batch).filterMap Call.discovered?) =
      (Ranked.sort batch).map (·.name) := by
    simp [passCalls, createCalls, List.filterMap_map, Function.comp_def, Call.discovered?]
  rw [hsorted]
  exact (Ranked.sort_perm batch).map _

theorem created_registryCalls (explicit : List PostProcessor)
    (batches : List (List (Ranked PostProcessor))) :
    (registryCalls explicit batches).filterMap Call.created? =
      batches.flatMap (·.map (·.name)) := by
  rw [registryCalls, List.filterMap_append,
    filterMap_explicit_registry _ _ (fun _ => rfl), List.nil_append, List.filterMap_flatMap]
  simp only [created_passCalls]

theorem discovered_registryCalls (explicit : List PostProcessor)
    (batches : List (List (Ranked PostProcessor))) :
    ((registryCalls explicit batches).filterMap Call.discovered?).Perm
      (batches.flatMap (·.map (·.name))) := by
  rw [registryCalls, List.filterMap_append,
    filterMap_explicit_registry _ _ (fun _ => rfl), List.nil_append, List.filterMap_flatMap]
  exact List.Perm.flatMap_left _ fun batch _ => discovered_passCalls batch

theorem created_tierCalls (priority ordered plain : List (Ranked PostProcessor)) :
    (tierCalls priority ordered plain).filterMap Call.created? =
      (priority ++ ordered ++ plain).map (·.name) := by
  simp [tierCalls, List.filterMap_append, created_createCalls, created_factoryCalls]

namespace Machine

theorem registryBatch_calls {processed names : List String} {s t : Machine}
    {batch : List (Ranked PostProcessor)} {processed' : List String}
    (h : registryBatch processed names s = .ok (batch, processed') t) :
    processed' = processed ++ names ∧ batch.map (·.name) = names ∧
      Calls s (createCalls .registryProcessor batch) t := by
  induction names generalizing processed s batch with
  | nil =>
    simp only [registryBatch, pure_apply, EStateM.Result.ok.injEq, Prod.mk.injEq] at h
    obtain ⟨⟨rfl, rfl⟩, rfl⟩ := h
    exact ⟨by simp, rfl, .nil s⟩
  | cons name rest ih =>
    simp only [registryBatch, bind_apply, get_apply] at h
    split at h
    · rename_i made u hmade
      -- only a processor with a registry phase is accepted
      split at h
      · split at h
        · simp only [bind_apply, pure_apply] at h
          split at h
          · rename_i r v hrest
            simp only [EStateM.Result.ok.injEq, Prod.mk.injEq] at h
            obtain ⟨⟨rfl, rfl⟩, rfl⟩ := h
            obtain ⟨hprocessed, hnames, hcalls⟩ := ih hrest
            exact ⟨by simp [hprocessed], by simp [hnames], .cons hmade hcalls⟩
          · cases h
        · simp [bind_apply] at h
      · simp [bind_apply] at h
    · cases h

theorem runRegistryBatch_calls {done : List PostProcessor} {rs : List (Ranked PostProcessor)}
    {s t : Machine} {done' : List PostProcessor} (h : runRegistryBatch done rs s = .ok done' t) :
    done' = done ++ rs.map (·.processor) ∧
      Calls s (rs.map fun r => .registry (some r.name) r.processor) t := by
  induction rs generalizing done s with
  | nil =>
    simp only [runRegistryBatch, pure_apply, EStateM.Result.ok.injEq] at h
    obtain ⟨rfl, rfl⟩ := h
    exact ⟨by simp, .nil s⟩
  | cons r rest ih =>
    obtain ⟨_, u, hrun, h⟩ := bind_eq_ok h
    obtain ⟨hdone, hcalls⟩ := ih h
    exact ⟨by simp [hdone], .cons hrun hcalls⟩

theorem registryPass_calls {processed : List String} {done : List PostProcessor}
    {names : List String} {s t : Machine} {processed' : List String} {done' : List PostProcessor}
    (h : registryPass processed done names s = .ok (processed', done') t) :
    ∃ batch : List (Ranked PostProcessor), batch.map (·.name) = names ∧
      processed' = processed ++ names ∧ done' = done ++ registeredBy (passCalls batch) ∧
      Calls s (passCalls batch) t := by
  obtain ⟨⟨batch, marked⟩, u, hbatch, h⟩ := bind_eq_ok h
  obtain ⟨ran, v, hrun, h⟩ := bind_eq_ok h
  simp only [pure_apply, EStateM.Result.ok.injEq, Prod.mk.injEq] at h
  obtain ⟨⟨rfl, rfl⟩, rfl⟩ := h
  obtain ⟨hmarked, hnames, hcreate⟩ := registryBatch_calls hbatch
  obtain ⟨hran, hregistry⟩ := runRegistryBatch_calls hrun
  exact ⟨batch, hnames, hmarked, by rw [hran, registeredBy_passCalls],
    hcreate.append hregistry⟩

theorem unprocessedRegistryNames_apply (processed : List String) (s : Machine) :
    unprocessedRegistryNames processed s =
      .ok ((s.box.namesFor .registryProcessor true false).filter (!processed.contains ·)) s :=
  rfl

theorem nodup_append_unprocessed {processed names all : List String}
    (hprocessed : processed.Nodup) (hall : all.Nodup)
    (hnames : names.Subperm (all.filter (!processed.contains ·))) :
    (processed ++ names).Nodup := by
  have hfresh : names.Nodup := by
    obtain ⟨l, hperm, hsub⟩ := hnames
    exact hperm.nodup_iff.1 ((hall.filter _).sublist hsub)
  rw [List.nodup_append]
  refine ⟨hprocessed, hfresh, ?_⟩
  intro a ha b hb hab
  subst hab
  have hmem := (List.mem_filter.1 (hnames.subset hb)).2
  simp [ha] at hmem

theorem mem_processed_of_settled {processed : List String} {c : Container}
    (hsettled : ((c.namesFor .registryProcessor true false).filter
      (!processed.contains ·)).isEmpty = true) :
    ∀ n ∈ c.namesFor .registryProcessor true false, n ∈ processed := by
  intro n hn
  simpa using List.filter_eq_nil_iff.1 (List.isEmpty_iff.1 hsettled) n hn

theorem remainderPasses_of_settled {fuel : Nat} {processed : List String}
    {done : List PostProcessor} {s : Machine}
    (hsettled : ((s.box.namesFor .registryProcessor true false).filter
      (!processed.contains ·)).isEmpty = true) :
    remainderPasses fuel processed done s = .ok (processed, done) s := by
  cases fuel <;>
    (rw [remainderPasses]; simp only [bind_apply, unprocessedRegistryNames_apply, hsettled,
      if_true, pure_apply])

theorem remainderPasses_calls {fuel : Nat} {processed : List String} {done : List PostProcessor}
    {s t : Machine} {processed' : List String} {done' : List PostProcessor}
    (hnodup : processed.Nodup)
    (h : remainderPasses fuel processed done s = .ok (processed', done') t) :
    ∃ batches : List (List (Ranked PostProcessor)),
      processed' = processed ++ batches.flatMap (·.map (·.name)) ∧ processed'.Nodup ∧
      done' = done ++ registeredBy (batches.flatMap passCalls) ∧
      (∀ n ∈ t.box.namesFor .registryProcessor true false, n ∈ processed') ∧
      Calls s (batches.flatMap passCalls) t := by
  by_cases hsettled : ((s.box.namesFor .registryProcessor true false).filter
      (!processed.contains ·)).isEmpty = true
  · rw [remainderPasses_of_settled hsettled] at h
    simp only [EStateM.Result.ok.injEq, Prod.mk.injEq] at h
    obtain ⟨⟨rfl, rfl⟩, rfl⟩ := h
    exact ⟨[], by simp, hnodup, by simp [registeredBy], mem_processed_of_settled hsettled, .nil _⟩
  rw [remainderPasses] at h
  simp only [bind_apply, unprocessedRegistryNames_apply, if_neg hsettled] at h
  cases fuel with
  | zero => cases h
  | succ fuel =>
    -- one pass over every unprocessed name, then the passes after it
    simp only [bind_apply] at h
    split at h
    · rename_i r u hpass
      obtain ⟨batch, hnames, hmarked, hran, hcalls⟩ := registryPass_calls hpass
      have hnodup' : r.1.Nodup := by
        rw [hmarked]
        exact nodup_append_unprocessed hnodup (Container.namesFor_nodup _ _ _ _)
          (List.Subperm.refl _)
      obtain ⟨batches, hprocessed, hnodup'', hdone, hfix, hrest⟩ := remainderPasses_calls hnodup' h
      refine ⟨batch :: batches, ?_, hnodup'', ?_, hfix, ?_⟩
      · simp [hprocessed, hmarked, hnames]
      · simp [hdone, hran]
      · exact hcalls.append hrest
    · cases h

theorem capabilityPass_calls {processed : List String} {done : List PostProcessor}
    {cap : Capability} {s t : Machine} {processed' : List String} {done' : List PostProcessor}
    (hnodup : processed.Nodup)
    (h : capabilityPass processed done cap s = .ok (processed', done') t) :
    ∃ batch : List (Ranked PostProcessor),
      processed' = processed ++ batch.map (·.name) ∧ processed'.Nodup ∧
      done' = done ++ registeredBy (passCalls batch) ∧ Calls s (passCalls batch) t := by
  simp only [capabilityPass, bind_apply, unprocessedRegistryNames_apply, get_apply] at h
  obtain ⟨batch, hnames, hmarked, hran, hcalls⟩ := registryPass_calls h
  have hsub := List.filter_sublist (p := (s.box.isTypeMatch · cap))
    (l := (s.box.namesFor .registryProcessor true false).filter (!processed.contains ·))
  refine ⟨batch, by rw [hmarked, hnames], ?_, hran, hcalls⟩
  rw [hmarked, ← hnames]
  exact nodup_append_unprocessed hnodup (Container.namesFor_nodup _ _ _ _)
    (hnames ▸ hsub).subperm

theorem explicitPhase_calls {ps : List PostProcessor} {s t : Machine}
    {ran deferred : List PostProcessor} (h : explicitPhase ps s = .ok (ran, deferred) t) :
    ran = ps.filter (·.isRegistry) ∧ deferred = ps.filter (!·.isRegistry) ∧
      Calls s ((ps.filter (·.isRegistry)).map (.registry none)) t := by
  induction ps generalizing s ran deferred with
  | nil =>
    simp only [explicitPhase, pure_apply, EStateM.Result.ok.injEq, Prod.mk.injEq] at h
    obtain ⟨⟨rfl, rfl⟩, rfl⟩ := h
    exact ⟨rfl, rfl, .nil _⟩
  | cons p rest ih =>
    simp only [explicitPhase] at h
    by_cases hreg : p.isRegistry = true
    · simp only [hreg, if_true] at h
      obtain ⟨⟨⟩, u, hrun, h⟩ := bind_eq_ok h
      obtain ⟨⟨ran', deferred'⟩, v, hrest, h⟩ := bind_eq_ok h
      simp only [pure_apply, EStateM.Result.ok.injEq, Prod.mk.injEq] at h
      obtain ⟨⟨rfl, rfl⟩, rfl⟩ := h
      obtain ⟨hran, hdeferred, hcalls⟩ := ih hrest
      have hcall : Call.Runs (.registry none p) s u := hrun
      exact ⟨by simp [hreg, hran], by simp [hreg, hdeferred], by
        simpa [hreg] using Calls.cons hcall hcalls⟩
    · simp only [hreg, Bool.false_eq_true, if_false] at h
      obtain ⟨⟨ran', deferred'⟩, v, hrest, h⟩ := bind_eq_ok h
      simp only [pure_apply, EStateM.Result.ok.injEq, Prod.mk.injEq] at h
      obtain ⟨⟨rfl, rfl⟩, rfl⟩ := h
      obtain ⟨hran, hdeferred, hcalls⟩ := ih hrest
      exact ⟨by simp [hreg, hran], by simp [hreg, hdeferred], by simpa [hreg] using hcalls⟩

/-- The registry phase runs the explicit registry processors and then passes over discovered
ones; it ends with every registry processor processed, each name once, and answers the
processors whose registry phase ran, in the order they ran. -/
theorem registryPhase_calls {explicit : List PostProcessor} {s t : Machine}
    {processed : List String} {ran deferred : List PostProcessor}
    (h : registryPhase explicit s = .ok (processed, ran, deferred) t) :
    ∃ batches : List (List (Ranked PostProcessor)),
      Calls s (registryCalls explicit batches) t ∧
      processed = batches.flatMap (·.map (·.name)) ∧ processed.Nodup ∧
      (∀ n ∈ t.box.namesFor .registryProcessor true false, n ∈ processed) ∧
      ran = registeredBy (registryCalls explicit batches) ∧
      deferred = explicit.filter (!·.isRegistry) := by
  obtain ⟨⟨ran₀, deferred₀⟩, u₀, hexplicit, h⟩ := bind_eq_ok h
  obtain ⟨⟨processed₁, ran₁⟩, u₁, hpriority, h⟩ := bind_eq_ok h
  obtain ⟨⟨processed₂, ran₂⟩, u₂, hordered, h⟩ := bind_eq_ok h
  replace h := get_bind_eq_ok h
  obtain ⟨⟨processed₃, ran₃⟩, u₄, hrest, h⟩ := bind_eq_ok h
  simp only [pure_apply, EStateM.Result.ok.injEq, Prod.mk.injEq] at h
  obtain ⟨⟨rfl, rfl, rfl⟩, rfl⟩ := h
  obtain ⟨hran₀, hdeferred, hexplicitCalls⟩ := explicitPhase_calls hexplicit
  obtain ⟨bp, hprocessed₁, hnodup₁, hran₁, hcalls₁⟩ := capabilityPass_calls List.nodup_nil hpriority
  obtain ⟨bo, hprocessed₂, hnodup₂, hran₂, hcalls₂⟩ := capabilityPass_calls hnodup₁ hordered
  obtain ⟨bs, hprocessed₃, hnodup₃, hran₃, hfix, hcalls₃⟩ := remainderPasses_calls hnodup₂ hrest
  refine ⟨bp :: bo :: bs, ?_, ?_, hnodup₃, hfix, ?_, hdeferred⟩
  · have hcalls := hexplicitCalls.append (hcalls₁.append (hcalls₂.append hcalls₃))
    simpa [registryCalls] using hcalls
  · simp [hprocessed₃, hprocessed₂, hprocessed₁]
  · have hexplicitRan : registeredBy ((explicit.filter (·.isRegistry)).map (.registry none)) =
        explicit.filter (·.isRegistry) := by
      simp [registeredBy, List.filterMap_map, Function.comp_def, Call.registered?]
    simp [registryCalls, hran₃, hran₂, hran₁, hran₀, hexplicitRan]

theorem runFactoryPhase_calls {ps : List PostProcessor} {s t : Machine}
    (h : runFactoryPhase ps s = .ok () t) : Calls s (factoryCalls ps) t := by
  induction ps generalizing s with
  | nil =>
    simp only [runFactoryPhase, pure_apply, EStateM.Result.ok.injEq] at h
    obtain ⟨-, rfl⟩ := h
    exact .nil _
  | cons p rest ih =>
    obtain ⟨⟨⟩, u, hrun, h⟩ := bind_eq_ok h
    exact .cons hrun (ih h)

theorem factoryProcessor_runs {name : String} {s t : Machine} {p : PostProcessor}
    (h : factoryProcessor name s = .ok p t) :
    Call.Runs (.create name .factoryProcessor (.post p)) s t := by
  simp only [factoryProcessor, bind_apply] at h
  split at h
  · rename_i made u hmade
    split at h
    · simp only [pure_apply, EStateM.Result.ok.injEq] at h
      obtain ⟨rfl, rfl⟩ := h
      exact hmade
    · cases h
  · cases h

theorem factoryBatch_calls {tier : Tier} {names : List String} {s t : Machine}
    {batch : List (Ranked PostProcessor)} (h : factoryBatch tier names s = .ok batch t) :
    batch.map (·.name) = names ∧ Calls s (createCalls .factoryProcessor batch) t := by
  induction names generalizing s batch with
  | nil =>
    simp only [factoryBatch, pure_apply, EStateM.Result.ok.injEq] at h
    obtain ⟨rfl, rfl⟩ := h
    exact ⟨rfl, .nil _⟩
  | cons name rest ih =>
    obtain ⟨p, u, hmade, h⟩ := bind_eq_ok h
    obtain ⟨batch', v, hrest, h⟩ := bind_eq_ok h
    simp only [pure_apply, EStateM.Result.ok.injEq] at h
    obtain ⟨rfl, rfl⟩ := h
    obtain ⟨hnames, hcalls⟩ := ih hrest
    exact ⟨by simp [hnames], .cons (factoryProcessor_runs hmade) hcalls⟩

theorem classifyFactory_calls {processed names : List String} {s t : Machine}
    {priority : List (Ranked PostProcessor)} {ordered plain : List String}
    (h : classifyFactory processed names s = .ok (priority, ordered, plain) t) :
    Calls s (createCalls .factoryProcessor priority) t ∧
      (priority.map (·.name) ++ ordered ++ plain).Perm (names.filter (!processed.contains ·)) := by
  induction names generalizing s priority ordered plain with
  | nil =>
    simp only [classifyFactory, pure_apply, EStateM.Result.ok.injEq, Prod.mk.injEq] at h
    obtain ⟨⟨rfl, rfl, rfl⟩, rfl⟩ := h
    exact ⟨.nil _, by simp⟩
  | cons name rest ih =>
    simp only [classifyFactory] at h
    by_cases hdone : processed.contains name = true
    · have hskip : (name :: rest).filter (!processed.contains ·) =
          rest.filter (!processed.contains ·) :=
        List.filter_cons_of_neg (by simpa using hdone)
      simp only [hdone, if_true] at h
      rw [hskip]
      exact ih h
    · have hkeep : (name :: rest).filter (!processed.contains ·) =
          name :: rest.filter (!processed.contains ·) :=
        List.filter_cons_of_pos (by simpa using hdone)
      simp only [hdone, Bool.false_eq_true, if_false, bind_apply, get_apply] at h
      rw [hkeep]
      -- the tier of the name decides where it goes
      cases htier : s.box.classify name with
      | priority =>
        simp only [htier] at h
        obtain ⟨p, u, hmade, h⟩ := bind_eq_ok h
        obtain ⟨⟨pr, o, pl⟩, v, hrest, h⟩ := bind_eq_ok h
        simp only [pure_apply, EStateM.Result.ok.injEq, Prod.mk.injEq] at h
        obtain ⟨⟨rfl, rfl, rfl⟩, rfl⟩ := h
        obtain ⟨hcalls, hperm⟩ := ih hrest
        exact ⟨.cons (factoryProcessor_runs hmade) hcalls, by simpa using hperm⟩
      | ordered =>
        simp only [htier] at h
        obtain ⟨⟨pr, o, pl⟩, v, hrest, h⟩ := bind_eq_ok h
        simp only [pure_apply, EStateM.Result.ok.injEq, Prod.mk.injEq] at h
        obtain ⟨⟨rfl, rfl, rfl⟩, rfl⟩ := h
        obtain ⟨hcalls, hperm⟩ := ih hrest
        have hmiddle : pr.map (·.name) ++ name :: o ++ pl = pr.map (·.name) ++ name :: (o ++ pl) :=
          by simp
        rw [hmiddle]
        exact ⟨hcalls, List.perm_middle.trans (by simpa using hperm.cons name)⟩
      | plain =>
        simp only [htier] at h
        obtain ⟨⟨pr, o, pl⟩, v, hrest, h⟩ := bind_eq_ok h
        simp only [pure_apply, EStateM.Result.ok.injEq, Prod.mk.injEq] at h
        obtain ⟨⟨rfl, rfl, rfl⟩, rfl⟩ := h
        obtain ⟨hcalls, hperm⟩ := ih hrest
        exact ⟨hcalls, List.perm_middle.trans (hperm.cons name)⟩

theorem factoryTiers_calls {processed : List String} {s t : Machine}
    (h : factoryTiers processed s = .ok () t) :
    ∃ priority ordered plain : List (Ranked PostProcessor),
      Calls s (tierCalls priority ordered plain) t ∧
      ((priority ++ ordered ++ plain).map (·.name)).Perm
        ((s.box.namesFor .factoryProcessor true false).filter (!processed.contains ·)) := by
  replace h := get_bind_eq_ok h
  obtain ⟨⟨priority, orderedNames, plainNames⟩, u₁, hclassify, h⟩ := bind_eq_ok h
  obtain ⟨⟨⟩, u₂, hpriorityRun, h⟩ := bind_eq_ok h
  obtain ⟨ordered, u₃, horderedMade, h⟩ := bind_eq_ok h
  obtain ⟨⟨⟩, u₄, horderedRun, h⟩ := bind_eq_ok h
  obtain ⟨plain, u₅, hplainMade, hplainRun⟩ := bind_eq_ok h
  obtain ⟨hpriorityMade, hperm⟩ := classifyFactory_calls hclassify
  obtain ⟨horderedNames, horderedCalls⟩ := factoryBatch_calls horderedMade
  obtain ⟨hplainNames, hplainCalls⟩ := factoryBatch_calls hplainMade
  refine ⟨priority, ordered, plain, ?_, ?_⟩
  · exact ((((hpriorityMade.append (runFactoryPhase_calls hpriorityRun)).append
      horderedCalls).append (runFactoryPhase_calls horderedRun)).append hplainCalls).append
      (runFactoryPhase_calls hplainRun)
  · simpa [horderedNames, hplainNames] using hperm

/-- Every factory-level processor runs once. With a registry view, each registry processor
that is discovered is created once and its registry phase runs once, until none is left
unprocessed; the factory phase then runs on exactly the processors whose registry phase ran, in
that order, and then on the explicit factory-only processors. A sealed container runs the
factory phase of every explicit processor, in input order. Then the factory-only tiers create
and run every discovered factory processor that was not processed, once, and the cache is
cleared. No name is created twice by the runner. -/
theorem invokeProcessors_runs_each_once {explicit : List PostProcessor} {s t : Machine}
    (h : invokeProcessors explicit s = .ok () t) :
    ∃ (head : List Call) (processed : List String) (metadata : List PostProcessor)
      (priority ordered plain : List (Ranked PostProcessor)) (mid tiers last : Machine),
      Calls s head mid ∧ Calls mid (factoryCalls metadata) tiers ∧
      Calls tiers (tierCalls priority ordered plain) last ∧
      t = { last with box := last.box.clearCache } ∧
      ((head ++ tierCalls priority ordered plain).filterMap Call.created?).Nodup ∧
      ((priority ++ ordered ++ plain).map (·.name)).Perm
        ((tiers.box.namesFor .factoryProcessor true false).filter (!processed.contains ·)) ∧
      if s.box.sealed then head = [] ∧ processed = [] ∧ metadata = explicit
      else ∃ batches, head = registryCalls explicit batches ∧
        head.filterMap Call.created? = processed ∧
        (head.filterMap Call.discovered?).Perm processed ∧
        (∀ n ∈ mid.box.namesFor .registryProcessor true false, n ∈ processed) ∧
        metadata = registeredBy head ++ explicit.filter (!·.isRegistry) := by
  obtain ⟨_, u, hget, h⟩ := bind_eq_ok h
  simp only [get_apply, EStateM.Result.ok.injEq] at hget
  obtain ⟨rfl, rfl⟩ := hget
  -- the two views end in the same tiers, after the processed names are known
  have htail : ∀ {processed : List String} {mid : Machine},
      (factoryTiers processed >>= fun _ => onBox Container.clearCache) mid = .ok () t →
      ∃ priority ordered plain last, Calls mid (tierCalls priority ordered plain) last ∧
        t = { last with box := last.box.clearCache } ∧
        ((priority ++ ordered ++ plain).map (·.name)).Perm
          ((mid.box.namesFor .factoryProcessor true false).filter (!processed.contains ·)) := by
    intro processed mid h
    obtain ⟨⟨⟩, last, htiers, hclear⟩ := bind_eq_ok h
    simp only [onBox_apply, EStateM.Result.ok.injEq] at hclear
    obtain ⟨priority, ordered, plain, htierCalls, hperm⟩ := factoryTiers_calls htiers
    exact ⟨priority, ordered, plain, last, htierCalls, hclear.2.symm, hperm⟩
  -- the runner creates the processed names, then the tier names, which are not processed
  have hcreated : ∀ {head : List Call} {processed : List String} {mid : Machine}
      {priority ordered plain : List (Ranked PostProcessor)},
      head.filterMap Call.created? = processed → processed.Nodup →
      ((priority ++ ordered ++ plain).map (·.name)).Perm
        ((mid.box.namesFor .factoryProcessor true false).filter (!processed.contains ·)) →
      ((head ++ tierCalls priority ordered plain).filterMap Call.created?).Nodup := by
    intro head processed mid priority ordered plain hhead hnodup hperm
    rw [List.filterMap_append, hhead, created_tierCalls]
    exact nodup_append_unprocessed hnodup (Container.namesFor_nodup _ _ _ _) hperm.subperm
  dsimp only at h
  cases hsealed : s.box.sealed with
  | false =>
    simp only [hsealed, Bool.not_false, if_true] at h
    obtain ⟨⟨processed, ran, deferred⟩, u₁, hphase, h⟩ := bind_eq_ok h
    obtain ⟨⟨⟩, u₂, hran, h⟩ := bind_eq_ok h
    obtain ⟨⟨⟩, mid, hdeferred, h⟩ := bind_eq_ok h
    obtain ⟨priority, ordered, plain, last, htierCalls, ht, hperm⟩ := htail h
    obtain ⟨batches, hcalls, hprocessed, hnodup, hfix, hranEq, hdeferredEq⟩ :=
      registryPhase_calls hphase
    have hcreatedHead : (registryCalls explicit batches).filterMap Call.created? = processed := by
      rw [hprocessed, created_registryCalls]
    have hmetadata : Calls u₁ (factoryCalls (ran ++ deferred)) mid := by
      rw [factoryCalls, List.map_append]
      exact (runFactoryPhase_calls hran).append (runFactoryPhase_calls hdeferred)
    refine ⟨registryCalls explicit batches, processed, ran ++ deferred, priority, ordered, plain,
      u₁, mid, last, hcalls, hmetadata, htierCalls, ht, hcreated hcreatedHead hnodup hperm, hperm,
      ?_⟩
    refine ⟨batches, rfl, hcreatedHead, ?_, hfix, by rw [hranEq, hdeferredEq]⟩
    rw [hprocessed]
    exact discovered_registryCalls explicit batches
  | true =>
    simp only [hsealed, Bool.not_true, Bool.false_eq_true, if_false] at h
    obtain ⟨⟨⟩, mid, hexplicit, h⟩ := bind_eq_ok h
    obtain ⟨priority, ordered, plain, last, htierCalls, ht, hperm⟩ := htail h
    refine ⟨[], [], explicit, priority, ordered, plain, s, mid, last, .nil s,
      runFactoryPhase_calls hexplicit, htierCalls, ht, hcreated rfl List.nodup_nil hperm, hperm,
      ?_⟩
    simp

theorem explicit_processors_run_each_once :
    ∃ t, invokeProcessors [.registry 0 ⟨"R", none, [], []⟩, .factory 1 ⟨"F", none, [], []⟩]
        { box := Container.create ⟨0⟩ true } = .ok () t ∧
    ∃ (head : List Call) (processed : List String) (metadata : List PostProcessor)
      (priority ordered plain : List (Ranked PostProcessor)) (mid tiers last : Machine),
      Calls { box := Container.create ⟨0⟩ true } head mid ∧
      Calls mid (factoryCalls metadata) tiers ∧
      Calls tiers (tierCalls priority ordered plain) last ∧
      t = { last with box := last.box.clearCache } ∧
      ((head ++ tierCalls priority ordered plain).filterMap Call.created?).Nodup ∧
      ((priority ++ ordered ++ plain).map (·.name)).Perm
        ((tiers.box.namesFor .factoryProcessor true false).filter (!processed.contains ·)) ∧
      if (Container.create ⟨0⟩ true).sealed then head = [] ∧ processed = [] ∧
        metadata = [.registry 0 ⟨"R", none, [], []⟩, .factory 1 ⟨"F", none, [], []⟩]
      else ∃ batches, head = registryCalls
          [.registry 0 ⟨"R", none, [], []⟩, .factory 1 ⟨"F", none, [], []⟩] batches ∧
        head.filterMap Call.created? = processed ∧
        (head.filterMap Call.discovered?).Perm processed ∧
        (∀ n ∈ mid.box.namesFor .registryProcessor true false, n ∈ processed) ∧
        metadata = registeredBy head ++
          [PostProcessor.registry 0 ⟨"R", none, [], []⟩, .factory 1 ⟨"F", none, [], []⟩].filter
            (!·.isRegistry) := by
  obtain ⟨t, hrun⟩ : ∃ t, invokeProcessors
      [.registry 0 ⟨"R", none, [], []⟩, .factory 1 ⟨"F", none, [], []⟩]
      { box := Container.create ⟨0⟩ true } = .ok () t := by
    simp [invokeProcessors, registryPhase, explicitPhase, capabilityPass,
      remainderPasses_of_settled, unprocessedRegistryNames, registryPass, registryBatch,
      runRegistryBatch, postRegistry, registryActions, runFactoryPhase, postFactory, factoryActions, factoryTiers,
      classifyFactory, factoryBatch, note, bind_apply, Container.namesFor, Ranked.sort,
      Container.create, Roster.empty, PostProcessor.isRegistry]
  exact ⟨t, hrun, invokeProcessors_runs_each_once hrun⟩

/-- Without a registry view the factory phase still runs on an explicit processor whose registry
phase never ran. -/
theorem sealed_runs_factory_phase_without_registry_phase :
    ∃ t, invokeProcessors [.registry 0 ⟨"R", none, [], []⟩, .factory 1 ⟨"F", none, [], []⟩]
        { box := { Container.create ⟨0⟩ true with sealed := true } } = .ok () t ∧
      t.journal = #["R:factory", "F:factory"] := by
  simp [invokeProcessors, runFactoryPhase, postFactory, factoryActions, factoryTiers,
    classifyFactory, factoryBatch, note, bind_apply, Container.namesFor, Ranked.sort,
    Container.create, Roster.empty]

end Machine

end Wiring
