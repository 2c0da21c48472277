import Wiring.Session.Basic

namespace Wiring

/-! Commands a session runs against one of its containers, and what they answer. A command
that does not fit its container (a context command on a plain factory, an unknown expansion
processor) is refused without effect. -/

/-- Which expansion processor a command means: one of the session's, or the context's own. -/
inductive ProcessorRef where
  | index (i : Nat)
  | context

/-- Whose class a debug listing shows: a class by key, or a definition's class. -/
inductive ClassTarget where
  | key (k : String)
  | definition (name : String)

/-- An operation on a listener registry. -/
inductive ListenerAction where
  | add (name : String)
  | remove (name : String)
  | contains (name : String)
  | unreadable (reason : String)

/-- Where a lifecycle processor to add comes from. -/
inductive LifecycleSource where
  | blueprint (b : Blueprint)
  | classKey (key : String)

/-- Commands on one container. -/
inductive Command where
  | register (spec : DefinitionSpec)
  | registerSingleton (name : String) (value : Blueprint)
  | registerGenerator (name : String) (rule : Option NameGenerator)
  | materialize (name : String) (cap : Capability)
  | component (name : String) (cap : Capability)
  | sealRegistry
  /-- Runs the processors; the explicit specs are taken in order, and one that could not be
  read fails only after those before it were accepted. -/
  | invoke (explicit : List (Except String Blueprint))
  | registerLifecycle
  | instantiate
  | names (cap : Capability) (includeNonSingletons allowEagerInit : Bool)
  | typeMatch (name : String) (cap : Capability)
  | expand (p : ProcessorRef)
  | postRegistry (p : ProcessorRef)
  | postFactory (p : ProcessorRef)
  | enhance (e : Enhancer)
  | addLifecycle (source : LifecycleSource)
  | clearCache
  | refresh
  | addPostProcessor (b : Blueprint)
  | listeners
  | state
  | sameAs (a b : String) (cap : Capability)
  | debug (name : String)
  | debugClass (target : ClassTarget)
  | attribute (name key : String)
  | listenerRegistry (actions : List ListenerAction)
  | registerClass (name classKey : String)
  | options

/-- A view of one container for reports. -/
structure Snapshot where
  definitions : List (String × Definition)
  singletons : List (String × Instance)
  chain : List String
  sealed : Bool
  cacheClears : Nat
  imports : Option ImportTable
  listeners : List String
  refreshed : Option Bool

/-- What a command answers. -/
inductive Outcome where
  | done
  | instance (i : Instance)
  | count (n : Nat)
  | names (ns : List String)
  | flag (b : Bool)
  | report (r : Report)
  | snapshot (s : Snapshot)
  | same (objects : Bool) (processors : Option Bool)
  | text (s : String)
  | maybeText (s : Option String)
  | listenerResults (results : List (Option Bool)) (after : Listeners)
  | options (o : Options)

/-- Why a command gave no outcome: an engine error, or a command unfit for its container. -/
inductive Refusal where
  | boot (e : BootError)
  | misuse (message : String)

namespace Slot

def listenerNames (slot : Slot) : List String :=
  if slot.context.isSome then slot.books.context.names else slot.books.own.names

def snapshot (slot : Slot) : Snapshot :=
  { definitions := slot.box.definitions.entries
    singletons := slot.box.singletons.entries
    chain := slot.box.chain.map (·.typeName)
    sealed := slot.box.sealed
    cacheClears := slot.box.cacheClears
    imports := match slot.box.singletons.get? importRegistryName with
      | some (.object ⟨_, .imports t⟩) => some t
      | _ => none
    listeners := slot.listenerNames
    refreshed := slot.context.map (·.refreshed) }

end Slot

namespace Session

def postProcessorOf (s : Session) (b : Blueprint) : Except Refusal (PostProcessor × Session) :=
  match s.build b with
  | (.registryProcessor stamp script, s) => .ok (.registry stamp script, s)
  | (.factoryProcessor stamp script, s) => .ok (.factory stamp script, s)
  | _ => .error (.misuse "explicit processor must be registry_processor or factory_processor")

def postProcessorsOf (s : Session) :
    List (Except String Blueprint) → Except Refusal (List PostProcessor × Session)
  | [] => .ok ([], s)
  | b :: bs => do
    let b ← match b with
      | .ok b => pure b
      | .error reason => throw (.misuse reason)
    let (p, s) ← s.postProcessorOf b
    let (ps, s) ← postProcessorsOf s bs
    return (p :: ps, s)

def engine {α : Type} (s : Session) (f : Nat) (slot : Slot) (act : Step α) (out : α → Outcome) :
    Except Refusal Outcome × Session :=
  match s.run f slot act with
  | (.ok a, s) => (.ok (out a), s)
  | (.error e, s) => (.error (.boot e), s)

def processorIndex (s : Session) (slot : Slot) : ProcessorRef → Except Refusal Nat
  | .index i => if i < s.declared then .ok i else .error (.misuse ("no processor " ++ toString i))
  | .context => match slot.context with
    | some ctx => .ok ctx.expansion
    | none => .error (.misuse "factory has no context")

def listenerStep (l : Listeners) : ListenerAction → Option Bool × Listeners
  | .add n => (none, l.add n)
  | .remove n => let (b, l) := l.remove n; (some b, l)
  | .contains n => (some (l.contains n), l)
  | .unreadable _ => (none, l)

/-- Runs listener actions in order up to one that could not be read: the results so far, the
registry after them, and the reason that stopped them. -/
def listenerSteps (l : Listeners) : List ListenerAction → List (Option Bool) × Listeners × Option String
  | [] => ([], l, none)
  | .unreadable r :: _ => ([], l, some r)
  | a :: rest =>
    let (r, l) := listenerStep l a
    let (rs, l, stop) := listenerSteps l rest
    (r :: rs, l, stop)

def exec (s : Session) (f : Nat) (cmd : Command) : Except Refusal Outcome × Session :=
  match s.slots[f]? with
  | none => (.error (.misuse ("no factory " ++ toString f)), s)
  | some slot =>
    let needContext (step : String) (k : Context → Except Refusal Outcome × Session) :
        Except Refusal Outcome × Session :=
      match slot.context with
      | some ctx => k ctx
      | none => (.error (.misuse (step ++ " needs a context")), s)
    match cmd with
    | .register spec => s.engine f slot (Machine.registerSpec spec) fun _ => .done
    | .registerSingleton name b =>
      let (r, s) := s.build b
      s.engine f slot (do
        let i ← Machine.make r scenarioName
        Machine.updateBox (·.registerSingleton name i)) fun _ => .done
    | .registerGenerator name rule =>
      s.engine f slot (do
        let payload := match rule with
          | some g => Payload.generator g
          | none => Payload.value "bogus"
        let i := Instance.object ⟨← Machine.fresh, payload⟩
        Machine.updateBox (·.registerSingleton name i)) fun _ => .done
    | .materialize name cap => s.engine f slot (Machine.materialize name cap) .instance
    | .component name cap =>
      let cap := if slot.context.isSome then .component else cap
      s.engine f slot (Machine.materialize name cap) .instance
    | .sealRegistry => s.engine f slot (Machine.onBox Container.sealRegistry) fun _ => .done
    | .invoke explicit =>
      match s.postProcessorsOf explicit with
      | .error r => (.error r, s)
      | .ok (ps, s) => s.engine f slot (Machine.invokeProcessors ps) fun _ => .done
    | .registerLifecycle => s.engine f slot (Machine.registerLifecycle .own) fun _ => .done
    | .instantiate => s.engine f slot Machine.instantiateSingletons .count
    | .names cap incl eager => (.ok (.names (slot.box.namesFor cap incl eager)), s)
    | .typeMatch name cap => (.ok (.flag (slot.box.isTypeMatch name cap)), s)
    | .expand p =>
      match s.processorIndex slot p with
      | .error r => (.error r, s)
      | .ok i => s.engine f slot (Machine.expand i) .report
    | .postRegistry p =>
      match s.processorIndex slot p with
      | .error r => (.error r, s)
      | .ok i => s.engine f slot (Machine.postRegistry (.expansion i)) fun _ => .done
    | .postFactory p =>
      match s.processorIndex slot p with
      | .error r => (.error r, s)
      | .ok i => s.engine f slot (Machine.postFactory (.expansion i)) fun _ => .done
    | .enhance e => s.engine f slot (Machine.withBox (enhanceAll e)) .count
    | .addLifecycle (.blueprint b) =>
      match s.build b with
      | (.lifecycle stamp rec, s) =>
        s.engine f slot (Machine.onBox (·.addLifecycle ⟨stamp, .recorder rec⟩)) fun _ => .done
      | (_, s) => (.error (.misuse "spec is not a lifecycle processor"), s)
    | .addLifecycle (.classKey key) =>
      match (s.classOf key).constructor with
      | none => (.error (.misuse "class has no constructor"), s)
      | some ctor =>
        match s.run f slot (Machine.construct ctor) with
        | (.error e, s) => (.error (.misuse e.message), s)
        | (.ok (.lifecycle l), s) =>
          let slot := (s.slots[f]?).getD slot
          s.engine f slot (Machine.onBox (·.addLifecycle l)) fun _ => .done
        | (.ok _, s) => (.error (.misuse "constructor does not make a lifecycle processor"), s)
    | .clearCache => s.engine f slot (Machine.onBox Container.clearCache) fun _ => .done
    | .refresh => needContext "refresh" fun ctx => s.engine f slot (Machine.refresh ctx) fun _ => .done
    | .addPostProcessor b =>
      needContext "add_post_processor" fun ctx =>
        match s.postProcessorOf b with
        | .error r => (.error r, s)
        | .ok (p, s) =>
          let ctx := { ctx with explicit := ctx.explicit ++ [p] }
          (.ok .done, { s with slots := s.slots.set! f { slot with context := some ctx } })
    | .listeners => (.ok (.names slot.listenerNames), s)
    | .state => (.ok (.snapshot slot.snapshot), s)
    | .sameAs a b cap =>
      s.engine f slot (do
        let x ← Machine.materialize a cap
        let y ← Machine.materialize b cap
        return (x, y)) fun (x, y) =>
          .same (x.sameAs y) (match x, y with
            | .post p, .post q => some (p.sameAs q)
            | _, _ => none)
    | .debug name => s.engine f slot (Machine.materialize name .component) fun i => .text i.debugText
    | .debugClass (.key k) => (.ok (.text (s.classOf k).debugText), s)
    | .debugClass (.definition name) =>
      (.ok (.maybeText ((slot.box.definition? name).map (·.cls.debugText))), s)
    | .attribute name key =>
      (.ok (.maybeText ((slot.box.definition? name).bind (·.attributes.get? key))), s)
    | .listenerRegistry actions =>
      if slot.context.isSome then (.error (.misuse "listener_registry needs a plain factory"), s)
      else
        let (results, after, stop) := listenerSteps slot.books.own actions
        let slot := { slot with books := { slot.books with own := after } }
        let s := { s with slots := s.slots.set! f slot }
        match stop with
        | some reason => (.error (.misuse reason), s)
        | none => (.ok (.listenerResults results after), s)
    | .registerClass name key =>
      needContext "register_class" fun _ =>
        s.engine f slot (Machine.updateBox (·.register name (.ofClass (s.classOf key)))) fun _ => .done
    | .options => needContext "options" fun ctx => (.ok (.options ctx.options), s)

end Session

end Wiring
