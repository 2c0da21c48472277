import Wiring.Processor.Run
import Wiring.Proofs.Frame

namespace Wiring

/-! What an expansion run writes into the container: the loader's registrations, the marks that
collecting candidates writes over definitions, and the published import table. Parsing writes
only the parser and the metadata cache. A relation between containers that each of these writes
keeps is kept by every run, whether it succeeds or fails. -/

/-- A relation between containers kept by each write of an expansion run. -/
structure Container.ExpansionFrame (R : Container → Container → Prop) : Prop where
  register : ∀ c c' name d, c.register name d = .ok c' → R c c'
  mark : ∀ c cache name d, c.definition? name = some d →
    R c (c.modifyDefinition name fun _ => (checkCandidate cache d).2.1)
  publish : ∀ c c' name i, c.registerSingleton name i = .ok c' → R c c'

def Pass.OnBox (R : Container → Container → Prop) (p q : Pass) : Prop := R p.box q.box

instance {R : Container → Container → Prop} [Std.Refl R] : Std.Refl (Pass.OnBox R) :=
  ⟨fun p => Std.Refl.refl p.box⟩

instance {R : Container → Container → Prop} [Trans R R R] :
    Trans (Pass.OnBox R) (Pass.OnBox R) (Pass.OnBox R) :=
  ⟨fun h₁ h₂ => Trans.trans (r := R) h₁ h₂⟩

def Machine.OnBox (R : Container → Container → Prop) (s t : Machine) : Prop := R s.box t.box

instance {R : Container → Container → Prop} [Std.Refl R] : Std.Refl (Machine.OnBox R) :=
  ⟨fun s => Std.Refl.refl s.box⟩

instance {R : Container → Container → Prop} [Trans R R R] :
    Trans (Machine.OnBox R) (Machine.OnBox R) (Machine.OnBox R) :=
  ⟨fun h₁ h₂ => Trans.trans (r := R) h₁ h₂⟩

namespace Container.ExpansionFrame

variable {R : Container → Container → Prop} (hR : ExpansionFrame R) [Std.Refl R] [Trans R R R]
include hR

omit [Trans R R R] in
theorem keeps_registerIn (name : String) (d : Definition) : Keeps R (registerIn name d) := by
  intro c
  simp only [registerIn, bind_apply, get_apply]
  cases hreg : c.register name d with
  | ok c' => exact hR.register c c' name d hreg
  | error e => exact Std.Refl.refl c

section Loader

variable (l : Loader)

theorem keeps_ownerName (m : Model) : Keeps R (l.ownerName m) := by
  unfold Loader.ownerName
  split
  · exact Keeps.pure' _
  · refine Keeps.read fun c => ?_
    split
    · exact Keeps.pure' _
    · dsimp only
      split
      · split
        · exact Keeps.throw' _
        · exact Keeps.pure' _
      · exact Keeps.bind (hR.keeps_registerIn _ _) fun _ => Keeps.pure' _

theorem keeps_loadScans : ∀ ks : List ComponentClass, Keeps R (l.loadScans ks)
  | [] => Keeps.pure' _
  | k :: ks => by
    unfold Loader.loadScans
    refine Keeps.read fun c => ?_
    split
    · exact keeps_loadScans ks
    · exact Keeps.bind (hR.keeps_registerIn _ _) fun _ =>
        Keeps.bind (keeps_loadScans ks) fun _ => Keeps.pure' _

theorem keeps_loadMethods (m : Model) (owner : String) :
    ∀ decls : List FactoryMethod, Keeps R (l.loadMethods m owner decls)
  | [] => Keeps.pure' _
  | decl :: rest => by
    unfold Loader.loadMethods
    refine Keeps.read fun c => ?_
    have hrest := keeps_loadMethods m owner rest
    have hregister : Keeps R (do
        registerIn decl.target (Loader.methodDefinition m owner decl)
        return (← l.loadMethods m owner rest) + 1) :=
      Keeps.bind (hR.keeps_registerIn _ _) fun _ => Keeps.bind hrest fun _ => Keeps.pure' _
    -- whether an existing definition blocks the method or not, the step is one of the two
    dsimp only
    split <;> split <;> assumption

theorem keeps_load : ∀ models : List Model, Keeps R (l.load models)
  | [] => Keeps.pure' _
  | m :: ms => by
    unfold Loader.load Loader.loadModel
    refine Keeps.bind ?_ fun _ => Keeps.bind (keeps_load ms) fun _ => Keeps.pure' _
    exact Keeps.bind (hR.keeps_ownerName l m) fun owner =>
      Keeps.bind (hR.keeps_loadScans l _) fun _ =>
        Keeps.bind (hR.keeps_loadMethods l m _ _) fun _ => Keeps.pure' _

end Loader

theorem keeps_collect (parsed : List String) (skipMarked : Bool) :
    ∀ names : List String, Keeps (Pass.OnBox R) (Expansion.collect parsed skipMarked names)
  | [] => Keeps.pure' _
  | name :: rest => by
    intro s
    simp only [Expansion.collect, bind_apply, get_apply]
    cases hd : s.box.definition? name with
    | none => exact keeps_collect parsed skipMarked rest s
    | some d =>
      dsimp only
      split
      · exact keeps_collect parsed skipMarked rest s
      · have hmarked : Pass.OnBox R s { s with
            box := s.box.modifyDefinition name fun _ => (checkCandidate s.cache d).2.1
            cache := (checkCandidate s.cache d).2.2 } :=
          hR.mark s.box s.cache name d hd
        -- the marked definition replaces the old one in place, then the rest runs from there
        rw [bind_apply, set_apply]
        refine Trans.trans hmarked (Keeps.bind (keeps_collect parsed skipMarked rest)
          (fun later => ?_) _)
        split
        · exact Keeps.pure' _
        · exact Keeps.pure' _

theorem keeps_rounds (e : Expansion) :
    ∀ (fuel : Nat) (candidates : CandidateSet) (parsed previous : List String) (iterations : Nat),
      Keeps (Pass.OnBox R) (e.rounds fuel candidates parsed previous iterations)
  | 0, candidates, parsed, previous, iterations => by
    unfold Expansion.rounds
    split
    · exact Keeps.pure' _
    · exact Keeps.pure' _
  | fuel + 1, candidates, parsed, previous, iterations => by
    unfold Expansion.rounds
    split
    · exact Keeps.pure' _
    · -- parsing writes the parser and the metadata cache, not the container
      have hparse : Keeps (fun _ _ : ParseState => True) (Parser.parse e.catalog candidates) :=
        fun _ => trivial
      refine Keeps.bind (Keeps.focus hparse fun s _ _ => Std.Refl.refl (r := R) s.box)
        fun _ => Keeps.read fun s => ?_
      refine Keeps.bind ?_ fun _ => ?_
      · cases s.parser.validate
        · exact Keeps.throw' _
        · exact Keeps.pure' _
      refine Keeps.bind (Keeps.map _ (Keeps.focus (hR.keeps_load _ _) fun _ _ h => h))
        fun _ => Keeps.read fun s' => ?_
      dsimp only
      split
      · exact Keeps.bind (hR.keeps_collect _ _ _) fun _ =>
          Keeps.bind (Keeps.pure' _) fun next => keeps_rounds e fuel next _ _ _
      · exact Keeps.bind (Keeps.pure' _) fun next => keeps_rounds e fuel next _ _ _

theorem keeps_loop (e : Expansion) : Keeps (Pass.OnBox R) e.loop := by
  unfold Expansion.loop
  refine Keeps.read fun s => Keeps.bind (hR.keeps_collect _ _ _) fun candidates => ?_
  split
  · exact Keeps.pure' _
  · exact Keeps.map _ (hR.keeps_rounds e _ _ _ _ _)

theorem keeps_run (e : Expansion) : Keeps (Pass.OnBox R) e.run := by
  intro s
  unfold Expansion.run
  rw [bind_apply]
  have hloop := hR.keeps_loop e s
  cases hrun : e.loop s with
  | error err t =>
    rw [hrun] at hloop
    exact hloop
  | ok r t =>
    rw [hrun] at hloop
    refine Trans.trans (r := Pass.OnBox R) (s := Pass.OnBox R) hloop ?_
    cases r with
    | none => exact Std.Refl.refl (r := Pass.OnBox R) t
    | some report =>
      simp only [bind_apply, get_apply]
      split
      · cases hreg : t.box.registerSingleton importRegistryName
            (Instance.object ⟨t.nextStamp, .imports t.parser.imports⟩) with
        | error err => exact Std.Refl.refl (r := Pass.OnBox R) t
        | ok box =>
          simp only [bind_apply, set_apply, modify_apply, pure_apply, endState_ok]
          exact hR.publish t.box box _ _ hreg
      · exact Std.Refl.refl (r := Pass.OnBox R) t

theorem keeps_expand (i : Nat) : Keeps (Machine.OnBox R) (Machine.expand i) :=
  Keeps.read fun _ => Keeps.focus (hR.keeps_run _) fun _ _ h => h

end Container.ExpansionFrame

end Wiring
