import Wiring.Creation
import Wiring.Proofs.Frame

namespace Wiring

/-! What the lifecycle hooks and the constructors can change. They journal, take new stamps,
write the listener registries and set the flags of listener detectors, and nothing else; so every
relation between machines that those four writes keep is kept by every hook, every chain of hooks
and every constructor, whether it succeeds or fails. Only listener detectors write registries and
flags, so the first two writes alone carry the constructors and every hook of a chain without a
detector. -/

namespace Machine

/-- A relation kept by a journal entry and a new stamp. -/
structure StampFrame (R : Machine → Machine → Prop) : Prop where
  journal : ∀ (s : Machine) (entry : String), R s { s with journal := s.journal.push entry }
  stamp : ∀ s : Machine, R s { s with nextStamp := s.nextStamp + 1 }

/-- A relation kept by the four writes of hooks and constructors: a journal entry, a new stamp, a
write of the listener registries and a detector flag. -/
structure HookFrame (R : Machine → Machine → Prop) : Prop extends StampFrame R where
  books : ∀ (s : Machine) (bs : Books), R s { s with books := bs }
  flag : ∀ (s : Machine) (detector : Nat) (name : String) (b : Bool),
    R s { s with box := s.box.setFlag detector name b }

namespace StampFrame

variable {R : Machine → Machine → Prop} (hR : StampFrame R)
include hR

theorem keeps_note (entry : String) : Keeps R (note entry) :=
  Keeps.modify' fun s => hR.journal s entry

theorem keeps_fresh : Keeps R fresh :=
  Keeps.modifyGet' hR.stamp

variable [Std.Refl R] [Trans R R R]

theorem keeps_make (r : Recipe) (who : String) : Keeps R (make r who) := by
  cases r with
  | value t => exact Keeps.bind hR.keeps_fresh fun _ => Keeps.pure' _
  | importAware t => exact Keeps.bind hR.keeps_fresh fun _ => Keeps.pure' _
  | factoryAware t => exact Keeps.bind hR.keeps_fresh fun _ => Keeps.pure' _
  | registryProcessor stamp s => exact Keeps.pure' _
  | factoryProcessor stamp s => exact Keeps.pure' _
  | lifecycle stamp rec => exact Keeps.pure' _
  | fail message => exact Keeps.throw' _

theorem keeps_construct : ∀ ctor : Constructor, Keeps R (construct ctor)
  | .recipe className r => Keeps.bind (hR.keeps_note _) fun _ => hR.keeps_make r className
  | .expansion i => Keeps.pure' _
  | .intercepting parent => by
    refine Keeps.bind (keeps_construct parent) fun i => ?_
    cases i with
    | object m => exact Keeps.bind hR.keeps_fresh fun _ => Keeps.pure' _
    | _ => exact Keeps.pure' _

theorem keeps_recordHook (r : Recorder) (hook : Hook) (failing : List String) (name : String) :
    Keeps R (recordHook r hook failing name) := by
  have hcheck : Keeps (ε := BootError) R
      (if failing.contains name then throw (.processor r.label (hook.name ++ " failed for " ++ name))
        else pure ()) := by
    split
    · exact Keeps.throw' _
    · exact Keeps.pure' _
  unfold recordHook
  dsimp only
  split
  · exact Keeps.bind (hR.keeps_note _) fun _ => hcheck
  · exact hcheck

theorem keeps_mergedHooks (d : Definition) (name : String) :
    ∀ chain : List Lifecycle, (∀ l ∈ chain, ∀ b, l.role = .listenerDetector b →
      ∀ s : Machine, R s { s with box := s.box.setFlag l.stamp name d.isSingleton }) →
      Keeps R (mergedHooks d name chain)
  | [], _ => Keeps.pure' _
  | l :: ls, hflag => by
    have hrest := keeps_mergedHooks d name ls fun l' hl' => hflag l' (.tail _ hl')
    unfold mergedHooks
    dsimp only
    split
    · split
      · exact Keeps.bind (hR.keeps_note _) fun _ => hrest
      · exact hrest
    · rename_i b hrole
      split
      · exact Keeps.bind (Keeps.modify' (hflag l (.head _) b hrole)) fun _ => hrest
      · exact hrest
    · exact hrest

theorem keeps_propertyHooks (name : String) :
    ∀ (raw : Instance) (chain : List Lifecycle), Keeps R (propertyHooks name raw chain)
  | raw, [] => Keeps.pure' _
  | raw, l :: ls => by
    unfold propertyHooks
    split
    · exact Keeps.bind (hR.keeps_recordHook _ _ _ _) fun _ => keeps_propertyHooks name raw ls
    · refine Keeps.read fun s => ?_
      dsimp only
      split
      · exact keeps_propertyHooks name _ ls
      · exact Keeps.bind (hR.keeps_note _) fun _ => keeps_propertyHooks name _ ls
      · exact keeps_propertyHooks name _ ls
    · exact keeps_propertyHooks name raw ls

theorem keeps_deliverImport (name : String) (i : Instance) : Keeps R (deliverImport name i) := by
  refine Keeps.read fun s => ?_
  dsimp only
  split
  · split
    · split
      · exact hR.keeps_note _
      · exact Keeps.pure' _
    · exact Keeps.pure' _
  · exact Keeps.pure' _

theorem keeps_beforeHooks (name : String) (i : Instance) :
    ∀ chain : List Lifecycle, Keeps R (beforeHooks name i chain)
  | [] => Keeps.pure' _
  | l :: ls => by
    unfold beforeHooks
    dsimp only
    split
    · exact Keeps.bind (hR.keeps_recordHook _ _ _ _) fun _ => keeps_beforeHooks name i ls
    · exact Keeps.bind (hR.keeps_deliverImport _ _) fun _ => keeps_beforeHooks name i ls
    · exact keeps_beforeHooks name i ls

theorem keeps_afterHooks (name : String) :
    ∀ (i : Instance) (chain : List Lifecycle), (∀ l ∈ chain, ∀ b, l.role = .listenerDetector b →
      ∀ f : Listeners → Listeners, Keeps R (onBook b f)) → Keeps R (afterHooks name i chain)
  | i, [], _ => Keeps.pure' _
  | i, l :: ls, hbook => by
    have hrest := fun i' => keeps_afterHooks name i' ls fun l' hl' => hbook l' (.tail _ hl')
    unfold afterHooks
    dsimp only
    split
    · refine Keeps.bind (hR.keeps_recordHook _ _ _ _) fun _ => ?_
      split
      · exact Keeps.bind hR.keeps_fresh fun _ => hrest _
      · exact hrest _
    · rename_i b hrole
      refine Keeps.read fun s => ?_
      split
      · exact Keeps.bind (hbook l (.head _) b hrole _) fun _ => hrest i
      · exact Keeps.bind (hbook l (.head _) b hrole _) fun _ => hrest i
      · exact hrest i
    · exact hrest i

end StampFrame

namespace HookFrame

variable {R : Machine → Machine → Prop} (hR : HookFrame R)
include hR

theorem keeps_onBook (b : Book) (f : Listeners → Listeners) : Keeps R (onBook b f) :=
  Keeps.modify' fun s => hR.books s _

variable [Std.Refl R] [Trans R R R]

theorem keeps_mergedHooks (d : Definition) (name : String) (chain : List Lifecycle) :
    Keeps R (mergedHooks d name chain) :=
  hR.toStampFrame.keeps_mergedHooks d name chain fun l _ _ _ s => hR.flag s l.stamp name _

theorem keeps_afterHooks (name : String) (i : Instance) (chain : List Lifecycle) :
    Keeps R (afterHooks name i chain) :=
  hR.toStampFrame.keeps_afterHooks name i chain fun _ _ b _ f => hR.keeps_onBook b f

theorem keeps_throughChain (htargets : ∀ (s : Machine) (name : String) (raw : Instance),
      R s { s with box := { s.box with targets := s.box.targets.insert name raw } })
    (name : String) (d : Definition) (raw : Instance) : Keeps R (throughChain name d raw) := by
  unfold throughChain
  refine Keeps.read fun s => ?_
  refine Keeps.bind (hR.keeps_mergedHooks _ _ _) fun _ => ?_
  refine Keeps.bind (hR.keeps_propertyHooks _ _ _) fun raw => ?_
  refine Keeps.bind (hR.keeps_beforeHooks _ _ _) fun i => ?_
  refine Keeps.bind (hR.keeps_afterHooks _ _ _) fun i => ?_
  dsimp only
  split
  · exact Keeps.bind (Keeps.modify' fun s => htargets s _ _) fun _ => Keeps.pure' _
  · exact Keeps.pure' _

end HookFrame

theorem keeps_injectedHere {R : Machine → Machine → Prop} [Std.Refl R] [Trans R R R]
    (owner : Option Instance) : Keeps R (injectedHere owner) :=
  Keeps.read fun _ => Keeps.pure' _

end Machine

end Wiring
