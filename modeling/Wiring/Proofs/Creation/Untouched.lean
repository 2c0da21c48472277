import Wiring.Proofs.Creation.Frame
import Wiring.Proofs.Creation.Invariants

namespace Wiring

/-! What creating components leaves alone. Creation writes the effective-definition cache, the
singletons, the raw instances, the names in creation, the detector flags, the journal, the
listener registries and the stamp counter; the registered definitions, the lifecycle chain and
the registry view come out as they went in, and stamps are only ever taken, so the counter never
goes back. Every function of the creation block keeps this, whether it succeeds or fails. -/

namespace Machine

/-- What creation leaves alone, from `s` to `t`. -/
structure Untouched (s t : Machine) : Prop where
  definitions_eq : t.box.definitions = s.box.definitions
  chain_eq : t.box.chain = s.box.chain
  sealed_eq : t.box.sealed = s.box.sealed
  stamp_le : s.nextStamp ≤ t.nextStamp

theorem Untouched.trans {s₁ s₂ s₃ : Machine} (h₁ : Untouched s₁ s₂) (h₂ : Untouched s₂ s₃) :
    Untouched s₁ s₃ :=
  ⟨h₂.definitions_eq.trans h₁.definitions_eq, h₂.chain_eq.trans h₁.chain_eq,
    h₂.sealed_eq.trans h₁.sealed_eq, Nat.le_trans h₁.stamp_le h₂.stamp_le⟩

instance : Std.Refl Untouched := ⟨fun _ => ⟨rfl, rfl, rfl, Nat.le_refl _⟩⟩

instance : Trans Untouched Untouched Untouched := ⟨Untouched.trans⟩

theorem Untouched.of_box {s : Machine} {c : Container}
    (hdefinitions : c.definitions = s.box.definitions) (hchain : c.chain = s.box.chain)
    (hsealed : c.sealed = s.box.sealed) : Untouched s { s with box := c } :=
  ⟨hdefinitions, hchain, hsealed, Nat.le_refl _⟩

theorem hookFrame_untouched : HookFrame Untouched :=
  ⟨⟨fun _ _ => ⟨rfl, rfl, rfl, Nat.le_refl _⟩, fun _ => ⟨rfl, rfl, rfl, Nat.le_succ _⟩⟩,
    fun _ _ => ⟨rfl, rfl, rfl, Nat.le_refl _⟩, fun _ _ _ _ => .of_box rfl rfl rfl⟩

theorem untouched_effectiveDefinition (name : String) :
    Keeps Untouched (effectiveDefinition name) := by
  refine Keeps.read fun s => ?_
  dsimp only
  split
  · exact Keeps.pure' _
  · split
    · exact Keeps.throw' _
    · exact Keeps.bind (Keeps.modify' fun _ => .of_box rfl rfl rfl) fun _ => Keeps.pure' _

theorem creationFrame_untouched : CreationFrame Untouched :=
  { hookFrame_untouched with
    effective := untouched_effectiveDefinition
    box := fun _ _ hdefinitions _ hchain hsealed => .of_box hdefinitions hchain hsealed }

theorem creation_untouched :
    (∀ b d n c, Keeps Untouched (materializeWith b d n c)) ∧
    (∀ b d n dfn, Keeps Untouched (create b d n dfn)) ∧
    (∀ b d ref, Keeps Untouched (invokeFactoryMethod b d ref)) ∧
    (∀ b d cls owner m, Keeps Untouched (invoke b d cls owner m)) ∧
    (∀ b d cls owner body steps, Keeps Untouched (runSteps b d cls owner body steps)) ∧
    (∀ b d cls owner m, Keeps Untouched (call b d cls owner m)) :=
  creationFrame_untouched.keeps_creation

theorem untouched_materialize (name : String) (cap : Capability) :
    Keeps Untouched (materialize name cap) :=
  creationFrame_untouched.keeps_materialize name cap

end Machine

end Wiring
