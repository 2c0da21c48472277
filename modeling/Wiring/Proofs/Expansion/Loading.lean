import Wiring.Configuration.Load
import Wiring.Proofs.Frame

namespace Wiring

/-! What loading models does to a container. Names are only added. A definition already there
is only ever replaced by the definition of a factory method, and a new name gets either such a
definition or an unmarked definition of a catalog class: the class of an imported model or a
class a model scanned. -/

namespace Container

variable (catalog : Catalog)

/-- How loading may change a container. -/
structure LoadChange (c c' : Container) : Prop where
  names_subset : ∀ n ∈ c.names, n ∈ c'.names
  definitions : ∀ n d, c'.definition? n = some d →
    c.definition? n = some d ∨ d.hasFactory = true ∨
      (c.definition? n = none ∧ d.cls ∈ catalog.classes ∧ d.configuration = none)

variable {catalog}

theorem LoadChange.refl (c : Container) : LoadChange catalog c c :=
  ⟨fun _ h => h, fun _ _ h => .inl h⟩

theorem LoadChange.trans {c₁ c₂ c₃ : Container} (h₁ : LoadChange catalog c₁ c₂)
    (h₂ : LoadChange catalog c₂ c₃) : LoadChange catalog c₁ c₃ := by
  refine ⟨fun n hn => h₂.names_subset n (h₁.names_subset n hn), fun n d hd => ?_⟩
  rcases h₂.definitions n d hd with h₂d | hfactory | ⟨hnone, hnew⟩
  · exact h₁.definitions n d h₂d
  · exact .inr (.inl hfactory)
  · -- a name missing after the first step was missing before it
    have hnone₁ : c₁.definition? n = none := by
      cases hdef : c₁.definition? n with
      | none => rfl
      | some d₁ =>
        obtain ⟨d₂, hd₂⟩ := mem_names_iff.1 (h₁.names_subset n (mem_names_iff.2 ⟨d₁, hdef⟩))
        rw [hnone] at hd₂
        cases hd₂
    exact .inr (.inr ⟨hnone₁, hnew⟩)

end Container

namespace Loader

open Container

variable {catalog : Catalog}

theorem registerIn_ok {name : String} {d : Definition} {c c' : Container}
    (h : registerIn name d c = .ok () c') : c.register name d = .ok c' := by
  unfold registerIn at h
  replace h := get_bind_eq_ok h
  cases hreg : c.register name d with
  | ok c'' =>
    simp only [hreg, set_apply, EStateM.Result.ok.injEq] at h
    rw [h.2]
  | error e =>
    simp only [hreg, throw_apply] at h
    cases h

end Loader

end Wiring
