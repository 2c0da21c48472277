import Wiring.Machine

namespace Wiring

/-! Frame conditions of stateful runs. A run that fails keeps the changes it made, so what a run
keeps is said of the state it ends in, on either outcome: `Keeps R act` holds when `act` always
ends in a state related by `R` to the state it started in. For a reflexive and transitive `R`
this passes through `pure`, `throw`, `bind` and the state operations, so the frame condition of
a whole operation follows from those of its parts. -/

section

variable {ε σ α β : Type}

/-- The state a run ends in, whether it succeeded or failed. -/
def endState : EStateM.Result ε σ α → σ
  | .ok _ s => s
  | .error _ s => s

@[simp] theorem endState_ok (a : α) (s : σ) :
    endState (.ok a s : EStateM.Result ε σ α) = s := rfl

@[simp] theorem endState_error (e : ε) (s : σ) :
    endState (.error e s : EStateM.Result ε σ α) = s := rfl

theorem bind_apply (x : EStateM ε σ α) (f : α → EStateM ε σ β) (s : σ) :
    (x >>= f) s = match x s with
      | .ok a t => f a t
      | .error e t => .error e t := rfl

theorem map_apply (f : α → β) (x : EStateM ε σ α) (s : σ) :
    (f <$> x) s = match x s with
      | .ok a t => .ok (f a) t
      | .error e t => .error e t := rfl

@[simp] theorem pure_apply (a : α) (s : σ) : (pure a : EStateM ε σ α) s = .ok a s := rfl

@[simp] theorem throw_apply (e : ε) (s : σ) : (throw e : EStateM ε σ α) s = .error e s := rfl

@[simp] theorem get_apply (s : σ) : (get : EStateM ε σ σ) s = .ok s s := rfl

@[simp] theorem set_apply (s t : σ) : (set t : EStateM ε σ PUnit) s = .ok ⟨⟩ t := rfl

@[simp] theorem modify_apply (f : σ → σ) (s : σ) :
    (modify f : EStateM ε σ PUnit) s = .ok ⟨⟩ (f s) := rfl

@[simp] theorem modifyGet_apply (f : σ → α × σ) (s : σ) :
    (modifyGet f : EStateM ε σ α) s = .ok (f s).1 (f s).2 := rfl

theorem bind_eq_ok {x : EStateM ε σ α} {f : α → EStateM ε σ β} {s t : σ} {b : β}
    (h : (x >>= f) s = .ok b t) : ∃ a u, x s = .ok a u ∧ f a u = .ok b t := by
  rw [bind_apply] at h
  cases hx : x s with
  | ok a u => rw [hx] at h; exact ⟨a, u, rfl, h⟩
  | error e u => rw [hx] at h; cases h

theorem bind_eq_error {x : EStateM ε σ α} {f : α → EStateM ε σ β} {s t : σ} {e : ε}
    (h : (x >>= f) s = .error e t) :
    x s = .error e t ∨ ∃ a u, x s = .ok a u ∧ f a u = .error e t := by
  rw [bind_apply] at h
  cases hx : x s with
  | ok a u => rw [hx] at h; exact .inr ⟨a, u, rfl, h⟩
  | error e' u => rw [hx] at h; cases h; exact .inl rfl

theorem get_bind_eq_ok {f : σ → EStateM ε σ β} {s t : σ} {b : β}
    (h : (get >>= f) s = .ok b t) : f s s = .ok b t := h

theorem discard_apply (x : EStateM ε σ α) (s : σ) :
    (discard x : EStateM ε σ PUnit) s = match x s with
      | .ok _ t => .ok () t
      | .error e t => .error e t := by
  simp only [Functor.discard, Functor.mapConst, Function.comp_apply]
  unfold EStateM.map
  cases x s <;> rfl

/-- `act` ends in a state related by `R` to the state it started in. -/
def Keeps (R : σ → σ → Prop) (act : EStateM ε σ α) : Prop :=
  ∀ s, R s (endState (act s))

variable {R : σ → σ → Prop}

namespace Keeps

theorem of_ok {act : EStateM ε σ α} (h : Keeps R act) {s t : σ} {a : α}
    (hrun : act s = .ok a t) : R s t := by
  have hs := h s
  rw [hrun, endState_ok] at hs
  exact hs

theorem of_error {act : EStateM ε σ α} (h : Keeps R act) {s t : σ} {e : ε}
    (hrun : act s = .error e t) : R s t := by
  have hs := h s
  rw [hrun, endState_error] at hs
  exact hs

theorem pure' [Std.Refl R] (a : α) : Keeps (ε := ε) R (pure a) :=
  fun s => Std.Refl.refl s

theorem throw' [Std.Refl R] (e : ε) : Keeps R (throw e : EStateM ε σ α) :=
  fun s => Std.Refl.refl s

theorem get' [Std.Refl R] : Keeps (ε := ε) R get :=
  fun s => Std.Refl.refl s

theorem modify' {f : σ → σ} (hf : ∀ s, R s (f s)) : Keeps (ε := ε) R (modify f) :=
  fun s => hf s

theorem modifyGet' {f : σ → α × σ} (hf : ∀ s, R s (f s).2) : Keeps (ε := ε) R (modifyGet f) :=
  fun s => hf s

theorem bind [Std.Refl R] [Trans R R R] {x : EStateM ε σ α} {f : α → EStateM ε σ β}
    (hx : Keeps R x) (hf : ∀ a, Keeps R (f a)) : Keeps R (x >>= f) := by
  intro s
  rw [bind_apply]
  cases h : x s with
  | ok a t => exact Trans.trans (hx.of_ok h) (hf a t)
  | error e t => exact hx.of_error h

theorem map {x : EStateM ε σ α} (f : α → β) (hx : Keeps R x) : Keeps R (f <$> x) := by
  intro s
  rw [map_apply]
  cases h : x s with
  | ok a t => exact hx.of_ok h
  | error e t => exact hx.of_error h

theorem read [Std.Refl R] [Trans R R R] {f : σ → EStateM ε σ α} (hf : ∀ s, Keeps R (f s)) :
    Keeps R (get >>= f) :=
  bind get' hf

theorem weaken {R' : σ → σ → Prop} {act : EStateM ε σ α} (h : Keeps R act)
    (himp : ∀ s t, R s t → R' s t) : Keeps R' act :=
  fun s => himp _ _ (h s)

theorem and {R' : σ → σ → Prop} {act : EStateM ε σ α} (h : Keeps R act) (h' : Keeps R' act) :
    Keeps (fun s t => R s t ∧ R' s t) act :=
  fun s => ⟨h s, h' s⟩

theorem foldlM [Std.Refl R] [Trans R R R] {f : β → α → EStateM ε σ β}
    (hf : ∀ b a, Keeps R (f b a)) : ∀ (l : List α) (b : β), Keeps R (l.foldlM f b)
  | [], b => pure' b
  | a :: l, b => by
    rw [List.foldlM_cons]
    exact bind (hf b a) fun b' => foldlM hf l b'

theorem focus {τ : Type} {R' : τ → τ → Prop} {view : σ → τ} {update : σ → τ → σ}
    {act : EStateM ε τ α} (hact : Keeps R' act) (hupdate : ∀ s t, R' (view s) t → R s (update s t)) :
    Keeps R (Wiring.focus view update act) := by
  intro s
  unfold Wiring.focus
  cases hrun : act (view s) with
  | ok a t => exact hupdate s t (hact.of_ok hrun)
  | error e t => exact hupdate s t (hact.of_error hrun)

end Keeps

end

namespace Machine

@[simp] theorem onBox_apply (f : Container → Container) (s : Machine) :
    onBox f s = .ok () { s with box := f s.box } := rfl

theorem keeps_updateBox {R : Machine → Machine → Prop} [Std.Refl R]
    {r : Container → Except BootError Container}
    (hr : ∀ s c, r s.box = .ok c → R s { s with box := c }) : Keeps R (updateBox r) := by
  intro s
  simp only [updateBox, bind_apply, get_apply]
  cases hrun : r s.box with
  | ok c =>
    simp only [onBox_apply, endState_ok]
    exact hr s c hrun
  | error e => exact Std.Refl.refl s

end Machine

end Wiring
