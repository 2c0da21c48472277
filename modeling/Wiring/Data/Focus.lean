namespace Wiring

/-! Running a computation on one part of a larger state. Changes to the part are kept whether
the computation succeeds or fails, as they are for the whole state. -/

def focus {ε σ τ α : Type} (view : σ → τ) (update : σ → τ → σ) (act : EStateM ε τ α) :
    EStateM ε σ α := fun s =>
  match act (view s) with
  | .ok a t => .ok a (update s t)
  | .error e t => .error e (update s t)

def liftExcept {ε σ α : Type} : Except ε α → EStateM ε σ α
  | .ok a => pure a
  | .error e => throw e

end Wiring
