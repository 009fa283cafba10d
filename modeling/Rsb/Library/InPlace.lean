import Mathlib.Tactic.Common

/-!
Updates in place that may throw.

A member function works on its object as it goes. When it throws, the changes made so
far stay. `Realizes m f` says that `m` changes the object the way the partial function
`f` does, and leaves it alone where `f` refuses: `m` is atomic. The rules follow the
ways in which such functions are put together; none of them allows a change that is
followed by something that may throw.
-/

namespace Rsb.Library

variable {ε σ τ α β : Type}

/-- A computation on an object of type `σ`; an exception carries the object as it was
left. -/
abbrev InPlace (ε σ α : Type) := EStateM ε σ α

namespace InPlace

/-- Work on a part of the object. -/
def onPart (part : σ → τ) (put : σ → τ → σ) (m : InPlace ε τ α) : InPlace ε σ α := fun s =>
  match m.run (part s) with
  | .ok a t => .ok a (put s t)
  | .error e t => .error e (put s t)

/-- The outcome of a partial function, with the object as it was if there is none. -/
def outcome (s : σ) : Except ε σ → EStateM.Result ε σ Unit
  | .ok s' => .ok () s'
  | .error e => .error e s

/-- The value of a computation, with the object as it is left. -/
def result (x : Except ε α) (s : σ) : EStateM.Result ε σ α :=
  match x with
  | .ok a => .ok a s
  | .error e => .error e s

/-- The object after a computation, whether it returns or throws. -/
def left : EStateM.Result ε σ α → σ
  | .ok _ s => s
  | .error _ s => s

@[simp] theorem left_result (x : Except ε α) (s : σ) : left (result x s) = s := by
  cases x <;> rfl

theorem run_ofExcept (x : Except ε α) (s : σ) :
    (ofExcept x : InPlace ε σ α).run s = result x s := by
  cases x <;> rfl

theorem run_onPart {part : σ → τ} {put : σ → τ → σ} {m : InPlace ε τ α} {s : σ} {x : Except ε α}
    {t : τ} (h : m.run (part s) = result x t) :
    (onPart part put m).run s = result x (put s t) := by
  simp only [EStateM.run, onPart] at h ⊢
  rw [h]
  cases x <;> rfl

/-- What follows runs on the object as the first part has left it. -/
theorem run_bind {m : InPlace ε σ α} {f : α → InPlace ε σ β} {s s' : σ} {x : Except ε α} :
    m.run s = result x s' → (m >>= f).run s =
      match x with
      | .ok a => (f a).run s'
      | .error e => .error e s' := by
  intro h
  rw [EStateM.run_bind, h]
  cases x <;> rfl

/-- Reading the object leaves it alone. -/
theorem run_get_bind (f : σ → InPlace ε σ β) (s : σ) :
    (get >>= f : InPlace ε σ β).run s = (f s).run s := rfl

/-- `m` does what `f` does, or nothing. -/
def Realizes (m : InPlace ε σ Unit) (f : σ → Except ε σ) : Prop :=
  ∀ s, m.run s = outcome s (f s)

theorem realizes_throw (e : ε) :
    Realizes (throw e : InPlace ε σ Unit) (fun _ => .error e) := fun _ => rfl

theorem realizes_pure : Realizes (pure () : InPlace ε σ Unit) .ok := fun _ => rfl

theorem realizes_modify (g : σ → σ) :
    Realizes (modify g : InPlace ε σ Unit) (fun s => .ok (g s)) := fun _ => rfl

/-- What may throw comes first. -/
theorem realizes_ofExcept_bind {x : Except ε α} {m : α → InPlace ε σ Unit}
    {f : α → σ → Except ε σ} (h : ∀ a, Realizes (m a) (f a)) :
    Realizes ((ofExcept x : InPlace ε σ α) >>= m) (fun s => x >>= fun a => f a s) := by
  intro s
  cases x with
  | ok a => exact h a s
  | error e => rfl

theorem realizes_ite {p : Prop} [Decidable p] {m m' : InPlace ε σ Unit} {f f' : σ → Except ε σ}
    (h : Realizes m f) (h' : Realizes m' f') :
    Realizes (if p then m else m') (fun s => if p then f s else f' s) := by
  intro s
  split
  · exact h s
  · exact h' s

/-- An atomic update of a part is one of the whole. -/
theorem realizes_onPart {part : σ → τ} {put : σ → τ → σ} (hput : ∀ s, put s (part s) = s)
    {m : InPlace ε τ Unit} {f : τ → Except ε τ} (h : Realizes m f) :
    Realizes (onPart part put m) (fun s => f (part s) >>= fun t => .ok (put s t)) := by
  intro s
  have hpart := h (part s)
  simp only [EStateM.run, onPart] at hpart ⊢
  rw [hpart]
  cases f (part s) with
  | ok t => rfl
  | error e =>
      simp only [outcome, hput]
      rfl

end InPlace

end Rsb.Library
