import Mathlib.Data.List.Forall2
import Mathlib.Tactic.Common

/-!
Loops over a list that may fail.

Such a loop hands a value from one element to the next and stops where a step fails. As
long as the elements alone decide how a step ends, so do they for the loop: it comes to
its end if all of them are good, and it fails in some way if the first one that is not
good is bad in that way.
-/

namespace Rsb.Library

variable {α β γ σ ε : Type}

/-- The loop, from the `i`-th element on. -/
def forEachFrom (step : ℕ → α → σ → Except ε σ) : ℕ → List α → σ → Except ε σ
  | _, [], s => .ok s
  | i, x :: xs, s => do
      let s ← step i x s
      forEachFrom step (i + 1) xs s

/-- Of the elements that are not good the first one is bad. -/
def FirstBad (good bad : α → Prop) : List α → Prop
  | [] => False
  | x :: xs => bad x ∨ good x ∧ FirstBad good bad xs

section

variable {step : ℕ → α → σ → Except ε σ} {good bad : α → Prop}

theorem forEachFrom_ok_iff (hgood : ∀ i x s, (∃ s', step i x s = .ok s') ↔ good x) {i : ℕ}
    {l : List α} {s : σ} : (∃ s', forEachFrom step i l s = .ok s') ↔ ∀ x ∈ l, good x := by
  induction l generalizing i s with
  | nil => simp [forEachFrom]
  | cons x l ih =>
      rw [List.forall_mem_cons, ← hgood i x s]
      cases hstep : step i x s with
      | error e => simp [forEachFrom, hstep, bind, Except.bind]
      | ok s' => simp [forEachFrom, hstep, ih, bind, Except.bind]

theorem forEachFrom_error_iff {P : ε → Prop} (hgood : ∀ i x s, (∃ s', step i x s = .ok s') ↔ good x)
    (hbad : ∀ i x s, (∃ e, step i x s = .error e ∧ P e) ↔ bad x) {i : ℕ} {l : List α} {s : σ} :
    (∃ e, forEachFrom step i l s = .error e ∧ P e) ↔ FirstBad good bad l := by
  induction l generalizing i s with
  | nil => simp [forEachFrom, FirstBad]
  | cons x l ih =>
      rw [FirstBad, ← hgood i x s, ← hbad i x s]
      cases hstep : step i x s with
      | error e => simp [forEachFrom, hstep, bind, Except.bind]
      | ok s' => simp [forEachFrom, hstep, ih, bind, Except.bind]

/-- A loop that has come to its end has made one thing of each element and put them
together in order. -/
theorem forEachFrom_trace (rel : α → β → Prop) (put : σ → β → σ)
    (hstep : ∀ i x s s', step i x s = .ok s' → ∃ y, rel x y ∧ s' = put s y) {i : ℕ} {l : List α}
    {s s' : σ} (h : forEachFrom step i l s = .ok s') :
    ∃ ys, List.Forall₂ rel l ys ∧ s' = ys.foldl put s := by
  induction l generalizing i s with
  | nil => exact ⟨[], .nil, (Except.ok.inj h).symm⟩
  | cons x l ih =>
      cases hfirst : step i x s with
      | error e => simp [forEachFrom, hfirst, bind, Except.bind] at h
      | ok s₁ =>
          obtain ⟨y, hy, rfl⟩ := hstep i x s s₁ hfirst
          obtain ⟨ys, hys, rfl⟩ := ih (by simpa [forEachFrom, hfirst, bind, Except.bind] using h)
          exact ⟨y :: ys, .cons hy hys, rfl⟩

end

/-! ### One thing of each element -/

theorem mapM_eq_ok_iff {f : α → Except ε β} {l : List α} {ys : List β} :
    l.mapM f = .ok ys ↔ List.Forall₂ (fun x y => f x = .ok y) l ys := by
  induction l generalizing ys with
  | nil => simp [pure, Except.pure, eq_comm]
  | cons x l ih =>
      rw [List.mapM_cons, List.forall₂_cons_left_iff]
      cases hx : f x with
      | error e => simp [bind, Except.bind]
      | ok y =>
          cases hl : l.mapM f with
          | error e =>
              refine iff_of_false (by simp [bind, Except.bind]) ?_
              rintro ⟨_, rest, -, hrest, -⟩
              rw [← ih, hl] at hrest
              cases hrest
          | ok rest =>
              have hrest := ih.mp hl
              constructor
              · intro h
                exact ⟨y, rest, rfl, hrest, (Except.ok.inj h).symm⟩
              · rintro ⟨y', rest', heq, hrest', rfl⟩
                obtain rfl := Except.ok.inj heq
                rw [← ih, hl] at hrest'
                rw [Except.ok.inj hrest']
                rfl

/-- It fails with the first element that does. -/
theorem mapM_eq_error {f : α → Except ε β} {l : List α} {e : ε} (h : l.mapM f = .error e) :
    ∃ before x after, l = before ++ x :: after ∧ (∀ a ∈ before, ∃ y, f a = .ok y) ∧
      f x = .error e := by
  induction l with
  | nil => cases h
  | cons x l ih =>
      rw [List.mapM_cons] at h
      cases hx : f x with
      | error e' =>
          obtain rfl : e' = e := by simpa [hx, bind, Except.bind] using h
          exact ⟨[], x, l, rfl, by simp, hx⟩
      | ok y =>
          have hl : l.mapM f = .error e := by
            cases hl : l.mapM f with
            | error e' => simpa [hx, hl, bind, Except.bind] using h
            | ok rest => simp [hx, hl, bind, Except.bind, pure, Except.pure] at h
          obtain ⟨before, x', after, rfl, hbefore, hx'⟩ := ih hl
          exact ⟨x :: before, x', after, rfl, List.forall_mem_cons.mpr ⟨⟨y, hx⟩, hbefore⟩, hx'⟩

theorem forall₂_comp {R : α → β → Prop} {S : β → γ → Prop} {xs : List α} {ys : List β}
    {zs : List γ} (h : List.Forall₂ R xs ys) (h' : List.Forall₂ S ys zs) :
    List.Forall₂ (fun x z => ∃ y, R x y ∧ S y z) xs zs := by
  induction h generalizing zs with
  | nil =>
      cases h'
      exact .nil
  | cons hxy _ ih =>
      cases h' with
      | cons hyz hrest => exact .cons ⟨_, hxy, hyz⟩ (ih hrest)

/-- What is related to something in the other list is there. -/
theorem forall₂_exists {R : α → β → Prop} {xs : List α} {ys : List β}
    (h : List.Forall₂ R xs ys) : (∀ x ∈ xs, ∃ y ∈ ys, R x y) ∧ ∀ y ∈ ys, ∃ x ∈ xs, R x y := by
  induction h with
  | nil => simp
  | cons hxy _ ih =>
      obtain ⟨hleft, hright⟩ := ih
      constructor
      · refine List.forall_mem_cons.mpr ⟨⟨_, List.mem_cons_self, hxy⟩, fun x hx => ?_⟩
        obtain ⟨y, hy, hr⟩ := hleft x hx
        exact ⟨y, List.mem_cons_of_mem _ hy, hr⟩
      · refine List.forall_mem_cons.mpr ⟨⟨_, List.mem_cons_self, hxy⟩, fun y hy => ?_⟩
        obtain ⟨x, hx, hr⟩ := hright y hy
        exact ⟨x, List.mem_cons_of_mem _ hx, hr⟩

theorem exists_mapM_iff {f : α → Except ε β} {l : List α} :
    (∃ ys, l.mapM f = .ok ys) ↔ ∀ x ∈ l, ∃ y, f x = .ok y := by
  constructor
  · rintro ⟨ys, h⟩ x hx
    obtain ⟨y, -, hy⟩ := (forall₂_exists (mapM_eq_ok_iff.mp h)).1 x hx
    exact ⟨y, hy⟩
  · intro hall
    cases h : l.mapM f with
    | ok ys => exact ⟨ys, rfl⟩
    | error e =>
        obtain ⟨before, x, after, rfl, -, hx⟩ := mapM_eq_error h
        obtain ⟨y, hy⟩ := hall x (List.mem_append_right before List.mem_cons_self)
        rw [hx] at hy
        cases hy

end Rsb.Library
