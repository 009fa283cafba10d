import Mathlib.Logic.Function.Basic
import Rsb.Library.Runs

/-!
Threads that take and release recursive locks.

A program is given by its points of control: which locks a thread holds there,
and which lock it is about to take, if any. Leaving a point that wants a lock
takes the lock; a lock that is not held at the point reached is released. A
thread that holds a lock may take it again. The threads share some data.
-/

namespace Rsb.Library

/-- Points of control `P`, shared data `D`, actions `A` and locks `L`. -/
structure Program (P D A L : Type) where
  next : D → P → A → Option (P × D)
  holds : P → List L
  wants : P → Option L

namespace Program

variable {P D A L T : Type}

structure State (P D L T : Type) where
  pc : T → P
  data : D
  owner : L → Option T

variable (prog : Program P D A L)

/-- A thread takes no lock but the one it wants. -/
def WellLocked : Prop :=
  ∀ d p a p' d', prog.next d p a = some (p', d') →
    ∀ l ∈ prog.holds p', l ∈ prog.holds p ∨ prog.wants p = some l

/-- The owners know what they hold. -/
def Owned (s : State P D L T) : Prop :=
  ∀ l t, s.owner l = some t ↔ l ∈ prog.holds (s.pc t)

/-- Thread `t` cannot go on before `t'` releases a lock. -/
def Waits (s : State P D L T) (t t' : T) : Prop :=
  t ≠ t' ∧ ∃ l, prog.wants (s.pc t) = some l ∧ l ∈ prog.holds (s.pc t')

/-- Two threads each hold a lock that the other one waits for. -/
def Crossed (s : State P D L T) : Prop :=
  ∃ t t', prog.Waits s t t' ∧ prog.Waits s t' t

variable [DecidableEq L] [DecidableEq T]

/-- The lock can be taken by `t`. -/
def Free (owner : L → Option T) (t : T) (l : L) : Prop := owner l = none ∨ owner l = some t

instance (owner : L → Option T) (t : T) (l : L) : Decidable (Free owner t l) :=
  inferInstanceAs (Decidable (_ ∨ _))

/-- Thread `t` performs action `a`. -/
def step (s : State P D L T) : T × A → Option (State P D L T)
  | (t, a) =>
      match prog.next s.data (s.pc t) a with
      | none => none
      | some (p, d) =>
          if ∀ l ∈ prog.wants (s.pc t), Free s.owner t l then
            some {
              pc := Function.update s.pc t p
              data := d
              owner := fun l =>
                if l ∈ prog.holds p then some t
                else if s.owner l = some t then none else s.owner l }
          else none

variable {prog}

theorem step_eq_some {s s' : State P D L T} {t : T} {a : A} (h : prog.step s (t, a) = some s') :
    ∃ p d, prog.next s.data (s.pc t) a = some (p, d) ∧
      (∀ l, prog.wants (s.pc t) = some l → Free s.owner t l) ∧
      s' = { pc := Function.update s.pc t p
             data := d
             owner := fun l =>
               if l ∈ prog.holds p then some t
               else if s.owner l = some t then none else s.owner l } := by
  simp only [step] at h
  split at h
  · simp at h
  · next p d hnext =>
      split_ifs at h with hfree
      exact ⟨p, d, hnext, fun l hl => hfree l hl, (Option.some.inj h).symm⟩

theorem Owned.step (hwell : prog.WellLocked) {s s' : State P D L T} {t : T} {a : A}
    (h : prog.Owned s) (hstep : prog.step s (t, a) = some s') : prog.Owned s' := by
  obtain ⟨p, d, hnext, hfree, rfl⟩ := step_eq_some hstep
  intro l t'
  have hothers : l ∈ prog.holds p → ∀ t', t' ≠ t → l ∉ prog.holds (s.pc t') := by
    intro hl t' hne hl'
    have howner := (h l t').mpr hl'
    rcases hwell _ _ _ _ _ hnext l hl with hold | hwant
    · exact hne (Option.some.inj (howner.symm.trans ((h l t).mpr hold)))
    · rcases hfree l hwant with hnone | hsome
      · exact absurd (howner.symm.trans hnone) (by simp)
      · exact hne (Option.some.inj (howner.symm.trans hsome))
  by_cases ht : t' = t
  · subst ht
    by_cases hl : l ∈ prog.holds p
    · simp [hl]
    · by_cases howner : s.owner l = some t' <;> simp [hl, howner]
  · simp only [Function.update_of_ne ht]
    rw [← h l t']
    by_cases hl : l ∈ prog.holds p
    · have hne : s.owner l ≠ some t' := fun howner => hothers hl t' ht ((h l t').mp howner)
      simp [hl, hne, Ne.symm ht]
    · by_cases howner : s.owner l = some t
      · simp [hl, howner, Ne.symm ht]
      · simp [hl, howner]

omit [DecidableEq L] [DecidableEq T] in
/-- A lock is held by one thread at a time. -/
theorem Owned.exclusive {s : State P D L T} (h : prog.Owned s) {l : L} {t t' : T}
    (hl : l ∈ prog.holds (s.pc t)) (hl' : l ∈ prog.holds (s.pc t')) : t = t' :=
  Option.some.inj (((h l t).mpr hl).symm.trans ((h l t').mpr hl'))

/-- A thread that waits takes no step. -/
theorem Owned.blocked {s : State P D L T} (h : prog.Owned s) {t t' : T}
    (hwaits : prog.Waits s t t') (a : A) : prog.step s (t, a) = none := by
  obtain ⟨hne, l, hwants, hholds⟩ := hwaits
  have howner : s.owner l = some t' := (h l t').mpr hholds
  rw [Option.eq_none_iff_forall_ne_some]
  intro s' hstep
  obtain ⟨p, d, -, hfree, -⟩ := step_eq_some hstep
  rcases hfree l hwants with hnone | hsome
  · exact absurd (hnone.symm.trans howner) (by simp)
  · exact hne (Option.some.inj (hsome.symm.trans howner))

/-- Two threads that wait for each other do so for ever. -/
theorem Crossed.exec (hwell : prog.WellLocked) {s s' : State P D L T} (hs : prog.Owned s)
    (h : prog.Crossed s) {labels : List (T × A)}
    (hrun : Library.exec prog.step s labels = some s') : prog.Crossed s' := by
  obtain ⟨t, t', hwaits, hwaits'⟩ := h
  have hstep : ∀ s label s', prog.Owned s ∧ prog.Waits s t t' ∧ prog.Waits s t' t →
      prog.step s label = some s' → prog.Owned s' ∧ prog.Waits s' t t' ∧ prog.Waits s' t' t := by
    rintro s ⟨t₀, a⟩ s' ⟨howned, hw, hw'⟩ hstep
    have hne : t ≠ t₀ := by
      rintro rfl
      simp [howned.blocked hw] at hstep
    have hne' : t' ≠ t₀ := by
      rintro rfl
      simp [howned.blocked hw'] at hstep
    refine ⟨howned.step hwell hstep, ?_⟩
    obtain ⟨p, d, -, -, rfl⟩ := step_eq_some hstep
    simpa [Waits, Function.update_of_ne hne, Function.update_of_ne hne'] using And.intro hw hw'
  exact ⟨t, t', (exec_invariant hstep ⟨hs, hwaits, hwaits'⟩ hrun).2⟩

end Program

end Rsb.Library
