import Mathlib.Logic.Function.Basic
import Rsb.Library.Runs

/-!
Threads that call functions under locks which are not recursive.

A thread has a stack of frames, the running one on top. A function called by a frame
runs on top of it, while the frame below keeps its locks; in this way a function may be
entered again before an earlier call of it has returned. A thread that wants a lock
which it holds in a frame below waits for itself, and nothing can end that.

What may run on top of a frame that holds the lock `l` is described by a predicate
`Inside l`. As long as the calls keep to it, no thread waits for itself, provided that
no frame inside `l` wants `l`.
-/

namespace Rsb.Library

/-- How a frame goes on: in another frame of the same call, with a call, or with its
end. -/
inductive Effect (F D : Type)
  | goto (frame : F) (data : D)
  | call (frame callee : F) (data : D)
  | ret (data : D)

namespace Effect

variable {F D : Type}

/-- What replaces the frame. -/
def frames : Effect F D → List F
  | goto frame _ => [frame]
  | call frame callee _ => [callee, frame]
  | ret _ => []

def data : Effect F D → D
  | goto _ data | call _ _ data | ret data => data

end Effect

/-- Frames `F`, shared data `D`, actions `A` and locks `L`. A frame holds some locks,
and may want one before it can go on. -/
structure Nested (F D A L : Type) where
  next : D → F → A → Option (Effect F D)
  holds : F → List L
  wants : F → Option L

namespace Nested

variable {F D A L T : Type}

structure State (F D L T : Type) where
  stack : T → List F
  data : D
  owner : L → Option T

variable (prog : Nested F D A L)

/-- A frame takes no lock but the one it wants, and a call begins without any. -/
structure WellLocked : Prop where
  taken : ∀ d f a e, prog.next d f a = some e →
    ∀ g ∈ e.frames, ∀ l ∈ prog.holds g, l ∈ prog.holds f ∨ prog.wants f = some l
  callee : ∀ d f a g c d', prog.next d f a = some (.call g c d') → prog.holds c = []

/-- The owners are those that hold the locks, each in one frame. -/
structure Owned (s : State F D L T) : Prop where
  held : ∀ l t, s.owner l = some t ↔ ∃ f ∈ s.stack t, l ∈ prog.holds f
  once : ∀ t, (s.stack t).Pairwise fun f g => ∀ l ∈ prog.holds f, l ∉ prog.holds g

/-- Thread `t` is about to take a lock that it holds already. -/
def SelfWait (s : State F D L T) (t : T) : Prop :=
  ∃ f rest l, s.stack t = f :: rest ∧ prog.wants f = some l ∧ s.owner l = some t

/-- On top of a frame that holds `l` there are only frames inside `l`. -/
def Guarded (Inside : L → F → Prop) (s : State F D L T) : Prop :=
  ∀ t, (s.stack t).Pairwise fun f g => ∀ l ∈ prog.holds g, Inside l f

variable [DecidableEq L] [DecidableEq T]

/-- The top frame of thread `t` performs action `a`. -/
def step (s : State F D L T) : T × A → Option (State F D L T)
  | (t, a) =>
      match s.stack t with
      | [] => none
      | f :: rest =>
          match prog.next s.data f a with
          | none => none
          | some e =>
              if ∀ l ∈ prog.wants f, s.owner l = none then
                some {
                  stack := Function.update s.stack t (e.frames ++ rest)
                  data := e.data
                  owner := fun l =>
                    if ∃ g ∈ e.frames, l ∈ prog.holds g then some t
                    else if l ∈ prog.holds f then none else s.owner l }
              else none

variable {prog}

theorem step_eq_some {s s' : State F D L T} {t : T} {a : A} :
    prog.step s (t, a) = some s' ↔ ∃ f rest e, s.stack t = f :: rest ∧
      prog.next s.data f a = some e ∧ (∀ l, prog.wants f = some l → s.owner l = none) ∧
      s' = { stack := Function.update s.stack t (e.frames ++ rest)
             data := e.data
             owner := fun l =>
               if ∃ g ∈ e.frames, l ∈ prog.holds g then some t
               else if l ∈ prog.holds f then none else s.owner l } := by
  cases hstack : s.stack t with
  | nil => simp [step, hstack]
  | cons f rest =>
      cases hnext : prog.next s.data f a with
      | none => simp [step, hstack, hnext]
      | some e =>
          simp only [step, hstack, hnext]
          constructor
          · intro h
            split_ifs at h with hfree
            exact ⟨f, rest, e, rfl, hnext, hfree, (Option.some.inj h).symm⟩
          · rintro ⟨f', rest', e', hcons, hnext', hfree, rfl⟩
            obtain ⟨rfl, rfl⟩ := List.cons.inj hcons
            obtain rfl : e = e' := Option.some.inj (hnext.symm.trans hnext')
            exact if_pos hfree

omit [DecidableEq L] [DecidableEq T] in
theorem Owned.not_holds {s : State F D L T} (h : prog.Owned s) {l : L} {t : T}
    (howner : s.owner l ≠ some t) {f : F} (hf : f ∈ s.stack t) : l ∉ prog.holds f :=
  fun hl => howner ((h.held l t).mpr ⟨f, hf, hl⟩)

omit [DecidableEq L] [DecidableEq T] in
/-- A lock is held by one frame at a time. -/
theorem Owned.exclusive {s : State F D L T} (h : prog.Owned s) {t : T} {f : F} {rest : List F}
    (hstack : s.stack t = f :: rest) {l : L} (hl : l ∈ prog.holds f) :
    (∀ r ∈ rest, l ∉ prog.holds r) ∧ ∀ t', t' ≠ t → ∀ g ∈ s.stack t', l ∉ prog.holds g := by
  have howner : s.owner l = some t := (h.held l t).mpr ⟨f, hstack ▸ List.mem_cons_self, hl⟩
  have honce := h.once t
  rw [hstack, List.pairwise_cons] at honce
  refine ⟨fun r hr => honce.1 r hr l hl, fun t' ht g hg => h.not_holds ?_ hg⟩
  rw [howner]
  exact fun heq => ht (Option.some.inj heq).symm

omit [DecidableEq L] [DecidableEq T] in
/-- A lock that the frames after a step hold was held by the frame before it, or was
free. -/
theorem Owned.others (hwell : prog.WellLocked) {s : State F D L T} (h : prog.Owned s) {t : T}
    {f : F} {rest : List F} (hstack : s.stack t = f :: rest) {a : A} {e : Effect F D}
    (hnext : prog.next s.data f a = some e)
    (hfree : ∀ l, prog.wants f = some l → s.owner l = none) {g : F} (hg : g ∈ e.frames) {l : L}
    (hl : l ∈ prog.holds g) :
    (s.owner l = some t ∨ s.owner l = none) ∧ ∀ r ∈ rest, l ∉ prog.holds r := by
  rcases hwell.taken _ _ _ _ hnext g hg l hl with hold | hwants
  · have hf : f ∈ s.stack t := hstack ▸ List.mem_cons_self
    have honce := h.once t
    rw [hstack, List.pairwise_cons] at honce
    exact ⟨.inl ((h.held l t).mpr ⟨f, hf, hold⟩), fun r hr => honce.1 r hr l hold⟩
  · have hnone := hfree l hwants
    refine ⟨.inr hnone, fun r hr => h.not_holds (t := t) (by simp [hnone]) ?_⟩
    rw [hstack]
    exact List.mem_cons_of_mem f hr

omit [DecidableEq L] [DecidableEq T] in
theorem WellLocked.once_frames (hwell : prog.WellLocked) {d : D} {f : F} {a : A}
    {e : Effect F D} (hnext : prog.next d f a = some e) :
    e.frames.Pairwise fun g g' => ∀ l ∈ prog.holds g, l ∉ prog.holds g' := by
  cases e with
  | goto g d' => exact List.pairwise_singleton _ _
  | call g c d' => simp [Effect.frames, hwell.callee _ _ _ _ _ _ hnext]
  | ret d' => exact List.Pairwise.nil

theorem Owned.step (hwell : prog.WellLocked) {s s' : State F D L T} {t : T} {a : A}
    (h : prog.Owned s) (hstep : prog.step s (t, a) = some s') : prog.Owned s' := by
  obtain ⟨f, rest, e, hstack, hnext, hfree, rfl⟩ := step_eq_some.mp hstep
  have hothers := fun g hg l hl => h.others hwell hstack hnext hfree (g := g) hg (l := l) hl
  have honce := h.once t
  rw [hstack, List.pairwise_cons] at honce
  constructor
  · intro l t'
    by_cases ht : t' = t
    · subst ht
      simp only [Function.update_self, List.mem_append, or_and_right, exists_or]
      by_cases htaken : ∃ g ∈ e.frames, l ∈ prog.holds g
      · simp [htaken]
      · by_cases hl : l ∈ prog.holds f
        · have hrest : ¬∃ r ∈ rest, l ∈ prog.holds r := fun ⟨r, hr, hlr⟩ => honce.1 r hr l hl hlr
          simp [htaken, hl, hrest]
        · have hheld := h.held l t'
          simp only [hstack, List.mem_cons, or_and_right, exists_or, exists_eq_left, hl,
            false_or] at hheld
          simp [htaken, hl, hheld]
    · simp only [Function.update_of_ne ht]
      rw [← h.held l t']
      by_cases htaken : ∃ g ∈ e.frames, l ∈ prog.holds g
      · rw [if_pos htaken]
        obtain ⟨g, hg, hl⟩ := htaken
        rcases (hothers g hg l hl).1 with howner | howner <;> simp [howner, Ne.symm ht]
      · by_cases hl : l ∈ prog.holds f
        · have howner : s.owner l = some t :=
            (h.held l t).mpr ⟨f, hstack ▸ List.mem_cons_self, hl⟩
          simp [htaken, hl, howner, Ne.symm ht]
        · simp [htaken, hl]
  · intro t'
    by_cases ht : t' = t
    · subst ht
      simp only [Function.update_self]
      rw [List.pairwise_append]
      exact ⟨hwell.once_frames hnext, honce.2, fun g hg r hr l hl => (hothers g hg l hl).2 r hr⟩
    · simp only [Function.update_of_ne ht]
      exact h.once t'

/-- What one step has to meet: a frame that is inside a lock goes on inside of it, and
what is called under a lock is inside of it. -/
structure Keeps (prog : Nested F D A L) (Inside : L → F → Prop) (s : State F D L T) (t : T)
    (f : F) (rest : List F) (e : Effect F D) : Prop where
  inside : ∀ l, s.owner l = some t → (∃ r ∈ rest, l ∈ prog.holds r) → Inside l f →
    ∀ g ∈ e.frames, Inside l g
  enters : ∀ g c d, e = .call g c d → ∀ l ∈ prog.holds g, Inside l c

theorem Guarded.step {Inside : L → F → Prop} {s s' : State F D L T} {t : T} {a : A}
    (howned : prog.Owned s) (h : prog.Guarded Inside s) (hstep : prog.step s (t, a) = some s')
    (hkeeps : ∀ f rest e, s.stack t = f :: rest → prog.next s.data f a = some e →
      Keeps prog Inside s t f rest e) : prog.Guarded Inside s' := by
  obtain ⟨f, rest, e, hstack, hnext, -, rfl⟩ := step_eq_some.mp hstep
  obtain ⟨hinside, henters⟩ := hkeeps f rest e hstack hnext
  intro t'
  by_cases ht : t' = t
  · subst ht
    have hguarded := h t'
    rw [hstack, List.pairwise_cons] at hguarded
    simp only [Function.update_self]
    rw [List.pairwise_append]
    refine ⟨?_, hguarded.2, ?_⟩
    · cases e with
      | goto g d => exact List.pairwise_singleton _ _
      | call g c d => simpa [Effect.frames] using henters g c d rfl
      | ret d => exact List.Pairwise.nil
    · intro g hg r hr l hl
      have howner : s.owner l = some t' :=
        (howned.held l t').mpr ⟨r, hstack ▸ List.mem_cons_of_mem f hr, hl⟩
      exact hinside l howner ⟨r, hr, hl⟩ (hguarded.1 r hr l hl) g hg
  · simp only [Function.update_of_ne ht]
    exact h t'

omit [DecidableEq L] [DecidableEq T] in
/-- No thread waits for itself, if no frame inside a lock wants that lock. -/
theorem Guarded.not_selfWait {Inside : L → F → Prop} {s : State F D L T}
    (howned : prog.Owned s) (h : prog.Guarded Inside s)
    (hwants : ∀ f l, prog.wants f = some l → l ∉ prog.holds f ∧ ¬Inside l f) (t : T) :
    ¬prog.SelfWait s t := by
  rintro ⟨f, rest, l, hstack, hl, howner⟩
  obtain ⟨g, hg, hholds⟩ := (howned.held l t).mp howner
  have hguarded := h t
  rw [hstack, List.pairwise_cons] at hguarded
  rw [hstack] at hg
  rcases List.mem_cons.mp hg with rfl | hrest
  · exact (hwants g l hl).1 hholds
  · exact (hwants f l hl).2 (hguarded.1 g hrest l hholds)

/-- Thread `t` gets from `s` to `s'` while the others do nothing. -/
def Alone (prog : Nested F D A L) (t : T) (s s' : State F D L T) : Prop :=
  ∃ actions : List A, exec prog.step s (actions.map fun a => (t, a)) = some s'

theorem Alone.refl (t : T) (s : State F D L T) : prog.Alone t s s := ⟨[], rfl⟩

theorem Alone.trans {t : T} {s s' s'' : State F D L T} (h : prog.Alone t s s')
    (h' : prog.Alone t s' s'') : prog.Alone t s s'' := by
  obtain ⟨actions, hrun⟩ := h
  obtain ⟨actions', hrun'⟩ := h'
  exact ⟨actions ++ actions', by rw [List.map_append]; exact exec_append hrun hrun'⟩

/-- One step, when the lock that the frame wants is free. -/
theorem exists_alone (prog : Nested F D A L) {s : State F D L T} {t : T} {f : F}
    {rest : List F} {a : A} {e : Effect F D}
    (hstack : s.stack t = f :: rest) (hnext : prog.next s.data f a = some e)
    (hfree : ∀ l, prog.wants f = some l → s.owner l = none) :
    ∃ s', prog.Alone t s s' ∧ s'.stack t = e.frames ++ rest ∧ s'.data = e.data ∧
      ∀ l, s'.owner l = if ∃ g ∈ e.frames, l ∈ prog.holds g then some t
        else if l ∈ prog.holds f then none else s.owner l := by
  refine ⟨_, ⟨[a], exec_cons_eq_some.mpr ⟨_, step_eq_some.mpr
    ⟨f, rest, e, hstack, hnext, hfree, rfl⟩, rfl⟩⟩, ?_, rfl, fun l => rfl⟩
  exact Function.update_self ..

/-- A frame makes one call after the other, each of which returns in its first step. -/
theorem exists_alone_calls (prog : Nested F D A L) {X : Type} (frame : List X → F)
    (callee : X → F) (put : D → X → D) {a : A} {held : List L}
    (hcall : ∀ d x xs, prog.next d (frame (x :: xs)) a = some (.call (frame xs) (callee x) d))
    (hret : ∀ d x, prog.next d (callee x) a = some (.ret (put d x)))
    (hframe : ∀ xs, prog.wants (frame xs) = none ∧ prog.holds (frame xs) = held)
    (hcallee : ∀ x, prog.wants (callee x) = none ∧ prog.holds (callee x) = [])
    {s : State F D L T} {t : T} {rest : List F} {xs : List X}
    (hstack : s.stack t = frame xs :: rest) (howner : ∀ l ∈ held, s.owner l = some t) :
    ∃ s', prog.Alone t s s' ∧ s'.stack t = frame [] :: rest ∧ s'.data = xs.foldl put s.data ∧
      ∀ l, s'.owner l = s.owner l := by
  induction xs generalizing s with
  | nil => exact ⟨s, .refl t s, hstack, rfl, fun _ => rfl⟩
  | cons x xs ih =>
      obtain ⟨s₁, hrun₁, hstack₁, hdata₁, howner₁⟩ := exists_alone prog hstack (hcall s.data x xs)
        (by simp [hframe])
      obtain ⟨s₂, hrun₂, hstack₂, hdata₂, howner₂⟩ := exists_alone prog hstack₁ (hret s₁.data x)
        (by simp [hcallee])
      -- the frame holds its locks while the call lasts
      have hkept : ∀ l, s₂.owner l = s.owner l := by
        intro l
        by_cases hl : l ∈ held
        · simp [howner₂, howner₁, Effect.frames, hcallee, hframe, hl, howner l hl]
        · simp [howner₂, howner₁, Effect.frames, hcallee, hframe, hl]
      obtain ⟨s', hrun', hstack', hdata', howner'⟩ :=
        ih hstack₂ fun l hl => (hkept l).trans (howner l hl)
      refine ⟨s', (hrun₁.trans hrun₂).trans hrun', hstack', ?_, fun l => (howner' l).trans (hkept l)⟩
      rw [hdata', hdata₂, Effect.data, hdata₁]
      rfl

/-- A thread that waits for itself takes no step. -/
theorem SelfWait.stuck {s : State F D L T} {t : T} (h : prog.SelfWait s t) (a : A) :
    prog.step s (t, a) = none := by
  obtain ⟨f, rest, l, hstack, hl, howner⟩ := h
  rw [Option.eq_none_iff_forall_ne_some]
  intro s' hstep
  obtain ⟨f', rest', e, hstack', -, hfree, -⟩ := step_eq_some.mp hstep
  obtain ⟨rfl, -⟩ := List.cons.inj (hstack.symm.trans hstack')
  exact absurd ((hfree l hl).symm.trans howner) (by simp)

end Nested

end Rsb.Library
