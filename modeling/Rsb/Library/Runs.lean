import Mathlib.Data.Option.Basic
import Mathlib.Tactic.Common

/-!
Runs of a labelled step function.

A system is a partial function `step : σ → ℓ → Option σ`: in the state `s` the
label `l` names at most one transition, and `none` says that it is not enabled.
An interleaving is a list of labels, and quantifying over all lists quantifies
over all schedules. `exec_invariant` is the induction every safety proof uses;
`exec_invariant_along` is the same induction for runs whose every step meets a
condition on the state before it.
-/

namespace Rsb.Library

variable {σ ℓ : Type}

/-- Follow the labels from `s`; `none` as soon as one of them is not enabled. -/
def exec (step : σ → ℓ → Option σ) : σ → List ℓ → Option σ
  | s, [] => some s
  | s, l :: ls => (step s l).bind fun s' => exec step s' ls

/-- Some run leads from `init` to `s`. -/
def Reachable (step : σ → ℓ → Option σ) (init s : σ) : Prop :=
  ∃ ls, exec step init ls = some s

/-- Every step of the run `ls` from `s` is taken in a state that meets `cond`. -/
def Along (step : σ → ℓ → Option σ) (cond : σ → ℓ → Prop) : σ → List ℓ → Prop
  | _, [] => True
  | s, l :: ls => cond s l ∧ ∀ s', step s l = some s' → Along step cond s' ls

instance Along.decidable {step : σ → ℓ → Option σ} {cond : σ → ℓ → Prop}
    [∀ s l, Decidable (cond s l)] : ∀ s ls, Decidable (Along step cond s ls)
  | _, [] => isTrue trivial
  | s, l :: ls =>
      match hstep : step s l with
      | none => decidable_of_iff (cond s l) (by simp [Along, hstep])
      | some s' =>
          have : Decidable (Along step cond s' ls) := Along.decidable s' ls
          decidable_of_iff (cond s l ∧ Along step cond s' ls) (by simp [Along, hstep])

section

variable {step : σ → ℓ → Option σ} {cond : σ → ℓ → Prop}

@[simp] theorem exec_nil (s : σ) : exec step s [] = some s := rfl

theorem exec_cons_eq_some {s s' : σ} {l : ℓ} {ls : List ℓ} :
    exec step s (l :: ls) = some s' ↔ ∃ t, step s l = some t ∧ exec step t ls = some s' := by
  simp [exec, Option.bind_eq_some_iff]

theorem exec_append {s t u : σ} {ls ls' : List ℓ} (h : exec step s ls = some t)
    (h' : exec step t ls' = some u) : exec step s (ls ++ ls') = some u := by
  induction ls generalizing s with
  | nil =>
      obtain rfl : s = t := by simpa using h
      exact h'
  | cons l ls ih =>
      obtain ⟨r, hr, hrest⟩ := exec_cons_eq_some.mp h
      exact exec_cons_eq_some.mpr ⟨r, hr, ih hrest⟩

/-- What holds at the start and survives every step holds wherever a run leads. -/
theorem exec_invariant {I : σ → Prop}
    (hstep : ∀ s l s', I s → step s l = some s' → I s') {s s' : σ} {ls : List ℓ}
    (hs : I s) (hrun : exec step s ls = some s') : I s' := by
  induction ls generalizing s with
  | nil =>
      obtain rfl : s = s' := by simpa using hrun
      exact hs
  | cons l ls ih =>
      obtain ⟨t, ht, hrest⟩ := exec_cons_eq_some.mp hrun
      exact ih (hstep s l t hs ht) hrest

theorem Reachable.invariant {I : σ → Prop} {init s : σ} (h : Reachable step init s)
    (hinit : I init) (hstep : ∀ s l s', I s → step s l = some s' → I s') : I s := by
  obtain ⟨ls, hrun⟩ := h
  exact exec_invariant hstep hinit hrun

/-- The invariant rule for a run all of whose steps meet `cond`. -/
theorem exec_invariant_along {I : σ → Prop}
    (hstep : ∀ s l s', I s → cond s l → step s l = some s' → I s') {s s' : σ} {ls : List ℓ}
    (hs : I s) (halong : Along step cond s ls) (hrun : exec step s ls = some s') : I s' := by
  induction ls generalizing s with
  | nil =>
      obtain rfl : s = s' := by simpa using hrun
      exact hs
  | cons l ls ih =>
      obtain ⟨t, ht, hrest⟩ := exec_cons_eq_some.mp hrun
      exact ih (hstep s l t hs halong.1 ht) (halong.2 t ht) hrest

theorem along_cons {s s' : σ} {l : ℓ} {ls : List ℓ} (hstep : step s l = some s') :
    Along step cond s (l :: ls) ↔ cond s l ∧ Along step cond s' ls := by
  simp [Along, hstep]

/-- A condition on the labels only. -/
theorem along_of_forall {cond : ℓ → Prop} {ls : List ℓ} (h : ∀ l ∈ ls, cond l) (s : σ) :
    Along step (fun _ l => cond l) s ls := by
  induction ls generalizing s with
  | nil => trivial
  | cons l ls ih =>
      exact ⟨h l List.mem_cons_self, fun s' _ => ih (fun l' hl' => h l' (List.mem_cons_of_mem _ hl')) s'⟩

/-- Two conditions that mean the same wherever the invariant holds mean the same along a
run. -/
theorem along_congr {I : σ → Prop} {cond' : σ → ℓ → Prop}
    (hstep : ∀ s l s', I s → step s l = some s' → I s')
    (hcond : ∀ s l s', I s → step s l = some s' → (cond s l ↔ cond' s l)) {s s' : σ}
    {ls : List ℓ} (hs : I s) (hrun : exec step s ls = some s') :
    Along step cond s ls ↔ Along step cond' s ls := by
  induction ls generalizing s with
  | nil => simp [Along]
  | cons l ls ih =>
      obtain ⟨t, ht, hrest⟩ := exec_cons_eq_some.mp hrun
      rw [along_cons ht, along_cons ht, hcond s l t hs ht, ih (hstep s l t hs ht) hrest]

/-- Where a step keeps the invariant just when it meets the condition, a run meets the
condition just when the invariant holds in all the states it passes. The invariant may speak
of the labels so far, and steps that are not enabled meet the condition. -/
theorem along_iff_prefixes {I : List ℓ → σ → Prop}
    (hstep : ∀ past s l s', I past s → step s l = some s' → (I (past ++ [l]) s' ↔ cond s l))
    (hrefused : ∀ s l, step s l = none → cond s l) (past : List ℓ) {s : σ} {ls : List ℓ}
    (hs : I past s) :
    Along step cond s ls ↔
      ∀ front, front <+: ls → ∀ t, exec step s front = some t → I (past ++ front) t := by
  induction ls generalizing past s with
  | nil =>
      refine ⟨fun _ front hfront t ht => ?_, fun _ => trivial⟩
      obtain rfl := List.prefix_nil.mp hfront
      obtain rfl := Option.some.inj ht
      rwa [List.append_nil]
  | cons l ls ih =>
      constructor
      · rintro ⟨hcond, hrest⟩ front hfront t ht
        rcases List.prefix_cons_iff.mp hfront with rfl | ⟨front, rfl, hbelow⟩
        · obtain rfl := Option.some.inj ht
          rwa [List.append_nil]
        · obtain ⟨u, hu, ht⟩ := exec_cons_eq_some.mp ht
          have hkept := (hstep past s l u hs hu).mpr hcond
          have hmore := (ih _ hkept).mp (hrest u hu) front hbelow t ht
          rwa [List.append_assoc] at hmore
      · intro hall
        have hkeeps : ∀ u, step s l = some u → I (past ++ [l]) u := fun u hu =>
          hall [l] (List.prefix_iff_eq_append.mpr rfl) u (exec_cons_eq_some.mpr ⟨u, hu, rfl⟩)
        refine ⟨?_, fun u hu => (ih _ (hkeeps u hu)).mpr fun front hfront t ht => ?_⟩
        · cases hl : step s l with
          | none => exact hrefused s l hl
          | some u => exact (hstep past s l u hs hl).mp (hkeeps u hl)
        · have hmore := hall (l :: front) (List.prefix_cons_inj l |>.mpr hfront) t
            (exec_cons_eq_some.mpr ⟨u, hu, ht⟩)
          rwa [List.append_assoc]

theorem along_append {s : σ} {ls ls' : List ℓ} :
    Along step cond s (ls ++ ls') ↔
      Along step cond s ls ∧ ∀ t, exec step s ls = some t → Along step cond t ls' := by
  induction ls generalizing s with
  | nil => simp [Along]
  | cons l ls ih =>
      simp only [List.cons_append, Along, ih, exec_cons_eq_some]
      constructor
      · rintro ⟨hc, h⟩
        exact ⟨⟨hc, fun t ht => (h t ht).1⟩, fun t ⟨u, hu, ht⟩ => (h u hu).2 t ht⟩
      · rintro ⟨⟨hc, h⟩, h'⟩
        exact ⟨hc, fun u hu => ⟨h u hu, fun t ht => h' t ⟨u, hu, ht⟩⟩⟩

end

end Rsb.Library
