import Rsb.Library.Runs
import Mathlib.Algebra.BigOperators.Group.Finset.Basic

/-!
Work that runs out.

Every step of some kind does one unit of the work that is left. Then a run of such steps is as
long as the work it has done, and a system that can go on until it is done is done after just
so many steps, however they are scheduled.
-/

namespace Rsb.Library

variable {σ ℓ : Type} {step : σ → ℓ → Option σ}

/-- Steps with labels of the kind `K` do one unit of the work each, and from a state that is not
`Done` there is such a step. -/
structure Progress (step : σ → ℓ → Option σ) (K : ℓ → Prop) (I : σ → Prop) (Done : σ → Prop)
    (work : σ → ℕ) : Prop where
  invariant : ∀ s l s', I s → K l → step s l = some s' → I s'
  does : ∀ s l s', I s → K l → step s l = some s' → work s = work s' + 1
  goes : ∀ s, I s → ¬Done s → ∃ l s', K l ∧ step s l = some s'

namespace Progress

variable {K : ℓ → Prop} {I Done : σ → Prop} {work : σ → ℕ} (h : Progress step K I Done work)

include h

theorem of_exec {s s' : σ} {ls : List ℓ} (hs : I s) (hls : ∀ l ∈ ls, K l)
    (hrun : exec step s ls = some s') : I s' ∧ work s = work s' + ls.length := by
  induction ls generalizing s with
  | nil =>
      obtain rfl : s = s' := by simpa using hrun
      exact ⟨hs, rfl⟩
  | cons l ls ih =>
      obtain ⟨t, ht, hrest⟩ := exec_cons_eq_some.mp hrun
      have hl : K l := hls l List.mem_cons_self
      obtain ⟨hs', hwork⟩ := ih (h.invariant s l t hs hl ht)
        (fun l' hl' => hls l' (List.mem_cons_of_mem _ hl')) hrest
      refine ⟨hs', ?_⟩
      rw [h.does s l t hs hl ht, hwork, List.length_cons]
      omega

/-- When no work is left, all is done. -/
theorem done {s : σ} (hs : I s) (hwork : work s = 0) : Done s := by
  by_contra hnot
  obtain ⟨l, s', hl, hstep⟩ := h.goes s hs hnot
  have hdoes := h.does s l s' hs hl hstep
  omega

/-- Every run can be completed. -/
theorem exists_exec {s : σ} (hs : I s) :
    ∃ ls s', (∀ l ∈ ls, K l) ∧ exec step s ls = some s' ∧ Done s' := by
  induction hn : work s generalizing s with
  | zero => exact ⟨[], s, by simp, rfl, h.done hs hn⟩
  | succ n ih =>
      by_cases hdone : Done s
      · exact ⟨[], s, by simp, rfl, hdone⟩
      · obtain ⟨l, t, hl, ht⟩ := h.goes s hs hdone
        have hdoes := h.does s l t hs hl ht
        obtain ⟨ls, s', hls, hrun, hs'⟩ := ih (h.invariant s l t hs hl ht) (by omega)
        exact ⟨l :: ls, s', List.forall_mem_cons.mpr ⟨hl, hls⟩,
          exec_cons_eq_some.mpr ⟨t, ht, hrun⟩, hs'⟩

end Progress

/-- Work that is spread over many places changes where one of them does. -/
theorem sum_update {ι α : Type} [DecidableEq ι] {places : Finset ι} {i : ι} (hi : i ∈ places)
    (work : ι → α → ℕ) (f : ι → α) (a : α) :
    ∑ j ∈ places, work j (Function.update f i a j) + work i (f i) =
      ∑ j ∈ places, work j (f j) + work i a := by
  have hothers : ∑ j ∈ places.erase i, work j (Function.update f i a j) =
      ∑ j ∈ places.erase i, work j (f j) :=
    Finset.sum_congr rfl fun j hj => by rw [Function.update_of_ne (Finset.ne_of_mem_erase hj)]
  rw [← Finset.add_sum_erase _ _ hi, ← Finset.add_sum_erase _ (fun j => work j (f j)) hi,
    hothers, Function.update_self]
  omega

end Rsb.Library
