import Mathlib.Data.List.Infix
import Mathlib.Data.List.Nodup
import Mathlib.Tactic.Common

/-!
What has come through a pipeline so far.

`Trails q l l'` says that `l` is what has arrived of the sequence `l'`: `l'`
continues `l`, and the continuation is empty once the pipeline is at rest, `q`.
A message that passes several first-in first-out stages is treated stage by
stage, and the stages compose with `Trails.trans`. Both order and exactly-once
delivery at the far end are read off one such fact.
-/

namespace Rsb.Library

variable {α : Type} {q : Prop}

/-- `l'` continues `l`, and is `l` when `q` holds. -/
def Trails (q : Prop) (l l' : List α) : Prop := ∃ rest, l ++ rest = l' ∧ (q → rest = [])

namespace Trails

theorem refl (l : List α) : Trails q l l := ⟨[], by simp, fun _ => rfl⟩

theorem trans {l₁ l₂ l₃ : List α} (h : Trails q l₁ l₂) (h' : Trails q l₂ l₃) :
    Trails q l₁ l₃ := by
  obtain ⟨r, rfl, hr⟩ := h
  obtain ⟨r', rfl, hr'⟩ := h'
  exact ⟨r ++ r', by simp, fun hq => by simp [hr hq, hr' hq]⟩

theorem filter {l l' : List α} (h : Trails q l l') (p : α → Bool) :
    Trails q (l.filter p) (l'.filter p) := by
  obtain ⟨r, rfl, hr⟩ := h
  exact ⟨r.filter p, by simp, fun hq => by simp [hr hq]⟩

theorem eq_of_rest {l l' : List α} (h : Trails q l l') (hq : q) : l = l' := by
  obtain ⟨r, rfl, hr⟩ := h
  simp [hr hq]

theorem sublist {l l' : List α} (h : Trails q l l') : l.Sublist l' := by
  obtain ⟨r, rfl, -⟩ := h
  exact List.sublist_append_left l r

/-- What arrives keeps its order: if the later of two messages has arrived, the
earlier one has arrived before it. -/
theorem ordered {l l' : List α} {a b : α} (h : Trails q l l') (hnodup : l'.Nodup)
    (hab : [a, b].Sublist l') (hb : b ∈ l) : [a, b].Sublist l := by
  obtain ⟨r, rfl, -⟩ := h
  have hnot : b ∉ r := fun hr => List.disjoint_of_nodup_append hnodup hb hr
  obtain ⟨l₁, l₂, heq, h₁, h₂⟩ := List.sublist_append_iff.mp hab
  rcases l₂.eq_nil_or_concat with rfl | ⟨init, last, rfl⟩
  · simpa [heq] using h₁
  · have hlast : last = b := by
      have := congrArg List.getLast? heq
      simpa [← List.append_assoc, eq_comm] using this
    exact absurd (h₂.subset (by simp [hlast])) hnot

end Trails

end Rsb.Library
