import Mathlib.Data.List.Basic
import Mathlib.Data.List.Nodup
import Mathlib.Data.List.Count

/-!
Erasures that may take a wrong element.

An erasure is meant for one element of a list, and it takes the first that it meets of this
element and of those that are stale. So it misses its element behind a stale one, and it
takes a stale one when its element is not there. In a sequence of erasures the second makes up
for the first: an element is met if at most as many stale ones stand in front of it as
erasures before its own had nothing else to take.
-/

namespace Rsb.Library

variable {α : Type} [DecidableEq α]

/-- Erase the first element that is stale or equal to `a`. -/
def eraseStale (stale : α → Bool) (a : α) (l : List α) : List α :=
  l.eraseP fun x => stale x || x == a

/-- Erasures one after the other. -/
def eraseEach (stale : α → Bool) : List α → List α → List α
  | [], l => l
  | a :: as, l => eraseEach stale as (eraseStale stale a l)

/-- The stale elements in front of `a`. -/
def staleBefore (stale : α → Bool) (a : α) (l : List α) : ℕ :=
  (l.takeWhile (· ≠ a)).countP stale

/-- The erasures for `as` find `a` in `l`. -/
def Found (stale : α → Bool) (as l : List α) (a : α) : Prop :=
  a ∈ l → l.count a = 1 ∧ staleBefore stale a l ≤ (as.takeWhile (· ≠ a)).countP (· ∉ l)

instance (stale : α → Bool) (as l : List α) (a : α) : Decidable (Found stale as l a) :=
  inferInstanceAs (Decidable (_ → _))

variable {stale : α → Bool} {a b : α} {l : List α}

theorem staleBefore_cons_self : staleBefore stale a (a :: l) = 0 := by
  simp [staleBefore]

theorem staleBefore_cons_of_ne (h : b ≠ a) : staleBefore stale a (b :: l) =
    staleBefore stale a l + if stale b = true then 1 else 0 := by
  rw [staleBefore, List.takeWhile_cons_of_pos (by simpa using h), List.countP_cons, staleBefore]

theorem count_eraseP_of_neg {p : α → Bool} (hb : p b = false) :
    (l.eraseP p).count b = l.count b := by
  induction l with
  | nil => rfl
  | cons x l ih =>
      by_cases hx : p x = true
      · have hne : x ≠ b := by
          rintro rfl
          simp [hb] at hx
        rw [List.eraseP_cons_of_pos hx, List.count_cons_of_ne hne]
      · rw [List.eraseP_cons_of_neg hx, List.count_cons, List.count_cons, ih]

theorem count_eraseStale (hb : stale b = false) (hne : b ≠ a) :
    (eraseStale stale a l).count b = l.count b :=
  count_eraseP_of_neg (by simp [hb, hne])

theorem mem_eraseStale (hb : stale b = false) (hne : b ≠ a) :
    b ∈ eraseStale stale a l ↔ b ∈ l := by
  rw [← List.count_pos_iff, ← List.count_pos_iff, count_eraseStale hb hne]

/-- An element is gone after its erasure if it was the first to be met, and there once. -/
theorem not_mem_eraseStale_iff :
    a ∉ eraseStale stale a l ↔ (a ∈ l → l.count a = 1 ∧ staleBefore stale a l = 0) := by
  induction l with
  | nil => simp [eraseStale]
  | cons x l ih =>
      by_cases hx : x = a
      · subst hx
        rw [eraseStale, List.eraseP_cons_of_pos (by simp), staleBefore_cons_self,
          List.count_cons_self]
        simp [List.count_eq_zero]
      · have hmem : a ∈ x :: l ↔ a ∈ l := by simp [Ne.symm hx]
        rw [hmem, List.count_cons_of_ne hx, staleBefore_cons_of_ne hx]
        cases hstale : stale x with
        | true =>
            rw [eraseStale, List.eraseP_cons_of_pos (by simp [hstale])]
            simp
        | false =>
            rw [eraseStale, List.eraseP_cons_of_neg (by simp [hstale, hx]), List.mem_cons,
              or_iff_right (Ne.symm hx)]
            rw [eraseStale] at ih
            simpa using ih

/-- An erasure without its element takes a stale one away from those in front. -/
theorem staleBefore_eraseStale_of_not_mem (ha : a ∉ l) (hb : stale b = false) :
    staleBefore stale b (eraseStale stale a l) = staleBefore stale b l - 1 := by
  induction l with
  | nil => rfl
  | cons x l ih =>
      obtain ⟨hxa, hl⟩ := List.ne_and_not_mem_of_not_mem_cons ha
      cases hstale : stale x with
      | true =>
          have hxb : x ≠ b := by
            rintro rfl
            simp [hb] at hstale
          rw [eraseStale, List.eraseP_cons_of_pos (by simp [hstale]),
            staleBefore_cons_of_ne hxb, if_pos hstale, Nat.add_sub_cancel]
      | false =>
          rw [eraseStale, List.eraseP_cons_of_neg (by simp [hstale, Ne.symm hxa])]
          by_cases hxb : x = b
          · subst hxb
            rw [staleBefore_cons_self, staleBefore_cons_self]
          · rw [staleBefore_cons_of_ne hxb, staleBefore_cons_of_ne hxb, if_neg (by simp [hstale])]
            exact ih hl

/-- An erasure that finds its element leaves the stale ones where they are. -/
theorem staleBefore_eraseStale_of_mem (hmem : a ∈ l) (hfront : staleBefore stale a l = 0)
    (ha : stale a = false) (hne : b ≠ a) :
    staleBefore stale b (eraseStale stale a l) = staleBefore stale b l := by
  induction l with
  | nil => rfl
  | cons x l ih =>
      by_cases hxa : x = a
      · subst hxa
        rw [eraseStale, List.eraseP_cons_of_pos (by simp), staleBefore_cons_of_ne (Ne.symm hne),
          if_neg (by simp [ha]), Nat.add_zero]
      · rw [staleBefore_cons_of_ne hxa] at hfront
        have hstale : stale x = false := by
          by_contra h
          rw [if_pos (by simpa using h)] at hfront
          omega
        rw [eraseStale, List.eraseP_cons_of_neg (by simp [hstale, hxa])]
        by_cases hxb : x = b
        · subst hxb
          rw [staleBefore_cons_self, staleBefore_cons_self]
        · rw [staleBefore_cons_of_ne hxb, staleBefore_cons_of_ne hxb, ← eraseStale,
            ih ((List.mem_cons.mp hmem).resolve_left (Ne.symm hxa)) (by omega)]

theorem count_eraseEach {as : List α} (hb : stale b = false) (hnot : b ∉ as) (l : List α) :
    (eraseEach stale as l).count b = l.count b := by
  induction as generalizing l with
  | nil => rfl
  | cons a as ih =>
      obtain ⟨hne, hnot⟩ := List.ne_and_not_mem_of_not_mem_cons hnot
      rw [eraseEach, ih hnot, count_eraseStale hb hne]

/-- The erasures that come later meet what they met before, and one of the stale elements
less if the first one had nothing else to take. -/
theorem found_cons_iff {as : List α} (ha : stale a = false) (hb : stale b = false) (hne : b ≠ a)
    (hfound : a ∈ l → staleBefore stale a l = 0) (has : ∀ c ∈ as, stale c = false ∧ c ≠ a) :
    Found stale (a :: as) l b ↔ Found stale as (eraseStale stale a l) b := by
  have hcount : (as.takeWhile (· ≠ b)).countP (· ∉ eraseStale stale a l) =
      (as.takeWhile (· ≠ b)).countP (· ∉ l) := by
    apply List.countP_congr
    intro c hc
    obtain ⟨hc', hca⟩ := has c ((List.takeWhile_sublist _).subset hc)
    simp [mem_eraseStale hc' hca]
  have htake : (a :: as).takeWhile (· ≠ b) = a :: as.takeWhile (· ≠ b) :=
    List.takeWhile_cons_of_pos (by simpa using Ne.symm hne)
  rw [Found, Found, mem_eraseStale hb hne, count_eraseStale hb hne, hcount, htake,
    List.countP_cons]
  by_cases hmem : a ∈ l
  · rw [staleBefore_eraseStale_of_mem hmem (hfound hmem) ha hne]
    simp [hmem]
  · rw [staleBefore_eraseStale_of_not_mem hmem hb]
    simp [hmem]

/-- A sequence of erasures takes all its elements out of a list if, and only if, it finds
them. -/
theorem not_mem_eraseEach_iff {as : List α} (hnodup : as.Nodup)
    (has : ∀ a ∈ as, stale a = false) (l : List α) :
    (∀ a ∈ as, a ∉ eraseEach stale as l) ↔ ∀ a ∈ as, Found stale as l a := by
  induction as generalizing l with
  | nil => simp
  | cons a as ih =>
      obtain ⟨hnot, hnodup⟩ := List.nodup_cons.mp hnodup
      obtain ⟨ha, has⟩ := List.forall_mem_cons.mp has
      have hfirst : a ∉ eraseEach stale as (eraseStale stale a l) ↔ Found stale (a :: as) l a := by
        rw [← List.count_eq_zero, count_eraseEach ha hnot, List.count_eq_zero,
          not_mem_eraseStale_iff, Found, List.takeWhile_cons_of_neg (by simp)]
        simp
      rw [List.forall_mem_cons, List.forall_mem_cons, eraseEach, hfirst,
        ih hnodup has (eraseStale stale a l)]
      refine and_congr_right fun hfound => forall₂_congr fun b hb => (found_cons_iff ha (has b hb)
        (fun heq => hnot (heq ▸ hb)) (fun hmem => ?_)
        fun c hc => ⟨has c hc, fun heq => hnot (heq ▸ hc)⟩).symm
      have hbefore := (hfound hmem).2
      rw [List.takeWhile_cons_of_neg (by simp)] at hbefore
      exact Nat.le_zero.mp hbefore

end Rsb.Library
