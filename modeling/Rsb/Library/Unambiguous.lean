import Rsb.Library.SortedMap
import Mathlib.Data.List.Induction

/-!
Maps that are filled from a list of pairs, and what a second value for a key does.

If it is refused, then filling succeeds exactly for the lists in which no key occurs
twice; the map holds the pairs of the list, and a failure is that of the first pair
whose key has a value already. If it is not refused, the last value stays.
-/

namespace Rsb.Library.SortedMap

variable {κ β ε : Type} [LinearOrder κ] {refused : κ → β → β → ε} {l : List (κ × β)}

/-- Store a value unless there is one under its key already. -/
def insertNew (refused : κ → β → β → ε) (m : SortedMap κ β) (e : κ × β) :
    Except ε (SortedMap κ β) :=
  match m.find? e.1 with
  | some old => .error (refused e.1 old e.2)
  | none => .ok (m.insert e.1 e.2)

/-- The map that the pairs of a list are stored in, one after the other. -/
def fill (refused : κ → β → β → ε) (l : List (κ × β)) : Except ε (SortedMap κ β) :=
  l.foldlM (insertNew refused) empty

/-- The map holds the pairs of the list. -/
def Holds (m : SortedMap κ β) (l : List (κ × β)) : Prop :=
  ∀ k v, m.find? k = some v ↔ (k, v) ∈ l

theorem Holds.find?_eq_none_iff {m : SortedMap κ β} (h : Holds m l) {k : κ} :
    m.find? k = none ↔ k ∉ l.map Prod.fst := by
  rw [Option.eq_none_iff_forall_ne_some]
  simp only [ne_eq, h k, List.mem_map, Prod.exists, exists_and_right, exists_eq_right, not_exists]

theorem Holds.insert {m : SortedMap κ β} (h : Holds m l) {e : κ × β} (hnew : m.find? e.1 = none) :
    Holds (m.insert e.1 e.2) (l ++ [e]) := by
  intro k v
  rw [find?_insert, List.mem_append, List.mem_singleton, ← h k v]
  by_cases hk : k = e.1
  · subst hk
    rw [if_pos rfl, hnew]
    simp [Prod.ext_iff, eq_comm]
  · rw [if_neg hk]
    simp [Prod.ext_iff, hk]

/-- Filling ends with a map of all the pairs, or at the first pair that collides with an
earlier one. -/
theorem fill_cases (refused : κ → β → β → ε) (l : List (κ × β)) :
    (l.map Prod.fst).Nodup ∧ (∃ m, fill refused l = .ok m ∧ Holds m l) ∨
      ∃ before k old v after, l = before ++ (k, v) :: after ∧ (k, old) ∈ before ∧
        fill refused l = .error (refused k old v) := by
  induction l using List.reverseRecOn with
  | nil => exact .inl ⟨List.nodup_nil, empty, rfl, by simp [Holds]⟩
  | append_singleton l e ih =>
      have hfill : fill refused (l ++ [e]) = fill refused l >>= fun m => insertNew refused m e := by
        rw [fill, List.foldlM_append]
        simp [fill]
      rcases ih with ⟨hnodup, m, hm, hholds⟩ | ⟨before, k, old, v, after, rfl, hold, herror⟩
      · have hstep : fill refused (l ++ [e]) = insertNew refused m e := by
          rw [hfill, hm]
          rfl
        cases hfind : m.find? e.1 with
        | none =>
            have hkey : e.1 ∉ l.map Prod.fst := hholds.find?_eq_none_iff.mp hfind
            refine .inl ⟨?_, m.insert e.1 e.2, ?_, hholds.insert hfind⟩
            · rw [List.map_append, List.map_singleton]
              exact List.nodup_append.mpr ⟨hnodup, List.nodup_singleton _, by
                rintro a ha b hb rfl
                exact hkey (List.mem_singleton.mp hb ▸ ha)⟩
            · rw [hstep, insertNew, hfind]
        | some old =>
            refine .inr ⟨l, e.1, old, e.2, [], rfl, (hholds _ _).mp hfind, ?_⟩
            rw [hstep, insertNew, hfind]
      · refine .inr ⟨before, k, old, v, after ++ [e], by simp, hold, ?_⟩
        rw [hfill, herror]
        rfl

omit [LinearOrder κ] in
theorem not_nodup_of_collision {before after : List (κ × β)} {k : κ} {old v : β}
    (h : (k, old) ∈ before) : ¬ ((before ++ (k, v) :: after).map Prod.fst).Nodup := by
  intro hnodup
  rw [List.map_append, List.map_cons] at hnodup
  have hdisjoint := (List.nodup_append.mp hnodup).2.2
  exact hdisjoint k (List.mem_map_of_mem h) k List.mem_cons_self rfl

/-- Filling succeeds exactly if no key occurs twice. -/
theorem exists_fill_eq_ok_iff : (∃ m, fill refused l = .ok m) ↔ (l.map Prod.fst).Nodup := by
  rcases fill_cases refused l with ⟨hnodup, m, hm, -⟩ | ⟨before, k, old, v, after, rfl, hold, herror⟩
  · exact iff_of_true ⟨m, hm⟩ hnodup
  · refine iff_of_false ?_ (not_nodup_of_collision hold)
    rintro ⟨m, hm⟩
    rw [herror] at hm
    cases hm

theorem holds_of_fill {m : SortedMap κ β} (h : fill refused l = .ok m) : Holds m l := by
  rcases fill_cases refused l with ⟨-, m', hm', hholds⟩ | ⟨_, _, _, _, _, -, -, herror⟩
  · rw [h] at hm'
    obtain rfl := Except.ok.inj hm'
    exact hholds
  · rw [h] at herror
    cases herror

/-- A failure names two pairs of the list with one key. -/
theorem fill_eq_error {e : ε} (h : fill refused l = .error e) {P : κ → Prop}
    (hP : l.Pairwise fun a b => a.1 = b.1 → P a.1) : ∃ k old v, P k ∧ e = refused k old v := by
  rcases fill_cases refused l with ⟨-, m, hm, -⟩ | ⟨before, k, old, v, after, rfl, hold, herror⟩
  · rw [h] at hm
    cases hm
  · have hcollide := (List.pairwise_append.mp hP).2.2 (k, old) hold (k, v) List.mem_cons_self
    rw [h] at herror
    exact ⟨k, old, v, hcollide rfl, Except.error.inj herror⟩

/-! ### Maps that take the last value -/

theorem ofList_append_singleton (l : List (κ × β)) (e : κ × β) :
    ofList (l ++ [e]) = (ofList l).insert e.1 e.2 := by
  rw [ofList, List.foldl_append]
  rfl

/-- Without a refusal, the last value of a key is the one that stays. -/
theorem find?_ofList_eq_some_iff {k : κ} {v : β} :
    (ofList l).find? k = some v ↔
      ∃ before after, l = before ++ (k, v) :: after ∧ k ∉ after.map Prod.fst := by
  induction l using List.reverseRecOn with
  | nil => simp [ofList]
  | append_singleton l e ih =>
      rw [ofList_append_singleton, find?_insert]
      constructor
      · intro h
        split at h
        · next hk =>
            subst hk
            obtain rfl := Option.some.inj h
            exact ⟨l, [], rfl, List.not_mem_nil⟩
        · next hk =>
            obtain ⟨before, after, rfl, hafter⟩ := ih.mp h
            refine ⟨before, after ++ [e], by simp, ?_⟩
            simp only [List.map_append, List.map_singleton, List.mem_append, List.mem_singleton]
            exact not_or.mpr ⟨hafter, hk⟩
      · rintro ⟨before, after, hsplit, hafter⟩
        rcases List.eq_nil_or_concat' after with rfl | ⟨after, e', rfl⟩
        · obtain ⟨rfl, rfl⟩ := List.append_singleton_inj.mp hsplit
          rw [if_pos rfl]
        · rw [← List.cons_append, ← List.append_assoc] at hsplit
          obtain ⟨rfl, rfl⟩ := List.append_singleton_inj.mp hsplit
          simp only [List.map_append, List.map_singleton, List.mem_append, List.mem_singleton,
            not_or] at hafter
          rw [if_neg hafter.2]
          exact ih.mpr ⟨before, after, rfl, hafter.1⟩

theorem find?_ofList_eq_none_iff {k : κ} : (ofList l).find? k = none ↔ k ∉ l.map Prod.fst := by
  induction l using List.reverseRecOn with
  | nil => simp [ofList]
  | append_singleton l e ih =>
      rw [ofList_append_singleton, find?_insert, List.map_append, List.mem_append]
      by_cases hk : k = e.1
      · simp [hk]
      · simp [hk, ih]

/-- If no key occurs twice, then nothing is lost. -/
theorem holds_ofList (h : (l.map Prod.fst).Nodup) : Holds (ofList l) l := by
  intro k v
  rw [find?_ofList_eq_some_iff]
  constructor
  · rintro ⟨before, after, rfl, -⟩
    exact List.mem_append_right before List.mem_cons_self
  · intro hmem
    obtain ⟨before, after, rfl⟩ := List.append_of_mem hmem
    rw [List.map_append, List.map_cons] at h
    exact ⟨before, after, rfl, (List.nodup_cons.mp (List.nodup_append.mp h).2.1).1⟩

end Rsb.Library.SortedMap
