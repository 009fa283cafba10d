import Mathlib.Data.List.Induction
import Mathlib.Logic.Function.Basic

/-!
Things that are born into places and die there, and the notices of it.

A place may belong to another one, and then so does what lives there: it is born while its
parent lives, and has to die before its parent. `Settled` connects what lives where with the
notices that have been given. It is kept by the birth of something new in a free place, by the
death of something without children, and by the deaths along a list of such places.
-/

namespace Rsb.Library

variable {X L : Type}

inductive Notice (X : Type)
  | born (x : X) (parent : Option X)
  | died (x : X)

namespace Notice

def newborn : Notice X → Option X
  | born x _ => some x
  | died _ => none

/-- It was born to this parent, and has not died. -/
def Alive (log : List (Notice X)) (x : X) (parent : Option X) : Prop :=
  born x parent ∈ log ∧ died x ∉ log

/-- Parents are alive when something is born to them; nothing dies before it is born, twice, or
before its children. -/
inductive Orderly : List (Notice X) → Prop
  | nil : Orderly []
  | born {log x parent} : Orderly log → (∀ p, parent = some p → ∃ g, Alive log p g) →
      Orderly (log ++ [.born x parent])
  | died {log x} : Orderly log → (∃ g, Alive log x g) →
      (∀ c, .born c (some x) ∈ log → .died c ∈ log) → Orderly (log ++ [.died x])

theorem Orderly.exists_born {log : List (Notice X)} (h : Orderly log) {x : X}
    (hx : Notice.died x ∈ log) :
    x ∈ log.filterMap newborn := by
  induction h with
  | nil => cases hx
  | born h _ ih =>
      rw [List.filterMap_append, List.mem_append]
      rcases List.mem_append.mp hx with hx | hx
      · exact .inl (ih hx)
      · simp at hx
  | died h hlives _ ih =>
      rw [List.filterMap_append, List.mem_append]
      rcases List.mem_append.mp hx with hx | hx
      · exact .inl (ih hx)
      · obtain rfl : x = _ := by simpa using hx
        obtain ⟨g, hg⟩ := hlives
        exact .inl (List.mem_filterMap.mpr ⟨_, hg.1, rfl⟩)

theorem orderly_of_append {log : List (Notice X)} {n : Notice X} (h : Orderly (log ++ [n])) :
    Orderly log := by
  generalize hlog : log ++ [n] = log' at h
  cases h with
  | nil => simp at hlog
  | born h _ => exact (List.append_singleton_inj.mp hlog).1 ▸ h
  | died h _ _ => exact (List.append_singleton_inj.mp hlog).1 ▸ h

theorem exists_alive_of_append {log : List (Notice X)} {x : X} (h : Orderly (log ++ [died x])) :
    ∃ g, Alive log x g := by
  generalize hlog : log ++ [died x] = log' at h
  cases h with
  | nil => simp at hlog
  | born _ _ => simp at hlog
  | died _ hlives _ =>
      obtain ⟨rfl, hx⟩ := List.append_singleton_inj.mp hlog
      rw [died.inj hx]
      exact hlives

theorem alive_born {log : List (Notice X)} (h : Orderly log) {x : X}
    (hnew : x ∉ log.filterMap newborn) (parent : Option X) {x' : X} {g : Option X} :
    Alive (log ++ [born x parent]) x' g ↔ Alive log x' g ∨ x' = x ∧ g = parent := by
  have hnotdied : died x ∉ log := fun hdied => hnew (h.exists_born hdied)
  simp only [Alive, List.mem_append, List.mem_singleton, born.injEq, reduceCtorEq, or_false]
  constructor
  · rintro ⟨hborn | heq, hdied⟩
    · exact .inl ⟨hborn, hdied⟩
    · exact .inr heq
  · rintro (⟨hborn, hdied⟩ | ⟨rfl, rfl⟩)
    · exact ⟨.inl hborn, hdied⟩
    · exact ⟨.inr ⟨rfl, rfl⟩, hnotdied⟩

theorem alive_died {log : List (Notice X)} {x x' : X} {g : Option X} :
    Alive (log ++ [died x]) x' g ↔ Alive log x' g ∧ x' ≠ x := by
  simp [Alive, not_or, and_assoc]

end Notice

open Notice

section

variable (parentPlace : L → Option L)

/-- What lives at a place has its parent at the place to which this one belongs. -/
def parentAt (f : L → Option X) (y : L) : Option X := (parentPlace y).bind f

/-- What lives somewhere is what is alive, each in one place, and where something lives the
place that this one belongs to is not free. -/
structure Settled (f : L → Option X) (log : List (Notice X)) : Prop where
  orderly : Orderly log
  alive : ∀ x g, Alive log x g ↔ ∃ y, f y = some x ∧ g = parentAt parentPlace f y
  single : ∀ y y' x, f y = some x → f y' = some x → y = y'
  housed : ∀ y z, f y ≠ none → parentPlace y = some z → f z ≠ none

theorem settled_nil : Settled parentPlace (fun _ => none : L → Option X) [] where
  orderly := .nil
  alive x g := by simp [Alive]
  single y y' x h := nomatch h
  housed y z h := absurd rfl h

end

variable {parentPlace : L → Option L} {f : L → Option X} {log : List (Notice X)} [DecidableEq L]

/-- A change at a place is no change to the parents of others. -/
theorem parentAt_update {y y' : L} (h : parentPlace y' ≠ some y) (o : Option X) :
    parentAt parentPlace (Function.update f y o) y' = parentAt parentPlace f y' := by
  rw [parentAt, parentAt]
  cases hplace : parentPlace y' with
  | none => rfl
  | some z =>
      have hz : z ≠ y := fun heq => h (hplace.trans (congrArg some heq))
      exact Function.update_of_ne hz _ _

/-- A birth in a free place. -/
theorem Settled.born (h : Settled parentPlace f log) {y : L} {x : X} (hfree : f y = none)
    (hparent : ∀ z, parentPlace y = some z → f z ≠ none) (hnew : x ∉ log.filterMap newborn) :
    Settled parentPlace (Function.update f y (some x))
      (log ++ [.born x (parentAt parentPlace f y)]) := by
  have hnobody : ∀ y', f y' ≠ none → parentPlace y' ≠ some y := fun y' hy' hplace =>
    h.housed y' y hy' hplace hfree
  have hself : parentPlace y ≠ some y := fun hplace => hparent y hplace hfree
  have hnotborn : ∀ g, Notice.born x g ∉ log := fun g hg =>
    hnew (List.mem_filterMap.mpr ⟨_, hg, rfl⟩)
  have hother : ∀ y' x', f y' = some x' → x' ≠ x := by
    rintro y' x' hy' rfl
    exact hnotborn _ ((h.alive x' _).mpr ⟨y', hy', rfl⟩).1
  have hne : ∀ y' x', f y' = some x' → y' ≠ y := by
    rintro y' x' hy' rfl
    rw [hfree] at hy'
    cases hy'
  constructor
  · refine .born h.orderly fun p hp => ?_
    obtain ⟨z, hplace, hz⟩ := Option.bind_eq_some_iff.mp hp
    exact ⟨_, (h.alive p _).mpr ⟨z, hz, rfl⟩⟩
  · intro x' g
    rw [alive_born h.orderly hnew, h.alive]
    constructor
    · rintro (⟨y', hy', rfl⟩ | ⟨rfl, rfl⟩)
      · refine ⟨y', ?_, ?_⟩
        · rw [Function.update_of_ne (hne y' x' hy'), hy']
        · rw [parentAt_update (hnobody y' (by simp [hy']))]
      · exact ⟨y, Function.update_self .., (parentAt_update hself _).symm⟩
    · rintro ⟨y', hy', rfl⟩
      by_cases heq : y' = y
      · subst heq
        rw [Function.update_self] at hy'
        exact .inr ⟨(Option.some.inj hy').symm, parentAt_update hself _⟩
      · rw [Function.update_of_ne heq] at hy'
        exact .inl ⟨y', hy', parentAt_update (hnobody y' (by simp [hy'])) _⟩
  · intro y₁ y₂ x' h₁ h₂
    rw [Function.update_apply] at h₁ h₂
    split_ifs at h₁ h₂ with hy₁ hy₂ hy₂
    · rw [hy₁, hy₂]
    · exact absurd (Option.some.inj h₁).symm (hother _ _ h₂)
    · exact absurd (Option.some.inj h₂).symm (hother _ _ h₁)
    · exact h.single _ _ _ h₁ h₂
  · intro y' z hy' hplace
    rw [Function.update_apply]
    split_ifs with hz
    · exact Option.some_ne_none _
    · rw [Function.update_apply] at hy'
      split_ifs at hy' with heq
      · exact hparent z (heq ▸ hplace)
      · exact h.housed y' z hy' hplace

/-- The death of something without children. -/
theorem Settled.died (h : Settled parentPlace f log) {y : L} {x : X} (hy : f y = some x)
    (hchildren : ∀ y', parentPlace y' = some y → f y' = none) :
    Settled parentPlace (Function.update f y none) (log ++ [.died x]) := by
  have hparents : ∀ y', f y' ≠ none → parentPlace y' ≠ some y := fun y' hy' hplace =>
    hy' (hchildren y' hplace)
  constructor
  · refine .died h.orderly ⟨_, (h.alive x _).mpr ⟨y, hy, rfl⟩⟩ fun c hc => ?_
    by_contra hdied
    obtain ⟨y', hy', hparent⟩ := (h.alive c _).mp ⟨hc, hdied⟩
    obtain ⟨z, hplace, hz⟩ := Option.bind_eq_some_iff.mp hparent.symm
    obtain rfl := h.single z y x hz hy
    exact hparents y' (by simp [hy']) hplace
  · intro x' g
    rw [alive_died, h.alive]
    constructor
    · rintro ⟨⟨y', hy', rfl⟩, hne⟩
      have hother : y' ≠ y := by
        rintro rfl
        exact hne (Option.some.inj (hy'.symm.trans hy))
      refine ⟨y', ?_, ?_⟩
      · rw [Function.update_of_ne hother, hy']
      · rw [parentAt_update (hparents y' (by simp [hy']))]
    · rintro ⟨y', hy', rfl⟩
      rw [Function.update_apply] at hy'
      split_ifs at hy' with heq
      refine ⟨⟨y', hy', parentAt_update (hparents y' (by simp [hy'])) _⟩, ?_⟩
      rintro rfl
      exact heq (h.single _ _ _ hy' hy)
  · intro y₁ y₂ x' h₁ h₂
    rw [Function.update_apply] at h₁ h₂
    split_ifs at h₁ h₂
    exact h.single _ _ _ h₁ h₂
  · intro y' z hy' hplace
    have heq : y' ≠ y := by
      rintro rfl
      exact hy' (Function.update_self ..)
    rw [Function.update_of_ne heq] at hy'
    rw [Function.update_of_ne]
    · exact h.housed y' z hy' hplace
    · rintro rfl
      exact hparents y' hy' hplace

/-- A birth that is taken back. -/
theorem Settled.stillborn (h : Settled parentPlace f log) {y : L} {x : X} (hfree : f y = none)
    (hparent : ∀ z, parentPlace y = some z → f z ≠ none) (hnew : x ∉ log.filterMap newborn) :
    Settled parentPlace f (log ++ [.born x (parentAt parentPlace f y), .died x]) := by
  have hborn := h.born hfree hparent hnew
  have hdied := hborn.died (Function.update_self ..) fun y' hplace => by
    rw [Function.update_apply, if_neg]
    · by_contra hy'
      exact h.housed y' y hy' hplace hfree
    · rintro rfl
      exact hparent y' hplace hfree
  rw [Function.update_idem, ← hfree, Function.update_eq_self, List.append_assoc] at hdied
  exact hdied

/-- The places of a list are given up. -/
def vacate (f : L → Option X) (places : List L) (y : L) : Option X :=
  if y ∈ places then none else f y

/-- Whatever lives in the places of a list dies, if none of it has children. -/
theorem Settled.vacate (h : Settled parentPlace f log) {places : List L}
    (hnodup : places.Nodup)
    (hchildren : ∀ y ∈ places, ∀ y', parentPlace y' = some y → f y' = none) :
    Settled parentPlace (vacate f places)
      (log ++ (places.filterMap f).map Notice.died) := by
  induction places using List.reverseRecOn with
  | nil =>
      have hsame : Library.vacate f [] = f := by
        funext y
        simp [Library.vacate]
      rw [hsame, List.filterMap_nil, List.map_nil, List.append_nil]
      exact h
  | append_singleton places y ih =>
      obtain ⟨hnodup', -, hdisjoint⟩ := List.nodup_append.mp hnodup
      have hnew : y ∉ places := fun hmem => hdisjoint y hmem y (by simp) rfl
      have hbefore := ih hnodup' fun y' hy' => hchildren y' (List.mem_append_left _ hy')
      have hlast : Library.vacate f (places ++ [y]) =
          Function.update (Library.vacate f places) y none := by
        funext y'
        by_cases heq : y' = y <;> simp [Library.vacate, heq]
      rw [hlast]
      have hvalue : Library.vacate f places y = f y := if_neg hnew
      cases hy : f y with
      | none =>
          have hsame : Function.update (Library.vacate f places) y none =
              Library.vacate f places := by
            rw [← hy, ← hvalue, Function.update_eq_self]
          have hnobody : (places ++ [y]).filterMap f = places.filterMap f := by
            rw [List.filterMap_append, List.filterMap_cons_none hy]
            simp
          rw [hsame, hnobody]
          exact hbefore
      | some x =>
          have hsomebody : (places ++ [y]).filterMap f = places.filterMap f ++ [x] := by
            rw [List.filterMap_append, List.filterMap_cons_some hy]
            simp
          rw [hsomebody, List.map_append, ← List.append_assoc]
          refine hbefore.died (hvalue.trans hy) fun y' hplace => ?_
          rw [Library.vacate, hchildren y (by simp) y' hplace, ite_self]

end Rsb.Library
