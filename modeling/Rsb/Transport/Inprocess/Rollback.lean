import Rsb.Transport.Inprocess.Removal

/-!
Connectors that are added to the in-process bus one after the other and then taken out again
(`inprocess/Bus.cpp`).

What is added may be less than what is taken out: a receive route that cannot be activated
deactivates all its connectors. Every removal takes the first pointer that dangles or points
to its argument, so whether the connectors are gone in the end is a question about erasures
that may take a wrong element.
-/

namespace Rsb.Transport.Inprocess.Bus

open Library

variable {Id : Type} [LinearOrder Id]

def addAll (b : Bus Id) (scope : Scope) : List Id → Bus Id
  | [] => b
  | sink :: sinks => (b.addSink sink scope).addAll scope sinks

def eraseAll (b : Bus Id) (alive : Id → Bool) : List Id → Bus Id
  | [] => b
  | sink :: sinks => (b.eraseSink alive sink).eraseAll alive sinks

/-- The first connector that is added makes a list for its scope. -/
def opened (b : Bus Id) (scope : Scope) (sinks : List Id) : Bus Id :=
  if sinks = [] then b else b.fill scope

/-- In the lists from before, `sink` occurs as often as it did, and in a new list as often as
in the list that an event would have made. -/
structure Keeps (b b' : Bus Id) (sink : Id) : Prop where
  old : ∀ {s l}, b.sinks.find? s = some l → (b'.list s).count sink = l.count sink
  new : ∀ {s l}, b'.sinks.find? s = some l → l.count sink = ((b.fill s).list s).count sink

variable {b : Bus Id} {scope s : Scope} {sink : Id} {alive : Id → Bool}

omit [LinearOrder Id] in
theorem list_eq {l : List Id} (h : b.sinks.find? s = some l) : b.list s = l := by
  rw [list, h, Option.getD_some]

theorem fill_eq_self {l : List Id} (h : b.sinks.find? scope = some l) : b.fill scope = b := by
  rw [fill, h]

theorem opened_addSink (sinks : List Id) :
    (b.addSink sink scope).opened scope sinks = b.addSink sink scope := by
  have hfind : ∃ l, (b.addSink sink scope).sinks.find? scope = some l := by
    rw [find?_addSink, find?_fill, if_pos rfl]
    exact ⟨_, rfl⟩
  obtain ⟨l, hl⟩ := hfind
  rw [opened, fill_eq_self hl, ite_self]

theorem find?_addAll (b : Bus Id) (scope : Scope) (sinks : List Id) (s : Scope) :
    (b.addAll scope sinks).sinks.find? s =
      ((b.opened scope sinks).sinks.find? s).map fun l =>
        if scope.covers s then l ++ sinks else l := by
  induction sinks generalizing b with
  | nil =>
      show b.sinks.find? s = (b.sinks.find? s).map _
      cases b.sinks.find? s <;> simp
  | cons sink sinks ih =>
      rw [addAll, ih, opened_addSink, find?_addSink, Option.map_map, opened,
        if_neg (List.cons_ne_nil sink sinks)]
      cases (b.fill scope).sinks.find? s with
      | none => rfl
      | some l =>
          by_cases hcovers : scope.covers s = true
          · simp [hcovers]
          · simp [hcovers]

theorem list_eraseAll (b : Bus Id) (alive : Id → Bool) (sinks : List Id) (s : Scope) :
    (b.eraseAll alive sinks).list s = eraseEach (fun c => !alive c) sinks (b.list s) := by
  induction sinks generalizing b with
  | nil => rfl
  | cons sink sinks ih =>
      rw [eraseAll, ih, list_eraseSink]
      rfl

theorem find?_of_find?_eraseAll {sinks : List Id} {l : List Id}
    (h : (b.eraseAll alive sinks).sinks.find? s = some l) :
    ∃ l', b.sinks.find? s = some l' := by
  induction sinks generalizing b with
  | nil => exact ⟨l, h⟩
  | cons sink sinks ih =>
      obtain ⟨l₁, hl₁⟩ := ih h
      obtain ⟨-, l', hl', -⟩ := find?_eraseSink_eq_some.mp hl₁
      exact ⟨l', hl'⟩

/-- The sinks are gone from all lists if, and only if, the erasures find them in the lists as
they are with the added ones at the end. -/
theorem not_mem_rollback_iff {added sinks : List Id} (hnodup : sinks.Nodup)
    (halive : ∀ c ∈ sinks, alive c = true) :
    (∀ c ∈ sinks, ∀ s, c ∉ ((b.addAll scope added).eraseAll alive sinks).list s) ↔
      ∀ e ∈ (b.opened scope added).sinks.entries, ∀ c ∈ sinks,
        Found (fun c => !alive c) sinks (if scope.covers e.1 then e.2 ++ added else e.2) c := by
  have hlist : ∀ s, (∀ c ∈ sinks, c ∉ ((b.addAll scope added).eraseAll alive sinks).list s) ↔
      ∀ c ∈ sinks, Found (fun c => !alive c) sinks ((b.addAll scope added).list s) c := by
    intro s
    rw [list_eraseAll]
    exact not_mem_eraseEach_iff hnodup (fun c hc => by rw [halive c hc, Bool.not_true]) _
  constructor
  · rintro h ⟨s, l⟩ he
    have hfind := find?_addAll b scope added s
    rw [SortedMap.find?_eq_some_iff.mpr he, Option.map_some] at hfind
    have hall := (hlist s).mp fun c hc => h c hc s
    rw [list_eq hfind] at hall
    exact hall
  · intro h c hc s
    refine (hlist s).mpr (fun c hc hmem => ?_) c hc
    obtain ⟨l, hl, -⟩ := mem_list_iff.mp hmem
    rw [find?_addAll, Option.map_eq_some_iff] at hl
    obtain ⟨l', hl', -⟩ := hl
    have hfind := find?_addAll b scope added s
    rw [hl', Option.map_some] at hfind
    rw [list_eq hfind] at hmem ⊢
    exact h (s, l') (SortedMap.find?_eq_some_iff.mp hl') c hc hmem

theorem count_rollback {added sinks : List Id} (hadded : sink ∉ added) (hsinks : sink ∉ sinks)
    (halive : alive sink = true) (s : Scope) :
    (((b.addAll scope added).eraseAll alive sinks).list s).count sink =
      ((b.opened scope added).list s).count sink := by
  rw [list_eraseAll, count_eraseEach (by rw [halive, Bool.not_true]) hsinks, list, find?_addAll,
    list]
  cases (b.opened scope added).sinks.find? s with
  | none => rfl
  | some l =>
      rw [Option.map_some, Option.getD_some, Option.getD_some]
      split
      · rw [List.count_append, List.count_eq_zero_of_not_mem hadded, Nat.add_zero]
      · rfl

/-- Every other sink that exists stays where it is. -/
theorem keeps_rollback {added sinks : List Id} (hadded : sink ∉ added) (hsinks : sink ∉ sinks)
    (halive : alive sink = true) :
    Keeps b ((b.addAll scope added).eraseAll alive sinks) sink := by
  refine ⟨fun {s l} hl => ?_, fun {s l} hl => ?_⟩
  · have hopened : (b.opened scope added).sinks.find? s = some l := by
      rw [opened]
      split
      · exact hl
      · rw [find?_fill]
        split
        · next hs => rw [← hs, hl, Option.getD_some]
        · exact hl
    rw [count_rollback hadded hsinks halive, list_eq hopened]
  · rw [← list_eq hl, count_rollback hadded hsinks halive]
    obtain ⟨l', hl'⟩ := find?_of_find?_eraseAll hl
    rw [find?_addAll, Option.map_eq_some_iff] at hl'
    obtain ⟨l₁, hl₁, -⟩ := hl'
    rw [opened] at hl₁ ⊢
    split at hl₁
    · next hnil => rw [if_pos hnil, fill_eq_self hl₁]
    · next hne =>
        rw [if_neg hne]
        by_cases hs : s = scope
        · rw [hs]
        · have hl₀ := hl₁
          rw [find?_fill, if_neg hs] at hl₀
          rw [fill_eq_self hl₀, list_eq hl₁, list_eq hl₀]

end Rsb.Transport.Inprocess.Bus
