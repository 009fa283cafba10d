import Rsb.Scope.StringCache
import Rsb.Library.SortedMap

/-!
Dispatch by scope (`ScopeDispatcher.h`).

A dispatcher maps every scope to the list of sinks registered for it. The weak
variant holds weak pointers to the sinks. A weak pointer is the identity of the sink it points to, and `alive` says
for which identities `lock()` still succeeds. `mapSinks` calls a function on
one sink after the other; the model returns the sinks in the order of the calls
and leaves what a call does to the caller.
-/

namespace Rsb

open Library

/-- The sinks under a scope that is found by its string. -/
def foundSinks {T : Type} (sinks : SortedMap Scope (List T)) (scope : ScopeObject) : List T :=
  match sinks.entries.find? (fun e => e.1.object.eq scope) with
  | some e => e.2
  | none => []

theorem foundSinks_object {T : Type} (sinks : SortedMap Scope (List T)) (s : Scope) :
    foundSinks sinks s.object = (sinks.find? s).getD [] := by
  have heq : ∀ e : Scope × List T, e.1.object.eq s.object = decide (e.1 = s) := by
    intro e
    rw [Bool.eq_iff_iff, decide_eq_true_eq, ScopeObject.eq, beq_iff_eq]
    exact Scope.toString_injective.eq_iff
  rw [foundSinks, SortedMap.find?]
  induction sinks.entries with
  | nil => rfl
  | cons e entries ih =>
      rw [List.find?_cons, heq, SortedMap.lookup_cons]
      by_cases he : e.1 = s
      · simp [he]
      · simp only [he, Ne.symm he, decide_false, if_false]
        exact ih

/-- `ScopeDispatcher<T>`. -/
structure ScopeDispatcher (T : Type) where
  sinks : SortedMap Scope (List T)

namespace ScopeDispatcher

variable {T : Type}

/-- The dispatcher as constructed. -/
def init : ScopeDispatcher T := ⟨.empty⟩

def empty (d : ScopeDispatcher T) : Bool := d.sinks.entries.isEmpty

/-- The number of scopes with associated sinks. -/
def size (d : ScopeDispatcher T) : ℕ := d.sinks.entries.length

def addSink (d : ScopeDispatcher T) (scope : Scope) (sink : T) : ScopeDispatcher T :=
  ⟨d.sinks.insert scope ((d.sinks.find? scope).getD [] ++ [sink])⟩

/-- `list::remove` takes all the elements that are equal. -/
def removeSink [DecidableEq T] (d : ScopeDispatcher T) (scope : Scope) (sink : T) :
    Except Fault (ScopeDispatcher T) :=
  match d.sinks.find? scope with
  | none => .error (.thrown ⟨.logicError, bytes "Should not happen"⟩)
  | some sinks =>
      let sinks := sinks.filter (· ≠ sink)
      .ok ⟨if sinks.isEmpty then d.sinks.erase scope else d.sinks.insert scope sinks⟩

/-- The sinks `mapSinks` calls its function on. -/
def mapSinks (d : ScopeDispatcher T) (scope : Scope) : Except Fault (List T) := do
  let scopes ← scope.object.superScopes true
  return scopes.flatMap (foundSinks d.sinks)

/-- The sinks `mapAllSinks` calls its function on. -/
def mapAllSinks (d : ScopeDispatcher T) : List T := d.sinks.entries.flatMap (·.2)

/-- The parent of the scope has to fit, then the lists of the scopes above it come one
after the other. -/
theorem mapSinks_eq (d : ScopeDispatcher T) (s : Scope) :
    d.mapSinks s =
      if s.parent.toString.length < 2 ^ 32 then
        .ok ((s.superScopes true).flatMap fun t => (d.sinks.find? t).getD [])
      else .error .writePastEnd := by
  rw [mapSinks, Scope.superScopes_object]
  split
  · show Except.ok _ = _
    rw [List.flatMap_map]
    simp only [foundSinks_object]
  · rfl

end ScopeDispatcher

/-- `WeakScopeDispatcher<T>`. -/
structure WeakScopeDispatcher (T : Type) where
  sinks : SortedMap Scope (List T)

namespace WeakScopeDispatcher

variable {T : Type}

def empty : WeakScopeDispatcher T := ⟨.empty⟩

/-- The number of scopes with associated sinks. -/
def size (d : WeakScopeDispatcher T) : ℕ := d.sinks.entries.length

/-- The list registered for `scope`, empty if there is no entry. -/
def entries (d : WeakScopeDispatcher T) (scope : Scope) : List T :=
  (d.sinks.find? scope).getD []

def addSink (d : WeakScopeDispatcher T) (scope : Scope) (sink : T) : WeakScopeDispatcher T :=
  ⟨d.sinks.insert scope (d.entries scope ++ [sink])⟩

/-- The pointers to `sink` go, and with them those that dangle. -/
def removeSink [DecidableEq T] (d : WeakScopeDispatcher T) (alive : T → Bool) (scope : Scope)
    (sink : T) : Except Fault (WeakScopeDispatcher T) :=
  match d.sinks.find? scope with
  | none => .error (.thrown ⟨.logicError, bytes "Should not happen"⟩)
  | some sinks =>
      let sinks := sinks.filter fun pointer => !(!alive pointer || pointer == sink)
      .ok ⟨if sinks.isEmpty then d.sinks.erase scope else d.sinks.insert scope sinks⟩

/-- The sinks `mapSinks` calls its function on, for an event on `scope`. -/
def mapSinks (d : WeakScopeDispatcher T) (alive : T → Bool) (scope : Scope) :
    Except Fault (List T) := do
  let scopes ← scope.object.superScopes true
  return scopes.flatMap fun s => (foundSinks d.sinks s).filter alive

/-- The sinks that exist under the scopes above `scope`, one scope after the other. -/
def sinksAbove (d : WeakScopeDispatcher T) (alive : T → Bool) (scope : Scope) : List T :=
  (scope.superScopes true).flatMap fun s => (d.entries s).filter alive

/-- The dispatcher after the given registrations. -/
def ofRegistrations (registrations : List (Scope × T)) : WeakScopeDispatcher T :=
  registrations.foldl (fun d r => d.addSink r.1 r.2) empty

theorem entries_addSink (d : WeakScopeDispatcher T) (scope : Scope) (sink : T) (s : Scope) :
    (d.addSink scope sink).entries s =
      d.entries s ++ (if scope = s then [sink] else []) := by
  rw [entries, addSink, SortedMap.find?_insert]
  by_cases h : s = scope
  · subst h
    simp
  · simp [h, Ne.symm h, entries]

/-- One of several dispatchers is replaced. -/
theorem entries_update {B : Type} [DecidableEq B] (dispatchers : B → WeakScopeDispatcher T) (b : B)
    (d : WeakScopeDispatcher T) (b' : B) (s : Scope) :
    (Function.update dispatchers b d b').entries s =
      if b' = b then d.entries s else (dispatchers b').entries s := by
  rw [Function.update_apply]
  split
  · rfl
  · rfl

theorem entries_eq_of_find? {d : WeakScopeDispatcher T} {scope : Scope} {sinks : List T}
    (h : d.sinks.find? scope = some sinks) : d.entries scope = sinks := by
  rw [entries, h, Option.getD_some]

/-- The list of the scope loses the sink and what dangles. -/
theorem entries_removeSink [DecidableEq T] {d d' : WeakScopeDispatcher T} {alive : T → Bool}
    {scope : Scope} {sink : T} (h : d.removeSink alive scope sink = .ok d') (s : Scope) :
    d'.entries s = if s = scope then
      (d.entries s).filter (fun pointer => !(!alive pointer || pointer == sink))
    else d.entries s := by
  rw [removeSink] at h
  cases hscope : d.sinks.find? scope with
  | none => simp [hscope] at h
  | some sinks =>
      simp only [hscope, Except.ok.injEq] at h
      subst h
      by_cases hs : s = scope
      · subst hs
        rw [if_pos rfl, entries_eq_of_find? hscope, entries]
        split
        · next hempty =>
            rw [SortedMap.find?_erase, if_pos rfl, Option.getD_none, List.isEmpty_iff.mp hempty]
        · rw [SortedMap.find?_insert, if_pos rfl, Option.getD_some]
      · rw [if_neg hs, entries, entries]
        split
        · rw [SortedMap.find?_erase, if_neg hs]
        · rw [SortedMap.find?_insert, if_neg hs]

/-- A scope holds the sinks registered for it, in the order of registration. -/
theorem entries_ofRegistrations (registrations : List (Scope × T)) (s : Scope) :
    (ofRegistrations registrations).entries s =
      (registrations.filter (fun r => r.1 = s)).map (·.2) := by
  have hfold : ∀ (l : List (Scope × T)) (d : WeakScopeDispatcher T),
      (l.foldl (fun d r => d.addSink r.1 r.2) d).entries s =
        d.entries s ++ (l.filter (fun r => r.1 = s)).map (·.2) := by
    intro l
    induction l with
    | nil => simp
    | cons r l ih =>
        intro d
        rw [List.foldl_cons, ih, entries_addSink, List.append_assoc, List.filter_cons]
        by_cases h : r.1 = s <;> simp [h]
  rw [ofRegistrations, hfold]
  simp [empty, entries]

theorem mapSinks_eq (d : WeakScopeDispatcher T) (alive : T → Bool) (scope : Scope) :
    d.mapSinks alive scope =
      if scope.SuperScopesFit then .ok (d.sinksAbove alive scope) else .error .writePastEnd := by
  rw [mapSinks, Scope.superScopes_object_eq]
  split
  · show Except.ok _ = _
    rw [List.flatMap_map, sinksAbove]
    simp only [foundSinks_object, entries]
  · rfl

theorem mem_sinksAbove {d : WeakScopeDispatcher T} {alive : T → Bool} {scope : Scope} {sink : T} :
    sink ∈ d.sinksAbove alive scope ↔
      alive sink = true ∧ ∃ s, s.covers scope = true ∧ sink ∈ d.entries s := by
  simp only [sinksAbove, List.mem_flatMap, Scope.mem_superScopes, List.mem_filter]
  constructor
  · rintro ⟨s, hcovers, hmem, halive⟩
    exact ⟨halive, s, hcovers, hmem⟩
  · rintro ⟨halive, s, hcovers, hmem⟩
    exact ⟨s, hcovers, hmem, halive⟩

theorem mem_sinksAbove_ofRegistrations {registrations : List (Scope × T)} {alive : T → Bool}
    {scope : Scope} {sink : T} :
    sink ∈ (ofRegistrations registrations).sinksAbove alive scope ↔
      alive sink = true ∧ ∃ s, (s, sink) ∈ registrations ∧ s.covers scope = true := by
  simp only [mem_sinksAbove, entries_ofRegistrations, List.mem_map, List.mem_filter,
    decide_eq_true_eq]
  constructor
  · rintro ⟨halive, s, hcovers, ⟨s', k⟩, ⟨hmem, rfl⟩, rfl⟩
    exact ⟨halive, s', hmem, hcovers⟩
  · rintro ⟨halive, s, hmem, hcovers⟩
    exact ⟨halive, s, hcovers, (s, sink), ⟨hmem, rfl⟩, rfl⟩

/-- Sinks that are registered once are called once. -/
theorem nodup_sinksAbove_ofRegistrations {registrations : List (Scope × T)}
    (h : (registrations.map (·.2)).Nodup) (alive : T → Bool) (scope : Scope) :
    ((ofRegistrations registrations).sinksAbove alive scope).Nodup := by
  rw [sinksAbove, List.nodup_flatMap]
  refine ⟨fun s _ => ?_, (Scope.nodup_superScopes scope).imp fun {s s'} hne => ?_⟩
  · rw [entries_ofRegistrations]
    exact (h.sublist ((List.filter_sublist).map _)).filter _
  · intro sink hs hs'
    simp only [List.mem_filter, entries_ofRegistrations, List.mem_map,
      decide_eq_true_eq] at hs hs'
    obtain ⟨⟨r, ⟨hr, rfl⟩, rfl⟩, -⟩ := hs
    obtain ⟨⟨r', ⟨hr', rfl⟩, heq⟩, -⟩ := hs'
    exact hne (congrArg Prod.fst (List.inj_on_of_nodup_map h hr hr' heq.symm))

end WeakScopeDispatcher

end Rsb
