import Rsb.EventProcessing.ScopeDispatcher
import Rsb.Scope.Hierarchy
import Rsb.Transport.Inprocess.Bus
import Rsb.Event

/-!
Who receives an event on a scope.

A dispatcher enumerates the scopes above the event's scope and looks each of them up,
the in-process bus compares the scope of every entry with it, and so does a
`ScopeFilter` from the other side. They come to the same receivers.
-/

namespace Rsb

open Library

/-- `filter::ScopeFilter`. -/
structure ScopeFilter where
  scope : Scope

/-- `ScopeFilter::match`. -/
def ScopeFilter.matchEvent {δ : Type} (f : ScopeFilter) (e : Event δ) : Bool :=
  e.scope.object.eq f.scope.object || e.scope.object.isSubScopeOf f.scope.object

theorem ScopeFilter.matchEvent_eq {δ : Type} (f : ScopeFilter) (e : Event δ) :
    f.matchEvent e = f.scope.covers e.scope := by
  have hsub : e.scope.object.isSubScopeOf f.scope.object = f.scope.isSuperScopeOf e.scope :=
    Scope.isSubScopeOf_eq e.scope f.scope
  rw [matchEvent, Scope.eq_object, hsub, Bool.beq_comm, Scope.covers]

namespace ScopeDispatcher

/-- The dispatcher, the bus and filters select the same receivers of an event on `a`. -/
def SelectionLaw (a : Scope) : Prop :=
  ∀ (Id : Type) [LinearOrder Id] (d : ScopeDispatcher Id), ∃ called,
    d.mapSinks a = .ok called ∧
    called.Perm ((d.sinks.entries.filter fun r => r.1.covers a).flatMap (·.2)) ∧
    (∀ sink, sink ∈ called ↔ sink ∈ (⟨d.sinks⟩ : Transport.Inprocess.Bus Id).connectors a) ∧
    ∀ (δ : Type) (e : Event δ), e.scope = a →
      d.sinks.entries.filter (fun r => ScopeFilter.matchEvent ⟨r.1⟩ e) =
        d.sinks.entries.filter fun r => r.1.covers a

/-- Lookups that fail contribute nothing. -/
theorem flatMap_getD_eq {κ T : Type} (find : κ → Option (List T)) (l : List κ) :
    (l.flatMap fun k => (find k).getD []) =
      (l.filterMap fun k => (find k).map fun v => (k, v)).flatMap (·.2) := by
  induction l with
  | nil => rfl
  | cons k l ih =>
      rw [List.flatMap_cons, List.filterMap_cons, ih]
      cases find k <;> rfl

theorem perm_flatMap_superScopes {T : Type} (d : ScopeDispatcher T) (a : Scope) :
    ((a.superScopes true).flatMap fun t => (d.sinks.find? t).getD []).Perm
      ((d.sinks.entries.filter fun r => r.1.covers a).flatMap (·.2)) := by
  rw [flatMap_getD_eq]
  apply List.Perm.flatMap_right
  apply (List.perm_ext_iff_of_nodup _ (d.sinks.nodup_entries.filter _)).mpr
  · rintro ⟨s, sinks⟩
    simp only [List.mem_filterMap, Option.map_eq_some_iff, Prod.mk.injEq, List.mem_filter,
      ← SortedMap.find?_eq_some_iff, Scope.mem_superScopes]
    constructor
    · rintro ⟨t, hcovers, v, hfind, rfl, rfl⟩
      exact ⟨hfind, hcovers⟩
    · rintro ⟨hfind, hcovers⟩
      exact ⟨s, hcovers, sinks, hfind, rfl, rfl⟩
  · apply (Scope.nodup_superScopes a).filterMap
    intro s s' r hr hr'
    obtain ⟨v, -, rfl⟩ := Option.map_eq_some_iff.mp hr
    obtain ⟨v', -, heq⟩ := Option.map_eq_some_iff.mp hr'
    exact (congrArg Prod.fst heq).symm

theorem selectionLaw_iff (a : Scope) :
    SelectionLaw a ↔ a.parent.toString.length < 2 ^ 32 := by
  constructor
  · intro h
    obtain ⟨called, hcalled, -⟩ := h ℕ init
    by_contra hlong
    rw [mapSinks_eq, if_neg hlong] at hcalled
    cases hcalled
  · intro hshort Id _ d
    have hperm := perm_flatMap_superScopes d a
    refine ⟨_, (mapSinks_eq d a).trans (if_pos hshort), hperm, ?_, ?_⟩
    · intro sink
      rw [hperm.mem_iff, Transport.Inprocess.Bus.connectors, SortedSet.mem_keys,
        SortedSet.mem_ofElems]
    · rintro δ e rfl
      simp only [ScopeFilter.matchEvent_eq]

end ScopeDispatcher

/-- Enumeration and selection go by the parent of `a`, the descent to `a` by `a` itself
and associativity by the whole concatenation: each law holds if and only if the string
in question has fewer than `2 ^ 32` bytes. -/
theorem Scope.hierarchy_laws_iff (a b c : Scope) :
    (a.SuperScopesLaw ∧ ScopeDispatcher.SelectionLaw a ↔ a.parent.toString.length < 2 ^ 32) ∧
    (a.SubScopeLaw ∧ a.IdentityLaw ↔ a.toString.length < 2 ^ 32) ∧
    (Scope.AssociativeLaw a b c ↔ ((a.concat b).concat c).toString.length < 2 ^ 32) := by
  refine ⟨?_, ?_, Scope.associativeLaw_iff a b c⟩
  · rw [Scope.superScopesLaw_iff, ScopeDispatcher.selectionLaw_iff, and_self]
  · rw [Scope.subScopeLaw_iff, Scope.identityLaw_iff, and_self]

/-- Under a component of `2 ^ 32` letters the enumeration runs over the end of a string,
and so does joining with the root scope. -/
theorem Scope.hierarchy_below_long_component :
    ¬ ∀ a, Scope.parse (bytes "/" ++ List.replicate (2 ^ 32) 97 ++ bytes "/b") = .ok a →
      a.SuperScopesLaw ∧ a.SubScopeLaw ∧ a.IdentityLaw := by
  intro hall
  obtain ⟨a, hparse, hlength⟩ := Scope.exists_parse_replicate (n := 2 ^ 32) (by decide)
  obtain ⟨hlaw, -, -⟩ := hall a hparse
  exact absurd ((Scope.superScopesLaw_iff a).mp hlaw) (not_lt.mpr hlength)

end Rsb
