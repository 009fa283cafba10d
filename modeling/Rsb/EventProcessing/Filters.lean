import Rsb.EventProcessing.ReceivingStrategies

/-!
The filters (`ScopeFilter.cpp`, `OriginFilter.cpp`, `TypeFilter.cpp`, `MethodFilter.cpp`,
`CauseFilter.cpp`).

A filter looks at what the publisher has put into an event, and at its id, never at its meta
data. How an event id becomes a UUID is a parameter.
-/

namespace Rsb.EventProcessing

open Library

variable {δ F H : Type}

inductive Filter
  | scope (scope : Scope)
  | origin (origin : UUID) (invert : Bool)
  | type (type : Bytes) (invert : Bool)
  | method (method : Bytes) (invert : Bool)
  | causeAsEventId (cause : EventId) (invert : Bool)
  | causeAsUUID (cause : UUID) (invert : Bool)

namespace Filter

/-- The end of all the `match` functions but that of the scope filter. -/
def inverted (invert result : Bool) : Bool := if invert then !result else result

/-- `ScopeFilter::match`. -/
def scopeMatch (scope : Scope) (e : Event δ) : Bool :=
  e.scope = scope || e.scope.isSubScopeOf scope

/-- `OriginFilter::match`; an event without an id has no origin. -/
def originMatch (origin : UUID) (invert : Bool) (e : Event δ) : Except Exception Bool :=
  match e.id with
  | none => .error ⟨.illegalState, bytes "The event does not contain id information."⟩
  | some id => .ok (inverted invert (origin = id.participantId))

/-- `TypeFilter::match`. -/
def typeMatch (type : Bytes) (invert : Bool) (e : Event δ) : Bool :=
  inverted invert (type = e.type)

/-- `MethodFilter::match`. -/
def methodMatch (method : Bytes) (invert : Bool) (e : Event δ) : Bool :=
  inverted invert (method = e.method)

/-- `CauseFilter::match`, for a filter made with an event id. -/
def causeAsEventIdMatch (cause : EventId) (invert : Bool) (e : Event δ) : Bool :=
  inverted invert (cause ∈ e.causes)

/-- `CauseFilter::match`, for a filter made with a UUID. -/
def causeAsUUIDMatch (getAsUUID : EventId → UUID) (cause : UUID) (invert : Bool) (e : Event δ) :
    Bool :=
  inverted invert (e.causes.keys.any fun id => getAsUUID id = cause)

/-- The virtual function `match`. -/
def «match» (getAsUUID : EventId → UUID) (e : Event δ) : Filter → Except Exception Bool
  | .scope s => .ok (scopeMatch s e)
  | .origin o invert => originMatch o invert e
  | .type t invert => .ok (typeMatch t invert e)
  | .method m invert => .ok (methodMatch m invert e)
  | .causeAsEventId cause invert => .ok (causeAsEventIdMatch cause invert e)
  | .causeAsUUID cause invert => .ok (causeAsUUIDMatch getAsUUID cause invert e)

/-- Which part of an event the filters look at. -/
structure SameForFilters (e e' : Event δ) : Prop where
  id : e'.id = e.id
  scope : e'.scope = e.scope
  type : e'.type = e.type
  method : e'.method = e.method
  causes : e'.causes = e.causes

theorem SameForFilters.match_eq {e e' : Event δ} (h : SameForFilters e e')
    (getAsUUID : EventId → UUID) (f : Filter) : f.match getAsUUID e' = f.match getAsUUID e := by
  cases f <;> simp only [«match», scopeMatch, originMatch, typeMatch, methodMatch,
    causeAsEventIdMatch, causeAsUUIDMatch, h.id, h.scope, h.type, h.method, h.causes]

end Filter

/-- Filters and handlers by their pointers. -/
def Filter.behaviour (getAsUUID : EventId → UUID) (filters : F → Filter)
    (methods : H → SortedSet Bytes) (handle : H → Event δ → Except Exception Unit) :
    Behaviour F H δ where
  filterMatch f e := (filters f).match getAsUUID e
  methods := methods
  handle := handle

theorem DirectEventReceivingStrategy.filter_iff [LinearOrder F] (b : Behaviour F H δ)
    (s : DirectEventReceivingStrategy F H) (e : Event δ) :
    s.filter b e = some true ↔ ∀ f ∈ s.filters, b.filterMatch f e = .ok true := by
  rw [DirectEventReceivingStrategy.filter, recover_eq_some_true, Behaviour.filterAll_eq_true]
  simp only [SortedSet.mem_keys]

end Rsb.EventProcessing
