import Rsb.Library.Runs
import Rsb.Library.SortedMap
import Rsb.Scope.StringCache
import Mathlib.Data.List.Nodup
import Mathlib.Logic.Function.Basic

/-!
The in-process bus (`inprocess/Bus.cpp`).

`sinks` maps a scope to the list of weak pointers to the connectors that are to
receive events on it. Lists are created on demand: when a connector is added, and
when an event is handled on a scope without an entry. A weak pointer is the
identity of the connector it points to; identities are ordered, as weak pointers
are in a `std::set`.
-/

namespace Rsb.Transport.Inprocess

open Library

variable {Id : Type} [LinearOrder Id]

structure Bus (Id : Type) where
  sinks : SortedMap Scope (List Id)

namespace Bus

def empty : Bus Id := ⟨.empty⟩

/-- The set `connectors`: all pointers in the lists of `scope` and of the scopes
above it. -/
def connectors (b : Bus Id) (scope : Scope) : List Id :=
  (SortedSet.ofElems ((b.sinks.entries.filter (fun e => e.1.covers scope)).flatMap (·.2))).keys

/-- Create the entry for `scope` if there is none. -/
def fill (b : Bus Id) (scope : Scope) : Bus Id :=
  match b.sinks.find? scope with
  | some _ => b
  | none => ⟨b.sinks.insert scope (b.connectors scope)⟩

/-- The list for `scope`, which `operator[]` creates empty. -/
def list (b : Bus Id) (scope : Scope) : List Id := (b.sinks.find? scope).getD []

def addSink (b : Bus Id) (sink : Id) (scope : Scope) : Bus Id :=
  let b := b.fill scope
  let sinks := b.sinks.insert scope (b.list scope ++ [sink])
  -- the list of `scope` itself has got the connector already
  ⟨sinks.mapValues fun s connectors =>
    if s.isSubScopeOf scope then connectors ++ [sink] else connectors⟩

/-- The loops of `removeSink`: from every list the first pointer that dangles or points
to `sink` is erased; then the scopes whose lists are empty go. -/
def eraseSink (b : Bus Id) (alive : Id → Bool) (sink : Id) : Bus Id :=
  let sinks := b.sinks.mapValues fun _ connectors =>
    connectors.eraseP fun ptr => !alive ptr || ptr == sink
  ⟨sinks.filter fun e => !e.2.isEmpty⟩

/-- The connector `sink` is on `scope`. Nobody else gives up a connector meanwhile. -/
def removeSink (b : Bus Id) (alive : Id → Bool) (sink : Id) (scope : Scope) :
    Except Fault (Bus Id) := do
  -- the scopes are not used
  let _ ← scope.object.superScopes true
  return b.eraseSink alive sink

/-- `handleNoLock`, with the connectors whose `handle` is called. -/
def handleNoLock (b : Bus Id) (alive : Id → Bool) (scope : Scope) : Bus Id × List Id :=
  let b := b.fill scope
  (b, (b.list scope).filter alive)

/-! ### What the operations do to an entry -/

theorem mem_connectors {b : Bus Id} {scope : Scope} {sink : Id} :
    sink ∈ b.connectors scope ↔
      ∃ s l, b.sinks.find? s = some l ∧ s.covers scope = true ∧ sink ∈ l := by
  simp only [connectors, SortedSet.mem_keys, SortedSet.mem_ofElems, List.mem_flatMap,
    List.mem_filter, SortedMap.find?_eq_some_iff]
  constructor
  · rintro ⟨⟨s, l⟩, ⟨hmem, hcovers⟩, hsink⟩
    exact ⟨s, l, hmem, hcovers, hsink⟩
  · rintro ⟨s, l, hmem, hcovers, hsink⟩
    exact ⟨(s, l), ⟨hmem, hcovers⟩, hsink⟩

theorem find?_fill (b : Bus Id) (scope s : Scope) :
    (b.fill scope).sinks.find? s =
      if s = scope then some ((b.sinks.find? scope).getD (b.connectors scope))
      else b.sinks.find? s := by
  rw [fill]
  cases h : b.sinks.find? scope with
  | some l =>
      by_cases hs : s = scope
      · simp [hs, h]
      · simp [hs]
  | none =>
      by_cases hs : s = scope
      · simp [hs]
      · simp [hs, SortedMap.find?_insert]

theorem find?_addSink (b : Bus Id) (sink : Id) (scope s : Scope) :
    (b.addSink sink scope).sinks.find? s =
      ((b.fill scope).sinks.find? s).map fun l =>
        if scope.covers s then l ++ [sink] else l := by
  have hfill : (b.fill scope).sinks.find? scope = some ((b.fill scope).list scope) := by
    rw [list, find?_fill, if_pos rfl, Option.getD_some]
  rw [addSink, SortedMap.find?_mapValues, SortedMap.find?_insert]
  by_cases hs : s = scope
  · subst hs
    have hirrefl : s.isSubScopeOf s = false := by simp [Scope.isSubScopeOf]
    simp [hfill, hirrefl, Scope.covers_refl]
  · have hcovers : scope.covers s = s.isSubScopeOf scope := by
      simp [Scope.covers, Ne.symm hs, Scope.isSubScopeOf_eq]
    simp [hs, hcovers]

theorem removeSink_eq (b : Bus Id) (alive : Id → Bool) (sink : Id) (scope : Scope) :
    b.removeSink alive sink scope =
      if scope.SuperScopesFit then .ok (b.eraseSink alive sink) else .error .writePastEnd := by
  rw [removeSink, Scope.superScopes_object_eq]
  split <;> rfl

theorem find?_eraseSink_eq_some {b : Bus Id} {alive : Id → Bool} {sink : Id} {s : Scope}
    {l : List Id} :
    (b.eraseSink alive sink).sinks.find? s = some l ↔
      l ≠ [] ∧ ∃ l', b.sinks.find? s = some l' ∧
        (l'.eraseP fun ptr => !alive ptr || ptr == sink) = l := by
  rw [eraseSink, SortedMap.find?_filter_eq_some, SortedMap.find?_mapValues]
  simp [and_comm]

end Bus

end Rsb.Transport.Inprocess
