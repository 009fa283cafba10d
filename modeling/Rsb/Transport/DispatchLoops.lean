import Rsb.EventProcessing.ScopeDispatcher
import Rsb.Library.Scans
import Rsb.Transport.Inprocess.Removal

/-!
Changes of the sink lists during dispatch.

`inprocess::Bus::handleNoLock` iterates over the list of the scope of the event,
`WeakScopeDispatcher::mapSinks` over those of all its super scopes, both with the
recursive mutex held: a connector that is called may call `addSink` and
`removeSink`, and so may the destructor of a connector of which a loop held the
last reference. The loops of `removeSink` hold such references as well. The two
classes are instances of one kind of loops and differ in the lists that they visit and
in how `removeSink` goes over a list.
-/

namespace Rsb.Transport

open Library

/-! ### The dispatcher of the socket bus -/

namespace Dispatcher

variable {T : Type}

/-- A registered sink that exists is in the list of its scope. -/
def Complete (sinks : Lists T Scope) (registered : T → Option Scope) (alive : T → Bool) :
    Prop :=
  ∀ sink scope, registered sink = some scope → alive sink = true → sink ∈ sinks.list scope

variable {sinks : Lists T Scope} {registered : T → Option Scope} {alive : T → Bool}

theorem list_addSink (sinks : Lists T Scope) (sink : T) (scope s : Scope) :
    Lists.list ((WeakScopeDispatcher.mk sinks).addSink scope sink).sinks s =
      sinks.list s ++ if scope = s then [sink] else [] :=
  WeakScopeDispatcher.entries_addSink ⟨sinks⟩ scope sink s

theorem Complete.addSink [DecidableEq T] (h : Complete sinks registered alive) (sink : T)
    (scope : Scope) : Complete ((WeakScopeDispatcher.mk sinks).addSink scope sink).sinks
      (Function.update registered sink (some scope)) alive := by
  intro sink' s hsink halive
  rw [list_addSink]
  by_cases heq : sink' = sink
  · subst heq
    obtain rfl : scope = s := by simpa using hsink
    simp
  · exact List.mem_append_left _ (h sink' s (by simpa [heq] using hsink) halive)

/-- An element goes whose sink is not registered or does not exist any more. -/
theorem Complete.eraseAt (h : Complete sinks registered alive) {scope : Scope} {i : ℕ}
    {pointer : T} (hpointer : (sinks.list scope)[i]? = some pointer)
    (hgone : registered pointer = none ∨ alive pointer = false) :
    Complete (sinks.eraseAt scope i) registered alive := by
  intro sink s hsink halive
  have hmem := h sink s hsink halive
  have hne : sink ≠ pointer := by
    rintro rfl
    rcases hgone with hnone | hdead
    · cases hnone.symm.trans hsink
    · cases hdead.symm.trans halive
  rw [Lists.list_eraseAt]
  split_ifs with hs
  · have hdrop := mem_drop_eraseIdx hpointer hne (i := 0) (by rwa [List.drop_zero, ← hs])
    simpa using hdrop
  · exact hmem

theorem Complete.unregister [DecidableEq T] (h : Complete sinks registered alive) {sink : T} :
    Complete sinks (Function.update registered sink none) alive := by
  intro sink' s hsink halive
  have hne : sink' ≠ sink := fun heq => by simp [heq] at hsink
  exact h sink' s (by simpa [hne] using hsink) halive

end Dispatcher

/-- `WeakScopeDispatcher::mapSinks` and `WeakScopeDispatcher::removeSink` as loops, with
`addSink`. -/
def WeakScopeDispatcher.registry (T : Type) [DecidableEq T] : Registry T Scope where
  -- `superScopes(true)` is the first statement of `mapSinks`
  dispatchable scope := scope.SuperScopesFit
  prepare sinks _ := sinks
  keys scope := scope.superScopes true
  covers := Scope.covers
  add sinks sink scope := ((WeakScopeDispatcher.mk sinks).addSink scope sink).sinks
  removable _ := true
  scanned sinks scope := (sinks.find? scope).map fun _ => [scope]
  scan := .all
  drops scope s := s = scope
  prefix_prepare := List.prefix_rfl
  prefix_add {sinks sink scope s} := by
    rw [Dispatcher.list_addSink]
    exact List.prefix_append ..
  Complete := Dispatcher.Complete
  complete_prepare h := h
  complete_add h := h.addSink _ _
  complete_erase h hpointer hgone := h.eraseAt hpointer hgone
  complete_drop {sinks registered alive scope} h sink s hsink halive := by
    rw [Lists.list_dropEmpty sinks fun s => s = scope]
    exact h sink s hsink halive
  complete_unregister h := h.unregister
  complete_mono h halive := fun sink scope hsink hs => h sink scope hsink (halive sink hs)
  complete_found {sinks registered alive sink scope event} h hsink halive hcovers :=
    ⟨scope, (Scope.mem_superScopes ..).mpr hcovers, h sink scope hsink halive⟩

/-- A loop of `mapSinks` that nobody disturbs. -/
theorem exec_mapSinks {T : Type} [DecidableEq T] {s : Registry.State T Scope}
    (hs : s.undefined = false) (hcalling : s.calling = true) {scope : Scope} {called : List T}
    (hmapped : (WeakScopeDispatcher.mk s.store).mapSinks s.alive scope = .ok called) :
    ∃ (d : Dispatched T) (labels : List (Registry.Label T Scope)), d.called = called ∧
      (∀ label ∈ labels, label.quiet = true) ∧
      exec (WeakScopeDispatcher.registry T).step s (.dispatch scope :: labels) =
        some { s with finished := d :: s.finished } := by
  rw [WeakScopeDispatcher.mapSinks_eq] at hmapped
  split_ifs at hmapped with hfit
  obtain rfl := Except.ok.inj hmapped
  obtain ⟨d, labels, hcalled, hquiet, hexec⟩ :=
    Registry.exec_dispatch (R := WeakScopeDispatcher.registry T) hs hcalling (decide_eq_true hfit)
  refine ⟨d, labels, hcalled.trans ?_, hquiet, hexec⟩
  rw [List.filter_flatMap]
  rfl

/-- The loop of `removeSink` when nobody disturbs it. -/
theorem exec_removeSink {T : Type} [DecidableEq T] {s : Registry.State T Scope}
    (hs : s.undefined = false) (hloops : s.loops = []) {sink : T} {scope : Scope}
    (hscope : ∀ sc ∈ s.registered sink, sc = scope) {d : WeakScopeDispatcher T}
    (hremoved : (WeakScopeDispatcher.mk s.store).removeSink s.alive scope sink = .ok d) :
    ∃ labels : List (Registry.Label T Scope), (∀ label ∈ labels, label.quiet = true) ∧
      exec (WeakScopeDispatcher.registry T).step s (.remove sink scope :: labels) = some { s with
        store := d.sinks
        registered := Function.update s.registered sink none } := by
  rw [WeakScopeDispatcher.removeSink] at hremoved
  cases hfind : s.store.find? scope with
  | none => simp [hfind] at hremoved
  | some sinks =>
      simp only [hfind, Except.ok.injEq] at hremoved
      subst hremoved
      have hscanned : (WeakScopeDispatcher.registry T).scanned s.store scope = some [scope] :=
        congrArg (Option.map fun _ => [scope]) hfind
      obtain ⟨store', labels, hstore', hquiet, hexec⟩ :=
        Registry.exec_removal (R := WeakScopeDispatcher.registry T) hs hloops hscope rfl hscanned
          (List.nodup_singleton scope)
      refine ⟨labels, hquiet, hexec.trans ?_⟩
      have hsinks : (WeakScopeDispatcher.registry T).drop store' scope =
          if (sinks.filter fun pointer => !(!s.alive pointer || pointer == sink)).isEmpty then
            s.store.erase scope
          else s.store.insert scope
            (sinks.filter fun pointer => !(!s.alive pointer || pointer == sink)) := by
        refine SortedMap.ext_find? fun sc => Option.ext fun l => ?_
        have hdrops : (WeakScopeDispatcher.registry T).drops scope sc = decide (sc = scope) := rfl
        rw [Registry.drop, SortedMap.find?_filter_eq_some, hstore', hdrops]
        by_cases hsc : sc = scope
        · subst hsc
          rw [if_pos (List.mem_singleton_self sc), hfind, Lists.list_of_find? hfind]
          have hscan : (WeakScopeDispatcher.registry T).scan.erase (Registry.gone s.alive sink)
              sinks = sinks.filter fun pointer => !(!s.alive pointer || pointer == sink) := rfl
          rw [hscan]
          split_ifs with hempty
          · rw [SortedMap.find?_erase, if_pos rfl, List.isEmpty_iff.mp hempty]
            simp
          · rw [SortedMap.find?_insert, if_pos rfl]
            refine and_iff_left_of_imp fun h => ?_
            obtain rfl := Option.some.inj h
            rw [decide_eq_true rfl, Bool.and_true, Bool.not_eq_true', Bool.eq_false_iff]
            exact hempty
        · rw [if_neg (by simp [hsc])]
          split_ifs
          · simp [SortedMap.find?_erase, hsc]
          · simp [SortedMap.find?_insert, hsc]
      rw [hsinks]

/-! ### Dispatch -/

/-- No loop has used an erased element, and every dispatch that has come to its end
has called all sinks that were due at it. -/
def Delivers {T : Type} (s : Registry.State T Scope) : Prop :=
  s.undefined = false ∧ ∀ d ∈ s.finished, ∀ sink, d.due sink = true → sink ∈ d.called

/-- Connector 0 removes itself when it is called; the loop of `removeSink` takes `n` steps. -/
def selfRemoval (n : ℕ) : List (Registry.Label ℕ Scope) :=
  [.add 0 .root, .dispatch .root, .go, .remove 0 .root] ++ .replicate n .go ++ [.release false, .go]

/-- The loop has held the last reference to connector 0. -/
def lastReference (n : ℕ) : List (Registry.Label ℕ Scope) :=
  [.add 0 .root, .dispatch .root, .go, .release true] ++ .replicate n .go ++ [.go]

/-- Connector 1 removes connector 0, which has been called before; the loop of `removeSink`
for it takes the steps `removal`. -/
def earlierRemoval (removal : List (Registry.Label ℕ Scope)) : List (Registry.Label ℕ Scope) :=
  [.add 0 .root, .add 1 .root, .add 2 .root, .dispatch .root, .go, .release false, .go,
    .remove 0 .root] ++ removal ++ [.release false, .go, .release false, .go, .go]

end Rsb.Transport
