import Rsb.EventProcessing.ScopeDispatcher
import Rsb.Library.Runs
import Mathlib.Data.Set.Card

/-!
Sinks that expire while they are registered.

A connector removes itself from the dispatcher when it is destroyed, so its weak
pointer dangles by then, and `removeSink` takes all the pointers of a scope that
dangle. `Bookkeeping` records next to the dispatcher which sinks are registered where,
and which of these registrations an earlier removal for the scope has swept away. A
removal finds the entry of its scope as long as some registration for it is left that
has not been swept.
-/

namespace Rsb.WeakScopeDispatcher

open Library

/-- A sink that has been added and not been removed since. -/
structure Registration (T : Type) where
  scope : Scope
  sink : T
  /-- A removal for the scope has found the sink expired. -/
  swept : Bool
  deriving DecidableEq

/-- The registration is one of `sink` for `scope`. -/
def Registration.isFor {T : Type} [DecidableEq T] (r : Registration T) (scope : Scope)
    (sink : T) : Bool := decide (r.scope = scope ∧ r.sink = sink)

structure Bookkeeping (T : Type) where
  dispatcher : WeakScopeDispatcher T
  /-- The sinks whose last reference has gone away. -/
  expired : List T
  registered : List (Registration T)

inductive Operation (T : Type)
  | addSink (scope : Scope) (sink : T)
  | expire (sink : T)
  | removeSink (scope : Scope) (sink : T)

namespace Bookkeeping

variable {T : Type} [DecidableEq T]

def init : Bookkeeping T := ⟨.empty, [], []⟩

def alive (b : Bookkeeping T) (sink : T) : Bool := decide (sink ∉ b.expired)

/-- What becomes of a registration when a sink is removed from `scope`. -/
def sweep (b : Bookkeeping T) (scope : Scope) (r : Registration T) : Registration T :=
  if r.scope = scope ∧ b.alive r.sink = false then { r with swept := true } else r

/-- Removing a sink; an exception leaves the dispatcher as it was. -/
def remove (b : Bookkeeping T) (scope : Scope) (sink : T) : Bookkeeping T where
  dispatcher :=
    match b.dispatcher.removeSink b.alive scope sink with
    | .ok dispatcher => dispatcher
    | .error _ => b.dispatcher
  expired := b.expired
  registered := (b.registered.filter fun r => !r.isFor scope sink).map (b.sweep scope)

/-- `removeSink` is only called for a sink that is registered for the scope. -/
def step (b : Bookkeeping T) : Operation T → Option (Bookkeeping T)
  | .addSink scope sink => some { b with
      dispatcher := b.dispatcher.addSink scope sink
      registered := b.registered ++ [⟨scope, sink, false⟩] }
  | .expire sink => some { b with expired := sink :: b.expired }
  | .removeSink scope sink =>
      if b.registered.any fun r => r.isFor scope sink then some (b.remove scope sink)
      else none

end Bookkeeping

/-- The map has no scope with an empty list, and its size is the number of the scopes
with entries. -/
def Tidy {T : Type} (d : WeakScopeDispatcher T) : Prop :=
  (∀ s, d.sinks.find? s ≠ some []) ∧ d.size = {s | d.entries s ≠ []}.ncard

/-- Scopes with an entry are the keys of the map, if no entry is empty. -/
theorem tidy_of_no_empty {T : Type} {d : WeakScopeDispatcher T}
    (h : ∀ s, d.sinks.find? s ≠ some []) : d.Tidy := by
  refine ⟨h, ?_⟩
  have hkeys : {s | d.entries s ≠ []} = {s | s ∈ d.sinks.keys} := by
    ext s
    rw [Set.mem_ofPred_eq, Set.mem_ofPred_eq, SortedMap.mem_keys, entries]
    cases hfind : d.sinks.find? s with
    | none => simp
    | some sinks =>
        have hne : sinks ≠ [] := fun hnil => h s (hnil ▸ hfind)
        simp [hne]
  have hcoe : {s | s ∈ d.sinks.keys} = (d.sinks.keys.toFinset : Set Scope) := by
    ext s
    simp
  rw [hkeys, hcoe, Set.ncard_coe_finset, List.toFinset_card_of_nodup d.sinks.nodup_keys, SortedMap.keys,
    List.length_map, size]

namespace Bookkeeping

variable {T : Type}

/-- The sinks registered for `s` that have not been swept. -/
def kept (b : Bookkeeping T) (s : Scope) : List T :=
  (b.registered.filter fun r => decide (r.scope = s) && !r.swept).map (·.sink)

/-- The dispatcher has just the kept sinks, and no scope without any. -/
def Consistent (b : Bookkeeping T) : Prop :=
  ∀ s, b.dispatcher.sinks.find? s = if b.kept s = [] then none else some (b.kept s)

theorem Consistent.entries {b : Bookkeeping T} (hb : b.Consistent) (s : Scope) :
    b.dispatcher.entries s = b.kept s := by
  rw [WeakScopeDispatcher.entries, hb s]
  split
  · next hnil => rw [hnil, Option.getD_none]
  · rfl

theorem Consistent.tidy {b : Bookkeeping T} (hb : b.Consistent) : b.dispatcher.Tidy := by
  apply tidy_of_no_empty
  intro s
  rw [hb s]
  split
  · simp
  · next hne => simpa using hne

theorem consistent_init : (init : Bookkeeping T).Consistent := fun _ => rfl

theorem mem_kept {b : Bookkeeping T} {s : Scope} {sink : T} :
    sink ∈ b.kept s ↔ ∃ r ∈ b.registered, r.scope = s ∧ r.swept = false ∧ r.sink = sink := by
  simp only [kept, List.mem_map, List.mem_filter, Bool.and_eq_true, decide_eq_true_eq,
    Bool.not_eq_true', and_assoc]

theorem kept_ne_nil_iff {b : Bookkeeping T} {scope : Scope} :
    b.kept scope ≠ [] ↔ ∃ r ∈ b.registered, r.scope = scope ∧ r.swept = false := by
  constructor
  · intro hne
    obtain ⟨sink, hsink⟩ := List.exists_mem_of_ne_nil _ hne
    obtain ⟨r, hr, hscope, hswept, -⟩ := mem_kept.mp hsink
    exact ⟨r, hr, hscope, hswept⟩
  · rintro ⟨r, hr, hscope, hswept⟩
    exact List.ne_nil_of_mem (mem_kept.mpr ⟨r, hr, hscope, hswept, rfl⟩)

/-! ### One operation -/

variable [DecidableEq T]

theorem Consistent.addSink {b b' : Bookkeeping T} (hb : b.Consistent) {scope : Scope} {sink : T}
    (h : b.step (.addSink scope sink) = some b') : b'.Consistent := by
  obtain rfl := Option.some.inj h
  intro s
  have hkept : kept { b with
      dispatcher := b.dispatcher.addSink scope sink
      registered := b.registered ++ [⟨scope, sink, false⟩] } s =
      b.kept s ++ (if scope = s then [sink] else []) := by
    rw [kept, List.filter_append, List.map_append, kept]
    by_cases hs : scope = s <;> simp [hs]
  rw [hkept, WeakScopeDispatcher.addSink, SortedMap.find?_insert, hb.entries]
  by_cases hs : s = scope
  · subst hs
    simp
  · rw [if_neg hs, if_neg (Ne.symm hs), List.append_nil, hb s]

theorem scope_sweep (b : Bookkeeping T) (scope : Scope) (r : Registration T) :
    (b.sweep scope r).scope = r.scope := by
  rw [sweep]
  split <;> rfl

theorem sink_sweep (b : Bookkeeping T) (scope : Scope) (r : Registration T) :
    (b.sweep scope r).sink = r.sink := by
  rw [sweep]
  split <;> rfl

theorem swept_sweep (b : Bookkeeping T) (scope : Scope) (r : Registration T) :
    (b.sweep scope r).swept = (r.swept || (decide (r.scope = scope) && !b.alive r.sink)) := by
  rw [sweep]
  split
  · next h => simp [h.1, h.2]
  · next h =>
      by_cases hr : r.scope = scope
      · simp [not_and.mp h hr]
      · simp [hr]

/-- A removal takes from the list of its scope the sink and all that have expired. -/
theorem kept_remove (b : Bookkeeping T) (scope s : Scope) (sink : T) :
    (b.remove scope sink).kept s =
      if s = scope then (b.kept s).filter fun pointer => !(!b.alive pointer || pointer == sink)
      else b.kept s := by
  have hmap : (b.remove scope sink).kept s =
      (b.registered.filter fun r => (decide (r.scope = s) &&
        !(r.swept || (decide (r.scope = scope) && !b.alive r.sink))) &&
          !r.isFor scope sink).map (·.sink) := by
    rw [kept, remove, List.filter_map, List.map_map, List.filter_filter]
    simp only [Function.comp_def, sink_sweep, scope_sweep, swept_sweep]
  rw [hmap, kept]
  split
  · next hs =>
      subst hs
      rw [List.filter_map, List.filter_filter]
      congr 2
      funext r
      by_cases hr : r.scope = s
      · cases halive : b.alive r.sink <;> cases r.swept <;>
          simp [Registration.isFor, hr, halive, beq_eq_decide]
      · simp [hr]
  · next hs =>
      congr 2
      funext r
      by_cases hr : r.scope = s
      · have hne : r.scope ≠ scope := fun heq => hs (hr.symm.trans heq)
        simp [Registration.isFor, hne]
      · simp [hr]

/-- While a registration for the scope is kept, its entry is found. -/
theorem Consistent.removeSink {b : Bookkeeping T} (hb : b.Consistent) {scope : Scope}
    (hkept : b.kept scope ≠ []) (sink : T) :
    b.dispatcher.removeSink b.alive scope sink = .ok (b.remove scope sink).dispatcher ∧
      (b.remove scope sink).Consistent := by
  have hscope := hb scope
  rw [if_neg hkept] at hscope
  have hremove : b.dispatcher.removeSink b.alive scope sink =
      .ok ⟨if ((b.kept scope).filter fun pointer => !(!b.alive pointer || pointer == sink)).isEmpty
        then b.dispatcher.sinks.erase scope
        else b.dispatcher.sinks.insert scope
          ((b.kept scope).filter fun pointer => !(!b.alive pointer || pointer == sink))⟩ := by
    rw [WeakScopeDispatcher.removeSink, hscope]
  have hdispatcher : b.dispatcher.removeSink b.alive scope sink =
      .ok (b.remove scope sink).dispatcher := by
    simp only [remove, hremove]
  refine ⟨hdispatcher, ?_⟩
  intro s
  rw [← Except.ok.inj (hremove.symm.trans hdispatcher), kept_remove]
  by_cases hs : s = scope
  · subst hs
    simp only [if_true]
    split
    · next hempty =>
        rw [SortedMap.find?_erase, if_pos rfl, if_pos (List.isEmpty_iff.mp hempty)]
    · next hempty =>
        rw [SortedMap.find?_insert_self, if_neg (mt List.isEmpty_iff.mpr hempty)]
  · rw [if_neg hs, ← hb s]
    simp only
    split
    · rw [SortedMap.find?_erase, if_neg hs]
    · rw [SortedMap.find?_insert, if_neg hs]

/-- Without one the exception is thrown, and nothing changes. -/
theorem Consistent.removeSink_throws {b : Bookkeeping T} (hb : b.Consistent) {scope : Scope}
    (hkept : b.kept scope = []) (sink : T) :
    b.dispatcher.removeSink b.alive scope sink =
        .error (.thrown ⟨.logicError, bytes "Should not happen"⟩) ∧
      (b.remove scope sink).Consistent := by
  have hscope := hb scope
  rw [if_pos hkept] at hscope
  have hremove : b.dispatcher.removeSink b.alive scope sink =
      .error (.thrown ⟨.logicError, bytes "Should not happen"⟩) := by
    rw [WeakScopeDispatcher.removeSink, hscope]
  refine ⟨hremove, ?_⟩
  intro s
  have hdispatcher : (b.remove scope sink).dispatcher = b.dispatcher := by
    simp only [remove, hremove]
  rw [hdispatcher, kept_remove]
  by_cases hs : s = scope
  · subst hs
    rw [if_pos rfl, hkept, List.filter_nil, if_pos rfl]
    exact hscope
  · rw [if_neg hs]
    exact hb s

theorem consistent_step {b b' : Bookkeeping T} {operation : Operation T} (hb : b.Consistent)
    (h : b.step operation = some b') : b'.Consistent := by
  cases operation with
  | addSink scope sink => exact hb.addSink h
  | expire sink =>
      obtain rfl := Option.some.inj h
      exact hb
  | removeSink scope sink =>
      rw [step] at h
      split at h
      · obtain rfl := Option.some.inj h
        by_cases hkept : b.kept scope = []
        · exact (hb.removeSink_throws hkept sink).2
        · exact (hb.removeSink hkept sink).2
      · cases h

/-! ### Removals -/

/-- What is expected of removing `sink` from `scope`: no exception; the sink is left in
no list but those of other scopes it is registered for; every other live sink stays in
its lists, as often as it is there. -/
def Removes (b : Bookkeeping T) (scope : Scope) (sink : T) : Prop :=
  ∃ d, b.dispatcher.removeSink b.alive scope sink = .ok d ∧
    (∀ s, sink ∈ d.entries s → s ≠ scope ∧ ∃ r ∈ b.registered, r.isFor s sink = true) ∧
    (∀ other, other ≠ sink → b.alive other = true → ∀ s,
      (d.entries s).count other = (b.dispatcher.entries s).count other) ∧
    d.Tidy

/-- The expectation on an operation. -/
def Upholds (b : Bookkeeping T) : Operation T → Prop
  | .removeSink scope sink => b.Removes scope sink
  | .addSink _ _ => True
  | .expire _ => True

/-- Some sink registered for the scope was alive when a sink was last removed from the
scope, or has been added after that. -/
def Keeps (b : Bookkeeping T) : Operation T → Prop
  | .removeSink scope _ => ∃ r ∈ b.registered, r.scope = scope ∧ r.swept = false
  | .addSink _ _ => True
  | .expire _ => True

theorem Consistent.removes_iff {b : Bookkeeping T} (hb : b.Consistent) {scope : Scope} {sink : T} :
    b.Removes scope sink ↔ ∃ r ∈ b.registered, r.scope = scope ∧ r.swept = false := by
  rw [← kept_ne_nil_iff]
  constructor
  · rintro ⟨d, hd, -⟩ hkept
    rw [(hb.removeSink_throws hkept sink).1] at hd
    cases hd
  · intro hkept
    obtain ⟨hremove, hconsistent⟩ := hb.removeSink hkept sink
    refine ⟨_, hremove, ?_, ?_, hconsistent.tidy⟩
    · intro s hs
      rw [hconsistent.entries, kept_remove] at hs
      split at hs
      · simp at hs
      · next hne =>
          obtain ⟨r, hr, hscope, -, hsink⟩ := mem_kept.mp hs
          exact ⟨hne, r, hr, by simp [Registration.isFor, hscope, hsink]⟩
    · intro other hother halive s
      rw [hconsistent.entries, hb.entries, kept_remove]
      split
      · apply List.count_filter
        simp [halive, hother]
      · rfl

theorem Consistent.upholds_iff {b : Bookkeeping T} (hb : b.Consistent) (operation : Operation T) :
    b.Upholds operation ↔ b.Keeps operation := by
  cases operation with
  | addSink scope sink => exact Iff.rfl
  | expire sink => exact Iff.rfl
  | removeSink scope sink => exact hb.removes_iff

/-- In every run the removals do what is expected and the map is tidy, if and only if
each of them finds a registration for its scope that has not been swept. -/
theorem removals_uphold_iff (operations : List (Operation T)) (b : Bookkeeping T)
    (hrun : exec step init operations = some b) :
    Along step Upholds init operations ∧ b.dispatcher.Tidy ↔ Along step Keeps init operations := by
  have hconsistent : b.Consistent :=
    exec_invariant (fun _ _ _ hb h => consistent_step hb h) consistent_init hrun
  rw [and_iff_left hconsistent.tidy]
  exact along_congr (fun _ _ _ hb h => consistent_step hb h)
    (fun _ operation _ hb _ => hb.upholds_iff operation) consistent_init hrun

/-- Two sinks of one scope expire, then the first one is removed. -/
def sampleRun : List (Operation ℕ) :=
  [.addSink Scope.root 0, .addSink Scope.root 1, .expire 0, .expire 1, .removeSink Scope.root 0]

/-- One of them is removed while the other is alive, then the other one. -/
def orderlyRun : List (Operation ℕ) :=
  [.addSink Scope.root 0, .addSink Scope.root 1, .expire 0, .removeSink Scope.root 0, .expire 1,
    .removeSink Scope.root 1]

theorem orderlyRun_uphold_iff :
    ∃ b, exec step init orderlyRun = some b ∧
      (Along step Upholds init orderlyRun ∧ b.dispatcher.Tidy ↔
        Along step Keeps init orderlyRun) :=
  ⟨_, rfl, removals_uphold_iff orderlyRun _ rfl⟩

theorem registered_sampleRun :
    (exec step init sampleRun).map (·.registered) = some [⟨Scope.root, 1, true⟩] := by
  decide

/-- The first removal sweeps both pointers away, so the second one throws. -/
theorem second_removal_throws :
    (exec step init (sampleRun ++ [.removeSink Scope.root 1])).isSome = true ∧
      ¬ Along step Upholds init (sampleRun ++ [.removeSink Scope.root 1]) := by
  obtain ⟨b, hb, hregistered⟩ := Option.map_eq_some_iff.mp registered_sampleRun
  have hconsistent : b.Consistent :=
    exec_invariant (fun _ _ _ hb h => consistent_step hb h) consistent_init hb
  refine ⟨by decide, ?_⟩
  intro halong
  have hlast := (along_append.mp halong).2 b hb
  obtain ⟨r, hr, -, hswept⟩ := hconsistent.removes_iff.mp hlast.1
  rw [hregistered] at hr
  obtain rfl := List.mem_singleton.mp hr
  cases hswept

end Bookkeeping

end Rsb.WeakScopeDispatcher
