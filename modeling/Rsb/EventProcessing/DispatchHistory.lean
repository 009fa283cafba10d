import Rsb.EventProcessing.ScopeDispatcher
import Mathlib.Data.List.Flatten

/-!
What a dispatcher holds after a history of calls.

`remaining` reads off the history which sinks are still registered: an addition counts
unless the same sink is removed from the same scope later on. A dispatcher holds just
these, scope by scope and in the order of their addition, and its map has no scope
without sinks.
-/

namespace Rsb.ScopeDispatcher

open Library

/-- A call that changes a dispatcher. -/
inductive Operation (T : Type)
  | addSink (scope : Scope) (sink : T)
  | removeSink (scope : Scope) (sink : T)
  deriving DecidableEq

variable {T : Type} [DecidableEq T]

def step (d : ScopeDispatcher T) : Operation T → Except Fault (ScopeDispatcher T)
  | .addSink scope sink => .ok (d.addSink scope sink)
  | .removeSink scope sink => d.removeSink scope sink

/-- The dispatcher after the calls, from the one as constructed. -/
def run (operations : List (Operation T)) : Except Fault (ScopeDispatcher T) :=
  operations.foldlM step init

/-- The sinks that have been added and not been removed since, with their scopes. -/
def remaining : List (Operation T) → List (Scope × T)
  | [] => []
  | .addSink scope sink :: later =>
      if .removeSink scope sink ∈ later then remaining later
      else (scope, sink) :: remaining later
  | .removeSink _ _ :: later => remaining later

/-- Those of them that belong to `scope`. -/
def registered (operations : List (Operation T)) (scope : Scope) : List T :=
  ((remaining operations).filter (fun r => r.1 = scope)).map (·.2)

/-- Sinks are only removed from scopes that have sinks. -/
def Legal (operations : List (Operation T)) : Prop :=
  ∀ earlier scope sink later, operations = earlier ++ .removeSink scope sink :: later →
    registered earlier scope ≠ []

/-! ### The last call of a history -/

theorem remaining_append_addSink (operations : List (Operation T)) (scope : Scope) (sink : T) :
    remaining (operations ++ [.addSink scope sink]) = remaining operations ++ [(scope, sink)] := by
  induction operations with
  | nil => simp [remaining]
  | cons operation operations ih =>
      cases operation with
      | addSink scope' sink' =>
          simp only [List.cons_append, remaining, ih, List.mem_append, List.mem_singleton,
            reduceCtorEq, or_false]
          split <;> rfl
      | removeSink scope' sink' => exact ih

theorem remaining_append_removeSink (operations : List (Operation T)) (scope : Scope) (sink : T) :
    remaining (operations ++ [.removeSink scope sink]) =
      (remaining operations).filter (fun r => r ≠ (scope, sink)) := by
  induction operations with
  | nil => simp [remaining]
  | cons operation operations ih =>
      cases operation with
      | addSink scope' sink' =>
          simp only [List.cons_append, remaining, ih, List.mem_append, List.mem_singleton,
            Operation.removeSink.injEq]
          by_cases hlater : .removeSink scope' sink' ∈ operations
          · simp [hlater]
          · by_cases hsame : scope' = scope ∧ sink' = sink
            · obtain ⟨rfl, rfl⟩ := hsame
              simp [hlater]
            · simp [hsame, hlater]
      | removeSink scope' sink' => exact ih

theorem registered_append_addSink (operations : List (Operation T)) (scope s : Scope) (sink : T) :
    registered (operations ++ [.addSink scope sink]) s =
      registered operations s ++ (if scope = s then [sink] else []) := by
  rw [registered, remaining_append_addSink, List.filter_append, List.map_append, registered]
  by_cases h : scope = s <;> simp [h]

theorem registered_append_removeSink (operations : List (Operation T)) (scope s : Scope)
    (sink : T) :
    registered (operations ++ [.removeSink scope sink]) s =
      if scope = s then (registered operations s).filter (· ≠ sink)
      else registered operations s := by
  rw [registered, remaining_append_removeSink, registered, List.filter_filter]
  by_cases h : scope = s
  · subst h
    rw [if_pos rfl, List.filter_map, List.filter_filter]
    congr 2
    funext r
    by_cases hr : r.1 = scope <;> simp [hr, Prod.ext_iff]
  · rw [if_neg h]
    congr 2
    funext r
    by_cases hr : r.1 = s
    · have hne : r.1 ≠ scope := fun heq => h (heq.symm.trans hr)
      simp [hr, Prod.ext_iff, Ne.symm h]
    · simp [hr]

/-! ### The map of lists -/

/-- The map has the registered sinks under every scope, and no scope without any. -/
def Holds (d : ScopeDispatcher T) (operations : List (Operation T)) : Prop :=
  ∀ s, d.sinks.find? s =
    if registered operations s = [] then none else some (registered operations s)

theorem Holds.getD {d : ScopeDispatcher T} {operations : List (Operation T)}
    (h : d.Holds operations) (s : Scope) : (d.sinks.find? s).getD [] = registered operations s := by
  rw [h s]
  split
  · next hnil => rw [hnil, Option.getD_none]
  · rfl

theorem holds_init : (init : ScopeDispatcher T).Holds [] := fun _ => rfl

theorem Holds.addSink {d : ScopeDispatcher T} {operations : List (Operation T)}
    (h : d.Holds operations) (scope : Scope) (sink : T) :
    (d.addSink scope sink).Holds (operations ++ [.addSink scope sink]) := by
  intro s
  rw [ScopeDispatcher.addSink, SortedMap.find?_insert, h.getD, registered_append_addSink]
  by_cases hs : s = scope
  · subst hs
    simp
  · rw [if_neg hs, if_neg (Ne.symm hs), List.append_nil, h s]

theorem Holds.removeSink {d : ScopeDispatcher T} {operations : List (Operation T)}
    (h : d.Holds operations) {scope : Scope} (hsome : registered operations scope ≠ [])
    (sink : T) :
    ∃ d', d.removeSink scope sink = .ok d' ∧
      d'.Holds (operations ++ [.removeSink scope sink]) := by
  have hscope := h scope
  rw [if_neg hsome] at hscope
  rw [ScopeDispatcher.removeSink, hscope]
  refine ⟨_, rfl, ?_⟩
  intro s
  rw [registered_append_removeSink]
  by_cases hs : s = scope
  · subst hs
    rw [if_pos rfl]
    by_cases hempty : (registered operations s).filter (· ≠ sink) = []
    · rw [if_pos hempty, hempty]
      simp [SortedMap.find?_erase]
    · rw [if_neg hempty, if_neg (by simpa using hempty), SortedMap.find?_insert_self]
  · rw [if_neg (Ne.symm hs), ← h s]
    split
    · rw [SortedMap.find?_erase, if_neg hs]
    · rw [SortedMap.find?_insert, if_neg hs]

theorem legal_append_singleton {operations : List (Operation T)} {operation : Operation T} :
    Legal (operations ++ [operation]) ↔ Legal operations ∧
      ∀ scope sink, operation = .removeSink scope sink → registered operations scope ≠ [] := by
  constructor
  · intro h
    refine ⟨?_, ?_⟩
    · rintro earlier scope sink later rfl
      exact h earlier scope sink (later ++ [operation]) (by simp)
    · rintro scope sink rfl
      exact h operations scope sink [] rfl
  · rintro ⟨h, hlast⟩ earlier scope sink later heq
    rcases List.eq_nil_or_concat later with rfl | ⟨later, last, rfl⟩
    · obtain ⟨rfl, hop⟩ := List.append_inj' heq rfl
      exact hlast scope sink (List.cons.inj hop).1
    · rw [List.concat_eq_append, ← List.cons_append, ← List.append_assoc] at heq
      exact h earlier scope sink later (List.append_inj' heq rfl).1

/-- No removal of a legal history throws. -/
theorem exists_run {operations : List (Operation T)} (h : Legal operations) :
    ∃ d, run operations = .ok d ∧ d.Holds operations := by
  induction operations using List.reverseRecOn with
  | nil => exact ⟨init, rfl, holds_init⟩
  | append_singleton operations operation ih =>
      obtain ⟨hinit, hsome⟩ := legal_append_singleton.mp h
      obtain ⟨d, hrun, hholds⟩ := ih hinit
      have hlast : run (operations ++ [operation]) = d.step operation := by
        rw [run, List.foldlM_append, ← run, hrun]
        simp [bind, Except.bind, pure, Except.pure]
        cases d.step operation <;> rfl
      cases operation with
      | addSink scope sink =>
          exact ⟨_, hlast, hholds.addSink scope sink⟩
      | removeSink scope sink =>
          obtain ⟨d', hd', hholds'⟩ := hholds.removeSink (hsome scope sink rfl) sink
          exact ⟨d', hlast.trans hd', hholds'⟩

/-! ### All the sinks -/

/-- A list is put together again from the groups of its elements. -/
theorem perm_flatMap_filter {κ α : Type} [DecidableEq κ] (f : α → κ) {keys : List κ}
    (hnodup : keys.Nodup) {l : List α} (h : ∀ a ∈ l, f a ∈ keys) :
    (keys.flatMap fun k => l.filter (fun a => f a = k)).Perm l := by
  induction keys generalizing l with
  | nil =>
      have hnil : l = [] := List.eq_nil_iff_forall_not_mem.mpr fun a ha =>
        absurd (h a ha) List.not_mem_nil
      rw [hnil]
      rfl
  | cons k keys ih =>
      obtain ⟨hk, hkeys⟩ := List.nodup_cons.mp hnodup
      have hrest := ih hkeys (l := l.filter (fun a => f a ≠ k)) (by
        intro a ha
        obtain ⟨hmem, hne⟩ := List.mem_filter.mp ha
        exact (List.mem_cons.mp (h a hmem)).resolve_left (by simpa using hne))
      -- the groups of the other keys do not miss the group of `k`
      have hgroups : (keys.flatMap fun k' =>
          (l.filter (fun a => f a ≠ k)).filter (fun a => f a = k')) =
          keys.flatMap fun k' => l.filter (fun a => f a = k') := by
        apply List.flatMap_congr
        intro k' hk'
        rw [List.filter_filter]
        congr 1
        funext a
        by_cases ha : f a = k'
        · have hne : k' ≠ k := fun heq => hk (heq ▸ hk')
          simp [ha, hne]
        · simp [ha]
      rw [hgroups] at hrest
      rw [List.flatMap_cons]
      refine (List.Perm.append_left _ hrest).trans ?_
      simpa using List.filter_append_perm (fun a => decide (f a = k)) l

theorem Holds.perm_mapAllSinks {d : ScopeDispatcher T} {operations : List (Operation T)}
    (h : d.Holds operations) : d.mapAllSinks.Perm ((remaining operations).map (·.2)) := by
  have hentries : d.mapAllSinks = d.sinks.keys.flatMap (registered operations) := by
    rw [mapAllSinks, SortedMap.keys, List.flatMap_map]
    apply List.flatMap_congr
    intro e he
    rw [← h.getD, SortedMap.find?_eq_some_iff.mpr he, Option.getD_some]
  have hkeys : ∀ r ∈ remaining operations, r.1 ∈ d.sinks.keys := by
    intro r hr
    have hsome : registered operations r.1 ≠ [] := by
      apply List.ne_nil_of_mem
      exact List.mem_map.mpr ⟨r, List.mem_filter.mpr ⟨hr, by simp⟩, rfl⟩
    have hfind := h r.1
    rw [if_neg hsome] at hfind
    exact SortedMap.mem_keys.mpr ⟨_, hfind⟩
  have hperm := (perm_flatMap_filter Prod.fst d.sinks.nodup_keys hkeys).map Prod.snd
  rw [List.map_flatMap] at hperm
  rw [hentries]
  exact hperm

theorem Holds.empty_iff {d : ScopeDispatcher T} {operations : List (Operation T)}
    (h : d.Holds operations) : d.empty = true ↔ remaining operations = [] := by
  have hperm := h.perm_mapAllSinks
  rw [empty, List.isEmpty_iff]
  constructor
  · intro hnil
    rw [mapAllSinks, hnil, List.flatMap_nil] at hperm
    exact List.map_eq_nil_iff.mp hperm.nil_eq.symm
  · intro hnil
    apply List.eq_nil_iff_forall_not_mem.mpr
    rintro ⟨s, sinks⟩ he
    have hfind := h s
    rw [SortedMap.find?_eq_some_iff.mpr he, registered, hnil] at hfind
    cases hfind

/-! ### Dispatch -/

/-- The dispatcher calls on an event for `s` just the registered sinks of the scopes
from the root down to `s`, and over all the registered sinks of every scope. -/
structure Exact (d : ScopeDispatcher T) (operations : List (Operation T)) (s : Scope) : Prop where
  mapSinks : d.mapSinks s = .ok
    ((List.range (s.components.length + 1)).flatMap fun n => registered operations (s.take n))
  mapAllSinks : d.mapAllSinks.Perm ((remaining operations).map (·.2))
  empty : d.empty = true ↔ remaining operations = []

theorem Holds.exact_iff {d : ScopeDispatcher T} {operations : List (Operation T)}
    (h : d.Holds operations) (s : Scope) :
    d.Exact operations s ↔ s.parent.toString.length < 2 ^ 32 := by
  have hmap := d.mapSinks_eq s
  constructor
  · intro hexact
    by_contra hlong
    rw [if_neg hlong, hexact.mapSinks] at hmap
    cases hmap
  · intro hshort
    refine ⟨?_, h.perm_mapAllSinks, h.empty_iff⟩
    rw [hmap, if_pos hshort, Scope.superScopes_true, List.flatMap_map]
    simp only [h.getD]

/-- After any legal history dispatch is exact for a scope if and only if the string of
its parent has fewer than `2 ^ 32` bytes. -/
theorem exact_iff_parent_fits (operations : List (Operation T)) (h : Legal operations)
    (s : Scope) :
    (∃ d, run operations = .ok d ∧ d.Exact operations s) ↔
      s.parent.toString.length < 2 ^ 32 := by
  obtain ⟨d, hrun, hholds⟩ := exists_run h
  rw [← hholds.exact_iff s]
  constructor
  · rintro ⟨d', hrun', hexact⟩
    obtain rfl := Except.ok.inj (hrun.symm.trans hrun')
    exact hexact
  · intro hexact
    exact ⟨d, hrun, hexact⟩

/-- Two sinks are added to the root scope, the first one is removed. -/
def sampleHistory : List (Operation ℕ) :=
  [.addSink Scope.root 0, .addSink Scope.root 1, .removeSink Scope.root 0]

theorem legal_sampleHistory : Legal sampleHistory := by
  have hadd : ∀ (operations : List (Operation ℕ)) scope sink, Legal operations →
      Legal (operations ++ [.addSink scope sink]) := by
    intro operations scope sink h
    exact legal_append_singleton.mpr ⟨h, by simp⟩
  have hnil : Legal ([] : List (Operation ℕ)) := by
    intro earlier scope sink later heq
    simp at heq
  have htwo := hadd _ Scope.root 1 (hadd _ Scope.root 0 hnil)
  refine legal_append_singleton.mpr ⟨htwo, ?_⟩
  intro scope sink heq
  obtain ⟨rfl, rfl⟩ := Operation.removeSink.inj heq
  decide

theorem exact_sampleHistory_root :
    ∃ d, run sampleHistory = .ok d ∧ d.Exact sampleHistory Scope.root :=
  (exact_iff_parent_fits sampleHistory legal_sampleHistory Scope.root).mpr (by decide)

/-- Below a component of `2 ^ 32` letters no sink is called, not even the one of the
root scope. -/
theorem not_exact_below_long_component :
    ¬ ∀ s, Scope.parse (bytes "/" ++ List.replicate (2 ^ 32) 97 ++ bytes "/b") = .ok s →
      ∃ d, run sampleHistory = .ok d ∧ d.Exact sampleHistory s := by
  intro hall
  obtain ⟨s, hparse, hlength⟩ := Scope.exists_parse_replicate (n := 2 ^ 32) (by decide)
  obtain ⟨d, hrun, hexact⟩ := hall s hparse
  obtain ⟨d', hrun', hholds⟩ := exists_run legal_sampleHistory
  obtain rfl := Except.ok.inj (hrun.symm.trans hrun')
  exact absurd ((hholds.exact_iff s).mp hexact) (not_lt.mpr hlength)

end Rsb.ScopeDispatcher
