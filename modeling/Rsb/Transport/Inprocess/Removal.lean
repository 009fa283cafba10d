import Rsb.Library.Erasures
import Rsb.Library.Scans
import Rsb.Transport.Inprocess.Bus

/-!
Removal of connectors from the in-process bus (`Bus::removeSink`).

The last reference to a registered connector may go away at any time: its
destructor runs `removeSink` only once it has got the mutex of the bus, and until
then the pointers to the connector dangle in the lists. `removeSink` takes the
first dangling pointer of a list for the one to its argument, so what it removes
depends on the pointers in front of that one. Where it meets a pointer to another
connector, it holds a reference for a moment. If that turns out to be the last one, the
destructor runs `removeSink` there and then, since the mutex is recursive.

`Complete` says that the connectors that still exist are where events for them
look them up; it survives every operation. `registry` is the bus with the loops of
`handleNoLock` and of `removeSink` taken step by step.
-/

namespace Rsb.Transport.Inprocess

open Library

variable {Id : Type} [LinearOrder Id]

namespace Bus

/-- A list that becomes empty and one whose entry is gone look the same. -/
theorem list_eraseSink (b : Bus Id) (alive : Id → Bool) (sink : Id) (s : Scope) :
    (b.eraseSink alive sink).list s =
      (b.list s).eraseP fun ptr => !alive ptr || ptr == sink := by
  rw [list, list]
  cases hfind : b.sinks.find? s with
  | none =>
      cases hremoved : (b.eraseSink alive sink).sinks.find? s with
      | none => rfl
      | some l =>
          obtain ⟨-, l', hl', -⟩ := find?_eraseSink_eq_some.mp hremoved
          rw [hfind] at hl'
          cases hl'
  | some l =>
      rw [Option.getD_some]
      by_cases hempty : (l.eraseP fun ptr => !alive ptr || ptr == sink) = []
      · rw [hempty]
        cases hremoved : (b.eraseSink alive sink).sinks.find? s with
        | none => rfl
        | some l₁ =>
            obtain ⟨hne, l', hl', heq⟩ := find?_eraseSink_eq_some.mp hremoved
            obtain rfl := Option.some.inj (hfind.symm.trans hl')
            exact absurd (heq.symm.trans hempty) hne
      · rw [find?_eraseSink_eq_some.mpr ⟨hempty, l, hfind, rfl⟩]
        rfl

omit [LinearOrder Id] in
theorem mem_list_iff {b : Bus Id} {sink : Id} {s : Scope} :
    sink ∈ b.list s ↔ ∃ l, b.sinks.find? s = some l ∧ sink ∈ l := by
  rw [list]
  cases b.sinks.find? s <;> simp

end Bus

/-! ### Connectors that exist are found -/

/-- A registered connector that exists has an entry for its scope, and is in the
list of every scope that its scope covers. -/
structure Complete (b : Bus Id) (registered : Id → Option Scope) (alive : Id → Bool) : Prop where
  mem : ∀ {sink scope s l}, registered sink = some scope → alive sink = true →
    scope.covers s = true → b.sinks.find? s = some l → sink ∈ l
  own : ∀ {sink scope}, registered sink = some scope → alive sink = true →
    ∃ l, b.sinks.find? scope = some l

namespace Complete

variable {b : Bus Id} {registered : Id → Option Scope} {alive : Id → Bool}

theorem fill (h : Complete b registered alive) (scope : Scope) :
    Complete (b.fill scope) registered alive := by
  refine ⟨fun {sink sc s l} hsink halive hcovers hl => ?_, fun {sink sc} hsink halive => ?_⟩
  · rw [Bus.find?_fill] at hl
    split_ifs at hl with hs
    · subst hs
      cases hfind : b.sinks.find? s with
      | some l' =>
          obtain rfl : l' = l := by simpa [hfind] using hl
          exact h.mem hsink halive hcovers hfind
      | none =>
          obtain rfl : b.connectors s = l := by simpa [hfind] using hl
          obtain ⟨l', hl'⟩ := h.own hsink halive
          exact Bus.mem_connectors.mpr
            ⟨sc, l', hl', hcovers, h.mem hsink halive (Scope.covers_refl sc) hl'⟩
    · exact h.mem hsink halive hcovers hl
  · rw [Bus.find?_fill]
    split_ifs
    · exact ⟨_, rfl⟩
    · exact h.own hsink halive

theorem addSink (h : Complete b registered alive) (sink : Id) (scope : Scope) :
    Complete (b.addSink sink scope) (Function.update registered sink (some scope)) alive := by
  have hfill := h.fill scope
  refine ⟨fun {sink' sc s l} hsink halive hcovers hl => ?_, fun {sink' sc} hsink halive => ?_⟩
  · rw [Bus.find?_addSink, Option.map_eq_some_iff] at hl
    obtain ⟨l', hl', rfl⟩ := hl
    by_cases heq : sink' = sink
    · subst heq
      obtain rfl : scope = sc := by simpa using hsink
      simp [hcovers]
    · have hmem := hfill.mem (by simpa [heq] using hsink) halive hcovers hl'
      split_ifs
      · exact List.mem_append_left _ hmem
      · exact hmem
  · rw [Bus.find?_addSink]
    by_cases heq : sink' = sink
    · subst heq
      obtain rfl : scope = sc := by simpa using hsink
      rw [Bus.find?_fill, if_pos rfl]
      exact ⟨_, rfl⟩
    · obtain ⟨l, hl⟩ := hfill.own (by simpa [heq] using hsink) halive
      exact ⟨_, by rw [hl]; rfl⟩

omit [LinearOrder Id] in
/-- An element goes whose connector is not registered or does not exist any more. -/
theorem eraseAt {sinks : Lists Id Scope} (h : Complete ⟨sinks⟩ registered alive) {scope : Scope}
    {i : ℕ} {ptr : Id} (hptr : (sinks.list scope)[i]? = some ptr)
    (hgone : registered ptr = none ∨ alive ptr = false) :
    Complete ⟨sinks.eraseAt scope i⟩ registered alive := by
  refine ⟨fun {sink sc s l} hsink halive hcovers hl => ?_, fun {sink sc} hsink halive => ?_⟩
  · have hne : sink ≠ ptr := by
      rintro rfl
      rcases hgone with hnone | hdead
      · cases hnone.symm.trans hsink
      · cases hdead.symm.trans halive
    have hmem : ∀ l', sinks.find? s = some l' → sink ∈ l' := fun l' hl' =>
      h.mem hsink halive hcovers hl'
    simp only [Lists.find?_eraseAt] at hl
    split_ifs at hl with hs
    · obtain ⟨l', hl', rfl⟩ := Option.map_eq_some_iff.mp hl
      have hdrop := mem_drop_eraseIdx hptr hne (i := 0)
        (by rw [List.drop_zero, ← hs, Lists.list_of_find? (hs ▸ hl')]; exact hmem l' (hs ▸ hl'))
      simpa using hdrop
    · exact hmem l hl
  · obtain ⟨l, hl⟩ := h.own hsink halive
    simp only [Lists.find?_eraseAt]
    split_ifs with hs
    · have hl : sinks.find? sc = some l := hl
      exact ⟨_, by rw [← hs, hl, Option.map_some]⟩
    · exact ⟨l, hl⟩

omit [LinearOrder Id] in
/-- Entries with empty lists go. -/
theorem dropEmpty {sinks : Lists Id Scope} (h : Complete ⟨sinks⟩ registered alive)
    {p : Scope → Bool} :
    Complete ⟨sinks.filter fun e => !(e.2.isEmpty && p e.1)⟩ registered alive := by
  refine ⟨fun {sink sc s l} hsink halive hcovers hl => ?_, fun {sink sc} hsink halive => ?_⟩
  · exact h.mem hsink halive hcovers (SortedMap.find?_filter_eq_some.mp hl).1
  · obtain ⟨l, hl⟩ := h.own hsink halive
    have hmem : sink ∈ l := h.mem hsink halive (Scope.covers_refl sc) hl
    refine ⟨l, SortedMap.find?_filter_eq_some.mpr ⟨hl, ?_⟩⟩
    cases l with
    | nil => cases hmem
    | cons x l => rfl

omit [LinearOrder Id] in
theorem unregister [DecidableEq Id] (h : Complete b registered alive) {sink : Id} :
    Complete b (Function.update registered sink none) alive := by
  have hother : ∀ {sink' : Id} {sc : Scope},
      Function.update registered sink none sink' = some sc → registered sink' = some sc := by
    intro sink' sc hsink
    have hne : sink' ≠ sink := fun heq => by simp [heq] at hsink
    simpa [hne] using hsink
  exact ⟨fun hsink => h.mem (hother hsink), fun hsink => h.own (hother hsink)⟩

omit [LinearOrder Id] in
theorem mono {alive' : Id → Bool} (h : Complete b registered alive)
    (halive : ∀ sink, alive' sink = true → alive sink = true) :
    Complete b registered alive' :=
  ⟨fun hsink hs => h.mem hsink (halive _ hs), fun hsink hs => h.own hsink (halive _ hs)⟩

end Complete

/-! ### The loops of the bus -/

theorem mem_list_fill {b : Bus Id} {scope s : Scope} {sink : Id}
    (h : sink ∈ (b.fill scope).list s) : ∃ s', sink ∈ b.list s' := by
  obtain ⟨l, hl, hmem⟩ := Bus.mem_list_iff.mp h
  rw [Bus.find?_fill] at hl
  split_ifs at hl
  · cases hfind : b.sinks.find? scope with
    | some l' =>
        obtain rfl : l' = l := by simpa [hfind] using hl
        exact ⟨scope, Bus.mem_list_iff.mpr ⟨l', hfind, hmem⟩⟩
    | none =>
        obtain rfl : b.connectors scope = l := by simpa [hfind] using hl
        obtain ⟨s', l', hl', -, hsink⟩ := Bus.mem_connectors.mp hmem
        exact ⟨s', Bus.mem_list_iff.mpr ⟨l', hl', hsink⟩⟩
  · exact ⟨s, Bus.mem_list_iff.mpr ⟨l, hl, hmem⟩⟩

theorem mem_list_addSink {b : Bus Id} {scope s : Scope} {sink sink' : Id}
    (h : sink' ∈ (b.addSink sink scope).list s) : sink' = sink ∨ ∃ s', sink' ∈ b.list s' := by
  obtain ⟨l, hl, hmem⟩ := Bus.mem_list_iff.mp h
  rw [Bus.find?_addSink, Option.map_eq_some_iff] at hl
  obtain ⟨l', hl', rfl⟩ := hl
  have hfill : sink' ∈ l' → ∃ s', sink' ∈ b.list s' := fun hmem =>
    mem_list_fill (Bus.mem_list_iff.mpr ⟨l', hl', hmem⟩)
  split_ifs at hmem
  · rcases List.mem_append.mp hmem with hmem | hmem
    · exact .inr (hfill hmem)
    · exact .inl (List.mem_singleton.mp hmem)
  · exact .inr (hfill hmem)

theorem find?_fill_of_some {b : Bus Id} {scope s : Scope} {l : List Id}
    (h : b.sinks.find? s = some l) : (b.fill scope).sinks.find? s = some l := by
  rw [Bus.find?_fill]
  split_ifs with hs
  · rw [← hs, h, Option.getD_some]
  · exact h

theorem list_prefix_fill (b : Bus Id) (scope s : Scope) :
    b.list s <+: (b.fill scope).list s := by
  rw [Bus.list, Bus.list]
  cases hfind : b.sinks.find? s with
  | some l => rw [find?_fill_of_some hfind]
  | none => exact List.nil_prefix

theorem list_prefix_addSink (b : Bus Id) (sink : Id) (scope s : Scope) :
    b.list s <+: (b.addSink sink scope).list s := by
  refine (list_prefix_fill b scope s).trans ?_
  rw [Bus.list, Bus.list, Bus.find?_addSink]
  cases (b.fill scope).sinks.find? s with
  | none => exact List.nil_prefix
  | some l =>
      simp only [Option.map_some, Option.getD_some]
      split_ifs
      · exact List.prefix_append l [sink]
      · exact List.prefix_rfl

/-- `Bus::handleNoLock` and `Bus::removeSink` as loops, with `Bus::addSink`. -/
def Bus.registry (Id : Type) [LinearOrder Id] : Registry Id Scope where
  dispatchable _ := true
  prepare sinks scope := (Bus.mk sinks |>.fill scope).sinks
  keys scope := [scope]
  covers := Scope.covers
  add sinks sink scope := (Bus.mk sinks |>.addSink sink scope).sinks
  -- `superScopes(true)` is its first statement
  removable scope := scope.SuperScopesFit
  scanned sinks _ := some sinks.keys
  scan := .first
  drops _ _ := true
  prefix_prepare := list_prefix_fill _ _ _
  prefix_add := list_prefix_addSink _ _ _ _
  Complete sinks registered alive := Inprocess.Complete ⟨sinks⟩ registered alive
  complete_prepare h := h.fill _
  complete_add h := h.addSink _ _
  complete_erase h hptr hgone := h.eraseAt hptr hgone
  complete_drop h := h.dropEmpty (p := fun _ => true)
  complete_unregister h := h.unregister
  complete_mono h halive := h.mono halive
  complete_found {sinks registered alive sink scope event} h hsink halive hcovers := by
    have hfill : (Bus.mk sinks |>.fill event).sinks.find? event =
        some ((Bus.mk sinks |>.fill event).list event) := by
      rw [Bus.list, Bus.find?_fill, if_pos rfl, Option.getD_some]
    exact ⟨event, List.mem_singleton_self event, (h.fill event).mem hsink halive hcovers hfill⟩

theorem registry_thorough : (Bus.registry Id).Thorough where
  scanned {sinks key keys scope} hkeys hscope := by
    obtain rfl : sinks.keys = keys := Option.some.inj hkeys
    rw [Lists.list]
    cases hfind : sinks.find? scope with
    | none => rfl
    | some l => exact absurd (SortedMap.mem_keys.mpr ⟨l, hfind⟩) hscope
  prepare h := mem_list_fill h
  add h := mem_list_addSink h

omit [LinearOrder Id] in
theorem complete_empty :
    Complete (Bus.empty : Bus Id) (fun _ => none) fun _ => true :=
  ⟨fun hsink => (Option.some_ne_none _ hsink.symm).elim,
    fun hsink => (Option.some_ne_none _ hsink.symm).elim⟩

/-- A loop of `handleNoLock` that nobody disturbs. -/
theorem exec_handleNoLock {s : Registry.State Id Scope} (hs : s.undefined = false)
    (hcalling : s.calling = true) (scope : Scope) :
    ∃ (d : Dispatched Id) (labels : List (Registry.Label Id Scope)),
      d.called = ((Bus.mk s.store).handleNoLock s.alive scope).2 ∧
      (∀ label ∈ labels, label.quiet = true) ∧
      exec (Bus.registry Id).step s (.dispatch scope :: labels) = some { s with
        store := ((Bus.mk s.store).handleNoLock s.alive scope).1.sinks
        finished := d :: s.finished } := by
  have hkey : (Bus.registry Id).dispatchable scope = true := rfl
  obtain ⟨d, labels, hcalled, hquiet, hexec⟩ := Registry.exec_dispatch hs hcalling hkey
  have hkeys : (Bus.registry Id).keys scope = [scope] := rfl
  rw [hkeys, List.flatMap_singleton] at hcalled
  exact ⟨d, labels, hcalled, hquiet, hexec⟩

/-- The loops of `removeSink` when nobody disturbs them. -/
theorem exec_removeSink {s : Registry.State Id Scope} (hs : s.undefined = false)
    (hloops : s.loops = []) {sink : Id} {scope : Scope}
    (hscope : ∀ sc ∈ s.registered sink, sc = scope) {b : Bus Id}
    (hremoved : (Bus.mk s.store).removeSink s.alive sink scope = .ok b) :
    ∃ labels : List (Registry.Label Id Scope), (∀ label ∈ labels, label.quiet = true) ∧
      exec (Bus.registry Id).step s (.remove sink scope :: labels) = some { s with
        store := b.sinks
        registered := Function.update s.registered sink none } := by
  rw [Bus.removeSink_eq] at hremoved
  split_ifs at hremoved with hfit
  obtain rfl := Except.ok.inj hremoved
  obtain ⟨store', labels, hstore', hquiet, hexec⟩ :=
    Registry.exec_removal (R := Bus.registry Id) hs hloops hscope (decide_eq_true hfit) rfl
      s.store.nodup_keys
  refine ⟨labels, hquiet, hexec.trans ?_⟩
  have hsinks : (Bus.registry Id).drop store' scope =
      ((Bus.mk s.store).eraseSink s.alive sink).sinks := by
    refine SortedMap.ext_find? fun sc => Option.ext fun l => ?_
    rw [Registry.drop, SortedMap.find?_filter_eq_some, Bus.find?_eraseSink_eq_some, hstore']
    cases hfind : s.store.find? sc with
    | none =>
        have hnot : sc ∉ s.store.keys := by
          rw [SortedMap.mem_keys, hfind]
          simp
        simp [hnot]
    | some l' =>
        have hkey : sc ∈ s.store.keys := SortedMap.mem_keys.mpr ⟨l', hfind⟩
        have hdrops : (Bus.registry Id).drops scope sc = true := rfl
        rw [if_pos hkey, Lists.list_of_find? hfind, hdrops, Bool.and_true, Bool.not_eq_true',
          List.isEmpty_eq_false_iff, and_comm]
        simp only [Option.map_some, Option.some.injEq, exists_eq_left']
        rfl
  rw [hsinks]

/-! ### What a removal leaves -/

/-- After a removal of `sink` it is in no list, and every other connector that exists is in
the lists in which it was before. -/
def RemovesExactly (b : Bus Id) (alive : Id → Bool) (sink : Id) (b' : Bus Id) : Prop :=
  (∀ scope, sink ∉ b'.list scope) ∧
  ∀ other, other ≠ sink → alive other = true → ∀ scope,
    (b'.list scope).count other = (b.list scope).count other

/-- A list in which `sink` occurs has one pointer to it, and no dangling pointer
in front of that one. -/
def Foremost (alive : Id → Bool) (sink : Id) (l : List Id) : Prop :=
  sink ∈ l → l.count sink = 1 ∧ ∀ ptr ∈ l.takeWhile (· ≠ sink), alive ptr = true

theorem not_mem_eraseP_iff (alive : Id → Bool) (sink : Id) (l : List Id) :
    (sink ∉ l.eraseP fun ptr => !alive ptr || ptr == sink) ↔ Foremost alive sink l := by
  have hfirst : staleBefore (fun ptr => !alive ptr) sink l = 0 ↔
      ∀ ptr ∈ l.takeWhile (· ≠ sink), alive ptr = true := by
    rw [staleBefore, List.countP_eq_zero]
    simp only [Bool.not_eq_true', Bool.not_eq_false]
  rw [Foremost, ← hfirst]
  exact not_mem_eraseStale_iff

theorem removesExactly_eraseSink_iff {b : Bus Id} {alive : Id → Bool} {sink : Id} :
    RemovesExactly b alive sink (b.eraseSink alive sink) ↔
      ∀ scope, Foremost alive sink (b.list scope) := by
  have hothers : ∀ other, other ≠ sink → alive other = true → ∀ scope,
      ((b.eraseSink alive sink).list scope).count other = (b.list scope).count other := by
    intro other hne halive scope
    rw [Bus.list_eraseSink, count_eraseP_of_neg (by simp [hne, halive])]
  rw [RemovesExactly, and_iff_left hothers]
  simp only [Bus.list_eraseSink, not_mem_eraseP_iff]

/-- If nobody gives up a connector meanwhile, a removal is exact if and only if no list has a
dangling pointer in front of its argument, or the argument twice. In a run with nested loops
in which every scan that erases an element leaves nothing of its argument in that list, a
connector is called no more once its removal has returned. In every run the other
connectors that exist stay where they are. -/
theorem removeSink_exact_iff :
    (∀ (b : Bus Id) (alive : Id → Bool) (sink : Id) (scope : Scope),
      (∃ b', b.removeSink alive sink scope = .ok b' ∧ RemovesExactly b alive sink b') ↔
        scope.SuperScopesFit ∧ ∀ s, Foremost alive sink (b.list s)) ∧
    (∀ (s : Registry.State Id Scope) (labels : List (Registry.Label Id Scope)),
      Along (Bus.registry Id).step (fun s l => (Bus.registry Id).Spares s l ∧ Registry.Finds s l)
        .init labels → exec (Bus.registry Id).step .init labels = some s →
      s.undefined = false ∧
      ∀ sink, s.registered sink = none → (∀ l ∈ s.loops, l.removes ≠ some sink) →
        (∀ scope, sink ∉ (Bus.mk s.store).list scope) ∧
        ∀ scope, sink ∉ ((Bus.mk s.store).handleNoLock s.alive scope).2) ∧
    ∀ (s s' : Registry.State Id Scope) (labels : List (Registry.Label Id Scope)) (l : Loop Id Scope)
      (rest : List (Loop Id Scope)) (sink : Id), s.loops = l :: rest → l.removes = some sink →
      Along (Bus.registry Id).step (fun s _ => rest.length < s.loops.length) s labels →
        exec (Bus.registry Id).step s labels = some s' →
      ∀ other, other ≠ sink → s'.alive other = true → ∀ scope,
        ((Bus.mk s'.store).list scope).count other = ((Bus.mk s.store).list scope).count other := by
  refine ⟨fun b alive sink scope => ?_, fun s labels halong hrun => ?_,
    fun s s' labels l rest sink hloops hremoves hunder hrun other hne halive => ?_⟩
  · rw [Bus.removeSink_eq, ← removesExactly_eraseSink_iff]
    split_ifs with hfit <;> simp [hfit]
  · obtain ⟨hs, hcleared⟩ := Registry.exec_cleared registry_thorough
      (Registry.sound_init _ complete_empty) Registry.cleared_init halong hrun
    refine ⟨hs.defined, fun sink hsink hreturned => ?_⟩
    have hunlisted := hcleared.unlisted sink hsink hreturned
    refine ⟨hunlisted, fun scope hcall => ?_⟩
    obtain ⟨sc, hmem⟩ := mem_list_fill (List.mem_filter.mp hcall).1
    exact hunlisted sc hmem
  · have hremoving : Registry.Removing s sink (rest.map (·.removes)) :=
      ⟨[], by simp [hloops, hremoves], by simp⟩
    exact (Registry.exec_keeps hremoving (by simpa using hunder) hrun other hne halive).2

/-- The destructor of connector 0 waits for the mutex while connector 1 is
deactivated. -/
def waitingRun : List (Registry.Label ℕ Scope) :=
  [.add 0 .root, .add 1 .root, .expire 0, .remove 1 .root, .go, .go]

/-- The loop of a removal of connector 1 meets the pointer to connector 0 and has the last
reference to it when it goes on. -/
def lastHeld : List (Registry.Label ℕ Scope) :=
  [.add 0 .root, .add 1 .root, .remove 1 .root, .go, .release true, .go, .go, .go]

/-- In the first run the pointer to connector 0 goes, and connector 1 is called once more. In
the second one the destructor of connector 0 erases the element at which the loop stands. -/
theorem not_removed_waitingRun :
    (∃ s, exec (Bus.registry ℕ).step .init waitingRun = some s ∧ s.loops.length = 0 ∧
      s.registered 1 = none ∧ 1 ∈ ((Bus.mk s.store).handleNoLock s.alive .root).2) ∧
    ∃ s, exec (Bus.registry ℕ).step .init lastHeld = some s ∧ s.undefined = true := by
  refine ⟨⟨_, rfl, rfl, rfl, ?_⟩, _, rfl, rfl⟩
  decide

/-- The removal of connector 1 passes the pointer to connector 0. -/
def promptRun : List (Registry.Label ℕ Scope) :=
  [.go, .release false, .go, .go]

theorem removeSink_exact_promptRun :
    ∃ s s' : Registry.State ℕ Scope,
      exec (Bus.registry ℕ).step .init [.add 0 .root, .add 1 .root, .remove 1 .root] = some s ∧
      exec (Bus.registry ℕ).step s promptRun = some s' ∧
      (∀ scope, 1 ∉ (Bus.mk s'.store).list scope) ∧
      ∀ scope, ((Bus.mk s'.store).list scope).count 0 = ((Bus.mk s.store).list scope).count 0 := by
  refine ⟨_, _, rfl, rfl, ?_, ?_⟩
  · exact ((removeSink_exact_iff.2.1 _ ([.add 0 .root, .add 1 .root, .remove 1 .root] ++ promptRun)
      (by decide) rfl).2 1 rfl (by decide)).1
  · exact removeSink_exact_iff.2.2 _ _ promptRun _ [] 1 rfl rfl (by decide) rfl 0 (by decide) rfl

end Rsb.Transport.Inprocess
