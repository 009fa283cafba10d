import Rsb.Transport.Inprocess.Bus

/-!
Delivery on the in-process bus.

The invariant `Exact` says that every list holds exactly the connectors that are
to receive events on its scope, and that the scope of every registered connector
has an entry. The second part makes the first one hold for the lists that are
created on demand: a connector is found in the list of its own scope.
-/

namespace Rsb.Transport.Inprocess

open Library

variable {Id : Type} [LinearOrder Id]

/-- The bus, and what the callers know: the scopes of the registered connectors
and which connectors exist. After a `fault` nothing follows. -/
structure State (Id : Type) where
  bus : Bus Id
  registered : Id → Option Scope
  alive : Id → Bool
  fault : Option Fault

def State.init : State Id := ⟨.empty, fun _ => none, fun _ => true, none⟩

inductive Label (Id : Type)
  | addSink (sink : Id) (scope : Scope)
  /-- `removeSink` for the connector on `scope`, called by its destructor if
  `dying`: then the pointers to it dangle already. -/
  | removeSink (sink : Id) (scope : Scope) (dying : Bool)
  | handle (scope : Scope)
  /-- The last reference to an unregistered connector goes away. -/
  | expire (sink : Id)

/-- Which connectors exist while `sink` is removed. -/
def State.existing (s : State Id) (sink : Id) (dying : Bool) : Id → Bool :=
  if dying then Function.update s.alive sink false else s.alive

def step (s : State Id) (l : Label Id) : Option (State Id) :=
  if s.fault.isSome then none else
  match l with
  | .addSink sink scope =>
      if s.registered sink = none ∧ s.alive sink = true then
        some { s with
          bus := s.bus.addSink sink scope
          registered := Function.update s.registered sink (some scope) }
      else none
  | .removeSink sink scope dying =>
      if (s.registered sink).all (· = scope) then
        let alive := s.existing sink dying
        match s.bus.removeSink alive sink scope with
        | .ok bus => some ⟨bus, Function.update s.registered sink none, alive, none⟩
        | .error f => some { s with fault := some f }
      else none
  | .handle scope => some { s with bus := (s.bus.handleNoLock s.alive scope).1 }
  | .expire sink =>
      if s.registered sink = none then
        some { s with alive := Function.update s.alive sink false }
      else none

/-- The connectors on which an event on `scope` calls `handle` now. -/
def State.calls (s : State Id) (scope : Scope) : List Id := (s.bus.handleNoLock s.alive scope).2

/-- Connector `sink` is to receive events on `scope`. -/
def Receives (registered : Id → Option Scope) (sink : Id) (scope : Scope) : Prop :=
  ∃ s, registered sink = some s ∧ s.covers scope = true

omit [LinearOrder Id] in
theorem receives_iff {registered : Id → Option Scope} {sink : Id} {scope : Scope} :
    (registered sink).any (·.covers scope) = true ↔ Receives registered sink scope := by
  simp [Receives, Option.any_eq_true]

instance (registered : Id → Option Scope) (sink : Id) (scope : Scope) :
    Decidable (Receives registered sink scope) :=
  decidable_of_iff _ receives_iff

structure Exact (b : Bus Id) (registered : Id → Option Scope) : Prop where
  nodup : ∀ {s l}, b.sinks.find? s = some l → l.Nodup
  mem_iff : ∀ {s l}, b.sinks.find? s = some l → ∀ {sink}, sink ∈ l ↔ Receives registered sink s
  own : ∀ {sink s}, registered sink = some s → ∃ l, b.sinks.find? s = some l

theorem eraseP_congr {α : Type} {p q : α → Bool} {l : List α} (h : ∀ a ∈ l, p a = q a) :
    l.eraseP p = l.eraseP q := by
  induction l with
  | nil => rfl
  | cons a l ih =>
      rw [List.eraseP_cons, List.eraseP_cons, h a List.mem_cons_self,
        ih fun b hb => h b (List.mem_cons_of_mem _ hb)]

namespace Exact

variable {b : Bus Id} {registered : Id → Option Scope} {alive : Id → Bool}

theorem mem_connectors (h : Exact b registered) {sink : Id} {scope : Scope} :
    sink ∈ b.connectors scope ↔ Receives registered sink scope := by
  rw [Bus.mem_connectors]
  constructor
  · rintro ⟨s, l, hl, hcovers, hmem⟩
    obtain ⟨s', hs', hcovers'⟩ := (h.mem_iff hl).mp hmem
    exact ⟨s', hs', Scope.covers_trans hcovers' hcovers⟩
  · rintro ⟨s, hs, hcovers⟩
    obtain ⟨l, hl⟩ := h.own hs
    exact ⟨s, l, hl, hcovers, (h.mem_iff hl).mpr ⟨s, hs, Scope.covers_refl s⟩⟩

/-- A list created on demand is exact like the others. -/
theorem fill (h : Exact b registered) (scope : Scope) : Exact (b.fill scope) registered := by
  have hlist : ∀ {s l}, (b.fill scope).sinks.find? s = some l →
      b.sinks.find? s = some l ∨ s = scope ∧ l = b.connectors scope := by
    intro s l hl
    rw [Bus.find?_fill] at hl
    split_ifs at hl with hs
    · cases hfind : b.sinks.find? scope with
      | none => exact .inr ⟨hs, by simpa [hfind] using hl.symm⟩
      | some l' => exact .inl (by simpa [hs, hfind] using hl)
    · exact .inl hl
  refine ⟨fun hl => ?_, fun hl => ?_, fun {sink s} hs => ?_⟩
  · rcases hlist hl with hl | ⟨-, rfl⟩
    · exact h.nodup hl
    · exact SortedMap.nodup_keys _
  · rcases hlist hl with hl | ⟨rfl, rfl⟩
    · exact h.mem_iff hl
    · exact h.mem_connectors
  · rw [Bus.find?_fill]
    split_ifs
    · exact ⟨_, rfl⟩
    · exact h.own hs

theorem addSink (h : Exact b registered) {sink : Id} (hsink : registered sink = none)
    (scope : Scope) :
    Exact (b.addSink sink scope) (Function.update registered sink (some scope)) := by
  have hfill := h.fill scope
  -- no list contains the connector yet, so appending it once is right
  have hnew : ∀ {s l}, (b.fill scope).sinks.find? s = some l → sink ∉ l := fun hl hmem => by
    obtain ⟨s', hs', -⟩ := (hfill.mem_iff hl).mp hmem
    exact absurd (hsink.symm.trans hs') (by simp)
  have hreceives : ∀ sink' s, Receives (Function.update registered sink (some scope)) sink' s ↔
      if sink' = sink then scope.covers s = true else Receives registered sink' s := by
    intro sink' s
    by_cases heq : sink' = sink <;> simp [Receives, heq]
  refine ⟨fun {s l} hl => ?_, fun {s l} hl sink' => ?_, fun {sink' s} hs => ?_⟩
  · rw [Bus.find?_addSink, Option.map_eq_some_iff] at hl
    obtain ⟨l', hl', rfl⟩ := hl
    split_ifs
    · exact List.nodup_append'.mpr
        ⟨hfill.nodup hl', List.nodup_singleton _, by simpa using hnew hl'⟩
    · exact hfill.nodup hl'
  · rw [Bus.find?_addSink, Option.map_eq_some_iff] at hl
    obtain ⟨l', hl', rfl⟩ := hl
    rw [hreceives]
    by_cases heq : sink' = sink
    · subst heq
      by_cases hcovers : scope.covers s = true <;> simp [hcovers, hnew hl']
    · by_cases hcovers : scope.covers s = true <;> simp [hcovers, heq, hfill.mem_iff hl']
  · rw [Bus.find?_addSink]
    by_cases heq : sink' = sink
    · obtain rfl : scope = s := by simpa [heq] using hs
      rw [Bus.find?_fill, if_pos rfl]
      exact ⟨_, rfl⟩
    · obtain ⟨l, hl⟩ := hfill.own (by simpa [heq] using hs)
      exact ⟨_, by rw [hl]; rfl⟩

/-- As the others are alive, it is the pointer to `sink` that is erased. -/
theorem eraseP_eq_erase (h : Exact b registered) {sink : Id}
    (halive : ∀ sink', sink' ≠ sink → registered sink' ≠ none → alive sink' = true)
    {s : Scope} {l : List Id} (hl : b.sinks.find? s = some l) :
    (l.eraseP fun ptr => !alive ptr || ptr == sink) = l.erase sink := by
  have hptr : ∀ ptr ∈ l, (!alive ptr || ptr == sink) = (sink == ptr) := by
    intro ptr hmem
    by_cases heq : ptr = sink
    · simp [heq]
    · obtain ⟨s', hs', -⟩ := (h.mem_iff hl).mp hmem
      simp [heq, Ne.symm heq, halive ptr heq (by simp [hs'])]
  rw [List.erase_eq_eraseP]
  exact eraseP_congr hptr

theorem eraseSink (h : Exact b registered) (sink : Id)
    (halive : ∀ sink', sink' ≠ sink → registered sink' ≠ none → alive sink' = true) :
    Exact (b.eraseSink alive sink) (Function.update registered sink none) := by
  have hlist : ∀ {s l}, (b.eraseSink alive sink).sinks.find? s = some l →
      ∃ l', b.sinks.find? s = some l' ∧ l = l'.erase sink := by
    intro s l hl
    obtain ⟨-, l', hl', rfl⟩ := Bus.find?_eraseSink_eq_some.mp hl
    exact ⟨l', hl', h.eraseP_eq_erase halive hl'⟩
  refine ⟨fun {s l} hl => ?_, fun {s l} hl sink' => ?_, fun {sink' s} hs => ?_⟩
  · obtain ⟨l', hl', rfl⟩ := hlist hl
    exact (h.nodup hl').erase sink
  · obtain ⟨l', hl', rfl⟩ := hlist hl
    rw [(h.nodup hl').mem_erase_iff, h.mem_iff hl']
    by_cases heq : sink' = sink <;> simp [Receives, heq]
  · -- the list of the scope of another connector keeps that connector
    have hne : sink' ≠ sink := fun heq => by simp [heq] at hs
    have hs' : registered sink' = some s := by simpa [hne] using hs
    obtain ⟨l, hl⟩ := h.own hs'
    have hmem : sink' ∈ l := (h.mem_iff hl).mpr ⟨s, hs', Scope.covers_refl s⟩
    refine ⟨l.erase sink, Bus.find?_eraseSink_eq_some.mpr
      ⟨List.ne_nil_of_mem ((List.mem_erase_of_ne hne).mpr hmem), l, hl, ?_⟩⟩
    exact h.eraseP_eq_erase halive hl

end Exact

/-- What holds between operations. -/
structure Consistent (s : State Id) : Prop where
  exact : Exact s.bus s.registered
  alive : ∀ sink, s.registered sink ≠ none → s.alive sink = true

omit [LinearOrder Id] in
theorem consistent_init : Consistent (State.init : State Id) where
  exact := ⟨fun h => by simp [State.init, Bus.empty] at h,
    fun h => by simp [State.init, Bus.empty] at h, fun h => by simp [State.init] at h⟩
  alive _ _ := rfl

/-- The scopes above the scope of the connector can be made. -/
def Label.Fits : Label Id → Prop
  | .removeSink _ scope _ => scope.SuperScopesFit
  | .addSink _ _ | .handle _ | .expire _ => True

theorem Consistent.step {s s' : State Id} {l : Label Id} (h : Consistent s) (hl : l.Fits)
    (hstep : Inprocess.step s l = some s') : Consistent s' := by
  cases l with
  | addSink sink scope =>
      simp only [Inprocess.step] at hstep
      split_ifs at hstep with _ hguard
      obtain rfl := Option.some.inj hstep
      refine ⟨h.exact.addSink hguard.1 scope, fun sink' hs => ?_⟩
      by_cases heq : sink' = sink
      · exact heq ▸ hguard.2
      · exact h.alive sink' (by simpa [heq] using hs)
  | removeSink sink scope dying =>
      have hfit : scope.SuperScopesFit := hl
      simp only [Inprocess.step, Bus.removeSink_eq, if_pos hfit] at hstep
      split_ifs at hstep
      obtain rfl := Option.some.inj hstep
      have halive : ∀ sink', sink' ≠ sink → s.registered sink' ≠ none →
          s.existing sink dying sink' = true := by
        intro sink' hne hs
        cases dying <;> simp [State.existing, hne, h.alive sink' hs]
      refine ⟨h.exact.eraseSink sink halive, fun sink' hs => ?_⟩
      have hne : sink' ≠ sink := fun heq => by simp [heq] at hs
      exact halive sink' hne (by simpa [hne] using hs)
  | handle scope =>
      simp only [Inprocess.step] at hstep
      split_ifs at hstep
      obtain rfl := Option.some.inj hstep
      exact ⟨h.exact.fill scope, h.alive⟩
  | expire sink =>
      simp only [Inprocess.step] at hstep
      split_ifs at hstep with _ hguard
      obtain rfl := Option.some.inj hstep
      refine ⟨h.exact, fun sink' hs => ?_⟩
      have hne : sink' ≠ sink := fun heq => hs (heq ▸ hguard)
      simpa [hne] using h.alive sink' hs

/-- An operation fails exactly if it cannot make the scopes above that of a connector. -/
theorem fault_eq_none_iff {s s' : State Id} {l : Label Id}
    (hstep : Inprocess.step s l = some s') : s'.fault = none ↔ l.Fits := by
  have hnone : s.fault = none := by
    by_contra hfault
    rw [Inprocess.step.eq_def, if_pos (Option.isSome_iff_ne_none.mpr hfault)] at hstep
    cases hstep
  cases l with
  | removeSink sink scope dying =>
      by_cases hfit : scope.SuperScopesFit
      · simp only [Inprocess.step, Bus.removeSink_eq, if_pos hfit] at hstep
        split_ifs at hstep
        obtain rfl := Option.some.inj hstep
        exact iff_of_true rfl hfit
      · simp only [Inprocess.step, Bus.removeSink_eq, if_neg hfit] at hstep
        split_ifs at hstep
        obtain rfl := Option.some.inj hstep
        exact iff_of_false (Option.some_ne_none _) hfit
  | addSink sink scope | expire sink =>
      simp only [Inprocess.step] at hstep
      split_ifs at hstep
      obtain rfl := Option.some.inj hstep
      exact iff_of_true hnone trivial
  | handle scope =>
      simp only [Inprocess.step] at hstep
      split_ifs at hstep
      obtain rfl := Option.some.inj hstep
      exact iff_of_true hnone trivial

/-- Nothing follows a failed operation. -/
theorem exec_fault_eq_none_iff {s s' : State Id} {labels : List (Label Id)}
    (hs : s.fault = none) (hrun : exec Inprocess.step s labels = some s') :
    s'.fault = none ↔ ∀ l ∈ labels, l.Fits := by
  induction labels generalizing s with
  | nil =>
      obtain rfl : s = s' := by simpa using hrun
      simpa using hs
  | cons l labels ih =>
      obtain ⟨t, ht, hrest⟩ := exec_cons_eq_some.mp hrun
      rw [List.forall_mem_cons, ← fault_eq_none_iff ht]
      cases hfault : t.fault with
      | none => simp [ih hfault hrest]
      | some f =>
          cases labels with
          | nil =>
              obtain rfl : t = s' := by simpa using hrest
              simp [hfault]
          | cons l' labels =>
              obtain ⟨u, hu, -⟩ := exec_cons_eq_some.mp hrest
              simp [Inprocess.step, hfault] at hu

theorem Consistent.count_calls {s : State Id} (h : Consistent s) (scope : Scope) (sink : Id) :
    (s.calls scope).count sink = if Receives s.registered sink scope then 1 else 0 := by
  obtain ⟨l, hl⟩ : ∃ l, (s.bus.fill scope).sinks.find? scope = some l :=
    ⟨_, by rw [Bus.find?_fill, if_pos rfl]⟩
  have hfill := h.exact.fill scope
  have hcalls : s.calls scope = l.filter s.alive := by
    simp [State.calls, Bus.handleNoLock, Bus.list, hl]
  have hmem : sink ∈ s.calls scope ↔ Receives s.registered sink scope := by
    rw [hcalls, List.mem_filter, hfill.mem_iff hl, and_iff_left_iff_imp]
    rintro ⟨sc, hsc, -⟩
    exact h.alive sink (by simp [hsc])
  have hnodup : (s.calls scope).Nodup := by
    rw [hcalls]
    exact (hfill.nodup hl).filter _
  split_ifs with hreceives
  · exact List.count_eq_one_of_mem hnodup (hmem.mpr hreceives)
  · exact List.count_eq_zero_of_not_mem fun hc => hreceives (hmem.mp hc)

/-- No operation has failed, and an event is handed once to each registered connector
whose scope is the scope of the event or lies above it, and to no other connector. -/
def State.Exactly (s : State Id) : Prop :=
  s.fault = none ∧ ∀ scope sink,
    (s.calls scope).count sink = if Receives s.registered sink scope then 1 else 0

/-- After any sequence of operations delivery is exact if, and only if, for each connector
that has been removed the scopes above its scope can be made. -/
theorem handle_calls_exactly_iff (s : State Id) (labels : List (Label Id))
    (hrun : exec Inprocess.step State.init labels = some s) :
    s.Exactly ↔ ∀ l ∈ labels, l.Fits := by
  have hfault := exec_fault_eq_none_iff (s := State.init) rfl hrun
  constructor
  · intro h
    exact hfault.mp h.1
  · intro hfits
    have hs : Consistent s := exec_invariant_along (fun _ _ _ h hl hstep => h.step hl hstep)
      consistent_init (along_of_forall hfits _) hrun
    exact ⟨hfault.mpr hfits, hs.count_calls⟩

/-- A connector whose scope has a parent of `2 ^ 32` bytes is added and removed. -/
theorem not_exactly_longScope :
    ∃ (scope : Scope) (s : State ℕ),
      exec Inprocess.step State.init [.addSink 0 scope, .removeSink 0 scope false] = some s ∧
      s.fault = some .writePastEnd ∧ ¬s.Exactly := by
  obtain ⟨scope, hlong⟩ := Scope.exists_not_superScopesFit
  obtain ⟨s, hs⟩ : ∃ s, Inprocess.step (State.init : State ℕ) (.addSink 0 scope) = some s :=
    ⟨_, rfl⟩
  have hadded : s.fault = none ∧ s.registered 0 = some scope := by
    obtain rfl := Option.some.inj hs
    exact ⟨rfl, rfl⟩
  have hremoved : Inprocess.step s (.removeSink 0 scope false) =
      some { s with fault := some .writePastEnd } := by
    simp [Inprocess.step, hadded.1, hadded.2, Bus.removeSink_eq, hlong]
  refine ⟨scope, _, exec_cons_eq_some.mpr ⟨s, hs, exec_cons_eq_some.mpr ⟨_, hremoved, rfl⟩⟩, rfl,
    fun h => absurd h.1 (Option.some_ne_none _)⟩

/-- An event on `/a/b/` creates a list before connector 1 is added at the root
and connector 0 removed from `/a/`. -/
theorem handle_calls_exactly_sample :
    ∃ s : State ℕ, (s.calls (.ofComponents [bytes "a", bytes "b"] (by decide))).count 1 = 1 ∧
      (s.calls (.ofComponents [bytes "a", bytes "b"] (by decide))).count 0 = 0 := by
  let scopeA : Scope := .ofComponents [bytes "a"] (by decide)
  let scopeAB : Scope := .ofComponents [bytes "a", bytes "b"] (by decide)
  obtain ⟨s, hs⟩ : ∃ s, exec Inprocess.step (State.init : State ℕ)
      [.addSink 0 scopeA, .handle scopeAB, .addSink 1 .root, .removeSink 0 scopeA true] =
        some s := ⟨_, rfl⟩
  have hfits : scopeA.SuperScopesFit := by decide
  have hexact := (handle_calls_exactly_iff s _ hs).mpr (by simp [Label.Fits, hfits])
  refine ⟨s, (hexact.2 scopeAB 1).trans ?_, (hexact.2 scopeAB 0).trans ?_⟩
  · obtain rfl := Option.some.inj hs
    exact if_pos ⟨.root, rfl, rfl⟩
  · obtain rfl := Option.some.inj hs
    exact if_neg fun ⟨_, hnone, _⟩ => absurd hnone (by simp)

end Rsb.Transport.Inprocess
