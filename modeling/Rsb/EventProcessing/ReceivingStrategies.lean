import Rsb.Event
import Rsb.ParticipantConfig
import Rsb.Library.Runs

/-!
The push-style event receiving strategies (`DirectEventReceivingStrategy.cpp`,
`ParallelEventReceivingStrategy.cpp`, `Handler.cpp`).

Both apply filters to an event and call handlers. The direct strategy filters once
for each event, in the thread that hands it in; the parallel one filters once for
each handler, in the threads of a dispatcher pool, and asks the handler whether it
accepts the method of the event. Filters and handlers are known by their pointers.
Whatever they throw is caught and reported.
-/

namespace Rsb.EventProcessing

open Library
open ParticipantConfig (ErrorStrategy)

variable {F H δ : Type}

/-- What filters and handlers do. -/
structure Behaviour (F H δ : Type) where
  filterMatch : F → Event δ → Except Exception Bool
  methods : H → SortedSet Bytes
  handle : H → Event δ → Except Exception Unit

/-- `Handler::acceptsMethod`. -/
def acceptsMethod (methods : SortedSet Bytes) (method : Bytes) : Bool :=
  methods.entries.isEmpty || method ∈ methods

/-- A message is written; `none` if the process ends. -/
def handleDispatchError : ErrorStrategy → Option Unit
  | .log | .print => some ()
  | .exit => none

/-- The value of a `try` block whose catch clauses report the exception and lead on
to `default`. -/
def recover {α : Type} (strategy : ErrorStrategy) (default : α) : Except Exception α → Option α
  | .ok a => some a
  | .error _ => (handleDispatchError strategy).map fun _ => default

/-- The loop over the filters. -/
def Behaviour.filterAll (b : Behaviour F H δ) (e : Event δ) : List F → Except Exception Bool
  | [] => .ok true
  | f :: fs => do
      if !(← b.filterMatch f e) then return false
      b.filterAll e fs

/-! ### The direct strategy -/

/-- Whether it locks makes no difference here. -/
structure DirectEventReceivingStrategy (F H : Type) [LinearOrder F] where
  filters : SortedSet F
  handlers : List H
  errorStrategy : ErrorStrategy

namespace DirectEventReceivingStrategy

variable [LinearOrder F]

/-- `none` if the process ends. -/
def filter (b : Behaviour F H δ) (s : DirectEventReceivingStrategy F H) (e : Event δ) :
    Option Bool :=
  recover s.errorStrategy false (b.filterAll e s.filters.keys)

def deliver (b : Behaviour F H δ) (s : DirectEventReceivingStrategy F H) (handler : H)
    (e : Event δ) : Option Unit :=
  recover s.errorStrategy () (b.handle handler e)

/-- The loop over the handlers: those whose `handle` is invoked. -/
def deliverAll (b : Behaviour F H δ) (s : DirectEventReceivingStrategy F H) (e : Event δ) :
    List H → List H
  | [] => []
  | handler :: handlers =>
      match s.deliver b handler e with
      | none => [handler]
      | some () => handler :: s.deliverAll b e handlers

def handle (b : Behaviour F H δ) (now : UInt64) (s : DirectEventReceivingStrategy F H)
    (event : Event δ) : List H :=
  let event := event.modifyMetaData (·.setDeliverTime now now)
  match s.filter b event with
  | some true => s.deliverAll b event s.handlers
  | _ => []

def addHandler (s : DirectEventReceivingStrategy F H) (handler : H) :
    DirectEventReceivingStrategy F H :=
  { s with handlers := s.handlers ++ [handler] }

def removeHandler [DecidableEq H] (s : DirectEventReceivingStrategy F H) (handler : H) :
    DirectEventReceivingStrategy F H :=
  { s with handlers := s.handlers.filter (· ≠ handler) }

def addFilter (s : DirectEventReceivingStrategy F H) (filter : F) :
    DirectEventReceivingStrategy F H :=
  { s with filters := s.filters.add filter }

def removeFilter (s : DirectEventReceivingStrategy F H) (filter : F) :
    DirectEventReceivingStrategy F H :=
  { s with filters := s.filters.erase filter }

end DirectEventReceivingStrategy

/-! ### The parallel strategy -/

/-- `rsc::threading::OrderedQueueDispatcherPool`, which is not part of the
repository: the filter is applied to every registered receiver, and the message
delivered to those for which it holds. The order among them is left open. -/
structure OrderedQueueDispatcherPool (H : Type) [DecidableEq H] where
  State : Type
  start : State
  registerReceiver : State → H → State
  unregisterReceiver : State → H → State
  /-- The receivers to which a message is delivered. -/
  push : State → (H → Bool) → List H
  receivers : State → List H
  receivers_start : receivers start = []
  receivers_register : ∀ s h, (receivers (registerReceiver s h)).Perm (h :: receivers s)
  receivers_unregister : ∀ s h, (receivers (unregisterReceiver s h)).Perm ((receivers s).erase h)
  push_perm : ∀ s filter, (push s filter).Perm ((receivers s).filter filter)

structure ParallelEventReceivingStrategy (F : Type) {H : Type} [LinearOrder F] [DecidableEq H]
    (P : OrderedQueueDispatcherPool H) where
  pool : P.State
  filters : SortedSet F
  errorStrategy : ErrorStrategy

namespace ParallelEventReceivingStrategy

variable [LinearOrder F] [DecidableEq H] {P : OrderedQueueDispatcherPool H}

/-- `none` if the process ends. -/
def filter (b : Behaviour F H δ) (s : ParallelEventReceivingStrategy F P) (handler : H)
    (e : Event δ) : Option Bool :=
  recover s.errorStrategy false
    (if !acceptsMethod (b.methods handler) e.method then .ok false
    else b.filterAll e s.filters.keys)

/-- The handlers whose `handle` is invoked. `deliver` does not throw, so it does
not get in the way of the pool. -/
def handle (b : Behaviour F H δ) (now : UInt64) (s : ParallelEventReceivingStrategy F P)
    (event : Event δ) : List H :=
  let event := event.modifyMetaData (·.setDeliverTime now now)
  P.push s.pool fun handler => s.filter b handler event = some true

def addHandler (s : ParallelEventReceivingStrategy F P) (handler : H) :
    ParallelEventReceivingStrategy F P :=
  { s with pool := P.registerReceiver s.pool handler }

def removeHandler (s : ParallelEventReceivingStrategy F P) (handler : H) :
    ParallelEventReceivingStrategy F P :=
  { s with pool := P.unregisterReceiver s.pool handler }

def addFilter (s : ParallelEventReceivingStrategy F P) (filter : F) :
    ParallelEventReceivingStrategy F P :=
  { s with filters := s.filters.add filter }

def removeFilter (s : ParallelEventReceivingStrategy F P) (filter : F) :
    ParallelEventReceivingStrategy F P :=
  { s with filters := s.filters.erase filter }

end ParallelEventReceivingStrategy

/-! ### Runs -/

/-- The two strategies under the same calls, and what the caller knows: which
handlers are registered and which filters have been added. -/
structure State (F H : Type) [LinearOrder F] [DecidableEq H] (P : OrderedQueueDispatcherPool H) where
  direct : DirectEventReceivingStrategy F H
  parallel : ParallelEventReceivingStrategy F P
  registered : H → Bool
  added : F → Bool

inductive Label (F H : Type)
  | addFilter (filter : F)
  | removeFilter (filter : F)
  | addHandler (handler : H)
  | removeHandler (handler : H)

section

variable [LinearOrder F] [DecidableEq H] {P : OrderedQueueDispatcherPool H}

def State.init (P : OrderedQueueDispatcherPool H) (strategy : ErrorStrategy) : State F H P :=
  ⟨⟨.empty, [], strategy⟩, ⟨P.start, .empty, strategy⟩, fun _ => false, fun _ => false⟩

/-- A handler is registered at most once. -/
def step (s : State F H P) : Label F H → Option (State F H P)
  | .addFilter filter =>
      some { s with
        direct := s.direct.addFilter filter
        parallel := s.parallel.addFilter filter
        added := Function.update s.added filter true }
  | .removeFilter filter =>
      some { s with
        direct := s.direct.removeFilter filter
        parallel := s.parallel.removeFilter filter
        added := Function.update s.added filter false }
  | .addHandler handler =>
      if s.registered handler = false then
        some { s with
          direct := s.direct.addHandler handler
          parallel := s.parallel.addHandler handler
          registered := Function.update s.registered handler true }
      else none
  | .removeHandler handler =>
      some { s with
        direct := s.direct.removeHandler handler
        parallel := s.parallel.removeHandler handler
        registered := Function.update s.registered handler false }

/-- The strategies hold what the caller has registered. -/
structure Consistent (strategy : ErrorStrategy) (s : State F H P) : Prop where
  directStrategy : s.direct.errorStrategy = strategy
  parallelStrategy : s.parallel.errorStrategy = strategy
  filters : ∀ f, f ∈ s.direct.filters ↔ s.added f = true
  sameFilters : s.parallel.filters = s.direct.filters
  handlers : ∀ h, h ∈ s.direct.handlers ↔ s.registered h = true
  receivers : ∀ h, h ∈ P.receivers s.parallel.pool ↔ s.registered h = true
  nodup : (P.receivers s.parallel.pool).Nodup

theorem consistent_init (P : OrderedQueueDispatcherPool H) (strategy : ErrorStrategy) :
    Consistent strategy (State.init P strategy : State F H P) where
  directStrategy := rfl
  parallelStrategy := rfl
  filters f := by simp [State.init]
  sameFilters := rfl
  handlers h := by simp [State.init]
  receivers h := by simp [State.init, P.receivers_start]
  nodup := by simp [State.init, P.receivers_start]

theorem Consistent.step {strategy : ErrorStrategy} {s s' : State F H P} {l : Label F H}
    (h : Consistent strategy s) (hstep : EventProcessing.step s l = some s') :
    Consistent strategy s' := by
  cases l with
  | addFilter filter =>
      obtain rfl := Option.some.inj hstep
      refine { h with filters := fun f => ?_, sameFilters := ?_ }
      · rw [DirectEventReceivingStrategy.addFilter, SortedSet.mem_add, h.filters]
        by_cases hf : f = filter <;> simp [hf]
      · exact congrArg (SortedSet.add · filter) h.sameFilters
  | removeFilter filter =>
      obtain rfl := Option.some.inj hstep
      refine { h with filters := fun f => ?_, sameFilters := ?_ }
      · rw [DirectEventReceivingStrategy.removeFilter, SortedSet.mem_erase, h.filters]
        by_cases hf : f = filter <;> simp [hf]
      · exact congrArg (SortedMap.erase · filter) h.sameFilters
  | addHandler handler =>
      simp only [EventProcessing.step] at hstep
      split_ifs at hstep with hnew
      obtain rfl := Option.some.inj hstep
      have hperm := P.receivers_register s.parallel.pool handler
      refine { h with handlers := fun k => ?_, receivers := fun k => ?_, nodup := ?_ }
      · rw [DirectEventReceivingStrategy.addHandler, List.mem_append, List.mem_singleton,
          h.handlers]
        by_cases hk : k = handler <;> simp [hk]
      · rw [ParallelEventReceivingStrategy.addHandler, hperm.mem_iff, List.mem_cons, h.receivers]
        by_cases hk : k = handler <;> simp [hk]
      · refine hperm.nodup_iff.mpr (List.nodup_cons.mpr ⟨fun hmem => ?_, h.nodup⟩)
        simp [(h.receivers handler).mp hmem] at hnew
  | removeHandler handler =>
      obtain rfl := Option.some.inj hstep
      have hperm := P.receivers_unregister s.parallel.pool handler
      refine { h with handlers := fun k => ?_, receivers := fun k => ?_, nodup := ?_ }
      · rw [DirectEventReceivingStrategy.removeHandler, List.mem_filter, h.handlers]
        by_cases hk : k = handler <;> simp [hk]
      · rw [ParallelEventReceivingStrategy.removeHandler, hperm.mem_iff, h.nodup.mem_erase_iff,
          h.receivers]
        by_cases hk : k = handler <;> simp [hk]
      · exact hperm.nodup_iff.mpr (h.nodup.erase handler)

/-! ### Which handlers are called -/

theorem recover_eq_some_true {strategy : ErrorStrategy} {result : Except Exception Bool} :
    recover strategy false result = some true ↔ result = .ok true := by
  cases result <;> cases strategy <;> simp [recover, handleDispatchError]

omit [LinearOrder F] [DecidableEq H] in
theorem Behaviour.filterAll_eq_true (b : Behaviour F H δ) (e : Event δ) (fs : List F) :
    b.filterAll e fs = .ok true ↔ ∀ f ∈ fs, b.filterMatch f e = .ok true := by
  induction fs with
  | nil => simp [filterAll]
  | cons f fs ih =>
      rw [List.forall_mem_cons, ← ih, filterAll]
      cases b.filterMatch f e with
      | error ex => simp [bind, Except.bind]
      | ok matched => cases matched <;> simp [bind, Except.bind, pure, Except.pure]

omit [DecidableEq H] in
theorem DirectEventReceivingStrategy.deliver_eq (b : Behaviour F H δ)
    {s : DirectEventReceivingStrategy F H} (hs : s.errorStrategy ≠ .exit) (handler : H)
    (e : Event δ) : s.deliver b handler e = some () := by
  rw [deliver]
  cases b.handle handler e with
  | ok _ => rfl
  | error ex =>
      cases hstrategy : s.errorStrategy with
      | log | print => rfl
      | exit => exact absurd hstrategy hs

omit [DecidableEq H] in
/-- Unless the process ends, an exception of one handler does not keep the others
from being called. -/
theorem DirectEventReceivingStrategy.deliverAll_eq (b : Behaviour F H δ)
    {s : DirectEventReceivingStrategy F H} (hs : s.errorStrategy ≠ .exit) (e : Event δ)
    (handlers : List H) : s.deliverAll b e handlers = handlers := by
  induction handlers with
  | nil => rfl
  | cons handler handlers ih => rw [deliverAll, deliver_eq b hs, ih]

/-- All filters match the event that is handled. -/
def AllMatch (b : Behaviour F H δ) (now : UInt64) (s : State F H P) (event : Event δ) : Prop :=
  ∀ f, s.added f = true →
    b.filterMatch f (event.modifyMetaData (·.setDeliverTime now now)) = .ok true

section

variable {b : Behaviour F H δ} {now : UInt64} {strategy : ErrorStrategy} {s : State F H P}
  {event : Event δ}

theorem Consistent.filterAll_iff (h : Consistent strategy s) :
    b.filterAll (event.modifyMetaData (·.setDeliverTime now now)) s.direct.filters.keys =
      .ok true ↔ AllMatch b now s event := by
  rw [Behaviour.filterAll_eq_true, AllMatch]
  simp only [SortedSet.mem_keys, h.filters]

theorem Consistent.mem_direct (h : Consistent strategy s) (hstrategy : strategy ≠ .exit)
    (k : H) : k ∈ s.direct.handle b now event ↔
      s.registered k = true ∧ AllMatch b now s event := by
  have hexit : s.direct.errorStrategy ≠ .exit := h.directStrategy ▸ hstrategy
  have hfilter : s.direct.filter b (event.modifyMetaData (·.setDeliverTime now now)) =
      some true ↔ AllMatch b now s event := by
    rw [DirectEventReceivingStrategy.filter, recover_eq_some_true, h.filterAll_iff]
  rw [DirectEventReceivingStrategy.handle, ← h.handlers, ← hfilter]
  split
  · next hmatch => rw [DirectEventReceivingStrategy.deliverAll_eq b hexit]; simp [hmatch]
  · next hmatch => simpa using fun _ => hmatch

theorem Consistent.mem_parallel (h : Consistent strategy s) (k : H) :
    k ∈ s.parallel.handle b now event ↔
      s.registered k = true ∧ acceptsMethod (b.methods k) event.method = true ∧
        AllMatch b now s event := by
  rw [ParallelEventReceivingStrategy.handle, (P.push_perm _ _).mem_iff, List.mem_filter,
    h.receivers, decide_eq_true_eq, ParallelEventReceivingStrategy.filter, recover_eq_some_true,
    h.sameFilters]
  apply and_congr_right
  intro _
  have hmethod : (event.modifyMetaData (·.setDeliverTime now now)).method = event.method := rfl
  rw [hmethod]
  cases haccepts : acceptsMethod (b.methods k) event.method with
  | false => simp
  | true => simp [h.filterAll_iff]

end

/-- After any calls, the two strategies call the same handlers, namely those that
accept the method if all filters match, exactly if some filter does not match or
throws, or all registered handlers accept the method. -/
theorem strategies_agree_iff (P : OrderedQueueDispatcherPool H) (b : Behaviour F H δ)
    {strategy : ErrorStrategy} (hstrategy : strategy ≠ .exit) (s : State F H P)
    (hs : Reachable step (State.init P strategy) s) (now : UInt64) (event : Event δ) :
    ((∀ k, k ∈ s.direct.handle b now event ↔ k ∈ s.parallel.handle b now event) ∧
      ∀ k, k ∈ s.direct.handle b now event ↔
        s.registered k = true ∧ acceptsMethod (b.methods k) event.method = true ∧
          AllMatch b now s event) ↔
      (¬AllMatch b now s event ∨
        ∀ k, s.registered k = true → acceptsMethod (b.methods k) event.method = true) := by
  have h : Consistent strategy s :=
    hs.invariant (consistent_init P strategy) fun _ _ _ h hstep => h.step hstep
  simp only [h.mem_direct hstrategy, h.mem_parallel, and_self]
  constructor
  · intro hagree
    by_cases hmatch : AllMatch b now s event
    · exact .inr fun k hk => ((hagree k).mp ⟨hk, hmatch⟩).2.1
    · exact .inl hmatch
  · rintro (hmatch | haccepts) k
    · simp [hmatch]
    · exact ⟨fun ⟨hk, hmatch⟩ => ⟨hk, haccepts k hk, hmatch⟩, fun ⟨hk, _, hmatch⟩ => ⟨hk, hmatch⟩⟩

end

/-- A pool that serves its receivers in the order of registration. -/
def listPool (H : Type) [DecidableEq H] : OrderedQueueDispatcherPool H where
  State := List H
  start := []
  registerReceiver receivers h := receivers ++ [h]
  unregisterReceiver receivers h := receivers.erase h
  push receivers filter := receivers.filter filter
  receivers := id
  receivers_start := rfl
  receivers_register receivers h := List.perm_append_singleton h receivers
  receivers_unregister _ _ := .refl _
  push_perm _ _ := .refl _

/-- Handler 0 accepts requests only, handler 1 throws; there is one filter for
everything. -/
def requestHandler : Behaviour ℕ ℕ Bytes where
  filterMatch _ _ := .ok true
  methods h := if h = 0 then .ofElems [bytes "REQUEST"] else .empty
  handle h _ := if h = 1 then .error ⟨.other, []⟩ else .ok ()

/-- Handler 0 is called directly for an event without a method. -/
theorem strategies_disagree_requestHandler :
    ∃ s, exec step (State.init (listPool ℕ) .log) [.addHandler 0] = some s ∧
      0 ∈ s.direct.handle requestHandler 1 (Event.new 1) ∧
      0 ∉ s.parallel.handle requestHandler 1 (Event.new 1) ∧
      acceptsMethod (requestHandler.methods 0) (Event.new 1 : Event Bytes).method = false :=
  ⟨_, rfl, by decide, by decide, by decide⟩

/-- A request, with a handler that throws in front of the other one. -/
theorem strategies_agree_requestHandler :
    ∃ s, exec step (State.init (listPool ℕ) .print)
        [.addHandler 1, .addFilter 7, .addHandler 0] = some s ∧
      0 ∈ s.direct.handle requestHandler 1 ((Event.new 1).setMethod (bytes "REQUEST")) ∧
      0 ∈ s.parallel.handle requestHandler 1 ((Event.new 1).setMethod (bytes "REQUEST")) := by
  obtain ⟨s, hs⟩ : ∃ s, exec step (State.init (listPool ℕ) .print)
      [.addHandler 1, .addFilter 7, .addHandler 0] = some s := ⟨_, rfl⟩
  have hagree := strategies_agree_iff (listPool ℕ) requestHandler (by decide) s ⟨_, hs⟩ 1
    ((Event.new 1).setMethod (bytes "REQUEST"))
  obtain ⟨hsame, hmem⟩ := hagree.mpr (.inr fun k _ => by
    by_cases hk : k = 0
    · subst hk
      decide
    · simp [requestHandler, hk, acceptsMethod, SortedMap.empty])
  have hdirect := (hmem 0).mpr ⟨by obtain rfl := Option.some.inj hs; rfl, by decide,
    fun _ _ => rfl⟩
  exact ⟨s, hs, hdirect, (hsame 0).mp hdirect⟩

end Rsb.EventProcessing
