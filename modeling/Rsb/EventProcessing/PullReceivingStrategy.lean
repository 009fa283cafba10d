import Rsb.Event

/-!
The pull-style event receiving strategy (`PullEventReceivingStrategy.cpp`,
`inprocess/InPullConnector.cpp`).

A connector queues the events it is handed until it is asked for one. The strategy asks
its connectors one after the other. It keeps a set of filters, and it is where the event
is found that filtering is still to be done.

While a call waits, and while it asks other connectors, events come in. Each connector has
a queue of its own, so a call finds there what was queued at first and what has come until
the connector answers.
-/

namespace Rsb.EventProcessing

open Library

variable {F C δ : Type}

/-- `inprocess::InPullConnector`. -/
structure InPullConnector (δ : Type) where
  queue : List (Event δ)

namespace InPullConnector

def handle (c : InPullConnector δ) (now : UInt64) (event : Event δ) : InPullConnector δ :=
  let event :=
    if event.metaData.receiveTime = 0 then event.modifyMetaData (·.setReceiveTime now 0) else event
  ⟨c.queue ++ [event]⟩

/-- `none` while the call waits for an event. -/
def raiseEvent (c : InPullConnector δ) (block : Bool) :
    Option (Option (Event δ) × InPullConnector δ) :=
  match c.queue with
  | event :: queue => some (some event, ⟨queue⟩)
  | [] => if block then none else some (none, c)

end InPullConnector

/-- The filters and the connectors, in the order of their pointers. -/
structure PullEventReceivingStrategy (F C : Type) [LinearOrder F] [LinearOrder C] where
  filters : SortedSet F
  connectors : SortedSet C

namespace PullEventReceivingStrategy

inductive FilterCall (F : Type)
  | addFilter (filter : F)
  | removeFilter (filter : F)
  deriving DecidableEq

/-- The filter has been added and not been removed since. -/
def CurrentlyAdded (calls : List (FilterCall F)) (filter : F) : Prop :=
  ∃ earlier later, calls = earlier ++ .addFilter filter :: later ∧ .removeFilter filter ∉ later

/-- The last call decides about its filter and leaves the others alone. -/
theorem currentlyAdded_append_singleton {calls : List (FilterCall F)} {call : FilterCall F}
    {filter : F} :
    CurrentlyAdded (calls ++ [call]) filter ↔
      call = .addFilter filter ∨ (CurrentlyAdded calls filter ∧ call ≠ .removeFilter filter) := by
  constructor
  · rintro ⟨earlier, later, heq, hlater⟩
    rcases List.eq_nil_or_concat later with rfl | ⟨later, last, rfl⟩
    · exact .inl (List.cons.inj (List.append_inj' heq rfl).2).1
    · rw [List.concat_eq_append] at heq hlater
      rw [← List.cons_append, ← List.append_assoc] at heq
      obtain ⟨hcalls, hlast⟩ := List.append_inj' heq rfl
      obtain ⟨rfl, -⟩ := List.cons.inj hlast
      refine .inr ⟨⟨earlier, later, hcalls, ?_⟩, ?_⟩
      · exact fun hmem => hlater (List.mem_append_left _ hmem)
      · rintro rfl
        exact hlater (by simp)
  · rintro (rfl | ⟨⟨earlier, later, rfl, hlater⟩, hcall⟩)
    · exact ⟨calls, [], rfl, List.not_mem_nil⟩
    · refine ⟨earlier, later ++ [call], by simp, ?_⟩
      rw [List.mem_append, List.mem_singleton]
      rintro (hmem | rfl)
      · exact hlater hmem
      · exact hcall rfl

variable [LinearOrder F] [LinearOrder C]

def new (connectors : SortedSet C) : PullEventReceivingStrategy F C := ⟨.empty, connectors⟩

def addFilter (s : PullEventReceivingStrategy F C) (filter : F) :
    PullEventReceivingStrategy F C :=
  { s with filters := s.filters.add filter }

def removeFilter (s : PullEventReceivingStrategy F C) (filter : F) :
    PullEventReceivingStrategy F C :=
  { s with filters := s.filters.erase filter }

/-- The loop over the connectors. -/
def raiseFrom (block : Bool) :
    List C → (C → InPullConnector δ) → Option (Option (Event δ) × (C → InPullConnector δ))
  | [], connectors => some (none, connectors)
  | it :: rest, connectors => do
      let (event, connector) ← (connectors it).raiseEvent block
      let connectors := Function.update connectors it connector
      match event with
      -- no filter is applied
      | some event => return (some event, connectors)
      | none => raiseFrom block rest connectors

/-- The event, null if there is none, and the connectors after the call; `none` while
the call waits. -/
def raiseEvent (s : PullEventReceivingStrategy F C) (connectors : C → InPullConnector δ)
    (block : Bool) : Option (Option (Event δ) × (C → InPullConnector δ)) :=
  raiseFrom block s.connectors.keys connectors

/-! ### Filters -/

def apply (s : PullEventReceivingStrategy F C) : FilterCall F → PullEventReceivingStrategy F C
  | .addFilter filter => s.addFilter filter
  | .removeFilter filter => s.removeFilter filter

/-- The strategy for the connectors after the calls. -/
def after (connectors : SortedSet C) (calls : List (FilterCall F)) :
    PullEventReceivingStrategy F C :=
  calls.foldl apply (new connectors)

theorem after_append_singleton (connectors : SortedSet C) (calls : List (FilterCall F))
    (call : FilterCall F) :
    after connectors (calls ++ [call]) = (after connectors calls).apply call := by
  rw [after, List.foldl_append, List.foldl_cons, List.foldl_nil, after]

theorem connectors_after (connectors : SortedSet C) (calls : List (FilterCall F)) :
    (after connectors calls).connectors = connectors := by
  induction calls using List.reverseRecOn with
  | nil => rfl
  | append_singleton calls call ih =>
      rw [after_append_singleton]
      cases call with
      | addFilter filter => exact ih
      | removeFilter filter => exact ih

/-- The set has the filters that are currently added. -/
theorem mem_filters_after {connectors : SortedSet C} {calls : List (FilterCall F)} {filter : F} :
    filter ∈ (after connectors calls).filters ↔ CurrentlyAdded calls filter := by
  induction calls using List.reverseRecOn with
  | nil => simp [after, new, CurrentlyAdded]
  | append_singleton calls call ih =>
      rw [after_append_singleton, currentlyAdded_append_singleton, ← ih]
      cases call with
      | addFilter filter' =>
          simp [apply, addFilter, eq_comm]
      | removeFilter filter' =>
          simp [apply, removeFilter, and_comm, eq_comm]

/-! ### What a call returns -/

/-- The event that is queued first: a blocking call waits for the first connector, the
others ask one after the other. -/
def nextEvent (connectors : SortedSet C) (queued : C → InPullConnector δ) (block : Bool) :
    Option (Event δ) :=
  if block then connectors.first?.bind fun c => (queued c).queue.head?
  else (connectors.keys.flatMap fun c => (queued c).queue).head?

/-- A call that does not wait takes the first event of all the queues. -/
theorem raiseFrom_eq (cs : List C) (queued : C → InPullConnector δ) :
    ∃ queued', raiseFrom false cs queued =
      some ((cs.flatMap fun c => (queued c).queue).head?, queued') := by
  induction cs generalizing queued with
  | nil => exact ⟨queued, rfl⟩
  | cons it rest ih =>
      cases hqueue : (queued it).queue with
      | nil =>
          have hsame : Function.update queued it (queued it) = queued := by simp
          have hskip : raiseFrom false (it :: rest) queued = raiseFrom false rest queued := by
            rw [raiseFrom, InPullConnector.raiseEvent, hqueue]
            show raiseFrom false rest (Function.update queued it (queued it)) = _
            rw [hsame]
          rw [hskip, List.flatMap_cons, hqueue]
          exact ih queued
      | cons event queue =>
          rw [raiseFrom, InPullConnector.raiseEvent, hqueue, List.flatMap_cons, hqueue]
          exact ⟨_, rfl⟩

/-- Whatever the call, the event it returns is the one that is queued first. -/
theorem raiseEvent_eq_some {s : PullEventReceivingStrategy F C}
    {queued queued' : C → InPullConnector δ} {block : Bool} {event : Option (Event δ)}
    (h : s.raiseEvent queued block = some (event, queued')) :
    event = nextEvent s.connectors queued block := by
  cases block with
  | false =>
      obtain ⟨queued'', heq⟩ := raiseFrom_eq s.connectors.keys queued
      exact (Prod.mk.inj (Option.some.inj (h.symm.trans heq))).1
  | true =>
      rw [raiseEvent] at h
      rw [nextEvent, if_pos rfl, SortedSet.first?]
      cases hkeys : s.connectors.keys with
      | nil =>
          rw [hkeys] at h
          exact (Prod.mk.inj (Option.some.inj h)).1.symm
      | cons it rest =>
          rw [hkeys, raiseFrom, InPullConnector.raiseEvent] at h
          cases hqueue : (queued it).queue with
          | nil => simp [hqueue] at h
          | cons head queue =>
              simp only [hqueue, Option.bind_eq_bind, Option.bind_some] at h
              simp only [List.head?_cons, Option.bind_some, hqueue]
              exact (Prod.mk.inj (Option.some.inj h)).1.symm

theorem raiseEvent_of_nextEvent {s : PullEventReceivingStrategy F C}
    {queued : C → InPullConnector δ} {block : Bool} {event : Event δ}
    (h : nextEvent s.connectors queued block = some event) :
    ∃ queued', s.raiseEvent queued block = some (some event, queued') := by
  cases block with
  | false =>
      obtain ⟨queued', heq⟩ := raiseFrom_eq s.connectors.keys queued
      rw [nextEvent, if_neg (by simp)] at h
      exact ⟨queued', h ▸ heq⟩
  | true =>
      obtain ⟨it, hfirst, hhead⟩ := Option.bind_eq_some_iff.mp h
      obtain ⟨rest, hkeys⟩ := List.head?_eq_some_iff.mp hfirst
      obtain ⟨queue, hqueue⟩ := List.head?_eq_some_iff.mp hhead
      rw [raiseEvent, hkeys, raiseFrom, InPullConnector.raiseEvent, hqueue]
      exact ⟨_, rfl⟩

/-- The event passes all the filters that are currently added. -/
def Matches (filterMatch : F → Event δ → Except Exception Bool) (calls : List (FilterCall F))
    (event : Event δ) : Prop :=
  ∀ filter, CurrentlyAdded calls filter → filterMatch filter event = .ok true

theorem matches_iff (connectors : SortedSet C) {filterMatch : F → Event δ → Except Exception Bool}
    {calls : List (FilterCall F)} {event : Event δ} :
    Matches filterMatch calls event ↔
      ∀ filter ∈ (after connectors calls).filters, filterMatch filter event = .ok true := by
  simp only [Matches, mem_filters_after]

/-- The connectors as a call finds them, when `arriving` has what each is handed from the
beginning of the call until it answers, with the times. -/
def meanwhile (queued : C → InPullConnector δ) (arriving : C → List (UInt64 × Event δ)) (c : C) :
    InPullConnector δ :=
  (arriving c).foldl (fun connector arrival => connector.handle arrival.1 arrival.2) (queued c)

/-- What is expected of a call of `raiseEvent` after some filter calls: an event that is
returned passes the filters, and a call that does not wait returns none only if none of
the events in the queues passes them. -/
def HonoursFilters (filterMatch : F → Event δ → Except Exception Bool)
    (calls : List (FilterCall F)) (connectors : SortedSet C) (queued : C → InPullConnector δ)
    (arriving : C → List (UInt64 × Event δ)) (block : Bool) : Prop :=
  (∀ event queued', (after connectors calls).raiseEvent (meanwhile queued arriving) block =
    some (some event, queued') → Matches filterMatch calls event) ∧
  (∀ queued', block = false →
    (after connectors calls).raiseEvent (meanwhile queued arriving) block = some (none, queued') →
      ¬∃ c ∈ connectors, ∃ event ∈ (meanwhile queued arriving c).queue,
        Matches filterMatch calls event)

/-- The strategy honours its filters if and only if the event that is queued first, or is
the first to come while the call waits, passes those in its set. -/
theorem honoursFilters_iff (filterMatch : F → Event δ → Except Exception Bool)
    (calls : List (FilterCall F)) (connectors : SortedSet C) (queued : C → InPullConnector δ)
    (arriving : C → List (UInt64 × Event δ)) (block : Bool) :
    HonoursFilters filterMatch calls connectors queued arriving block ↔
      ∀ event, nextEvent connectors (meanwhile queued arriving) block = some event →
        ∀ filter ∈ (after connectors calls).filters, filterMatch filter event = .ok true := by
  have hconnectors := connectors_after connectors calls
  constructor
  · rintro ⟨hreturned, -⟩ event hnext
    obtain ⟨queued', hraise⟩ := raiseEvent_of_nextEvent (s := after connectors calls)
      (hconnectors.symm ▸ hnext)
    exact (matches_iff connectors).mp (hreturned event queued' hraise)
  · intro hnext
    refine ⟨?_, ?_⟩
    · intro event queued' hraise
      apply (matches_iff connectors).mpr
      apply hnext
      rw [← hconnectors]
      exact (raiseEvent_eq_some hraise).symm
    · rintro queued' rfl hraise ⟨c, hc, event, hevent, -⟩
      -- nothing is queued at all
      have hnone := raiseEvent_eq_some hraise
      rw [hconnectors, nextEvent, if_neg (by simp), eq_comm, List.head?_eq_none_iff,
        List.flatMap_eq_nil_iff] at hnone
      rw [hnone c (SortedSet.mem_keys.mpr hc)] at hevent
      cases hevent

/-- A filter that takes only events of the method `REQUEST`. -/
def requestsOnly (_ : ℕ) (event : Event Unit) : Except Exception Bool :=
  .ok (event.method == bytes "REQUEST")

/-- An event without a method comes to a connector. -/
def arrival (_ : ℕ) : List (UInt64 × Event Unit) := [(1, .new 1)]

/-- The filter rejects the event, which is returned all the same, by a call that finds it
queued and by one that waits for it. -/
theorem rejected_event_is_returned :
    ¬HonoursFilters requestsOnly [.addFilter 0] (SortedSet.ofElems [0])
      (meanwhile (fun _ => ⟨[]⟩) arrival) (fun _ => []) false ∧
    ¬HonoursFilters requestsOnly [.addFilter 0] (SortedSet.ofElems [0])
      (fun _ => ⟨[]⟩) arrival true := by
  have hadded : CurrentlyAdded [FilterCall.addFilter 0] 0 :=
    ⟨[], [], rfl, List.not_mem_nil⟩
  have hrejected : ¬Matches requestsOnly [.addFilter 0]
      ((Event.new 1).modifyMetaData (·.setReceiveTime 1 0)) :=
    fun h => absurd (h 0 hadded) (by decide)
  have hnext (block : Bool) :
      nextEvent (after (SortedSet.ofElems [0]) [FilterCall.addFilter 0]).connectors
        (meanwhile (fun _ => ⟨[]⟩) arrival) block =
          some ((Event.new 1).modifyMetaData (·.setReceiveTime 1 0)) := by
    cases block <;> rfl
  constructor
  · intro h
    obtain ⟨queued', hraise⟩ := raiseEvent_of_nextEvent (hnext false)
    exact hrejected (h.1 _ queued' hraise)
  · intro h
    obtain ⟨queued', hraise⟩ := raiseEvent_of_nextEvent (hnext true)
    exact hrejected (h.1 _ queued' hraise)

end PullEventReceivingStrategy

end Rsb.EventProcessing
