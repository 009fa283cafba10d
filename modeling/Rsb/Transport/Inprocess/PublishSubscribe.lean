import Rsb.EventProcessing.Filters
import Rsb.Informer
import Rsb.Library.Broker
import Rsb.Transport.Inprocess.Delivery

/-!
Informers and listeners over the in-process transport (`Informer.cpp`,
`OutRouteConfigurator.cpp`, `DirectEventSendingStrategy.cpp`, `inprocess/OutConnector.cpp`,
`inprocess/Bus.cpp`, `inprocess/InPushConnector.cpp`, `DirectEventReceivingStrategy.cpp`,
`Listener.cpp`).

Every participant has one connector. An event is one object all the way: the connectors and
strategies it comes to write times into it, which the next ones find there, and a handler may
change it as it likes. Listeners are known by their connectors; filters and handlers by
pointers.

What all this is for says `Library.Broker`; `run_refines` relates the two.
-/

namespace Rsb.Transport.Inprocess

open Library EventProcessing

variable {C F H I δ : Type} [LinearOrder C] [LinearOrder F]

/-- The clock while an event is published. -/
structure Times (C : Type) where
  send : UInt64
  receive : C → UInt64
  deliver : C → UInt64

structure Participants (C F H I δ : Type) [LinearOrder F] where
  bus : State C
  listeners : C → Option (DirectEventReceivingStrategy F H)
  informers : I → Option Informer
  /-- The calls of handlers so far, with the event as the handler finds it. -/
  calls : List (C × H × Event δ)

/-- What is there besides: handlers and filters, and how events are printed. A handler
`leaves` the event that it is called with as another one. -/
structure Environment (F H δ : Type) where
  print : Printer δ
  getAsUUID : EventId → UUID
  filters : F → Filter
  methods : H → SortedSet Bytes
  handle : H → Event δ → Except Exception Unit
  leaves : H → Event δ → Event δ

def Environment.behaviour (env : Environment F H δ) : Behaviour F H δ :=
  Filter.behaviour env.getAsUUID env.filters env.methods env.handle

inductive Action (C F H I δ : Type)
  /-- The constructor of `Listener`, with a new connector. -/
  | createListener (c : C) (scope : Scope) (strategy : ParticipantConfig.ErrorStrategy)
  | destroyListener (c : C)
  | addFilter (c : C) (filter : F)
  | removeFilter (c : C) (filter : F)
  | addHandler (c : C) (handler : H)
  | removeHandler (c : C) (handler : H)
  | createInformer (i : I) (id : UUID) (scope : Scope) (type : Bytes)
  | destroyInformer (i : I)
  | publish (i : I) (times : Times C) (event : Event δ)

namespace InPushConnector

/-- The time that `InPushConnector::handle` writes into the event. -/
def received (now : UInt64) (event : Event δ) : Event δ :=
  if event.metaData.receiveTime = 0 then event.modifyMetaData (·.setReceiveTime now 0) else event

/-- The loop over the handlers: the event that it leaves, and the handlers that are called,
each with the event as the one before has left it. -/
def deliverAll (env : Environment F H δ) (strategy : DirectEventReceivingStrategy F H) :
    Event δ → List H → Event δ × List (H × Event δ)
  | event, [] => (event, [])
  | event, handler :: handlers =>
      let left := env.leaves handler event
      match strategy.deliver env.behaviour handler event with
      | none => (left, [(handler, event)])
      | some () =>
          let (last, calls) := deliverAll env strategy left handlers
          (last, (handler, event) :: calls)

/-- `InPushConnector::handle`, with the handler that `PushInRouteConfigurator` has installed,
which is `DirectEventReceivingStrategy::handle`. -/
def handle (env : Environment F H δ) (receive deliver : UInt64)
    (strategy : DirectEventReceivingStrategy F H) (event : Event δ) :
    Event δ × List (H × Event δ) :=
  let event := (received receive event).modifyMetaData (·.setDeliverTime deliver deliver)
  match strategy.filter env.behaviour event with
  | some true => deliverAll env strategy event strategy.handlers
  | _ => (event, [])

end InPushConnector

/-- The loop of `handleNoLock` over the connectors, all with the same event. -/
def handleAll (env : Environment F H δ) (times : Times C)
    (listeners : C → Option (DirectEventReceivingStrategy F H)) :
    List C → Event δ → List (C × H × Event δ)
  | [], _ => []
  | c :: cs, event =>
      match listeners c with
      | none => handleAll env times listeners cs event
      | some strategy =>
          let (event, calls) :=
            InPushConnector.handle env (times.receive c) (times.deliver c) strategy event
          calls.map (c, ·) ++ handleAll env times listeners cs event

namespace Participants

variable (s : Participants C F H I δ)

def modifyListener (c : C)
    (g : DirectEventReceivingStrategy F H → DirectEventReceivingStrategy F H) :
    Participants C F H I δ :=
  { s with listeners := Function.update s.listeners c ((s.listeners c).map g) }

/-- `inprocess::OutConnector::handle`, which `DirectEventSendingStrategy::process` calls. -/
def handle (env : Environment F H δ) (times : Times C) (event : Event δ) :
    Participants C F H I δ :=
  let event := event.modifyMetaData (·.setSendTime times.send 0)
  { s with
    bus := { s.bus with bus := (s.bus.bus.handleNoLock s.bus.alive event.scope).1 }
    calls := s.calls ++ handleAll env times s.listeners (s.bus.calls event.scope) event }

def init : Participants C F H I δ := ⟨.init, fun _ => none, fun _ => none, []⟩

end Participants

variable [DecidableEq H] [DecidableEq I]

/-- A connector is used for one listener, whose error strategy is not to end the process.
Where `removeSink` fails, anything may happen afterwards. -/
def Participants.step (env : Environment F H δ) (s : Participants C F H I δ) :
    Action C F H I δ → Option (Participants C F H I δ)
  | .createListener c scope strategy =>
      if strategy = .exit then none
      else (Inprocess.step s.bus (.addSink c scope)).map fun bus =>
        { s with
          bus
          listeners := Function.update s.listeners c (some ⟨.empty, [], strategy⟩) }
  | .destroyListener c =>
      ((s.bus.registered c).bind fun scope =>
        (Inprocess.step s.bus (.removeSink c scope false)).bind (Inprocess.step · (.expire c))).map
          fun bus => { s with bus, listeners := Function.update s.listeners c none }
  | .addFilter c filter => some (s.modifyListener c (·.addFilter filter))
  | .removeFilter c filter => some (s.modifyListener c (·.removeFilter filter))
  | .addHandler c handler => some (s.modifyListener c (·.addHandler handler))
  | .removeHandler c handler => some (s.modifyListener c (·.removeHandler handler))
  | .createInformer i id scope type =>
      some { s with informers := Function.update s.informers i (some ⟨id, scope, type, 0⟩) }
  | .destroyInformer i => some { s with informers := Function.update s.informers i none }
  | .publish i times event =>
      match s.informers i with
      | none => none
      | some informer =>
          match informer.checkedPublish env.print event with
          -- the exception goes to the caller
          | .error _ => some s
          | .ok (informer, event) =>
              some (Participants.handle
                { s with informers := Function.update s.informers i (some informer) } env times
                event)

/-! ### The broker -/

/-- An event without the times that are written into it on the way to a handler. -/
def withoutTimes (event : Event δ) : Event δ :=
  event.modifyMetaData fun m => { m with receiveTime := 0, deliverTime := 0 }

/-- What an action means to the broker. A message is an event that an informer has accepted,
given an id and sent. -/
def Action.meaning (env : Environment F H δ) (s : Participants C F H I δ) :
    Action C F H I δ → List (Broker.Call C Scope F H (Event δ))
  | .createListener c scope _ => [.subscribe c scope]
  | .destroyListener c => [.unsubscribe c]
  | .addFilter c filter => [.addFilter c filter]
  | .removeFilter c filter => [.removeFilter c filter]
  | .addHandler c handler => [.addHandler c handler]
  | .removeHandler c handler => [.removeHandler c handler]
  | .createInformer _ _ _ _ | .destroyInformer _ => []
  | .publish i times event =>
      match s.informers i with
      | none => []
      | some informer =>
          match informer.checkedPublish env.print event with
          | .error _ => []
          | .ok (_, event) =>
              [.publish (withoutTimes (event.modifyMetaData (·.setSendTime times.send 0)))]

/-- What a run means to the broker. -/
def meanings (env : Environment F H δ) (s : Participants C F H I δ) :
    List (Action C F H I δ) → List (Broker.Call C Scope F H (Event δ))
  | [] => []
  | a :: actions =>
      a.meaning env s ++
        match s.step env a with
        | none => []
        | some s' => meanings env s' actions

/-- A topic covers the events on its scope and below. -/
def Covers (scope : Scope) (event : Event δ) : Prop := scope.covers event.scope = true

def Passes (env : Environment F H δ) (filter : F) (event : Event δ) : Prop :=
  (env.filters filter).match env.getAsUUID event = .ok true

/-- What one handler of one listener is called with. -/
def callsOf (c : C) (handler : H) (calls : List (C × H × Event δ)) : List (Event δ) :=
  (calls.filter fun call => call.1 = c ∧ call.2.1 = handler).map fun call =>
    withoutTimes call.2.2

/-- The subscription that a listener stands for. -/
def subscription (scope : Scope) (strategy : DirectEventReceivingStrategy F H) :
    Subscription Scope F H :=
  ⟨scope, {f | f ∈ strategy.filters}, strategy.handlers⟩

def Participants.subscriptionOf (s : Participants C F H I δ) (c : C) :
    Option (Subscription Scope F H) :=
  (s.bus.registered c).bind fun scope => (s.listeners c).map (subscription scope)

/-- The participants do what the broker does. -/
structure Refines (s : Participants C F H I δ) (b : Broker C Scope F H (Event δ)) : Prop where
  consistent : Consistent s.bus
  listeners : ∀ c, (s.bus.registered c).isSome = (s.listeners c).isSome
  strategy : ∀ c strategy, s.listeners c = some strategy → strategy.errorStrategy ≠ .exit
  subscriptions : ∀ c, b.subscriptions c = s.subscriptionOf c
  received : ∀ c handler, callsOf c handler s.calls = b.received c handler

/-! ### One event -/

section

variable {env : Environment F H δ} {times : Times C}

omit [LinearOrder C] [LinearOrder F] [DecidableEq H] [DecidableEq I]

theorem withoutTimes_received (now : UInt64) (event : Event δ) :
    withoutTimes (InPushConnector.received now event) = withoutTimes event := by
  rw [InPushConnector.received]
  split <;> rfl

theorem withoutTimes_setDeliverTime (now : UInt64) (event : Event δ) :
    withoutTimes (event.modifyMetaData (·.setDeliverTime now now)) = withoutTimes event := rfl

/-- The times do not matter to the filters. -/
theorem passes_withoutTimes (filter : F) (event : Event δ) :
    Passes env filter (withoutTimes event) ↔ Passes env filter event := by
  have hsame : Filter.SameForFilters event (withoutTimes event) := ⟨rfl, rfl, rfl, rfl, rfl⟩
  rw [Passes, Passes, hsame.match_eq]

end

section

variable {env : Environment F H δ} {times : Times C}
  {listeners : C → Option (DirectEventReceivingStrategy F H)}

/-- The handlers leave of an event what the broker knows of it. -/
def Environment.Respects (env : Environment F H δ) : Prop :=
  ∀ handler event, withoutTimes (env.leaves handler event) = withoutTimes event

omit [LinearOrder C] [DecidableEq H] in
theorem deliverAll_eq (hrespects : env.Respects) {strategy : DirectEventReceivingStrategy F H}
    (hstrategy : strategy.errorStrategy ≠ .exit) (event : Event δ) (handlers : List H) :
    withoutTimes (InPushConnector.deliverAll env strategy event handlers).1 = withoutTimes event ∧
      (InPushConnector.deliverAll env strategy event handlers).2.map
          (fun call => (call.1, withoutTimes call.2)) =
        handlers.map fun handler => (handler, withoutTimes event) := by
  induction handlers generalizing event with
  | nil => exact ⟨rfl, rfl⟩
  | cons handler handlers ih =>
      obtain ⟨hleft, hcalls⟩ := ih (env.leaves handler event)
      rw [hrespects] at hleft hcalls
      rw [InPushConnector.deliverAll,
        DirectEventReceivingStrategy.deliver_eq env.behaviour hstrategy]
      exact ⟨hleft, congrArg (List.cons _) hcalls⟩

omit [LinearOrder C] [DecidableEq H] in
/-- The handlers that one listener calls. -/
theorem snd_handle (hrespects : env.Respects) {strategy : DirectEventReceivingStrategy F H}
    (hstrategy : strategy.errorStrategy ≠ .exit) (receive deliver : UInt64) (event : Event δ) :
    withoutTimes (InPushConnector.handle env receive deliver strategy event).1 =
        withoutTimes event ∧
      ((∀ f ∈ strategy.filters, Passes env f (withoutTimes event)) →
        (InPushConnector.handle env receive deliver strategy event).2.map
            (fun call => (call.1, withoutTimes call.2)) =
          strategy.handlers.map fun handler => (handler, withoutTimes event)) ∧
      ((¬∀ f ∈ strategy.filters, Passes env f (withoutTimes event)) →
        (InPushConnector.handle env receive deliver strategy event).2 = []) := by
  let delivered := (InPushConnector.received receive event).modifyMetaData
    (·.setDeliverTime deliver deliver)
  have htimes : withoutTimes delivered = withoutTimes event :=
    (withoutTimes_setDeliverTime ..).trans (withoutTimes_received ..)
  have hfilters : (∀ f ∈ strategy.filters, Passes env f (withoutTimes event)) ↔
      strategy.filter env.behaviour delivered = some true := by
    rw [DirectEventReceivingStrategy.filter_iff]
    simp only [← htimes, passes_withoutTimes]
    rfl
  obtain ⟨hleft, hcalls⟩ := deliverAll_eq hrespects hstrategy delivered strategy.handlers
  rw [htimes] at hleft hcalls
  rw [hfilters, InPushConnector.handle]
  refine ⟨?_, fun hpass => ?_, fun hpass => ?_⟩
  · split
    · exact hleft
    · exact htimes
  · rw [hpass]
    exact hcalls
  · split
    · next h => exact absurd h hpass
    · rfl

omit [LinearOrder F] in
theorem callsOf_append (c : C) (handler : H) (calls calls' : List (C × H × Event δ)) :
    callsOf c handler (calls ++ calls') = callsOf c handler calls ++ callsOf c handler calls' := by
  rw [callsOf, List.filter_append, List.map_append]
  rfl

omit [LinearOrder F] in
/-- The calls of all handlers of one listener. -/
theorem callsOf_map (c c' : C) (handler : H) {calls : List (H × Event δ)} {handlers : List H}
    {event : Event δ} (h : calls.map (fun call => (call.1, withoutTimes call.2)) =
      handlers.map fun handler => (handler, event)) :
    callsOf c handler (calls.map (c', ·)) =
      if c' = c then List.replicate (handlers.count handler) event else [] := by
  induction calls generalizing handlers with
  | nil =>
      obtain rfl : handlers = [] := by simpa using h.symm
      simp [callsOf]
  | cons call calls ih =>
      cases handlers with
      | nil => cases h
      | cons handler' handlers =>
          obtain ⟨hcall, hcalls⟩ := List.cons.inj h
          obtain ⟨hhandler, hevent⟩ := Prod.mk.inj hcall
          rw [List.map_cons, ← List.singleton_append, callsOf_append, ih hcalls]
          by_cases hc : c' = c
          · by_cases hh : handler' = handler
            · simp [callsOf, hc, hh, hhandler, hevent, List.replicate_succ]
            · simp [callsOf, hc, hh, hhandler]
          · simp [callsOf, hc]

/-- What the calls for one event are to one handler of one listener. -/
theorem callsOf_handleAll (hrespects : env.Respects)
    (hstrategy : ∀ c strategy, listeners c = some strategy → strategy.errorStrategy ≠ .exit)
    {cs : List C} (hnodup : cs.Nodup) (event : Event δ) (c : C) (handler : H) (scope : Scope) :
    callsOf c handler (handleAll env times listeners cs event) =
      if c ∈ cs then
        Broker.deliveries (fun _ _ => True) (Passes env) ((listeners c).map (subscription scope))
          handler (withoutTimes event)
      else [] := by
  induction cs generalizing event with
  | nil => rfl
  | cons c' cs ih =>
      obtain ⟨hnot, hnodup'⟩ := List.nodup_cons.mp hnodup
      rw [handleAll]
      cases hlistener : listeners c' with
      | none =>
          simp only [ih hnodup']
          by_cases hc : c = c'
          · subst hc
            simp [hnot, hlistener, Broker.deliveries]
          · simp [hc]
      | some strategy =>
          obtain ⟨htimes, hall, hnone⟩ := snd_handle hrespects
            (hstrategy c' strategy hlistener) (times.receive c') (times.deliver c') event
          simp only [callsOf_append, ih hnodup', htimes]
          by_cases hc : c = c'
          · subst hc
            -- the other connectors are other ones
            rw [if_neg hnot, List.append_nil, if_pos List.mem_cons_self, hlistener, Option.map_some]
            have hwants : Broker.Wants (fun _ _ => True) (Passes env) (subscription scope strategy)
                (withoutTimes event) ↔
                  ∀ f ∈ strategy.filters, Passes env f (withoutTimes event) :=
              ⟨fun h => h.2, fun h => ⟨trivial, h⟩⟩
            by_cases hpass : ∀ f ∈ strategy.filters, Passes env f (withoutTimes event)
            · rw [callsOf_map c c handler (hall hpass), if_pos rfl]
              exact (Broker.deliveries_of_wants (hwants.mpr hpass) handler).symm
            · rw [hnone hpass]
              exact (Broker.deliveries_of_not_wants (mt hwants.mp hpass) handler).symm
          · have hothers : callsOf c handler ((InPushConnector.handle env (times.receive c')
                (times.deliver c') strategy event).2.map (c', ·)) = [] := by
              by_cases hpass : ∀ f ∈ strategy.filters, Passes env f (withoutTimes event)
              · rw [callsOf_map c c' handler (hall hpass), if_neg (Ne.symm hc)]
              · rw [hnone hpass]
                rfl
            rw [hothers, List.nil_append]
            simp [hc]

end

/-! ### Runs -/

section

variable {env : Environment F H δ} {s : Participants C F H I δ} {b : Broker C Scope F H (Event δ)}

omit [DecidableEq I] in
/-- A strategy has changed as its subscription has. -/
theorem Refines.modifyListener (h : Refines s b) (c : C)
    {g : DirectEventReceivingStrategy F H → DirectEventReceivingStrategy F H}
    {g' : Subscription Scope F H → Subscription Scope F H}
    (hstrategy : ∀ strategy, (g strategy).errorStrategy = strategy.errorStrategy)
    (hsubscription : ∀ scope strategy,
      subscription scope (g strategy) = g' (subscription scope strategy)) :
    Refines (s.modifyListener c g) (b.modify c g') := by
  refine ⟨h.consistent, fun c' => ?_, fun c' strategy hc' => ?_, fun c' => ?_, h.received⟩
  · simp only [Participants.modifyListener, Function.update_apply]
    split_ifs with hc
    · rw [Option.isSome_map, hc]
      exact h.listeners c
    · exact h.listeners c'
  · simp only [Participants.modifyListener, Function.update_apply] at hc'
    split_ifs at hc'
    · obtain ⟨strategy', hstrategy', rfl⟩ := Option.map_eq_some_iff.mp hc'
      rw [hstrategy]
      exact h.strategy c strategy' hstrategy'
    · exact h.strategy c' strategy hc'
  · rw [Broker.subscriptions_modify, h.subscriptions, h.subscriptions]
    simp only [Participants.modifyListener, Participants.subscriptionOf, Function.update_apply]
    split_ifs with hc
    · subst hc
      cases s.bus.registered c' with
      | none => rfl
      | some scope => simp [Function.comp_def, hsubscription]
    · rfl

omit [LinearOrder C] [DecidableEq I] in
/-- A subscription whose topic covers the message. -/
theorem deliveries_of_covers {scope : Scope} {strategy : DirectEventReceivingStrategy F H}
    {event : Event δ} (h : scope.covers event.scope = true) (handler : H) :
    Broker.deliveries Covers (Passes env) (some (subscription scope strategy)) handler event =
      Broker.deliveries (fun _ _ => True) (Passes env) (some (subscription scope strategy)) handler
        event := by
  have hwants : Broker.Wants Covers (Passes env) (subscription scope strategy) event ↔
      Broker.Wants (fun _ _ => True) (Passes env) (subscription scope strategy) event :=
    and_congr_left fun _ => iff_true_intro h
  by_cases hw : Broker.Wants Covers (Passes env) (subscription scope strategy) event
  · rw [Broker.deliveries_of_wants hw, Broker.deliveries_of_wants (hwants.mp hw)]
  · rw [Broker.deliveries_of_not_wants hw, Broker.deliveries_of_not_wants (mt hwants.mpr hw)]

omit [DecidableEq I] in
/-- What an event is to one handler of one listener. -/
theorem Refines.callsOf_handleAll (hrespects : env.Respects) (h : Refines s b)
    (times : Times C) (event : Event δ) (c : C)
    (handler : H) :
    callsOf c handler (handleAll env times s.listeners (s.bus.calls event.scope) event) =
      Broker.deliveries Covers (Passes env) (b.subscriptions c) handler (withoutTimes event) := by
  have hcount := h.consistent.count_calls event.scope
  have hnodup : (s.bus.calls event.scope).Nodup := List.nodup_iff_count_le_one.mpr fun c' => by
    rw [hcount c']
    split <;> omega
  have hmem : c ∈ s.bus.calls event.scope ↔ Receives s.bus.registered c event.scope := by
    rw [← List.count_pos_iff, hcount c]
    split_ifs with hreceives <;> simp [hreceives]
  rw [Inprocess.callsOf_handleAll hrespects h.strategy hnodup event c handler
    ((s.bus.registered c).getD .root), h.subscriptions, Participants.subscriptionOf]
  obtain hnone | ⟨scope, hscope⟩ := Option.eq_none_or_eq_some (s.bus.registered c)
  · rw [if_neg fun hc => by simpa [Receives, hnone] using hmem.mp hc, hnone]
    rfl
  · obtain ⟨strategy, hstrategy⟩ := Option.isSome_iff_exists.mp
      ((h.listeners c).symm.trans (hscope ▸ rfl))
    rw [hscope, hstrategy]
    by_cases hcovers : scope.covers (withoutTimes event).scope = true
    · rw [if_pos (hmem.mpr ⟨scope, hscope, hcovers⟩)]
      exact Eq.symm (deliveries_of_covers hcovers handler)
    · have hnot : c ∉ s.bus.calls event.scope := fun hc => by
        obtain ⟨scope', hscope', hcovers'⟩ := hmem.mp hc
        obtain rfl := Option.some.inj (hscope.symm.trans hscope')
        exact hcovers hcovers'
      rw [if_neg hnot]
      exact (Broker.deliveries_of_not_wants (fun hw => hcovers hw.1) handler).symm

omit [DecidableEq I] in
/-- An event is published. -/
theorem Refines.handle (hrespects : env.Respects) (h : Refines s b) (times : Times C)
    (event : Event δ) :
    Refines (s.handle env times event) (b.run Covers (Passes env)
      (.publish (withoutTimes (event.modifyMetaData (·.setSendTime times.send 0))))) := by
  have hconsistent : Consistent (s.handle env times event).bus :=
    ⟨h.consistent.exact.fill event.scope, h.consistent.alive⟩
  refine ⟨hconsistent, h.listeners, h.strategy, h.subscriptions, fun c handler => ?_⟩
  show callsOf c handler (s.calls ++ _) = b.received c handler ++ _
  rw [callsOf_append, h.received]
  exact congrArg (b.received c handler ++ ·)
    (h.callsOf_handleAll hrespects times (event.modifyMetaData (·.setSendTime times.send 0)) c
      handler)

omit [LinearOrder F] [DecidableEq H] [DecidableEq I] in
/-- A connector is removed and destroyed, which does not follow a removal that fails. -/
theorem Consistent.removed {bus bus' bus'' : State C} (h : Consistent bus) {c : C} {scope : Scope}
    (hremove : Inprocess.step bus (.removeSink c scope false) = some bus')
    (hexpire : Inprocess.step bus' (.expire c) = some bus'') :
    Consistent bus'' ∧ bus''.registered = Function.update bus.registered c none := by
  have hnone : bus'.fault = none := by
    by_contra hfault
    rw [Inprocess.step.eq_def, if_pos (Option.isSome_iff_ne_none.mpr hfault)] at hexpire
    cases hexpire
  have hfit : scope.SuperScopesFit := (fault_eq_none_iff hremove).mp hnone
  refine ⟨(h.step (l := .removeSink c scope false) hfit hremove).step (l := .expire c) trivial
    hexpire, ?_⟩
  simp only [Inprocess.step, Bus.removeSink_eq, if_pos hfit] at hremove
  split_ifs at hremove
  obtain rfl := Option.some.inj hremove
  simp only [Inprocess.step] at hexpire
  split_ifs at hexpire
  exact congrArg State.registered (Option.some.inj hexpire).symm

omit [DecidableEq I] in
/-- A listener is created or destroyed. -/
theorem Refines.updateListener (h : Refines s b) {bus : State C} {c : C}
    {listener : Option (Scope × DirectEventReceivingStrategy F H)} (hconsistent : Consistent bus)
    (hregistered : bus.registered = Function.update s.bus.registered c (listener.map Prod.fst))
    (hstrategy : ∀ scope strategy, listener = some (scope, strategy) →
      strategy.errorStrategy ≠ .exit) :
    Refines
      { s with bus, listeners := Function.update s.listeners c (listener.map Prod.snd) }
      { b with subscriptions := Function.update b.subscriptions c
                (listener.map fun l => subscription l.1 l.2) } := by
  refine ⟨hconsistent, fun c' => ?_, fun c' strategy hc' => ?_, fun c' => ?_, h.received⟩
  · simp only [hregistered, Function.update_apply]
    split_ifs
    · rw [Option.isSome_map, Option.isSome_map]
    · exact h.listeners c'
  · simp only [Function.update_apply] at hc'
    split_ifs at hc'
    · obtain ⟨⟨scope, strategy'⟩, hlistener, rfl⟩ := Option.map_eq_some_iff.mp hc'
      exact hstrategy scope strategy' hlistener
    · exact h.strategy c' strategy hc'
  · simp only [Participants.subscriptionOf, hregistered, Function.update_apply]
    split_ifs
    · cases listener <;> rfl
    · exact h.subscriptions c'

section

omit [LinearOrder C] [DecidableEq I]

omit [DecidableEq H] in
theorem subscription_create (scope : Scope) (errorStrategy : ParticipantConfig.ErrorStrategy) :
    subscription scope (⟨.empty, [], errorStrategy⟩ : DirectEventReceivingStrategy F H) =
      ⟨scope, ∅, []⟩ := by
  have hfilters : {f | f ∈ (SortedMap.empty : SortedSet F)} = (∅ : Set F) :=
    Set.eq_empty_of_forall_notMem fun f => SortedSet.not_mem_empty f
  rw [subscription, hfilters]

omit [DecidableEq H] in
theorem subscription_addFilter (scope : Scope) (strategy : DirectEventReceivingStrategy F H)
    (filter : F) :
    subscription scope (strategy.addFilter filter) =
      { subscription scope strategy with
        filters := insert filter (subscription scope strategy).filters } := by
  simp only [subscription, DirectEventReceivingStrategy.addFilter]
  congr
  ext f
  exact SortedSet.mem_add

omit [DecidableEq H] in
theorem subscription_removeFilter (scope : Scope) (strategy : DirectEventReceivingStrategy F H)
    (filter : F) :
    subscription scope (strategy.removeFilter filter) =
      { subscription scope strategy with
        filters := (subscription scope strategy).filters \ {filter} } := by
  simp only [subscription, DirectEventReceivingStrategy.removeFilter]
  congr
  ext f
  exact SortedSet.mem_erase.trans and_comm

end

/-- The broker does at once what an action means. -/
theorem Refines.step (hrespects : env.Respects) (h : Refines s b) {a : Action C F H I δ}
    {s' : Participants C F H I δ}
    (hstep : s.step env a = some s') :
    Refines s' (b.runAll Covers (Passes env) (a.meaning env s)) := by
  cases a with
  | createListener c scope errorStrategy =>
      simp only [Participants.step] at hstep
      split_ifs at hstep with hexit
      obtain ⟨bus, hbus, rfl⟩ := Option.map_eq_some_iff.mp hstep
      have hconsistent := h.consistent.step (l := .addSink c scope) trivial hbus
      simp only [Inprocess.step] at hbus
      split_ifs at hbus
      obtain rfl := Option.some.inj hbus
      have hstrategy : ∀ scope' strategy,
          some (scope, (⟨.empty, [], errorStrategy⟩ : DirectEventReceivingStrategy F H)) =
            some (scope', strategy) → strategy.errorStrategy ≠ .exit := by
        rintro _ _ heq
        obtain ⟨rfl, rfl⟩ := Prod.mk.inj (Option.some.inj heq)
        exact hexit
      have hupdate := h.updateListener hconsistent rfl hstrategy
      rw [Option.map_some, Option.map_some, subscription_create] at hupdate
      exact hupdate
  | destroyListener c =>
      obtain ⟨bus, hbus, rfl⟩ := Option.map_eq_some_iff.mp hstep
      obtain ⟨scope, hscope, hbus⟩ := Option.bind_eq_some_iff.mp hbus
      obtain ⟨bus', hremove, hexpire⟩ := Option.bind_eq_some_iff.mp hbus
      obtain ⟨hconsistent, hregistered⟩ := h.consistent.removed hremove hexpire
      have hstrategy : ∀ scope strategy,
          (none : Option (Scope × DirectEventReceivingStrategy F H)) = some (scope, strategy) →
            strategy.errorStrategy ≠ .exit := fun _ _ heq => by cases heq
      exact h.updateListener hconsistent hregistered hstrategy
  | addFilter c filter =>
      obtain rfl := Option.some.inj hstep
      exact h.modifyListener c (fun _ => rfl) fun scope strategy =>
        subscription_addFilter scope strategy filter
  | removeFilter c filter =>
      obtain rfl := Option.some.inj hstep
      exact h.modifyListener c (fun _ => rfl) fun scope strategy =>
        subscription_removeFilter scope strategy filter
  | addHandler c handler =>
      obtain rfl := Option.some.inj hstep
      exact h.modifyListener c (fun _ => rfl) fun _ _ => rfl
  | removeHandler c handler =>
      obtain rfl := Option.some.inj hstep
      exact h.modifyListener c (fun _ => rfl) fun _ _ => rfl
  | createInformer i id scope type =>
      obtain rfl := Option.some.inj hstep
      exact ⟨h.consistent, h.listeners, h.strategy, h.subscriptions, h.received⟩
  | destroyInformer i =>
      obtain rfl := Option.some.inj hstep
      exact ⟨h.consistent, h.listeners, h.strategy, h.subscriptions, h.received⟩
  | publish i times event =>
      simp only [Participants.step] at hstep
      cases hinformer : s.informers i with
      | none => simp [hinformer] at hstep
      | some informer =>
          cases hpublish : informer.checkedPublish env.print event with
          | error e =>
              simp only [hinformer, hpublish, Option.some.injEq] at hstep
              simp only [Action.meaning, hinformer, hpublish]
              obtain rfl := hstep
              exact h
          | ok r =>
              simp only [hinformer, hpublish, Option.some.injEq] at hstep
              simp only [Action.meaning, hinformer, hpublish]
              obtain rfl := hstep
              have hinformers : Refines
                  { s with informers := Function.update s.informers i (some r.1) } b :=
                ⟨h.consistent, h.listeners, h.strategy, h.subscriptions, h.received⟩
              exact hinformers.handle hrespects times r.2

omit [DecidableEq I] in
theorem refines_init :
    Refines (.init : Participants C F H I δ) (.empty : Broker C Scope F H (Event δ)) :=
  ⟨consistent_init, fun _ => rfl, fun _ _ h => (by cases h), fun _ => rfl, fun _ _ => rfl⟩

/-- A run of the participants is a run of the broker. -/
theorem Refines.exec (hrespects : env.Respects) (h : Refines s b)
    {actions : List (Action C F H I δ)}
    {s' : Participants C F H I δ} (hexec : exec (Participants.step env) s actions = some s') :
    Refines s' (b.runAll Covers (Passes env) (meanings env s actions)) := by
  induction actions generalizing s b with
  | nil =>
      obtain rfl := Option.some.inj hexec
      exact h
  | cons a actions ih =>
      obtain ⟨t, hstep, hrest⟩ := Option.bind_eq_some_iff.mp hexec
      rw [meanings, hstep, Broker.runAll, List.foldl_append]
      exact ih (h.step hrespects hstep) hrest

end

end Rsb.Transport.Inprocess
