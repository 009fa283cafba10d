import Rsb.EventProcessing.ReceiveRoutes
import Rsb.Informer
import Rsb.Transport.Socket.Connectors

/-!
Informers and the routes of their events (`Informer.cpp`, `OutRouteConfigurator.cpp`,
`DirectEventSendingStrategy.cpp`) over connectors of the in-process transport and of the socket
transport (`inprocess/OutConnector.cpp`, `socket/OutConnector.cpp`, `ConnectorBase.cpp`).

The constructor of an informer activates its connectors, which takes the socket connectors a
bus each, and its destructor releases them. In between, an event is handed to the connectors
one after the other, until one of them throws. The in-process transport hands on the event
itself, so that the next connector gets it as the receivers have left it. `Serving` describes
this without connectors that have a state, and `informer_life` says that an informer is such a
thing from its construction to its end. The specifications of a quality of service are left
out, since neither transport looks at them.
-/

namespace Rsb.EventProcessing.OutRoutes

open Library Library.InPlace Transport
open ReceiveRoutes (Kind Connector)

/-- What a connector has handed to its bus. -/
inductive Sent (B δ : Type)
  | inprocess (event : Event δ)
  | socket (bus : B) (busEvent : Event Bytes)

/-- The connectors, and what the buses have been handed. -/
structure World (C B δ : Type) where
  connectors : C → Connector B
  sent : List (C × Sent B δ)

/-- What does not change: the transport and the converters of each connector. -/
structure Setup (C δ : Type) where
  kind : C → Kind
  converters : C → ConverterSelectionStrategy δ
  inprocessURL : Bytes
  print : Printer δ

/-- What the clock and the buses answer to the connectors while an event is published. A bus of
the in-process transport is given the event itself, and leaves it as its sinks and their
handlers have made it. -/
structure Answers (C δ : Type) where
  now : C → UInt64
  inprocess : C → Event δ → Except Fault (Event δ)
  socket : C → Except Fault Unit

variable {C B δ : Type} [DecidableEq C]

def World.modify (w : World C B δ) (c : C) (f : Connector B → Connector B) : World C B δ :=
  { w with connectors := Function.update w.connectors c (f (w.connectors c)) }

def World.send (w : World C B δ) (c : C) (x : Sent B δ) : World C B δ :=
  { w with sent := w.sent ++ [(c, x)] }

section

variable (w : World C B δ) (c : C) (f : Connector B → Connector B)

@[simp] theorem World.modify_sent : (w.modify c f).sent = w.sent := rfl

@[simp] theorem World.modify_connectors_self : (w.modify c f).connectors c = f (w.connectors c) :=
  Function.update_self ..

theorem World.modify_connectors_of_ne {o : C} (h : o ≠ c) :
    (w.modify c f).connectors o = w.connectors o := Function.update_of_ne h ..

end

/-! ### Connectors -/

namespace Setup

variable (S : Setup C δ)

def setScope (c : C) (scope : Scope) : InPlace Fault (World C B δ) Unit :=
  match S.kind c with
  | .inprocess => pure ()
  | .socket => do
      let w ← get
      if (w.connectors c).active then
        throw (.thrown ⟨.runtimeError, bytes "Cannot set scope while active"⟩)
      else set (w.modify c fun s => { s with scope })

/-- `bus` is what `getBus` of the factory returns. -/
def activate (c : C) (bus : Except Exception B) : InPlace Fault (World C B δ) Unit :=
  match S.kind c with
  | .inprocess => pure ()
  | .socket => do
      let bus ← ofExcept (bus.mapError .thrown)
      modify fun w => w.modify c fun s => { s with bus := some bus }
      modify fun w => w.modify c fun s => { s with active := true }

def deactivate (c : C) : InPlace Fault (World C B δ) Unit :=
  match S.kind c with
  | .inprocess => pure ()
  | .socket => do
      modify fun w => w.modify c fun s => { s with active := false }
      modify fun w => w.modify c fun s => { s with bus := none }

/-- The event afterwards has another send time, and what the bus has changed. -/
def handle (answers : Answers C δ) (event : Event δ) (c : C) :
    InPlace Fault (World C B δ) (Event δ) :=
  match S.kind c with
  | .inprocess => do
      let event := event.modifyMetaData (·.setSendTime (answers.now c) 0)
      modify (·.send c (.inprocess event))
      ofExcept (answers.inprocess c event)
  | .socket => do
      let (event, busEvent) ← ofExcept
        (Socket.OutConnector.handle ⟨S.converters c, true⟩ (answers.now c) event)
      let w ← get
      let bus ← ofExcept (deref (w.connectors c).bus)
      set (w.send c (.socket bus busEvent))
      ofExcept (answers.socket c)
      return event

/-- `url` is what the bus of a socket connector says, which may fail without a connection. -/
def getTransportURL (url : C → Except Fault Bytes) (c : C) : InPlace Fault (World C B δ) Bytes :=
  match S.kind c with
  | .inprocess => return S.inprocessURL
  | .socket => do
      let w ← get
      let _ ← ofExcept (deref (w.connectors c).bus)
      ofExcept (url c)

/-! ### Routes -/

/-- `DirectEventSendingStrategy::process`. -/
def process (answers : Answers C δ) (event : Event δ) : List C → InPlace Fault (World C B δ) Unit
  | [] => pure ()
  | it :: rest => do
      let event ← S.handle answers event it
      process answers event rest

end Setup

structure OutRouteConfigurator (C : Type) where
  scope : Scope
  connectors : List C
  /-- The strategy, by its connectors. -/
  eventSendingStrategy : Option (List C)
  shutdown : Bool

namespace OutRouteConfigurator

variable (S : Setup C δ)

/-- The constructor. -/
def new (scope : Scope) : OutRouteConfigurator C := ⟨scope, [], none, false⟩

def addConnector (r : OutRouteConfigurator C) (connector : C) : OutRouteConfigurator C :=
  { r with connectors := r.connectors ++ [connector] }

/-- The first loop of `activate`. -/
def activateAll (getBus : C → Except Exception B) (scope : Scope) :
    List C → InPlace Fault (World C B δ) Unit
  | [] => pure ()
  | it :: rest => do
      S.setScope it scope
      S.activate it (getBus it)
      activateAll getBus scope rest

/-- The second loop of `deactivate`. -/
def deactivateAll : List C → InPlace Fault (World C B δ) Unit
  | [] => pure ()
  | it :: rest => do
      S.deactivate it
      deactivateAll rest

def activate (getBus : C → Except Exception B) (r : OutRouteConfigurator C) :
    InPlace Fault (World C B δ) (OutRouteConfigurator C) := do
  activateAll S getBus r.scope r.connectors
  return { r with eventSendingStrategy := some r.connectors }

/-- Nobody else has the strategy; it is gone, and so is what its connectors were. -/
def deactivate (r : OutRouteConfigurator C) :
    InPlace Fault (World C B δ) (OutRouteConfigurator C) := do
  deactivateAll S r.connectors
  return { r with eventSendingStrategy := none, shutdown := true }

/-- `~OutRouteConfigurator`. -/
def destructor (r : OutRouteConfigurator C) : InPlace Fault (World C B δ) Unit :=
  if r.shutdown then pure () else do let _ ← r.deactivate S

def publish (r : OutRouteConfigurator C) (answers : Answers C δ) (event : Event δ) :
    InPlace Fault (World C B δ) Unit := do
  let strategy ← ofExcept (deref r.eventSendingStrategy)
  S.process answers event strategy

/-- The loop of `getTransportURLs`. -/
def collectURLs (url : C → Except Fault Bytes) (result : SortedSet Bytes) :
    List C → InPlace Fault (World C B δ) (SortedSet Bytes)
  | [] => return result
  | it :: rest => do
      let urlOfIt ← S.getTransportURL url it
      collectURLs url (result.add urlOfIt) rest

def getTransportURLs (r : OutRouteConfigurator C) (url : C → Except Fault Bytes) :
    InPlace Fault (World C B δ) (SortedSet Bytes) := collectURLs S url .empty r.connectors

end OutRouteConfigurator

/-! ### Informers -/

structure InformerBase (C : Type) where
  informer : Informer
  configurator : OutRouteConfigurator C

inductive Outcome (C B δ : Type)
  | constructed (p : InformerBase C) (w : World C B δ)
  /-- The exception has left the constructor. -/
  | threw (e : Exception) (w : World C B δ)
  /-- Something else has failed, or the destructor of the configurator has. -/
  | stopped (f : Fault)

/-- What is done with an informer. -/
inductive Use (C δ : Type)
  | publish (event : Event δ) (answers : Answers C δ)
  | uncheckedPublish (event : Event δ) (answers : Answers C δ)
  | getTransportURLs (url : C → Except Fault Bytes)

namespace Setup

variable (S : Setup C δ)

/-- The constructor of `InformerBase`. When it throws, the configurator is destroyed. -/
def construct (getBus : C → Except Exception B) (connectors : List C) (id : UUID) (scope : Scope)
    (type : Bytes) (w : World C B δ) : Outcome C B δ :=
  let configurator : OutRouteConfigurator C :=
    connectors.foldl OutRouteConfigurator.addConnector (.new scope)
  match (configurator.activate S getBus).run w with
  | .ok configurator w => .constructed ⟨⟨id, scope, type, 0⟩, configurator⟩ w
  | .error (.thrown e) w =>
      match (configurator.destructor S).run w with
      | .ok _ w => .threw e w
      | .error f _ => .stopped f
  | .error f _ => .stopped f

/-- The end of `uncheckedPublish`. The number of the event has been taken by then. -/
def publish (informer : Informer) (event : Event δ) (answers : Answers C δ)
    (configurator : OutRouteConfigurator C) (w : World C B δ) :
    Except Fault Unit × InformerBase C × World C B δ :=
  match (configurator.publish S answers event).run w with
  | .ok _ w => (.ok (), ⟨informer, configurator⟩, w)
  | .error f w => (.error f, ⟨informer, configurator⟩, w)

def use (p : InformerBase C) (w : World C B δ) :
    Use C δ → Except Fault Unit × InformerBase C × World C B δ
  | .publish event answers =>
      match p.informer.checkedPublish S.print event with
      | .error f => (.error f, p, w)
      | .ok (informer, event) => S.publish informer event answers p.configurator w
  | .uncheckedPublish event answers =>
      let (informer, event) := p.informer.uncheckedPublish event
      S.publish informer event answers p.configurator w
  | .getTransportURLs url =>
      match (p.configurator.getTransportURLs S url).run w with
      | .ok _ w => (.ok (), p, w)
      | .error f w => (.error f, p, w)

/-- One use after the other. Callers may go on after an exception; after any other fault there
is nothing to go on with, and what is said about later uses means nothing. -/
def run (p : InformerBase C) (w : World C B δ) :
    List (Use C δ) → List (Except Fault Unit) × InformerBase C × World C B δ
  | [] => ([], p, w)
  | u :: uses =>
      let (outcome, p, w) := S.use p w u
      let (outcomes, p, w) := run p w uses
      (outcome :: outcomes, p, w)

/-! ### Informers without a state of their connectors -/

section

variable (getBus : C → Except Exception B)

/-- What a connector hands to its bus for an event, or why it does not. -/
def transmit (answers : Answers C δ) (event : Event δ) (c : C) : Except Fault (Sent B δ) :=
  match S.kind c with
  | .inprocess => .ok (.inprocess (event.modifyMetaData (·.setSendTime (answers.now c) 0)))
  | .socket => do
      let bus ← (getBus c).mapError .thrown
      let (_, busEvent) ← Socket.OutConnector.handle ⟨S.converters c, true⟩ (answers.now c) event
      return .socket bus busEvent

/-- What becomes of the event in the hands of a connector and its bus. -/
def answer (answers : Answers C δ) (event : Event δ) (c : C) : Except Fault (Event δ) :=
  let event := event.modifyMetaData (·.setSendTime (answers.now c) 0)
  match S.kind c with
  | .inprocess => answers.inprocess c event
  | .socket => (answers.socket c).map fun _ => event

/-- The buses of all socket connectors have an address to give, or the first that fails decides. -/
def queried (url : C → Except Fault Bytes) : List C → Except Fault Unit
  | [] => .ok ()
  | c :: rest => do
      if S.kind c = .socket then
        let _ ← url c
      queried url rest

/-- An event goes to the connectors one after the other, to each as the one before has left it,
and no further than to the first that throws or whose bus does. -/
inductive Handed (answers : Answers C δ) :
    Event δ → List C → Except Fault Unit → List (C × Sent B δ) → Prop
  | all {event} : Handed answers event [] (.ok ()) []
  | next {event event' c rest x outcome sent} : S.transmit getBus answers event c = .ok x →
      S.answer answers event c = .ok event' → Handed answers event' rest outcome sent →
      Handed answers event (c :: rest) outcome ((c, x) :: sent)
  | refused {event c rest x f} : S.transmit getBus answers event c = .ok x →
      S.answer answers event c = .error f →
      Handed answers event (c :: rest) (.error f) [(c, x)]
  | unsent {event c rest f} : S.transmit getBus answers event c = .error f →
      Handed answers event (c :: rest) (.error f) []

variable (connectors : List C)

/-- What one use of an informer does. An event that is rejected takes no number, any other one
does, whether all connectors take it or not. -/
inductive Serves (i : Informer) :
    Use C δ → Except Fault Unit → List (C × Sent B δ) → Informer → Prop
  | rejected {event answers f} : i.checkedPublish S.print event = .error f →
      Serves i (.publish event answers) (.error f) [] i
  | published {event answers i' event' outcome sent} :
      i.checkedPublish S.print event = .ok (i', event') →
      S.Handed getBus answers event' connectors outcome sent →
      Serves i (.publish event answers) outcome sent i'
  | unchecked {event answers outcome sent} :
      S.Handed getBus answers (i.uncheckedPublish event).2 connectors outcome sent →
      Serves i (.uncheckedPublish event answers) outcome sent (i.uncheckedPublish event).1
  | urls {url} : Serves i (.getTransportURLs url) (S.queried url connectors) [] i

inductive Serving : Informer → List (Use C δ) → List (Except Fault Unit) →
    List (C × Sent B δ) → Informer → Prop
  | nil {i} : Serving i [] [] [] i
  | cons {i i₁ i' u uses outcome outcomes sent rest} :
      S.Serves getBus connectors i u outcome sent i₁ →
      Serving i₁ uses outcomes rest i' →
      Serving i (u :: uses) (outcome :: outcomes) (sent ++ rest) i'

/-- The connectors have nothing of the buses any more, and others are as they were. -/
structure Gone (w w' : World C B δ) : Prop where
  released : ∀ c ∈ connectors, S.kind c = .socket →
    (w'.connectors c).active = false ∧ (w'.connectors c).bus = none
  others : ∀ o, o ∉ connectors → w'.connectors o = w.connectors o

end

/-! ### One event -/

variable {S} {getBus : C → Except Exception B} {connectors : List C} {w : World C B δ}

/-- The connectors have the buses that they were given. -/
def Connected (S : Setup C δ) (getBus : C → Except Exception B) (connectors : List C)
    (w : World C B δ) : Prop :=
  ∀ c ∈ connectors, S.kind c = .socket → ∃ b, getBus c = .ok b ∧ (w.connectors c).bus = some b

theorem fst_of_outConnector_handle {c : Socket.ConnectorBase δ} {now : UInt64} {event : Event δ}
    {r : Event δ × Event Bytes} (h : Socket.OutConnector.handle c now event = .ok r) :
    r.1 = event.modifyMetaData (·.setSendTime now 0) := by
  obtain ⟨converter, -, h⟩ := bind_eq_ok_iff.mp h
  obtain ⟨pointer, -, h⟩ := bind_eq_ok_iff.mp h
  obtain ⟨wire, -, h⟩ := bind_eq_ok_iff.mp h
  rw [← Except.ok.inj h]

omit [DecidableEq C] in
theorem run_handle (answers : Answers C δ) (event : Event δ) {c : C}
    (hbus : S.kind c = .socket → ∃ b, getBus c = .ok b ∧ (w.connectors c).bus = some b) :
    (S.handle answers event c).run w =
      match S.transmit getBus answers event c with
      | .error f => .error f w
      | .ok x => result (S.answer answers event c) (w.send c x) := by
  rw [handle, transmit, answer]
  cases hkind : S.kind c with
  | inprocess =>
      simp only
      cases answers.inprocess c (event.modifyMetaData (·.setSendTime (answers.now c) 0)) <;> rfl
  | socket =>
      obtain ⟨b, hget, hb⟩ := hbus hkind
      simp only [hget]
      cases hwrite : Socket.OutConnector.handle ⟨S.converters c, true⟩ (answers.now c) event with
      | error f => rfl
      | ok r =>
          obtain ⟨event', busEvent⟩ := r
          obtain rfl : event' = _ := fst_of_outConnector_handle hwrite
          have hread : (ofExcept (deref (w.connectors c).bus) : InPlace Fault (World C B δ) B).run
              w = result (.ok b) w := by
            rw [hb]
            rfl
          change ((get >>= fun w => ofExcept (deref (w.connectors c).bus) >>= _ :
            InPlace Fault (World C B δ) (Event δ))).run w = _
          rw [run_get_bind, run_bind hread]
          cases answers.socket c <;> rfl

omit [DecidableEq C] in
/-- What is handed over is what `Handed` says. -/
theorem run_process (answers : Answers C δ) (event : Event δ) {l : List C}
    (h : Connected S getBus l w) :
    ∃ outcome sent, S.Handed getBus answers event l outcome sent ∧
      (S.process answers event l).run w = result outcome { w with sent := w.sent ++ sent } := by
  induction l generalizing w event with
  | nil =>
      refine ⟨.ok (), [], .all, ?_⟩
      rw [List.append_nil]
      rfl
  | cons c rest ih =>
      obtain ⟨hc, hrest⟩ := List.forall_mem_cons.mp h
      have hrun := run_handle answers event hc
      cases hx : S.transmit getBus answers event c with
      | error f =>
          rw [hx] at hrun
          refine ⟨.error f, [], .unsent hx, ?_⟩
          rw [List.append_nil, process, EStateM.run_bind, hrun]
          rfl
      | ok x =>
          rw [hx] at hrun
          cases hanswer : S.answer answers event c with
          | error f =>
              rw [hanswer] at hrun
              refine ⟨.error f, [(c, x)], .refused hx hanswer, ?_⟩
              rw [process, EStateM.run_bind, hrun]
              rfl
          | ok event' =>
              rw [hanswer] at hrun
              have hrest' : Connected S getBus rest (w.send c x) := hrest
              obtain ⟨outcome, sent, hhanded, hprocess⟩ := @ih (w.send c x) event' hrest'
              refine ⟨outcome, (c, x) :: sent, .next hx hanswer hhanded, ?_⟩
              rw [process, EStateM.run_bind, hrun]
              refine hprocess.trans ?_
              rw [World.send, List.append_assoc, List.singleton_append]

/-! ### Activation and deactivation -/

/-- A connector that is not active takes the bus that it gets, if any. -/
theorem run_activate {c : C} (hinactive : (w.connectors c).active = false) (scope : Scope)
    (bus : Except Exception B) :
    ∃ w', (S.setScope c scope >>= fun _ => S.activate c bus).run w =
        result (if S.kind c = .socket then (bus.mapError .thrown).map fun _ => () else .ok ()) w' ∧
      w'.sent = w.sent ∧ (∀ o, o ≠ c → w'.connectors o = w.connectors o) ∧
      ∀ b, S.kind c = .socket → bus = .ok b → (w'.connectors c).bus = some b := by
  rw [setScope, activate]
  cases hkind : S.kind c with
  | inprocess => exact ⟨w, rfl, rfl, fun _ _ => rfl, fun b h => nomatch h⟩
  | socket =>
      have hset : (get >>= fun w => if (w.connectors c).active then
          throw (.thrown ⟨.runtimeError, bytes "Cannot set scope while active"⟩)
          else set (w.modify c fun s => { s with scope }) :
            InPlace Fault (World C B δ) Unit).run w =
          result (.ok ()) (w.modify c fun s => { s with scope }) := by
        rw [run_get_bind, if_neg (by rw [hinactive]; exact Bool.false_ne_true)]
        rfl
      rw [run_bind hset]
      cases bus with
      | error e =>
          refine ⟨_, rfl, rfl, fun o ho => ?_, fun b _ h => nomatch h⟩
          exact World.modify_connectors_of_ne _ _ _ ho
      | ok b =>
          refine ⟨_, rfl, rfl, fun o ho => ?_, fun b' _ hb => ?_⟩
          · simp only [World.modify_connectors_of_ne _ _ _ ho]
          · simp only [World.modify_connectors_self, Except.ok.inj hb]

/-- The loop of `activate` ends at the first connector that gets no bus. -/
theorem run_activateAll (getBus : C → Except Exception B) (scope : Scope)
    (hnodup : connectors.Nodup) (hinactive : ∀ c ∈ connectors, (w.connectors c).active = false) :
    ∃ (x : Except Exception Unit) (w' : World C B δ),
      (OutRouteConfigurator.activateAll S getBus scope connectors).run w =
        result (x.mapError .thrown) w' ∧
      w'.sent = w.sent ∧ (∀ o, o ∉ connectors → w'.connectors o = w.connectors o) ∧
      (x.isOk → Connected S getBus connectors w') ∧
      ∀ e, x = .error e → ∃ before c after, connectors = before ++ c :: after ∧
        (∀ o ∈ before, S.kind o = .socket → (getBus o).isOk) ∧ S.kind c = .socket ∧
        getBus c = .error e := by
  induction connectors generalizing w with
  | nil => exact ⟨.ok (), w, rfl, rfl, fun _ _ => rfl, fun _ => by simp [Connected], nofun⟩
  | cons c rest ih =>
      obtain ⟨hnew, hnodup⟩ := List.nodup_cons.mp hnodup
      obtain ⟨hc, hrest⟩ := List.forall_mem_cons.mp hinactive
      obtain ⟨w₁, hrun, hsent, hothers, hbus⟩ := run_activate (S := S) hc scope (getBus c)
      rw [OutRouteConfigurator.activateAll, ← bind_assoc, run_bind hrun]
      have hne : ∀ o ∈ rest, o ≠ c := fun o ho heq => hnew (heq ▸ ho)
      have hinactive' : ∀ o ∈ rest, (w₁.connectors o).active = false := fun o ho => by
        rw [hothers o (hne o ho)]
        exact hrest o ho
      cases hget : (if S.kind c = .socket then (getBus c).map fun _ => () else .ok () :
          Except Exception Unit) with
      | error e =>
          obtain ⟨hkind, hget⟩ : S.kind c = .socket ∧ getBus c = .error e := by
            split_ifs at hget with hkind
            cases h : getBus c with
            | error e' =>
                rw [h] at hget
                exact ⟨hkind, congrArg _ (Except.error.inj hget)⟩
            | ok b =>
                rw [h] at hget
                cases hget
          refine ⟨.error e, w₁, ?_, hsent, fun o ho => ?_, nofun, fun e' he => ?_⟩
          · rw [if_pos hkind, hget]
            rfl
          · exact hothers o (List.ne_of_not_mem_cons ho)
          · obtain rfl := Except.error.inj he
            exact ⟨[], c, rest, rfl, by simp, hkind, hget⟩
      | ok =>
          have hgot : S.kind c = .socket → ∃ b, getBus c = .ok b := by
            intro hkind
            rw [if_pos hkind] at hget
            cases h : getBus c with
            | error e =>
                rw [h] at hget
                cases hget
            | ok b => exact ⟨b, rfl⟩
          obtain ⟨x, w₂, hrun₂, hsent₂, hothers₂, hconnected, hfailed⟩ := ih hnodup hinactive'
          refine ⟨x, w₂, ?_, hsent₂.trans hsent, fun o ho => ?_, fun hx => ?_, fun e he => ?_⟩
          · rw [← hrun₂]
            split_ifs with hkind
            · obtain ⟨b, hb⟩ := hgot hkind
              rw [hb]
              rfl
            · rfl
          · obtain ⟨hoc, ho⟩ := List.ne_and_not_mem_of_not_mem_cons ho
            rw [hothers₂ o ho, hothers o hoc]
          · refine List.forall_mem_cons.mpr ⟨fun hkind => ?_, hconnected hx⟩
            obtain ⟨b, hb⟩ := hgot hkind
            refine ⟨b, hb, ?_⟩
            rw [hothers₂ c hnew]
            exact hbus b hkind hb
          · obtain ⟨before, o, after, rfl, hbefore, hfirst⟩ := hfailed e he
            refine ⟨c :: before, o, after, rfl, List.forall_mem_cons.mpr ⟨fun hkind => ?_,
              hbefore⟩, hfirst⟩
            obtain ⟨b, hb⟩ := hgot hkind
            rw [hb]
            rfl

theorem run_deactivate (c : C) :
    ∃ w' : World C B δ, (S.deactivate c).run w = .ok () w' ∧ w'.sent = w.sent ∧
      (∀ o, o ≠ c → w'.connectors o = w.connectors o) ∧
      (S.kind c = .socket → (w'.connectors c).active = false ∧ (w'.connectors c).bus = none) := by
  rw [deactivate]
  cases hkind : S.kind c with
  | inprocess => exact ⟨w, rfl, rfl, fun _ _ => rfl, nofun⟩
  | socket =>
      refine ⟨_, rfl, rfl, fun o ho => ?_, fun _ => ?_⟩
      · simp only [World.modify_connectors_of_ne _ _ _ ho]
      · simp only [World.modify_connectors_self, and_self]

/-- The loop of `deactivate`, however far the activation has got. -/
theorem run_deactivateAll (hnodup : connectors.Nodup) :
    ∃ w', (OutRouteConfigurator.deactivateAll S connectors).run w = .ok () w' ∧
      w'.sent = w.sent ∧ S.Gone connectors w w' := by
  induction connectors generalizing w with
  | nil => exact ⟨w, rfl, rfl, by simp, fun _ _ => rfl⟩
  | cons c rest ih =>
      obtain ⟨hnew, hnodup⟩ := List.nodup_cons.mp hnodup
      obtain ⟨w₁, hrun, hsent, hothers, hreleased⟩ := run_deactivate (S := S) (w := w) c
      obtain ⟨w₂, hrun₂, hsent₂, hgone⟩ := ih (w := w₁) hnodup
      have hfirst : (S.deactivate c).run w = result (.ok ()) w₁ := hrun
      refine ⟨w₂, ?_, hsent₂.trans hsent, List.forall_mem_cons.mpr ⟨?_, hgone.released⟩,
        fun o ho => ?_⟩
      · rw [OutRouteConfigurator.deactivateAll, run_bind hfirst]
        exact hrun₂
      · rw [hgone.others c hnew]
        exact hreleased
      · obtain ⟨hoc, ho⟩ := List.ne_and_not_mem_of_not_mem_cons ho
        rw [hgone.others o ho, hothers o hoc]

theorem run_destructor {r : OutRouteConfigurator C} (hnodup : r.connectors.Nodup)
    (hshutdown : r.shutdown = false) :
    ∃ w', (r.destructor S).run w = .ok () w' ∧ w'.sent = w.sent ∧
      S.Gone r.connectors w w' := by
  obtain ⟨w', hrun, hsent, hgone⟩ := run_deactivateAll (S := S) (w := w) hnodup
  have hloop : (OutRouteConfigurator.deactivateAll S r.connectors).run w = result (.ok ()) w' :=
    hrun
  refine ⟨w', ?_, hsent, hgone⟩
  rw [OutRouteConfigurator.destructor, if_neg (by simp [hshutdown]),
    OutRouteConfigurator.deactivate, bind_assoc, run_bind hloop]
  rfl

/-! ### The life of an informer -/

omit [DecidableEq C] in
theorem foldl_addConnector (r : OutRouteConfigurator C) (connectors : List C) :
    connectors.foldl OutRouteConfigurator.addConnector r =
      { r with connectors := r.connectors ++ connectors } := by
  induction connectors generalizing r with
  | nil => simp
  | cons c connectors ih =>
      rw [List.foldl_cons, ih]
      simp [OutRouteConfigurator.addConnector]

/-- The route of an informer that has been constructed. -/
def route (scope : Scope) (connectors : List C) : OutRouteConfigurator C :=
  ⟨scope, connectors, some connectors, false⟩

/-- The constructor returns if all socket connectors get a bus. Else it leaves nothing behind. -/
theorem construct_cases (getBus : C → Except Exception B) (hnodup : connectors.Nodup)
    (hinactive : ∀ c ∈ connectors, (w.connectors c).active = false) (id : UUID) (scope : Scope)
    (type : Bytes) :
    (∃ w', S.construct getBus connectors id scope type w =
        .constructed ⟨⟨id, scope, type, 0⟩, route scope connectors⟩ w' ∧
      Connected S getBus connectors w' ∧ w'.sent = w.sent ∧
      ∀ o, o ∉ connectors → w'.connectors o = w.connectors o) ∨
    ∃ e w', S.construct getBus connectors id scope type w = .threw e w' ∧
      (∃ before c after, connectors = before ++ c :: after ∧
        (∀ o ∈ before, S.kind o = .socket → (getBus o).isOk) ∧ S.kind c = .socket ∧
        getBus c = .error e) ∧
      w'.sent = w.sent ∧ S.Gone connectors w w' := by
  obtain ⟨x, w₁, hrun, hsent, hothers, hconnected, hfailed⟩ :=
    run_activateAll (S := S) getBus scope hnodup hinactive
  have hroute : connectors.foldl OutRouteConfigurator.addConnector (.new scope) =
      ⟨scope, connectors, none, false⟩ := by
    rw [foldl_addConnector]
    rfl
  have hactivate : (OutRouteConfigurator.activate S getBus ⟨scope, connectors, none, false⟩).run w =
      result ((x.mapError .thrown).map fun _ => route scope connectors) w₁ := by
    rw [OutRouteConfigurator.activate, run_bind hrun]
    cases x <;> rfl
  rw [construct, hroute, hactivate]
  cases x with
  | ok => exact .inl ⟨w₁, rfl, hconnected rfl, hsent, hothers⟩
  | error e =>
      obtain ⟨w₂, hdestructor, hsent₂, hgone⟩ := run_destructor (S := S) (w := w₁)
        (r := ⟨scope, connectors, none, false⟩) hnodup rfl
      refine .inr ⟨e, w₂, ?_, hfailed e rfl, hsent₂.trans hsent, hgone.released, fun o ho => ?_⟩
      · show (match (OutRouteConfigurator.destructor S _).run w₁ with
          | .ok _ w => Outcome.threw e w
          | .error f _ => .stopped f) = _
        rw [hdestructor]
      · rw [hgone.others o ho, hothers o ho]

omit [DecidableEq C] in
/-- The addresses of the buses can be asked for as long as the buses have them. -/
theorem run_collectURLs {l : List C} (h : Connected S getBus l w) (url : C → Except Fault Bytes)
    (urls : SortedSet Bytes) :
    ∃ urls', (OutRouteConfigurator.collectURLs S url urls l).run w =
      result ((S.queried url l).map fun _ => urls') w := by
  induction l generalizing urls with
  | nil => exact ⟨urls, rfl⟩
  | cons c rest ih =>
      obtain ⟨hc, hrest⟩ := List.forall_mem_cons.mp h
      rw [OutRouteConfigurator.collectURLs, queried]
      cases hkind : S.kind c with
      | inprocess =>
          have hurl : (S.getTransportURL url c).run w = result (.ok S.inprocessURL) w := by
            rw [getTransportURL, hkind]
            rfl
          rw [run_bind hurl, if_neg (by simp)]
          exact ih hrest _
      | socket =>
          have hurl : (S.getTransportURL url c).run w = result (url c) w := by
            obtain ⟨b, -, hb⟩ := hc hkind
            simp only [getTransportURL, hkind]
            rw [run_get_bind, hb]
            cases url c <;> rfl
          rw [run_bind hurl, if_pos rfl]
          cases hanswer : url c with
          | error f => exact ⟨urls, rfl⟩
          | ok urlOfIt => exact ih hrest _

omit [DecidableEq C] in
theorem run_publish (h : Connected S getBus connectors w) (i : Informer) (event : Event δ)
    (answers : Answers C δ) (scope : Scope) :
    ∃ outcome sent, S.Handed getBus answers event connectors outcome sent ∧
      S.publish i event answers (route scope connectors) w =
        (outcome, ⟨i, route scope connectors⟩, { w with sent := w.sent ++ sent }) := by
  obtain ⟨outcome, sent, hhanded, hrun⟩ := run_process answers event h
  refine ⟨outcome, sent, hhanded, ?_⟩
  have hpublish : ((route scope connectors).publish S answers event).run w = _ := hrun
  rw [publish, hpublish]
  cases outcome <;> rfl

omit [DecidableEq C] in
/-- One use of an informer with connected connectors. -/
theorem use_serves (h : Connected S getBus connectors w) (i : Informer) (scope : Scope)
    (u : Use C δ) :
    ∃ outcome sent i', S.Serves getBus connectors i u outcome sent i' ∧
      S.use ⟨i, route scope connectors⟩ w u =
        (outcome, ⟨i', route scope connectors⟩, { w with sent := w.sent ++ sent }) := by
  cases u with
  | publish event answers =>
      cases hchecked : i.checkedPublish S.print event with
      | error f =>
          refine ⟨.error f, [], i, .rejected hchecked, ?_⟩
          simp only [use, hchecked, List.append_nil]
      | ok r =>
          obtain ⟨i', event'⟩ := r
          obtain ⟨outcome, sent, hhanded, hrun⟩ := run_publish h i' event' answers scope
          refine ⟨outcome, sent, i', .published hchecked hhanded, ?_⟩
          simp only [use, hchecked, hrun]
  | uncheckedPublish event answers =>
      obtain ⟨outcome, sent, hhanded, hrun⟩ :=
        run_publish h (i.uncheckedPublish event).1 (i.uncheckedPublish event).2 answers scope
      exact ⟨outcome, sent, _, .unchecked hhanded, hrun⟩
  | getTransportURLs url =>
      obtain ⟨urls, hurls⟩ := run_collectURLs h url .empty
      have hrun : ((route scope connectors).getTransportURLs S url).run w = _ := hurls
      refine ⟨_, [], i, .urls, ?_⟩
      rw [use, hrun, List.append_nil]
      cases S.queried url connectors <;> rfl

omit [DecidableEq C] in
theorem run_serving (h : Connected S getBus connectors w) (i : Informer) (scope : Scope)
    (uses : List (Use C δ)) :
    ∃ outcomes sent i', S.Serving getBus connectors i uses outcomes sent i' ∧
      S.run ⟨i, route scope connectors⟩ w uses =
        (outcomes, ⟨i', route scope connectors⟩, { w with sent := w.sent ++ sent }) := by
  induction uses generalizing i w with
  | nil => exact ⟨[], [], i, .nil, by rw [List.append_nil]; rfl⟩
  | cons u uses ih =>
      obtain ⟨outcome, sent, i₁, hserves, huse⟩ := use_serves h i scope u
      have h₁ : Connected S getBus connectors { w with sent := w.sent ++ sent } := h
      obtain ⟨outcomes, rest, i', hserving, hrun⟩ := ih h₁ i₁
      refine ⟨outcome :: outcomes, sent ++ rest, i', .cons hserves hserving, ?_⟩
      rw [Setup.run, huse]
      simp only [hrun, List.append_assoc]

/-- An informer from the constructor to the destructor. If a connector gets no bus, then the
exception of the first one leaves the constructor. Else all that is done with the informer goes
as if its connectors had no state. In the end, the buses are released in both cases. -/
theorem informer_life (getBus : C → Except Exception B) (hnodup : connectors.Nodup)
    (hinactive : ∀ c ∈ connectors, (w.connectors c).active = false) (id : UUID) (scope : Scope)
    (type : Bytes) :
    (∃ p w₁, S.construct getBus connectors id scope type w = .constructed p w₁ ∧
      (∀ c ∈ connectors, S.kind c = .socket → (getBus c).isOk) ∧
      ∀ uses, ∃ outcomes sent p' w₂ w₃, S.run p w₁ uses = (outcomes, p', w₂) ∧
        S.Serving getBus connectors ⟨id, scope, type, 0⟩ uses outcomes sent p'.informer ∧
        (p'.configurator.destructor S).run w₂ = .ok () w₃ ∧
        w₃.sent = w.sent ++ sent ∧ S.Gone connectors w w₃) ∨
    ∃ e w₁, S.construct getBus connectors id scope type w = .threw e w₁ ∧
      (∃ before c after, connectors = before ++ c :: after ∧
        (∀ o ∈ before, S.kind o = .socket → (getBus o).isOk) ∧ S.kind c = .socket ∧
        getBus c = .error e) ∧
      w₁.sent = w.sent ∧ S.Gone connectors w w₁ := by
  rcases construct_cases (S := S) getBus hnodup hinactive id scope type with
    ⟨w₁, hconstructed, hconnected, hsent, hothers⟩ | hthrew
  · refine .inl ⟨_, w₁, hconstructed, fun c hc hkind => ?_, fun uses => ?_⟩
    · obtain ⟨b, hb, -⟩ := hconnected c hc hkind
      rw [hb]
      rfl
    · obtain ⟨outcomes, sent, i', hserving, hrun⟩ :=
        run_serving hconnected ⟨id, scope, type, 0⟩ scope uses
      obtain ⟨w₃, hdestructor, hsent₃, hgone⟩ := run_destructor (S := S)
        (w := { w₁ with sent := w₁.sent ++ sent }) (r := route scope connectors) hnodup rfl
      refine ⟨outcomes, sent, _, _, w₃, hrun, hserving, hdestructor, ?_, hgone.released,
        fun o ho => ?_⟩
      · rw [hsent₃, hsent]
      · exact (hgone.others o ho).trans (hothers o ho)
  · exact .inr hthrew

/-! ### A receiver that changes the event, and a socket bus that throws later -/

def sampleSetup : Setup ℕ Bytes where
  kind c := if c = 0 then .inprocess else .socket
  converters _ := .unambiguousMap (SortedMap.empty.insert stringType stringConverter) []
  inprocessURL := bytes "inprocess://host:1"
  print := ⟨fun _ => [], fun _ => []⟩

def sampleWorld : World ℕ ℕ Bytes := ⟨fun _ => ⟨false, .root, none⟩, []⟩

def sampleEvent : Event Bytes :=
  ((Event.new 1 : Event Bytes).setType stringType).setData (some (bytes "hi"))

def sampleUses : List (Use ℕ Bytes) :=
  [.publish sampleEvent ⟨fun _ => 5, fun _ event => .ok (event.setData (some (bytes "bye"))),
      fun _ => .ok ()⟩,
    .getTransportURLs fun _ => .ok (bytes "socket://localhost:55555"),
    .publish sampleEvent ⟨fun _ => 6, fun _ event => .ok event,
      fun _ => .error (.thrown ⟨.runtimeError, bytes "broken pipe"⟩)⟩]

/-- The payload that the bus has been handed. -/
def payload : Sent ℕ Bytes → Option Bytes
  | .inprocess event => event.content
  | .socket _ busEvent => busEvent.content

theorem informer_life_throwing :
    ∃ p w₁ p' w₂ w₃,
      sampleSetup.construct (fun _ => .ok 9) [0, 1] ⟨List.replicate 16 0, rfl⟩ .root []
        sampleWorld = .constructed p w₁ ∧
      sampleSetup.run p w₁ sampleUses =
        ([.ok (), .ok (), .error (.thrown ⟨.runtimeError, bytes "broken pipe"⟩)], p', w₂) ∧
      (p'.configurator.destructor sampleSetup).run w₂ = .ok () w₃ ∧
      w₃.sent.map (fun x => (x.1, payload x.2)) = [(0, some (bytes "hi")),
        (1, some (bytes "bye")), (0, some (bytes "hi")), (1, some (bytes "hi"))] ∧
      p'.informer.currentSequenceNumber = 2 ∧ (w₃.connectors 1).bus = none := by
  have hnodup : [0, 1].Nodup := by decide
  have hinactive : ∀ c ∈ [0, 1], (sampleWorld.connectors c).active = false := fun _ _ => rfl
  rcases informer_life (S := sampleSetup) (fun _ => .ok 9) hnodup hinactive
    ⟨List.replicate 16 0, rfl⟩ .root [] with
    ⟨p, w₁, hconstructed, -, hlife⟩ | ⟨_, _, _, ⟨_, _, _, _, _, _, hfailed⟩, _⟩
  · obtain ⟨outcomes, sent, p', w₂, w₃, hrun, -, hdestructor, hsent, hgone⟩ := hlife sampleUses
    obtain ⟨rfl, rfl⟩ := Outcome.constructed.inj hconstructed
    obtain ⟨rfl, hrun'⟩ := Prod.mk.inj hrun
    obtain ⟨rfl, rfl⟩ := Prod.mk.inj hrun'
    have hbus := (hgone.released 1 (by simp) rfl).2
    injection hdestructor with _ hw
    subst hw
    exact ⟨_, _, _, _, _, rfl, rfl, rfl, rfl, rfl, hbus⟩
  · cases hfailed

end Setup

end Rsb.EventProcessing.OutRoutes
