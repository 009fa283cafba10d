import Rsb.Converter
import Rsb.Transport.Socket.Serialization

/-!
The connectors of the socket transport (`OutConnector.cpp`,
`InPushConnector.cpp`, `InPullConnector.cpp`).

Events on a bus are intermediate objects: their payload is serialized, and the
wire schema stands among the user infos.
-/

namespace Rsb.Transport.Socket

open Library

variable {δ : Type}

/-- The part of a connector that handling an event reads. -/
structure ConnectorBase (δ : Type) where
  converters : ConverterSelectionStrategy δ
  active : Bool

/-- `OutConnector::handle`: the event, now with a send time, and the event that
is passed to `handle` of the bus. -/
def OutConnector.handle (c : ConnectorBase δ) (now : UInt64) (event : Event δ) :
    Except Fault (Event δ × Event Bytes) := do
  let event := event.modifyMetaData (·.setSendTime now 0)
  let converter ← c.converters.getConverter event.type
  let (wireSchema, wireData) ← (← deref converter).serialize (event.type, event.content)
  let busEvent : Event Bytes := event.setData (some wireData)
  return (event, busEvent.modifyMetaData (·.setUserInfo wireSchemaKey wireSchema))

/-- The part `InPushConnector::handle` and `InPullConnector::handle` have in
common: the event with its payload deserialized. -/
def ConnectorBase.deserialize (c : ConnectorBase δ) (now : UInt64) (busEvent : Event Bytes) :
    Except Fault (Event δ) :=
  if !c.active then
    .error (.thrown ⟨.runtimeError, bytes "Cannot handle events when not active"⟩)
  else do
    let event := busEvent.modifyMetaData (·.setReceiveTime now 0)
    let wireSchema ← event.metaData.getUserInfo wireSchemaKey
    let converter ← c.converters.getConverter wireSchema
    let wireData ← deref event.content
    let d ← (← deref converter).deserialize wireSchema wireData
    return (event.setData d.2).setType d.1

/-- It succeeds if the connector is active and has a converter for the wire
schema that can read the payload. -/
theorem ConnectorBase.deserialize_ok_iff (c : ConnectorBase δ) (now : UInt64)
    {busEvent : Event Bytes} {wireSchema wireData : Bytes}
    (hschema : busEvent.metaData.getUserInfo wireSchemaKey = .ok wireSchema)
    (hcontent : busEvent.content = some wireData) {event : Event δ} :
    c.deserialize now busEvent = .ok event ↔ c.active = true ∧ ∃ converter d,
      c.converters.getConverter wireSchema = .ok (some converter) ∧
      converter.deserialize wireSchema wireData = .ok d ∧
      ((busEvent.modifyMetaData (·.setReceiveTime now 0)).setData d.2).setType d.1 = event := by
  have hschema' : (busEvent.metaData.setReceiveTime now 0).getUserInfo wireSchemaKey =
      .ok wireSchema := hschema
  cases hactive : c.active with
  | false => simp [deserialize, hactive]
  | true =>
      simp only [deserialize, hactive, Bool.not_true, Bool.false_eq_true, if_false,
        Event.modifyMetaData, bind_eq_ok_iff, deref_eq_ok_iff, hschema', hcontent,
        Except.ok.injEq, Option.some.injEq, true_and]
      constructor
      · rintro ⟨_, rfl, _, hconverter, _, rfl, converter, rfl, d, hd, heq⟩
        exact ⟨converter, d, hconverter, hd, Except.ok.inj heq⟩
      · rintro ⟨converter, d, hconverter, hd, heq⟩
        exact ⟨_, rfl, _, hconverter, _, rfl, converter, rfl, d, hd, congrArg _ heq⟩

/-- A handler returns or throws; what else it does stays outside the model. -/
abbrev Handler (δ : Type) := Event δ → Except Fault Unit

/-- The loop over the handlers. -/
def callHandlers (event : Event δ) : List (Handler δ) → Except Fault Unit
  | [] => .ok ()
  | h :: hs => do
      h event
      callHandlers event hs

theorem callHandlers_ok_iff {event : Event δ} {hs : List (Handler δ)} :
    callHandlers event hs = .ok () ↔ ∀ h ∈ hs, h event = .ok () := by
  induction hs with
  | nil => simp [callHandlers]
  | cons h hs ih =>
      rw [List.forall_mem_cons, ← ih, callHandlers, bind_eq_ok_iff]
      exact ⟨fun ⟨_, hhead, htail⟩ => ⟨hhead, htail⟩, fun ⟨hhead, htail⟩ => ⟨(), hhead, htail⟩⟩

/-- A handler gets the event when those before it have returned. -/
theorem callHandlers_append {event : Event δ} {before : List (Handler δ)}
    (h : ∀ g ∈ before, g event = .ok ()) (hs : List (Handler δ)) :
    callHandlers event (before ++ hs) = callHandlers event hs := by
  induction before with
  | nil => rfl
  | cons g before ih =>
      rw [List.cons_append, callHandlers, h g List.mem_cons_self]
      exact ih fun g' hg' => h g' (List.mem_cons_of_mem _ hg')

structure InPushConnector (δ : Type) extends ConnectorBase δ where
  handlers : List (Handler δ)

def InPushConnector.handle (c : InPushConnector δ) (now : UInt64) (busEvent : Event Bytes) :
    Except Fault Unit := do
  let event ← c.deserialize now busEvent
  callHandlers event c.handlers

structure InPullConnector (δ : Type) extends ConnectorBase δ where
  queue : List (Event δ)

def InPullConnector.handle (c : InPullConnector δ) (now : UInt64) (busEvent : Event Bytes) :
    Except Fault (InPullConnector δ) := do
  let event ← c.deserialize now busEvent
  return { c with queue := c.queue ++ [event] }

/-- The sinks of a bus. -/
inductive InConnector (δ : Type)
  | push (c : InPushConnector δ)
  | pull (c : InPullConnector δ)

/-- The virtual function `handle`, with the connector it leaves. -/
def InConnector.handle (c : InConnector δ) (now : UInt64) (busEvent : Event Bytes) :
    Except Fault (InConnector δ) :=
  match c with
  | .push p => do
      p.handle now busEvent
      return .push p
  | .pull p => do
      let p ← p.handle now busEvent
      return .pull p

end Rsb.Transport.Socket
