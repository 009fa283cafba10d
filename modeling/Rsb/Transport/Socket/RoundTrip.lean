import Rsb.Transport.Socket.Connectors

/-!
What the way across a connection leaves of an event.

The loops of `notificationToEvent` rebuild a map or a set from its elements in
order. A timestamp of 0 would be replaced by the current time, so the creation
time and the user times have to be set; the setters for microseconds see to
that, which is what `MetaData.Stamped` records.
-/

namespace Rsb

open Library

/-- No timestamp that travels with an event is 0. -/
structure MetaData.Stamped (m : MetaData) : Prop where
  create : m.createTime ≠ 0
  user : ∀ key time, m.userTimes.find? key = some time → time ≠ 0

namespace MetaData

variable {m : MetaData} {now : UInt64}

theorem stamped_new (hnow : now ≠ 0) : (MetaData.new now).Stamped :=
  ⟨hnow, fun key time h => by simp [MetaData.new] at h⟩

theorem Stamped.setCreateTime (h : m.Stamped) (hnow : now ≠ 0) (time : UInt64) :
    (m.setCreateTime now time).Stamped :=
  ⟨checkedTimeStampSet_ne_zero hnow time, h.user⟩

theorem Stamped.setUserTime (h : m.Stamped) (hnow : now ≠ 0) (key : Bytes) (time : UInt64) :
    (m.setUserTime key now time).Stamped where
  create := h.create
  user k t hk := by
    rw [setUserTime_eq, SortedMap.find?_insert] at hk
    split_ifs at hk
    · obtain rfl := Option.some.inj hk
      exact checkedTimeStampSet_ne_zero hnow time
    · exact h.user k t hk

end MetaData

namespace Transport.Socket

open Protocol (Protobuf)

variable {δ : Type}

/-! ### The loops -/

theorem setUserInfos_eq (infos : List (Bytes × Bytes)) (m : MetaData) :
    setUserInfos infos m =
      { m with userInfos := infos.foldl (fun l e => l.insert e.1 e.2) m.userInfos } := by
  induction infos generalizing m with
  | nil => rfl
  | cons e infos ih =>
      rw [setUserInfos, ih, List.foldl_cons, MetaData.setUserInfo_eq]

theorem setUserTimes_eq (clock : Clock) {times : List (Bytes × UInt64)}
    (h : ∀ e ∈ times, e.2 ≠ 0) (i : ℕ) (m : MetaData) :
    setUserTimes clock i times m =
      { m with userTimes := times.foldl (fun l e => l.insert e.1 e.2) m.userTimes } := by
  induction times generalizing i m with
  | nil => rfl
  | cons e times ih =>
      have hne : e.2 ≠ 0 := h e (by simp)
      rw [setUserTimes, ih fun e' he' => h e' (List.mem_cons_of_mem _ he'), List.foldl_cons,
        MetaData.setUserTime_eq, MetaData.checkedTimeStampSet_of_ne_zero _ hne]

/-- Setting user times leaves everything else alone. -/
theorem setUserTimes_frame (clock : Clock) (i : ℕ) (times : List (Bytes × UInt64))
    (m : MetaData) :
    setUserTimes clock i times m =
      { m with userTimes := (setUserTimes clock i times m).userTimes } := by
  induction times generalizing i m with
  | nil => rfl
  | cons e times ih =>
      rw [setUserTimes, ih]
      rfl

theorem stamped_setUserTimes {clock : Clock} (hclock : ∀ field, clock field ≠ 0) {m : MetaData}
    (hm : m.Stamped) (i : ℕ) (times : List (Bytes × UInt64)) :
    (setUserTimes clock i times m).Stamped := by
  induction times generalizing i m with
  | nil => exact hm
  | cons e times ih => exact ih (hm.setUserTime (hclock _) e.1 e.2) (i + 1)

theorem toEventIds_map_ofEventId (ids : List EventId) :
    toEventIds (ids.map ofEventId) = .ok ids := by
  induction ids with
  | nil => rfl
  | cons id ids ih =>
      simp only [List.map_cons, toEventIds, ih, toEventId, ofEventId, UUID.ofBuffer_data]
      rfl

/-- Inserting the entries of a map in order yields the map. -/
theorem foldl_insert_entries {β : Type} (m : SortedMap Bytes β) :
    m.entries.foldl (fun l e => l.insert e.1 e.2) .empty = m :=
  SortedMap.ofList_entries m

theorem foldl_add_keys (s : SortedSet EventId) :
    s.keys.foldl SortedSet.add .empty = s :=
  SortedSet.ofElems_keys s

/-! ### One notification -/

/-- The event a notification of `event` is turned back into. -/
def receivedEvent (clock : Clock) (event : Event Bytes) (id : EventId)
    (wireSchema data : Bytes) : Event Bytes where
  id := some id
  scope := event.scope
  content := some data
  type := []
  method := event.method
  causes := event.causes
  metaData := {
    senderId := some id.participantId
    createTime := event.metaData.createTime
    sendTime := event.metaData.sendTime
    receiveTime := clock .receive
    deliverTime := 0
    userTimes := event.metaData.userTimes
    userInfos := event.metaData.userInfos.insert wireSchemaKey wireSchema }

theorem notificationToEvent_eventToNotification (clock : Clock) (event : Event Bytes)
    {id : EventId} (hid : event.id = some id) (hstamped : event.metaData.Stamped)
    (hsend : event.metaData.sendTime ≠ 0) (wireSchema data : Bytes) :
    ∃ notification, eventToNotification event wireSchema data = .ok notification ∧
      notificationToEvent clock notification true =
        .ok (receivedEvent clock event id wireSchema data) := by
  have hgetId : event.getId = .ok id := by rw [Event.getId, hid]
  have hsender : toEventId (ofEventId id) = .ok id := by
    rw [toEventId, ofEventId, UUID.ofBuffer_data]
    rfl
  have hmethod : ∀ e : Event Bytes, e.method = [] →
      (if event.method = [] then none else some event.method).elim e e.setMethod =
        e.setMethod event.method := by
    intro e he
    by_cases hm : event.method = []
    · rw [if_pos hm, Option.elim_none, Event.setMethod, hm, ← he]
    · rw [if_neg hm, Option.elim_some]
  have htimes : ∀ e ∈ event.metaData.userTimes.entries, e.2 ≠ 0 := fun e he =>
    hstamped.user e.1 e.2 (SortedMap.find?_eq_some_iff.mpr he)
  refine ⟨_, by rw [eventToNotification, hgetId]; rfl, ?_⟩
  simp only [notificationToEvent, Option.getD_some, hsender, Scope.parse_toString,
    toEventIds_map_ofEventId, bind, Except.bind, pure, Except.pure, if_true]
  rw [hmethod _ rfl, foldl_addCause]
  apply congrArg Except.ok
  simp only [Event.modifyMetaData, Event.setData, Event.setMethod, Event.setScope, Event.setId,
    Event.new, MetaData.new, MetaData.setCreateTime, MetaData.setSendTime,
    MetaData.setReceiveTime, MetaData.setUserInfo_eq, UInt64.toUInt64_toInt64,
    MetaData.checkedTimeStampSet_of_ne_zero _ hstamped.create,
    MetaData.checkedTimeStampSet_of_ne_zero _ hsend, MetaData.checkedTimeStampSet_zero,
    setUserInfos_eq, setUserTimes_eq clock htimes, foldl_insert_entries,
    foldl_add_keys, receivedEvent]

/-! ### From connector to connector -/

theorem OutConnector.handle_eq {out : ConnectorBase δ} {now : UInt64} {event : Event δ}
    {converter : Converter δ} {wireSchema wireData : Bytes}
    (hconverter : out.converters.getConverter event.type = .ok (some converter))
    (hserialize : converter.serialize (event.type, event.content) = .ok (wireSchema, wireData)) :
    let sent := event.modifyMetaData (·.setSendTime now 0)
    OutConnector.handle out now event = .ok (sent, (sent.setData (some wireData)).modifyMetaData
      (·.setUserInfo wireSchemaKey wireSchema)) := by
  simp only [OutConnector.handle, Event.modifyMetaData, hconverter, bind, Except.bind, deref_some,
    hserialize, pure, Except.pure]

/-- An event that goes out through one connector comes in through another one
unchanged, except that it carries the wire schema among its user infos. Each handler is
called with it, unless one before it throws. -/
theorem event_survives_transport (event : Event δ) {id : EventId} (hid : event.id = some id)
    (hstamped : event.metaData.Stamped) (sendNow : UInt64) (hnow : sendNow ≠ 0)
    (converter : Converter δ) (hundoes : converter.Undoes) (wireSchema wireData : Bytes)
    (hserialize : converter.serialize (event.type, event.content) = .ok (wireSchema, wireData))
    (out : ConnectorBase δ)
    (hout : out.converters.getConverter event.type = .ok (some converter))
    (inn : InPushConnector δ) (hactive : inn.active = true)
    (hin : inn.converters.getConverter wireSchema = .ok (some converter))
    (protobuf : Protobuf) (clock : Clock) (receiveNow : UInt64) :
    ∃ sent busEvent notification,
      OutConnector.handle out sendNow event = .ok (sent, busEvent) ∧
      busEvent.content = some wireData ∧
      busEvent.metaData.getUserInfo wireSchemaKey = .ok wireSchema ∧
      eventToNotification busEvent wireSchema wireData = .ok notification ∧
      (protobuf.RoundTrips notification →
        ∃ parsed received delivered,
          protobuf.parseFromString (protobuf.serializeToString notification) = some parsed ∧
          notificationToEvent clock parsed true = .ok received ∧
          inn.handle receiveNow received = callHandlers delivered inn.handlers ∧
          (∀ before handler after, inn.handlers = before ++ handler :: after →
            (∀ h ∈ before, h delivered = .ok ()) →
              inn.handle receiveNow received = do
                handler delivered
                callHandlers delivered after) ∧
          (inn.handle receiveNow received = .ok () ↔
            ∀ handler ∈ inn.handlers, handler delivered = .ok ()) ∧
          delivered.id = event.id ∧ delivered.scope = event.scope ∧
          delivered.method = event.method ∧ delivered.causes = event.causes ∧
          delivered.type = event.type ∧ delivered.content = event.content ∧
          delivered.metaData.createTime = event.metaData.createTime ∧
          delivered.metaData.sendTime = sent.metaData.sendTime ∧
          delivered.metaData.userTimes = event.metaData.userTimes ∧
          delivered.metaData.userInfos =
            event.metaData.userInfos.insert wireSchemaKey wireSchema) := by
  let sent := event.modifyMetaData (·.setSendTime sendNow 0)
  let busEvent := (sent.setData (some wireData)).modifyMetaData
    (·.setUserInfo wireSchemaKey wireSchema)
  have hsend : busEvent.metaData.sendTime ≠ 0 := hnow
  have hstamped' : busEvent.metaData.Stamped := ⟨hstamped.create, hstamped.user⟩
  obtain ⟨notification, hto, hfrom⟩ := notificationToEvent_eventToNotification clock busEvent hid
    hstamped' hsend wireSchema wireData
  refine ⟨sent, busEvent, notification, OutConnector.handle_eq hout hserialize, rfl,
    MetaData.getUserInfo_setUserInfo _ _ _, hto, fun hprotobuf => ?_⟩
  -- the bus event already holds the wire schema, so writing it again changes nothing
  let received := receivedEvent clock busEvent id wireSchema wireData
  have hschema : received.metaData.getUserInfo wireSchemaKey = .ok wireSchema := by
    simp [received, receivedEvent, MetaData.getUserInfo]
  have hinfos : received.metaData.userInfos =
      event.metaData.userInfos.insert wireSchemaKey wireSchema := by
    simp [received, receivedEvent, busEvent, sent, Event.modifyMetaData, MetaData.setUserInfo_eq,
      Event.setData, MetaData.setSendTime]
  let delivered := ((received.modifyMetaData (·.setReceiveTime receiveNow 0)).setData
    event.content).setType event.type
  have hdeserialize : inn.deserialize receiveNow received = .ok delivered :=
    (ConnectorBase.deserialize_ok_iff _ _ hschema rfl).mpr
      ⟨hactive, converter, _, hin, hundoes _ _ _ hserialize, rfl⟩
  have hhandle : inn.handle receiveNow received = callHandlers delivered inn.handlers := by
    rw [InPushConnector.handle, hdeserialize]
    rfl
  refine ⟨notification, received, delivered, hprotobuf, hfrom, hhandle, ?_, ?_, hid.symm, rfl, rfl,
    rfl, rfl, rfl, rfl, rfl, rfl, hinfos⟩
  · intro before handler after hhandlers hbefore
    rw [hhandle, hhandlers, callHandlers_append hbefore, callHandlers]
  · rw [hhandle, callHandlers_ok_iff]

/-- A request with one cause and one user time, created at time 1. -/
def sampleEvent : Event Bytes :=
  let sender : UUID := ⟨List.replicate 16 0, rfl⟩
  let event : Event Bytes := (Event.new 1).modifyMetaData (·.setUserTime (bytes "t") 1 9)
  let event := (event.setId sender 42).setScope (.ofComponents [bytes "a"] (by decide))
  (((event.setMethod (bytes "REQUEST")).addCause ⟨sender, 3⟩).setType stringType).setData
    (some (bytes "hi"))

/-- The notification sent for it at time 5. -/
def sampleNotification : Protocol.Notification where
  eventId := ⟨List.replicate 16 0, 42⟩
  scope := some (bytes "/a/")
  method := some (bytes "REQUEST")
  wireSchema := some utf8String
  data := some (bytes "hi")
  causes := [⟨List.replicate 16 0, 3⟩]
  metaData := some ⟨1, 5, [(bytes "t", 9)], [(wireSchemaKey, utf8String)]⟩

/-- What the generated functions do with that notification. -/
def sampleProtobuf : Protobuf where
  serializeToString _ :=
    [50, 3, 47, 97, 47, 58, 12, 117, 116, 102, 45, 56, 45, 115, 116, 114, 105, 110, 103, 74, 2,
      104, 105, 106, 20, 10, 16, 0, 0, 0, 0, 0, 0, 0, 0, 0, 0, 0, 0, 0, 0, 0, 0, 16, 3, 114, 7,
      82, 69, 81, 85, 69, 83, 84, 122, 44, 16, 1, 24, 5, 50, 5, 10, 1, 116, 16, 9, 58, 31, 10, 15,
      114, 115, 98, 46, 119, 105, 114, 101, 45, 115, 99, 104, 101, 109, 97, 18, 12, 117, 116, 102,
      45, 56, 45, 115, 116, 114, 105, 110, 103, 226, 6, 20, 10, 16, 0, 0, 0, 0, 0, 0, 0, 0, 0, 0,
      0, 0, 0, 0, 0, 0, 16, 42]
  parseFromString b := if b.length = 123 then some sampleNotification else none

/-- A handler that throws unless it gets the id and the payload of `sampleEvent`. -/
def sampleHandler : Handler Bytes := fun event =>
  if event.id = sampleEvent.id ∧ event.content = some (bytes "hi") then .ok ()
  else .error (.thrown ⟨.runtimeError, bytes "unexpected event"⟩)

theorem event_survives_transport_sample :
    ∃ received,
      notificationToEvent (fun _ => 7) sampleNotification true = .ok received ∧
      InPushConnector.handle
        ⟨⟨.predicateList [(fun _ => true, stringConverter)], true⟩, [sampleHandler]⟩ 8 received =
          .ok () := by
  let strategy : ConverterSelectionStrategy Bytes :=
    .unambiguousMap (SortedMap.empty.insert stringType stringConverter) []
  have hone : (1 : UInt64) ≠ 0 := by decide
  have hstamped := (MetaData.stamped_new hone).setUserTime hone (bytes "t") 9
  obtain ⟨sent, busEvent, notification, hhandle, -, -, hto, hreceive⟩ :=
    event_survives_transport sampleEvent rfl ⟨hstamped.create, hstamped.user⟩ 5 (by decide)
      stringConverter stringConverter_undoes utf8String (bytes "hi") rfl ⟨strategy, true⟩ rfl
      ⟨⟨.predicateList [(fun _ => true, stringConverter)], true⟩, [sampleHandler]⟩ rfl rfl
      sampleProtobuf (fun _ => 7) 8
  obtain rfl : notification = sampleNotification := by
    have hbus : busEvent = _ := (Prod.mk.inj (Except.ok.inj hhandle)).2.symm
    subst hbus
    exact (Except.ok.inj hto).symm
  obtain ⟨parsed, received, delivered, hparse, hevent, -, -, hreturns, hid, -, -, -, -, hcontent,
    -⟩ := hreceive (by rfl)
  obtain rfl : sampleNotification = parsed := Option.some.inj hparse
  refine ⟨received, hevent, hreturns.mpr fun handler hhandler => ?_⟩
  obtain rfl := List.mem_singleton.mp hhandler
  exact if_pos ⟨hid, hcontent⟩

end Transport.Socket

end Rsb
