import Rsb.Transport.Socket.RoundTrip

/-!
Headers of notifications (`protocol/Notification.cpp`).

Converters for collections of events turn the header of an event into a
notification and back with functions of their own. Other than those of the socket
transport they carry the receive and the deliver time. Reading a header calls the
setters of the meta data, which take a time of 0 for the current one, and `setId`,
which makes the participant of the id the sender.
-/

namespace Rsb.EventCollections

open Library Transport.Socket

variable {δ : Type}

structure EventMetaData extends Protocol.EventMetaData where
  receiveTime : Int64
  deliverTime : Int64

def EventMetaData.default : EventMetaData := ⟨.default, 0, 0⟩

structure Notification where
  eventId : Protocol.EventId
  scope : Option Bytes
  method : Option Bytes
  wireSchema : Option Bytes
  data : Option Bytes
  causes : List Protocol.EventId
  metaData : Option EventMetaData

/-- A message that has just been added. -/
def Notification.new : Notification := ⟨⟨[], 0⟩, none, none, none, none, [], none⟩

def fillNotificationId (notification : Notification) (event : Event δ) :
    Except Fault Notification := do
  let id ← event.getId
  return { notification with eventId := ofEventId id }

def fillNotificationHeader (notification : Notification) (event : Event δ)
    (wireSchema : Bytes) : Notification :=
  let metaData := notification.metaData.getD .default
  { notification with
    wireSchema := some wireSchema
    scope := some event.scope.toString
    method := if event.method = [] then notification.method else some event.method
    metaData := some {
      createTime := event.metaData.createTime.toInt64
      sendTime := event.metaData.sendTime.toInt64
      receiveTime := event.metaData.receiveTime.toInt64
      deliverTime := event.metaData.deliverTime.toInt64
      userInfos := metaData.userInfos ++ event.metaData.userInfos.entries
      userTimes := metaData.userTimes ++ event.metaData.userTimes.entries }
    causes := notification.causes ++ event.causes.keys.map ofEventId }

/-- The readings of the clock while one event is filled. -/
structure Readings where
  clock : Clock
  deliver : UInt64

/-- The clock is past its epoch. -/
structure Readings.Running (r : Readings) : Prop where
  clock : ∀ field, r.clock field ≠ 0
  deliver : r.deliver ≠ 0

def fillEvent (r : Readings) (event : Event δ) (notification : Notification) (data : Option δ)
    (dataType : Bytes) : Except Fault (Event δ) := do
  let metaData := notification.metaData.getD .default
  let event := event.modifyMetaData fun m =>
    (((m.setCreateTime (r.clock .create) metaData.createTime.toUInt64).setSendTime
      (r.clock .send) metaData.sendTime.toUInt64).setReceiveTime
      (r.clock .receive) metaData.receiveTime.toUInt64).setDeliverTime
      r.deliver metaData.deliverTime.toUInt64
  let id ← toEventId notification.eventId
  let event := event.setId id.participantId id.sequenceNumber
  let scope ← Scope.parse (notification.scope.getD [])
  let event := event.setScope scope
  let event := notification.method.elim event event.setMethod
  let event := event.modifyMetaData (setUserInfos metaData.userInfos)
  let event := event.modifyMetaData (setUserTimes r.clock 0 metaData.userTimes)
  let causes ← toEventIds notification.causes
  let event := causes.foldl Event.addCause event
  return (event.setType dataType).setData data

/-! ### What a header keeps -/

/-- The meta data read from the header of `e`, before the user times. -/
def headerMetaData (r : Readings) (e : Event δ) : MetaData where
  senderId := e.id.map (·.participantId)
  createTime := MetaData.checkedTimeStampSet (r.clock .create) e.metaData.createTime
  sendTime := MetaData.checkedTimeStampSet (r.clock .send) e.metaData.sendTime
  receiveTime := MetaData.checkedTimeStampSet (r.clock .receive) e.metaData.receiveTime
  deliverTime := MetaData.checkedTimeStampSet r.deliver e.metaData.deliverTime
  userTimes := .empty
  userInfos := e.metaData.userInfos

/-- An event after the way through a header. -/
def restored (r : Readings) (e : Event δ) : Event δ :=
  { e with metaData := setUserTimes r.clock 0 e.metaData.userTimes.entries (headerMetaData r e) }

/-- All times are set, and the sender is the participant of the id. -/
structure Settled (e : Event δ) : Prop where
  sender : e.metaData.senderId = e.id.map (·.participantId)
  create : e.metaData.createTime ≠ 0
  send : e.metaData.sendTime ≠ 0
  receive : e.metaData.receiveTime ≠ 0
  deliver : e.metaData.deliverTime ≠ 0
  user : ∀ key time, e.metaData.userTimes.find? key = some time → time ≠ 0

theorem fillEvent_fillNotificationHeader (r : Readings) (e : Event δ) {id : EventId}
    (hid : e.id = some id) (now : UInt64) (scope : Scope) (dataType : Bytes) (data : Option δ)
    (wireSchema wire : Bytes) :
    ∃ n, fillNotificationId .new e = .ok n ∧
      fillEvent r ((((Event.new now : Event δ).setScope scope).setType dataType).setData data)
          { fillNotificationHeader n e wireSchema with data := some wire } e.content e.type =
        .ok (restored r e) := by
  have hgetId : e.getId = .ok id := by rw [Event.getId, hid]
  have hsender : toEventId (ofEventId id) = .ok id := by
    rw [toEventId, ofEventId, UUID.ofBuffer_data]
    rfl
  have hmethod : ∀ e' : Event δ, e'.method = [] →
      (if e.method = [] then none else some e.method).elim e' e'.setMethod =
        e'.setMethod e.method := by
    intro e' he'
    by_cases hm : e.method = []
    · rw [if_pos hm, Option.elim_none, Event.setMethod, hm, ← he']
    · rw [if_neg hm, Option.elim_some]
  refine ⟨_, by rw [fillNotificationId, hgetId]; rfl, ?_⟩
  simp only [fillEvent, fillNotificationHeader, Notification.new, Option.getD_some,
    Option.getD_none, hsender, Scope.parse_toString, List.nil_append, toEventIds_map_ofEventId,
    bind, Except.bind, pure, Except.pure, EventMetaData.default, Protocol.EventMetaData.default]
  rw [hmethod _ rfl, foldl_addCause]
  apply congrArg Except.ok
  simp only [Event.modifyMetaData, Event.setData, Event.setType, Event.setMethod, Event.setScope,
    Event.setId, Event.new, MetaData.new, MetaData.setCreateTime, MetaData.setSendTime,
    MetaData.setReceiveTime, MetaData.setDeliverTime, UInt64.toUInt64_toInt64, setUserInfos_eq,
    foldl_insert_entries, foldl_add_keys, restored, headerMetaData, hid, Option.map_some]

/-- The loop over the user times leaves an event settled whose other times are set. -/
theorem settled_setUserTimes {r : Readings} (hr : r.Running) {m : MetaData}
    (hempty : m.userTimes = .empty) (hcreate : m.createTime ≠ 0) (hsend : m.sendTime ≠ 0)
    (hreceive : m.receiveTime ≠ 0) (hdeliver : m.deliverTime ≠ 0) {e : Event δ}
    {times : List (Bytes × UInt64)} (hmeta : e.metaData = setUserTimes r.clock 0 times m)
    (hsender : m.senderId = e.id.map (·.participantId)) : Settled e := by
  have hm : m.Stamped := ⟨hcreate, fun key time h => by simp [hempty] at h⟩
  have hstamped := stamped_setUserTimes hr.clock hm 0 times
  rw [← hmeta] at hstamped
  rw [setUserTimes_frame] at hmeta
  refine ⟨?_, hstamped.create, ?_, ?_, ?_, hstamped.user⟩
  · rw [hmeta]; exact hsender
  · rw [hmeta]; exact hsend
  · rw [hmeta]; exact hreceive
  · rw [hmeta]; exact hdeliver

theorem settled_restored {r : Readings} (hr : r.Running) (e : Event δ) :
    Settled (restored r e) := by
  refine settled_setUserTimes hr (m := headerMetaData r e) rfl ?_ ?_ ?_ ?_ rfl rfl
  · exact MetaData.checkedTimeStampSet_ne_zero (hr.clock _) _
  · exact MetaData.checkedTimeStampSet_ne_zero (hr.clock _) _
  · exact MetaData.checkedTimeStampSet_ne_zero (hr.clock _) _
  · exact MetaData.checkedTimeStampSet_ne_zero hr.deliver _

theorem restored_of_settled (r : Readings) {e : Event δ} (h : Settled e) : restored r e = e := by
  have htimes : ∀ entry ∈ e.metaData.userTimes.entries, entry.2 ≠ 0 := fun entry hentry =>
    h.user entry.1 entry.2 (SortedMap.find?_eq_some_iff.mpr hentry)
  rw [restored, headerMetaData, setUserTimes_eq r.clock htimes, foldl_insert_entries,
    MetaData.checkedTimeStampSet_of_ne_zero _ h.create,
    MetaData.checkedTimeStampSet_of_ne_zero _ h.send,
    MetaData.checkedTimeStampSet_of_ne_zero _ h.receive,
    MetaData.checkedTimeStampSet_of_ne_zero _ h.deliver, ← h.sender]

end Rsb.EventCollections
