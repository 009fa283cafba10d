import Rsb.Event

/-!
Events and notifications (`Serialization.cpp`, `Notification.proto`).

An optional field of a message is an `Option`; reading an absent one yields its
default. Required fields are always there, as the parser of the messages
rejects anything else. The creation and send times are unsigned in events and
signed on the wire.
-/

namespace Rsb.Transport.Socket

open Library

namespace Protocol

structure EventId where
  senderId : Bytes
  sequenceNumber : UInt32
  deriving DecidableEq

structure EventMetaData where
  createTime : Int64
  sendTime : Int64
  userTimes : List (Bytes × UInt64)
  userInfos : List (Bytes × Bytes)
  deriving DecidableEq

/-- What `meta_data()` answers when the field is absent. -/
def EventMetaData.default : EventMetaData := ⟨0, 0, [], []⟩

structure Notification where
  eventId : EventId
  scope : Option Bytes
  method : Option Bytes
  wireSchema : Option Bytes
  data : Option Bytes
  causes : List EventId
  metaData : Option EventMetaData
  deriving DecidableEq

/-- The generated functions: `SerializeToString`, and `ParseFromString`, which
fails on what is not a message with its required fields. -/
structure Protobuf where
  serializeToString : Notification → Bytes
  parseFromString : Bytes → Option Notification

/-- `n` is read back from what is written for it. -/
def Protobuf.RoundTrips (protobuf : Protobuf) (n : Notification) : Prop :=
  protobuf.parseFromString (protobuf.serializeToString n) = some n

end Protocol

open Protocol (Notification Protobuf)

/-- The user info that holds the wire schema. -/
def wireSchemaKey : Bytes := bytes "rsb.wire-schema"

/-- `EventId(UUID(sender_id().c_str()), sequence_number())`. -/
def toEventId (e : Protocol.EventId) : Except Fault EventId := do
  let participantId ← UUID.ofBuffer e.senderId
  return ⟨participantId, e.sequenceNumber⟩

theorem foldl_addCause {δ : Type} (ids : List EventId) (event : Event δ) :
    ids.foldl Event.addCause event =
      { event with causes := ids.foldl SortedSet.add event.causes } := by
  induction ids generalizing event with
  | nil => rfl
  | cons id ids ih => rw [List.foldl_cons, ih]; rfl

/-- The loop over the user times, from the `i`-th one on. -/
def setUserTimes (clock : Clock) : ℕ → List (Bytes × UInt64) → MetaData → MetaData
  | _, [], m => m
  | i, (key, timestamp) :: times, m =>
      setUserTimes clock (i + 1) times (m.setUserTime key (clock (.user i)) timestamp)

/-- The loop over the user infos. -/
def setUserInfos : List (Bytes × Bytes) → MetaData → MetaData
  | [], m => m
  | (key, value) :: infos, m => setUserInfos infos (m.setUserInfo key value)

/-- The loop over the causes. -/
def toEventIds : List Protocol.EventId → Except Fault (List EventId)
  | [] => .ok []
  | e :: es => do
      let id ← toEventId e
      let ids ← toEventIds es
      return id :: ids

def notificationToEvent (clock : Clock) (notification : Notification) (exposeWireSchema : Bool) :
    Except Fault (Event Bytes) := do
  let metaData := notification.metaData.getD .default
  let event : Event Bytes := (Event.new (clock .create)).modifyMetaData fun m =>
    ((m.setCreateTime (clock .create) metaData.createTime.toUInt64).setSendTime
      (clock .send) metaData.sendTime.toUInt64).setReceiveTime (clock .receive) 0
  let id ← toEventId notification.eventId
  let event := event.setId id.participantId id.sequenceNumber
  let scope ← Scope.parse (notification.scope.getD [])
  let event := event.setScope scope
  let event := notification.method.elim event event.setMethod
  let event := event.modifyMetaData (setUserInfos metaData.userInfos)
  let event := event.modifyMetaData (setUserTimes clock 0 metaData.userTimes)
  let causes ← toEventIds notification.causes
  let event := causes.foldl Event.addCause event
  let event : Event Bytes := event.setData (some (notification.data.getD []))
  return if exposeWireSchema then
    event.modifyMetaData
      (·.setUserInfo wireSchemaKey (notification.wireSchema.getD []))
  else event

def ofEventId (id : EventId) : Protocol.EventId := ⟨id.participantId.data, id.sequenceNumber⟩

def eventToNotification {δ : Type} (event : Event δ) (wireSchema data : Bytes) :
    Except Fault Notification := do
  let id ← event.getId
  return {
    eventId := ofEventId id
    scope := some event.scope.toString
    method := if event.method = [] then none else some event.method
    wireSchema := some wireSchema
    data := some data
    causes := event.causes.keys.map ofEventId
    metaData := some {
      createTime := event.metaData.createTime.toInt64
      sendTime := event.metaData.sendTime.toInt64
      userTimes := event.metaData.userTimes.entries
      userInfos := event.metaData.userInfos.entries } }

end Rsb.Transport.Socket
