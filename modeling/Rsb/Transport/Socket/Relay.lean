import Rsb.Transport.Socket.Framing
import Rsb.Transport.Socket.RoundTrip

/-!
What a notification looks like after the server has passed it on.

The server does not pass on the bytes it has received: `BusServerImpl::handleIncoming`
encodes the event again that `notificationToEvent` has made of them. Decoding
fills in what a notification may lack, so the first decoding can change a
notification; `Normal` says what an event is like after that, and such an event
survives encoding and decoding as it is.
-/

namespace Rsb.Transport.Socket

open Library Protocol

/-- What `notificationToEvent` sees to, whatever the notification is like. -/
structure Normal (e : Event Bytes) (eventId : EventId) (wireSchema data : Bytes) : Prop where
  id : e.id = some eventId
  senderId : e.metaData.senderId = some eventId.participantId
  type : e.type = []
  content : e.content = some data
  stamped : e.metaData.Stamped
  sendTime : e.metaData.sendTime ≠ 0
  deliverTime : e.metaData.deliverTime = 0
  wireSchema : e.metaData.userInfos.find? wireSchemaKey = some wireSchema

/-! ### Decoding -/

section

variable {clock : Clock} (hclock : ∀ field, clock field ≠ 0)

include hclock

/-- The user infos, the user times and the wire schema are written last. -/
theorem metaData_notificationToEvent {n : Notification} {e : Event Bytes}
    (h : notificationToEvent clock n true = .ok e) :
    ∃ id, e.id = some id ∧ e.type = [] ∧ e.content = some (n.data.getD []) ∧
      ∃ m : MetaData, m.senderId = some id.participantId ∧ m.deliverTime = 0 ∧ m.sendTime ≠ 0 ∧
        m.Stamped ∧
        e.metaData = (setUserTimes clock 0 (n.metaData.getD .default).userTimes
          (setUserInfos (n.metaData.getD .default).userInfos m)).setUserInfo wireSchemaKey
            (n.wireSchema.getD []) := by
  simp only [notificationToEvent, bind_eq_ok_iff] at h
  obtain ⟨id, -, scope, -, causes, -, heq⟩ := h
  obtain rfl := Except.ok.inj heq
  let times := n.metaData.getD .default
  let m := (((MetaData.new (clock .create)).setCreateTime (clock .create)
    times.createTime.toUInt64).setSendTime (clock .send) times.sendTime.toUInt64).setReceiveTime
      (clock .receive) 0
  have hstamped := (MetaData.stamped_new (hclock .create)).setCreateTime (hclock .create)
    times.createTime.toUInt64
  rw [foldl_addCause]
  refine ⟨id, ?_, ?_, rfl, { m with senderId := some id.participantId }, rfl, rfl,
    MetaData.checkedTimeStampSet_ne_zero (hclock .send) times.sendTime.toUInt64,
    ⟨hstamped.create, hstamped.user⟩, ?_⟩
  all_goals
    cases n.method <;> rfl

theorem normal_notificationToEvent {n : Notification} {e : Event Bytes}
    (h : notificationToEvent clock n true = .ok e) :
    ∃ id, Normal e id (n.wireSchema.getD []) (n.data.getD []) := by
  obtain ⟨id, hid, htype, hcontent, m, hsender, hdeliver, hsend, hm, hmeta⟩ :=
    metaData_notificationToEvent hclock h
  have hinfos : (setUserInfos (n.metaData.getD .default).userInfos m).Stamped := by
    rw [setUserInfos_eq]
    exact ⟨hm.create, hm.user⟩
  have htimes := stamped_setUserTimes hclock hinfos 0 (n.metaData.getD .default).userTimes
  rw [setUserTimes_frame, setUserInfos_eq] at hmeta
  refine ⟨id, hid, ?_, htype, hcontent, ?_, ?_, ?_, ?_⟩
  · rw [hmeta]
    exact hsender
  · rw [hmeta]
    exact ⟨hm.create, setUserInfos_eq _ m ▸ htimes.user⟩
  · rw [hmeta]
    exact hsend
  · rw [hmeta]
    exact hdeliver
  · simp [hmeta, MetaData.setUserInfo_eq]

end

/-! ### Passing on -/

/-- The event that is decoded from the encoding of a normal event. -/
theorem Normal.receivedEvent_eq {e : Event Bytes} {id : EventId} {wireSchema data : Bytes}
    (h : Normal e id wireSchema data) (clock : Clock) :
    receivedEvent clock e id wireSchema data =
      e.modifyMetaData (·.setReceiveTime (clock .receive) 0) := by
  obtain ⟨eid, scope, content, type, method, causes, senderId, createTime, sendTime, receiveTime,
    deliverTime, userTimes, userInfos⟩ := e
  obtain ⟨hid, hsender, htype, hcontent, -, -, hdeliver, hschema⟩ := h
  have hinfos : userInfos.insert wireSchemaKey wireSchema = userInfos :=
    SortedMap.insert_eq_self_iff.mpr hschema
  simp only at hid hsender htype hcontent hdeliver
  simp [receivedEvent, Event.modifyMetaData, MetaData.setReceiveTime, hid, hsender, htype,
    hcontent, hdeliver, hinfos]

/-- What the server's connectors see of a notification is what the connectors of
the other clients see of the notification whose frame the server writes to them, up to the
time at which it is received. -/
theorem relay_transparent (clock : Clock) (hclock : ∀ field, clock field ≠ 0) (n : Notification)
    (hn : n.WellFormed) :
    ∃ e relayed, notificationToEvent clock n true = .ok e ∧
      (∀ (protobuf : Protobuf) (connection : BusConnection),
        let message := protobuf.serializeToString relayed
        let sent := do
          let wireSchema ← e.metaData.getUserInfo wireSchemaKey
          connection.sendEvent protobuf e wireSchema
        sent = connection.sendMessage message ∧ (connection.Healthy →
          sent = .ok { connection with written := connection.written ++ frame message })) ∧
      ∀ clock' : Clock, notificationToEvent clock' relayed true =
        .ok (e.modifyMetaData (·.setReceiveTime (clock' .receive) 0)) := by
  obtain ⟨e, he⟩ := (notificationToEvent_ok_iff clock n).mpr hn
  obtain ⟨id, hnormal⟩ := normal_notificationToEvent hclock he
  have hround := fun clock' : Clock => notificationToEvent_eventToNotification clock' e hnormal.id
    hnormal.stamped hnormal.sendTime (n.wireSchema.getD []) (n.data.getD [])
  obtain ⟨relayed, hto, -⟩ := hround clock
  refine ⟨e, relayed, he, fun protobuf connection => ?_, fun clock' => ?_⟩
  · have hsent : (do
        let wireSchema ← e.metaData.getUserInfo wireSchemaKey
        connection.sendEvent protobuf e wireSchema) =
          connection.sendMessage (protobuf.serializeToString relayed) := by
      simp only [MetaData.getUserInfo, hnormal.wireSchema, BusConnection.sendEvent,
        hnormal.content, hto, deref_some, bind, Except.bind]
    exact ⟨hsent, fun hhealthy => hsent.trans (hhealthy.sendMessage _)⟩
  · obtain ⟨relayed', hto', hfrom⟩ := hround clock'
    obtain rfl : relayed = relayed' := Except.ok.inj (hto.symm.trans hto')
    rw [hfrom, hnormal.receivedEvent_eq]

/-- A notification as this encoder would not write it: times that are not set, a
user info given twice, and the wire schema among the user infos. -/
def foreignNotification : Notification where
  eventId := ⟨List.replicate 16 0, 1⟩
  scope := some (bytes "/a")
  method := some []
  wireSchema := none
  data := none
  causes := []
  metaData := some ⟨0, 0, [(bytes "t", 0)],
    [(bytes "k", bytes "1"), (wireSchemaKey, bytes "x"), (bytes "k", bytes "2")]⟩

/-- The server reads it at time 7 and the client at time 9. -/
theorem relay_transparent_foreignNotification :
    ∃ e relayed received sent, notificationToEvent (fun _ => 7) foreignNotification true = .ok e ∧
      BusConnection.sendEvent ⟨fun _ => [1, 2], fun _ => some relayed⟩
        ⟨true, false, false, false, [], []⟩ e [] = .ok sent ∧
      sent.written = [2, 0, 0, 0, 1, 2] ∧
      notificationToEvent (fun _ => 9) relayed true = .ok received ∧
      received.metaData.createTime = 7 ∧ received.metaData.receiveTime = 9 ∧
      received.metaData.userInfos = e.metaData.userInfos ∧
      received.metaData.userTimes.find? (bytes "t") = some 7 := by
  obtain ⟨e, relayed, he, hsent, hreceived⟩ := relay_transparent (fun _ => 7)
    (fun _ => by decide) foreignNotification ⟨by decide, by simp [foreignNotification], _, rfl⟩
  have hwritten := (hsent ⟨fun _ => [1, 2], fun _ => some relayed⟩
    ⟨true, false, false, false, [], []⟩).2 ⟨rfl, rfl, rfl⟩
  have hframe : frame [1, 2] = [2, 0, 0, 0, 1, 2] := by decide
  obtain rfl := Except.ok.inj he
  exact ⟨_, relayed, _, _, rfl, hwritten, hframe, hreceived fun _ => 9, rfl, rfl, rfl, rfl⟩

end Rsb.Transport.Socket
