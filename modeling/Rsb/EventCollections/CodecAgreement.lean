import Rsb.EventCollections.Notification

/-!
Two codecs for one message.

The socket transport and the converters for collections translate events to
notifications and back with functions of their own. Both write the same fields alike;
those for collections also write the receive and the deliver time. Both read the same
fields alike, where a time of 0 becomes what the clock says at that point.
-/

namespace Rsb.EventCollections

open Library Transport.Socket

variable {δ : Type}

/-- The fields of a notification that the socket transport knows. -/
def Notification.toSocket (n : Notification) : Protocol.Notification where
  eventId := n.eventId
  scope := n.scope
  method := n.method
  wireSchema := n.wireSchema
  data := n.data
  causes := n.causes
  metaData := n.metaData.map (·.toEventMetaData)

/-! ### Writing -/

/-- An event with an id is written to the same fields by both. -/
theorem fillNotification_toSocket (event : Event δ) {id : EventId} (hid : event.id = some id)
    (wireSchema data : Bytes) :
    ∃ n, fillNotificationId .new event = .ok n ∧
      eventToNotification event wireSchema data =
        .ok ({ fillNotificationHeader n event wireSchema with data := some data } :
          Notification).toSocket := by
  have hgetId : event.getId = .ok id := by rw [Event.getId, hid]
  refine ⟨{ Notification.new with eventId := ofEventId id }, ?_, ?_⟩
  · rw [fillNotificationId, hgetId]
    rfl
  · rw [eventToNotification, hgetId]
    rfl

/-! ### Reading -/

/-- A time of 0 is what either clock says, any other time is itself. -/
def SameTime (time now₁ now₂ time₁ time₂ : UInt64) : Prop :=
  if time = 0 then time₁ = now₁ ∧ time₂ = now₂ else time₁ = time ∧ time₂ = time

theorem sameTime_checkedTimeStampSet (time now₁ now₂ : UInt64) :
    SameTime time now₁ now₂ (MetaData.checkedTimeStampSet now₁ time)
      (MetaData.checkedTimeStampSet now₂ time) := by
  simp only [SameTime, MetaData.checkedTimeStampSet]
  split
  · exact ⟨rfl, rfl⟩
  · exact ⟨rfl, rfl⟩

/-- The user times have the same keys; under each of them the times are the same or the
one of a list entry of time 0. -/
def SameUserTimes (times : List (Bytes × UInt64)) (clock₁ clock₂ : Clock)
    (times₁ times₂ : SortedMap Bytes UInt64) : Prop :=
  ∀ key, (times₁.find? key = none ∧ times₂.find? key = none) ∨
    ∃ i time time₁ time₂, times[i]? = some (key, time) ∧ times₁.find? key = some time₁ ∧
      times₂.find? key = some time₂ ∧
      SameTime time (clock₁ (.user i)) (clock₂ (.user i)) time₁ time₂

/-- One round of the loop over the user times sets one key in both. -/
theorem SameUserTimes.setUserTime {times : List (Bytes × UInt64)} {clock₁ clock₂ : Clock}
    {m₁ m₂ : MetaData} (h : SameUserTimes times clock₁ clock₂ m₁.userTimes m₂.userTimes) {i : ℕ}
    {key : Bytes} {time : UInt64} (hi : times[i]? = some (key, time)) :
    SameUserTimes times clock₁ clock₂ (m₁.setUserTime key (clock₁ (.user i)) time).userTimes
      (m₂.setUserTime key (clock₂ (.user i)) time).userTimes := by
  intro k
  simp only [MetaData.setUserTime, SortedMap.find?_insert, SortedMap.find?_erase]
  by_cases hk : k = key
  · subst hk
    simp only [if_true]
    exact .inr ⟨i, time, _, _, hi, rfl, rfl, sameTime_checkedTimeStampSet time _ _⟩
  · simp only [if_neg hk]
    exact h k

theorem SameUserTimes.loop {times : List (Bytes × UInt64)} {clock₁ clock₂ : Clock}
    {done rest : List (Bytes × UInt64)} (htimes : times = done ++ rest) {m₁ m₂ : MetaData}
    (h : SameUserTimes times clock₁ clock₂ m₁.userTimes m₂.userTimes) :
    SameUserTimes times clock₁ clock₂
      (setUserTimes clock₁ done.length rest m₁).userTimes
      (setUserTimes clock₂ done.length rest m₂).userTimes := by
  induction rest generalizing done m₁ m₂ with
  | nil => exact h
  | cons entry rest ih =>
      obtain ⟨key, time⟩ := entry
      have hi : times[done.length]? = some (key, time) := by
        rw [htimes, List.getElem?_append_right le_rfl, Nat.sub_self, List.getElem?_cons_zero]
      have hsplit : times = (done ++ [(key, time)]) ++ rest := by simp [htimes]
      have hrest := ih hsplit (h.setUserTime hi)
      simpa [setUserTimes] using hrest

/-- What an event gets from a notification whose ids and scope can be read. -/
structure ReadFrom {δ : Type} (n : Notification) (clock : Clock) (id : EventId) (scope : Scope)
    (causes : List EventId) (e : Event δ) : Prop where
  id : e.id = some id
  scope : e.scope = scope
  method : e.method = n.method.getD []
  createTime : e.metaData.createTime = MetaData.checkedTimeStampSet (clock .create)
    (n.metaData.getD .default).createTime.toUInt64
  sendTime : e.metaData.sendTime = MetaData.checkedTimeStampSet (clock .send)
    (n.metaData.getD .default).sendTime.toUInt64
  userInfos : e.metaData.userInfos =
    (n.metaData.getD .default).userInfos.foldl (fun l i => l.insert i.1 i.2) .empty
  /-- The loop starts without user times. -/
  userTimes : ∃ m : MetaData, m.userTimes = .empty ∧
    e.metaData.userTimes = (setUserTimes clock 0 (n.metaData.getD .default).userTimes m).userTimes
  causes : e.causes = causes.foldl SortedSet.add .empty

theorem getD_toEventMetaData (m : Option EventMetaData) :
    (m.map (·.toEventMetaData)).getD .default = (m.getD .default).toEventMetaData := by
  cases m <;> rfl

theorem createTime_setUserTimes (clock : Clock) (i : ℕ) (times : List (Bytes × UInt64))
    (m : MetaData) : (setUserTimes clock i times m).createTime = m.createTime := by
  rw [setUserTimes_frame]

theorem sendTime_setUserTimes (clock : Clock) (i : ℕ) (times : List (Bytes × UInt64))
    (m : MetaData) : (setUserTimes clock i times m).sendTime = m.sendTime := by
  rw [setUserTimes_frame]

theorem userInfos_setUserTimes (clock : Clock) (i : ℕ) (times : List (Bytes × UInt64))
    (m : MetaData) : (setUserTimes clock i times m).userInfos = m.userInfos := by
  rw [setUserTimes_frame]

theorem elim_setMethod (event : Event δ) (h : event.method = []) (method : Option Bytes) :
    method.elim event event.setMethod = event.setMethod (method.getD []) := by
  cases method with
  | none =>
      rw [Option.elim_none, Option.getD_none, Event.setMethod, ← h]
  | some method => rfl

section

variable {n : Notification} {id : EventId} {scope : Scope} {causes : List EventId}

theorem fillEvent_reads (hid : toEventId n.eventId = .ok id)
    (hscope : Scope.parse (n.scope.getD []) = .ok scope) (hcauses : toEventIds n.causes = .ok causes)
    (r : Readings) (now : UInt64) (data : Option δ) (dataType : Bytes) :
    ∃ e, fillEvent r (.new now) n data dataType = .ok e ∧
      ReadFrom n r.clock id scope causes e := by
  simp only [fillEvent, hid, hscope, hcauses, bind, Except.bind, pure, Except.pure,
    foldl_addCause]
  rw [elim_setMethod _ rfl]
  refine ⟨_, rfl, ?_⟩
  simp only [Event.setData, Event.setType, Event.modifyMetaData, Event.setMethod, Event.setScope,
    Event.setId, Event.new, setUserInfos_eq]
  constructor
  case id => rfl
  case scope => rfl
  case method => rfl
  case createTime => exact createTime_setUserTimes _ _ _ _
  case sendTime => exact sendTime_setUserTimes _ _ _ _
  case userInfos => exact userInfos_setUserTimes _ _ _ _
  case userTimes => exact ⟨_, rfl, rfl⟩
  case causes => rfl

theorem notificationToEvent_reads (hid : toEventId n.eventId = .ok id)
    (hscope : Scope.parse (n.scope.getD []) = .ok scope) (hcauses : toEventIds n.causes = .ok causes)
    (clock : Clock) :
    ∃ e, notificationToEvent clock n.toSocket false = .ok e ∧
      ReadFrom n clock id scope causes e := by
  simp only [notificationToEvent, Notification.toSocket, getD_toEventMetaData, hid, hscope, hcauses,
    bind, Except.bind, pure, Except.pure, foldl_addCause]
  rw [elim_setMethod _ rfl]
  refine ⟨_, rfl, ?_⟩
  simp only [Event.setData, Event.modifyMetaData, Event.setMethod, Event.setScope, Event.setId,
    Event.new, setUserInfos_eq]
  constructor
  case id => rfl
  case scope => rfl
  case method => rfl
  case createTime => exact createTime_setUserTimes _ _ _ _
  case sendTime => exact sendTime_setUserTimes _ _ _ _
  case userInfos => exact userInfos_setUserTimes _ _ _ _
  case userTimes => exact ⟨_, rfl, rfl⟩
  case causes => rfl

end

/-- The events agree up to their payload and the receive and deliver times. -/
structure Agree {δ₁ δ₂ : Type} (n : Notification) (clock₁ clock₂ : Clock) (e₁ : Event δ₁)
    (e₂ : Event δ₂) : Prop where
  id : e₁.id = e₂.id
  scope : e₁.scope = e₂.scope
  method : e₁.method = e₂.method
  createTime : SameTime (n.metaData.getD .default).createTime.toUInt64 (clock₁ .create)
    (clock₂ .create) e₁.metaData.createTime e₂.metaData.createTime
  sendTime : SameTime (n.metaData.getD .default).sendTime.toUInt64 (clock₁ .send) (clock₂ .send)
    e₁.metaData.sendTime e₂.metaData.sendTime
  userInfos : e₁.metaData.userInfos = e₂.metaData.userInfos
  userTimes : SameUserTimes (n.metaData.getD .default).userTimes clock₁ clock₂
    e₁.metaData.userTimes e₂.metaData.userTimes
  causes : e₁.causes = e₂.causes

theorem ReadFrom.agree {δ₁ δ₂ : Type} {n : Notification} {clock₁ clock₂ : Clock} {id : EventId}
    {scope : Scope} {causes : List EventId} {e₁ : Event δ₁} {e₂ : Event δ₂}
    (h₁ : ReadFrom n clock₁ id scope causes e₁) (h₂ : ReadFrom n clock₂ id scope causes e₂) :
    Agree n clock₁ clock₂ e₁ e₂ where
  id := h₁.id.trans h₂.id.symm
  scope := h₁.scope.trans h₂.scope.symm
  method := h₁.method.trans h₂.method.symm
  createTime := by
    rw [h₁.createTime, h₂.createTime]
    exact sameTime_checkedTimeStampSet _ _ _
  sendTime := by
    rw [h₁.sendTime, h₂.sendTime]
    exact sameTime_checkedTimeStampSet _ _ _
  userInfos := h₁.userInfos.trans h₂.userInfos.symm
  userTimes := by
    obtain ⟨m₁, hempty₁, htimes₁⟩ := h₁.userTimes
    obtain ⟨m₂, hempty₂, htimes₂⟩ := h₂.userTimes
    rw [htimes₁, htimes₂]
    have hstart : SameUserTimes (n.metaData.getD .default).userTimes clock₁ clock₂ m₁.userTimes
        m₂.userTimes := by
      intro key
      rw [hempty₁, hempty₂]
      exact .inl ⟨rfl, rfl⟩
    have hsplit : (n.metaData.getD .default).userTimes =
        [] ++ (n.metaData.getD .default).userTimes := rfl
    exact SameUserTimes.loop hsplit hstart
  causes := h₁.causes.trans h₂.causes.symm

theorem exists_toEventId {e : Protocol.EventId} (h : e.senderId.length = 16) :
    ∃ id, toEventId e = .ok id := by
  have hofBuffer := UUID.ofBuffer_data ⟨e.senderId, h⟩
  rw [toEventId, hofBuffer]
  exact ⟨_, rfl⟩

theorem exists_toEventIds {es : List Protocol.EventId} (h : ∀ e ∈ es, e.senderId.length = 16) :
    ∃ ids, toEventIds es = .ok ids := by
  induction es with
  | nil => exact ⟨[], rfl⟩
  | cons e es ih =>
      obtain ⟨he, hes⟩ := List.forall_mem_cons.mp h
      obtain ⟨id, hid⟩ := exists_toEventId he
      obtain ⟨ids, hids⟩ := ih hes
      rw [toEventIds, hid, hids]
      exact ⟨id :: ids, rfl⟩

/-- All the sender ids of the notification have sixteen bytes, and its scope is one. -/
structure Notification.Readable (n : Notification) : Prop where
  sender : n.eventId.senderId.length = 16
  causes : ∀ c ∈ n.causes, c.senderId.length = 16
  scope : ∃ scope, Scope.parse (n.scope.getD []) = .ok scope

/-- The two codecs write an event to the same fields and read a notification to events
that agree. -/
theorem codecs_agree :
    (∀ (event : Event δ) (id : EventId), event.id = some id → ∀ wireSchema data : Bytes,
      ∃ n, fillNotificationId .new event = .ok n ∧
        eventToNotification event wireSchema data =
          .ok ({ fillNotificationHeader n event wireSchema with data := some data } :
            Notification).toSocket) ∧
    ∀ n : Notification, n.Readable → ∀ (r : Readings) (clock : Clock) (now : UInt64)
      (data : Option δ) (dataType : Bytes),
      ∃ e₁ e₂, fillEvent r (.new now) n data dataType = .ok e₁ ∧
        notificationToEvent clock n.toSocket false = .ok e₂ ∧ Agree n r.clock clock e₁ e₂ := by
  refine ⟨?_, ?_⟩
  · intro event id hid wireSchema data
    exact fillNotification_toSocket event hid wireSchema data
  · intro n hn r clock now data dataType
    obtain ⟨id, hid⟩ := exists_toEventId hn.sender
    obtain ⟨causes, hcauses⟩ := exists_toEventIds hn.causes
    obtain ⟨scope, hscope⟩ := hn.scope
    obtain ⟨e₁, he₁, hreads₁⟩ := fillEvent_reads hid hscope hcauses r now data dataType
    obtain ⟨e₂, he₂, hreads₂⟩ := notificationToEvent_reads hid hscope hcauses clock
    exact ⟨e₁, e₂, he₁, he₂, hreads₁.agree hreads₂⟩

/-- A notification with a user time of 0. -/
def sampleHeader : Notification where
  eventId := ⟨List.replicate 16 0, 42⟩
  scope := some (bytes "/a/")
  method := none
  wireSchema := none
  data := none
  causes := [⟨List.replicate 16 0, 3⟩]
  metaData := some ⟨⟨1, 2, [(bytes "t", 0)], []⟩, 3, 4⟩

theorem readable_sampleHeader : sampleHeader.Readable where
  sender := rfl
  causes := by
    intro c hc
    obtain rfl := List.mem_singleton.mp hc
    rfl
  scope := ⟨_, Scope.parse_toString (.ofComponents [bytes "a"] (by decide))⟩

theorem codecs_agree_sample :
    (∃ n, fillNotificationId .new sampleEvent = .ok n ∧
      eventToNotification sampleEvent (bytes "utf-8-string") [104, 105] =
        .ok ({ fillNotificationHeader n sampleEvent (bytes "utf-8-string") with
          data := some [104, 105] } : Notification).toSocket) ∧
    ∃ e₁ e₂, fillEvent ⟨fun _ => 7, 8⟩ (.new 1) sampleHeader (some ()) [] = .ok e₁ ∧
      notificationToEvent (fun _ => 9) sampleHeader.toSocket false = .ok e₂ ∧
      Agree sampleHeader (fun _ => 7) (fun _ => 9) e₁ e₂ :=
  ⟨codecs_agree.1 sampleEvent _ rfl _ _,
    codecs_agree.2 sampleHeader readable_sampleHeader ⟨fun _ => 7, 8⟩ _ _ _ _⟩

end Rsb.EventCollections
