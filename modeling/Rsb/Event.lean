import Rsb.Scope
import Rsb.Library.SortedMap
import Mathlib.Data.Prod.Lex

/-!
Events and what they carry (`EventId.cpp`, `MetaData.cpp`, `Event.cpp`).

The payload of an event is a `shared_ptr<void>`, so the event is generic in the
type its data points to, and the pointer may be null. The clock is not part of
any object: a setter that falls back to the current time is given the reading.
-/

namespace Rsb

open Library

/-! ### Ids -/

/-- `rsc::misc::UUID`: sixteen bytes, compared from the first on. -/
structure UUID where
  data : Bytes
  size_eq : data.length = 16

namespace UUID

theorem data_injective : Function.Injective data := by
  rintro ⟨a, ha⟩ ⟨b, hb⟩ h
  obtain rfl : a = b := h
  rfl

instance : LinearOrder UUID := LinearOrder.lift' data data_injective

/-- `UUID(boost::uint8_t* data)` applied to the buffer of a string: sixteen
bytes are read whatever the length of the string, the terminator not counted as one of
its own. -/
def ofBuffer (s : Bytes) : Except Fault UUID :=
  if h : 16 ≤ s.length then .ok ⟨s.take 16, by simpa using h⟩ else .error .readPastEnd

theorem ofBuffer_data (u : UUID) : ofBuffer u.data = .ok u := by
  have hle : 16 ≤ u.data.length := u.size_eq.ge
  rw [ofBuffer, dif_pos hle]
  exact congrArg _ (data_injective (List.take_of_length_le u.size_eq.le))

end UUID

structure EventId where
  participantId : UUID
  sequenceNumber : UInt32

namespace EventId

/-- `operator<`: sequence numbers first, then participants. -/
def less (a b : EventId) : Bool :=
  if a.sequenceNumber < b.sequenceNumber then true
  else if a.sequenceNumber > b.sequenceNumber then false
  else a.participantId < b.participantId

/-- The pair whose lexicographic order `operator<` is. -/
def sortKey (e : EventId) : UInt32 ×ₗ UUID := toLex (e.sequenceNumber, e.participantId)

theorem sortKey_injective : Function.Injective sortKey := by
  rintro ⟨p, n⟩ ⟨p', n'⟩ h
  obtain ⟨rfl, rfl⟩ := Prod.mk.inj (toLex.injective h)
  rfl

theorem sortKey_lt_iff (a b : EventId) : sortKey a < sortKey b ↔ a.less b = true := by
  rw [sortKey, sortKey, Prod.Lex.toLex_lt_toLex, less]
  rcases lt_trichotomy a.sequenceNumber b.sequenceNumber with h | h | h
  · simp [h]
  · simp [h]
  · simp [h, h.ne', not_lt.mpr h.le]

instance : LT EventId := ⟨fun a b => a.less b = true⟩

instance : DecidableLT EventId := fun a b => inferInstanceAs (Decidable (a.less b = true))

instance : DecidableEq EventId := (LinearOrder.lift' sortKey sortKey_injective).toDecidableEq

/-- The order of `std::set<EventId>`. -/
instance : LinearOrder EventId :=
  { LinearOrder.lift' sortKey sortKey_injective with
    lt := (· < ·)
    lt_iff_le_not_ge := fun a b => (sortKey_lt_iff a b).symm.trans lt_iff_le_not_ge
    toDecidableLT := inferInstance
    toDecidableEq := inferInstance
    compare := fun a b => compareOfLessAndEq a b
    compare_eq_compareOfLessAndEq := fun _ _ => rfl }

end EventId

/-! ### Meta data -/

/-- The timestamps for which the clock may be read while an event is built. The
user times are numbered in the order of the calls. -/
inductive TimeField
  | create | send | receive | user (index : ℕ)
  deriving DecidableEq

/-- What `rsc::misc::currentTimeMicros` answers for each timestamp. -/
abbrev Clock := TimeField → UInt64

structure MetaData where
  senderId : Option UUID
  createTime : UInt64
  sendTime : UInt64
  receiveTime : UInt64
  deliverTime : UInt64
  userTimes : SortedMap Bytes UInt64
  userInfos : SortedMap Bytes Bytes

namespace MetaData

/-- The constructor takes the creation time from the clock. -/
def new (now : UInt64) : MetaData :=
  ⟨none, now, 0, 0, 0, .empty, .empty⟩

/-- `checkedTimeStampSet` for microseconds: 0 stands for the current time. -/
def checkedTimeStampSet (now proposedValue : UInt64) : UInt64 :=
  if proposedValue = 0 then now else proposedValue

def setCreateTime (m : MetaData) (now time : UInt64) : MetaData :=
  { m with createTime := checkedTimeStampSet now time }

def setSendTime (m : MetaData) (now time : UInt64) : MetaData :=
  { m with sendTime := checkedTimeStampSet now time }

def setReceiveTime (m : MetaData) (now time : UInt64) : MetaData :=
  { m with receiveTime := checkedTimeStampSet now time }

def setDeliverTime (m : MetaData) (now time : UInt64) : MetaData :=
  { m with deliverTime := checkedTimeStampSet now time }

def setUserTime (m : MetaData) (key : Bytes) (now time : UInt64) : MetaData :=
  { m with userTimes := (m.userTimes.erase key).insert key (checkedTimeStampSet now time) }

def hasUserInfo (m : MetaData) (key : Bytes) : Bool := (m.userInfos.find? key).isSome

def getUserInfo (m : MetaData) (key : Bytes) : Except Fault Bytes :=
  match m.userInfos.find? key with
  | none => .error (invalidArgument (bytes "No meta info registered under key '" ++ key ++ bytes "'"))
  | some value => .ok value

def setUserInfo (m : MetaData) (key value : Bytes) : MetaData :=
  { m with userInfos := (m.userInfos.erase key).insert key value }

/-- A timestamp set through the microsecond setters is never 0. -/
theorem checkedTimeStampSet_ne_zero {now : UInt64} (hnow : now ≠ 0) (time : UInt64) :
    checkedTimeStampSet now time ≠ 0 := by
  rw [checkedTimeStampSet]
  split_ifs with h
  · exact hnow
  · exact h

@[simp] theorem checkedTimeStampSet_zero (now : UInt64) : checkedTimeStampSet now 0 = now := rfl

@[simp] theorem checkedTimeStampSet_of_ne_zero (now : UInt64) {time : UInt64} (h : time ≠ 0) :
    checkedTimeStampSet now time = time := if_neg h

theorem erase_insert_eq {β : Type} (m : SortedMap Bytes β) (key : Bytes) (value : β) :
    (m.erase key).insert key value = m.insert key value := by
  apply SortedMap.ext_find?
  intro k
  rw [SortedMap.find?_insert, SortedMap.find?_insert, SortedMap.find?_erase]
  by_cases h : k = key <;> simp [h]

theorem setUserInfo_eq (m : MetaData) (key value : Bytes) :
    m.setUserInfo key value = { m with userInfos := m.userInfos.insert key value } := by
  rw [setUserInfo, erase_insert_eq]

theorem setUserTime_eq (m : MetaData) (key : Bytes) (now time : UInt64) :
    m.setUserTime key now time =
      { m with userTimes := m.userTimes.insert key (checkedTimeStampSet now time) } := by
  rw [setUserTime, erase_insert_eq]

theorem getUserInfo_setUserInfo (m : MetaData) (key value : Bytes) :
    (m.setUserInfo key value).getUserInfo key = .ok value := by
  simp [getUserInfo, setUserInfo]

end MetaData

/-! ### Events -/

/-- The state behind an `Event`, with data of type `δ`. -/
structure Event (δ : Type) where
  id : Option EventId
  scope : Scope
  content : Option δ
  type : Bytes
  method : Bytes
  causes : SortedSet EventId
  metaData : MetaData

/-- `AnnotatedData`: a data type and the data. -/
abbrev AnnotatedData (δ : Type) := Bytes × Option δ

namespace Event

variable {δ : Type}

/-- `Event::Event()`. -/
def new (now : UInt64) : Event δ :=
  ⟨none, Scope.root, none, [], [], .empty, .new now⟩

def getId (e : Event δ) : Except Fault EventId :=
  match e.id with
  | none => .error (.thrown ⟨.illegalState, bytes "The event does not contain id information."⟩)
  | some id => .ok id

def setId (e : Event δ) (senderId : UUID) (sequenceNumber : UInt32) : Event δ :=
  { e with id := some ⟨senderId, sequenceNumber⟩
           metaData := { e.metaData with senderId := some senderId } }

def setScope (e : Event δ) (scope : Scope) : Event δ := { e with scope := scope }

def setMethod (e : Event δ) (method : Bytes) : Event δ := { e with method := method }

def addCause (e : Event δ) (id : EventId) : Event δ := { e with causes := e.causes.add id }

/-- Apply a setter to `mutableMetaData()`. -/
def modifyMetaData (e : Event δ) (f : MetaData → MetaData) : Event δ :=
  { e with metaData := f e.metaData }

def setType (e : Event δ) (type : Bytes) : Event δ := { e with type := type }

/-- `setData`; the new data may be of another type. -/
def setData {δ' : Type} (e : Event δ) (content : Option δ') : Event δ' :=
  ⟨e.id, e.scope, content, e.type, e.method, e.causes, e.metaData⟩

end Event

end Rsb
