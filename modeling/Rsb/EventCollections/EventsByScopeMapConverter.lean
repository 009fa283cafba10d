import Rsb.EventCollections.Notification

/-!
Collections of events (`EventsByScopeMapConverter.cpp`).

A map from scopes to lists of events is written as one message with a set for each
scope. Reading it rebuilds the map event by event: the list of a scope is created
when its first event is appended, and each event goes through its header.
-/

namespace Rsb.EventCollections

open Library

variable {δ : Type}

abbrev EventsByScopeMap (δ : Type) := SortedMap Scope (List (Event δ))

/-- `protocol::collections::EventsByScopeMap::ScopeSet`. -/
structure ScopeSet where
  scope : Bytes
  notifications : List Notification

/-- The generated functions for a message with these sets. The converter does not
look at the result of `ParseFromString`, only at what the message holds then. -/
structure MapProtobuf where
  serializeToString : List ScopeSet → Bytes
  parseFromString : Bytes → List ScopeSet

/-- `sets` are read back from what is written for them. -/
def MapProtobuf.RoundTrips (protobuf : MapProtobuf) (sets : List ScopeSet) : Prop :=
  protobuf.parseFromString (protobuf.serializeToString sets) = sets

/-- `typeNameToProtoName`: of two colons in a row the first one becomes a dot. -/
def protoNameLoop : Bool → Bytes → Bytes
  | _, [] => []
  | colon, c :: cs =>
      if c = 58 then
        if colon then protoNameLoop false cs else 46 :: protoNameLoop true cs
      else c :: protoNameLoop colon cs

/-- `typeNameToWireSchema`. -/
def typeNameToWireSchema (typeName : Bytes) : Bytes := 46 :: protoNameLoop false typeName

/-- `dataType` is the name of the type of these maps. -/
structure EventsByScopeMapConverter (δ : Type) where
  dataType : Bytes
  serializationConverters : ConverterSelectionStrategy δ
  deserializationConverters : ConverterSelectionStrategy δ
  protobuf : MapProtobuf

namespace EventsByScopeMapConverter

def wireSchema : Bytes :=
  typeNameToWireSchema (bytes "rsb::protocol::collections::EventsByScopeMap")

/-! ### Serialization -/

def toNotification (c : EventsByScopeMapConverter δ) (event : Event δ) :
    Except Fault Notification := do
  let converter ← c.serializationConverters.getConverter event.type
  let (wireSchema, wire) ← (← deref converter).serialize (event.type, event.content)
  let notification ← fillNotificationId .new event
  return { fillNotificationHeader notification event wireSchema with data := some wire }

/-- The loop over the events of one scope. -/
def toNotifications (c : EventsByScopeMapConverter δ) :
    List (Event δ) → Except Fault (List Notification)
  | [] => .ok []
  | event :: events => do
      let notification ← c.toNotification event
      let notifications ← c.toNotifications events
      return notification :: notifications

/-- The loop over the scopes. -/
def toScopeSets (c : EventsByScopeMapConverter δ) :
    List (Scope × List (Event δ)) → Except Fault (List ScopeSet)
  | [] => .ok []
  | (scope, events) :: entries => do
      let notifications ← c.toNotifications events
      let sets ← c.toScopeSets entries
      return ⟨scope.toString, notifications⟩ :: sets

def serialize (c : EventsByScopeMapConverter δ) (data : Bytes × Option (EventsByScopeMap δ)) :
    Except Fault (Bytes × Bytes) :=
  if data.1 ≠ c.dataType then
    .error (.thrown ⟨.other, bytes "Called with unsupported data type " ++ data.1⟩)
  else do
    let dataMap ← deref data.2
    let sets ← c.toScopeSets dataMap.entries
    return (wireSchema, c.protobuf.serializeToString sets)

/-! ### Deserialization -/

/-- `(*dataMap)[*scope].push_back(event)`. -/
def pushBack (dataMap : EventsByScopeMap δ) (scope : Scope) (event : Event δ) :
    EventsByScopeMap δ :=
  dataMap.insert scope ((dataMap.find? scope).getD [] ++ [event])

def fromNotification (c : EventsByScopeMapConverter δ) (r : Readings) (scope : Scope)
    (notification : Notification) : Except Fault (Event δ) := do
  let event : Event δ := (Event.new (r.clock .create)).setScope scope
  let wireSchema := notification.wireSchema.getD []
  let converter ← c.deserializationConverters.getConverter wireSchema
  let annotatedData ← (← deref converter).deserialize wireSchema (notification.data.getD [])
  let event := (event.setType annotatedData.1).setData annotatedData.2
  fillEvent r event notification annotatedData.2 annotatedData.1

/-- The loop over the notifications of one set, from the `i`-th one on. -/
def fromNotifications (c : EventsByScopeMapConverter δ) (readings : ℕ → Readings)
    (scope : Scope) : ℕ → List Notification → EventsByScopeMap δ →
      Except Fault (EventsByScopeMap δ)
  | _, [], dataMap => .ok dataMap
  | i, notification :: notifications, dataMap => do
      let event ← c.fromNotification (readings i) scope notification
      c.fromNotifications readings scope (i + 1) notifications (pushBack dataMap scope event)

/-- The loop over the sets, from the `i`-th one on. -/
def fromScopeSets (c : EventsByScopeMapConverter δ) (readings : ℕ → ℕ → Readings) :
    ℕ → List ScopeSet → EventsByScopeMap δ → Except Fault (EventsByScopeMap δ)
  | _, [], dataMap => .ok dataMap
  | i, set :: sets, dataMap => do
      let scope ← Scope.parse set.scope
      let dataMap ← c.fromNotifications (readings i) scope 0 set.notifications dataMap
      c.fromScopeSets readings (i + 1) sets dataMap

/-- `readings i j` is what the clock answers for the `j`-th event of the `i`-th set. -/
def deserialize (c : EventsByScopeMapConverter δ) (readings : ℕ → ℕ → Readings)
    (wireSchema wire : Bytes) : Except Fault (Bytes × EventsByScopeMap δ) :=
  if wireSchema ≠ EventsByScopeMapConverter.wireSchema then
    .error (.thrown ⟨.other, bytes "Unexpected wire schema " ++ wireSchema⟩)
  else do
    let dataMap ← c.fromScopeSets readings 0 (c.protobuf.parseFromString wire) .empty
    return (c.dataType, dataMap)

/-! ### The way there and back -/

/-- The event has an id, and converters are configured for its payload, of which
one undoes what the other one does. -/
def Convertible (c : EventsByScopeMapConverter δ) (e : Event δ) : Prop :=
  e.id ≠ none ∧ ∃ converter wireSchema wire converter',
    c.serializationConverters.getConverter e.type = .ok (some converter) ∧
    converter.serialize (e.type, e.content) = .ok (wireSchema, wire) ∧
    c.deserializationConverters.getConverter wireSchema = .ok (some converter') ∧
    converter'.deserialize wireSchema wire = .ok (e.type, e.content)

/-- The events of one scope, as they are read back. -/
def restoredFrom (readings : ℕ → Readings) : ℕ → List (Event δ) → List (Event δ)
  | _, [] => []
  | i, e :: es => restored (readings i) e :: restoredFrom readings (i + 1) es

def pushAll (dataMap : EventsByScopeMap δ) (scope : Scope) (events : List (Event δ)) :
    EventsByScopeMap δ :=
  events.foldl (fun m e => pushBack m scope e) dataMap

/-- The map that is read back. -/
def rebuilt (readings : ℕ → ℕ → Readings) :
    ℕ → List (Scope × List (Event δ)) → EventsByScopeMap δ → EventsByScopeMap δ
  | _, [], dataMap => dataMap
  | i, (scope, events) :: entries, dataMap =>
      rebuilt readings (i + 1) entries
        (pushAll dataMap scope (restoredFrom (readings i) 0 events))

section

variable {c : EventsByScopeMapConverter δ}

theorem fromNotification_toNotification {e : Event δ} (he : c.Convertible e) (scope : Scope) :
    ∃ n, c.toNotification e = .ok n ∧
      ∀ r, c.fromNotification r scope n = .ok (restored r e) := by
  obtain ⟨hid, converter, wireSchema, wire, converter', hto, hserialize, hfrom, hdeserialize⟩ := he
  obtain ⟨id, hid⟩ := Option.ne_none_iff_exists'.mp hid
  obtain ⟨n, hn⟩ : ∃ n, fillNotificationId .new e = .ok n :=
    ⟨_, by rw [fillNotificationId, Event.getId, hid]; rfl⟩
  refine ⟨{ fillNotificationHeader n e wireSchema with data := some wire }, ?_, fun r => ?_⟩
  · simp only [toNotification, hto, deref_some, hserialize, hn, bind, Except.bind]
    rfl
  · obtain ⟨n', hn', hfill⟩ := fillEvent_fillNotificationHeader r e hid (r.clock .create) scope
      e.type e.content wireSchema wire
    obtain rfl := Except.ok.inj (hn.symm.trans hn')
    have hschema : (fillNotificationHeader n e wireSchema).wireSchema = some wireSchema := rfl
    simp only [fromNotification, hschema, Option.getD_some, hfrom, deref_some, hdeserialize,
      bind, Except.bind]
    exact hfill

theorem fromNotifications_toNotifications {events : List (Event δ)}
    (h : ∀ e ∈ events, c.Convertible e) :
    ∃ ns, c.toNotifications events = .ok ns ∧ ∀ readings scope i dataMap,
      c.fromNotifications readings scope i ns dataMap =
        .ok (pushAll dataMap scope (restoredFrom readings i events)) := by
  induction events with
  | nil => exact ⟨[], rfl, fun _ _ _ _ => rfl⟩
  | cons e events ih =>
      obtain ⟨ns, hns, hrest⟩ := ih fun e' he' => h e' (List.mem_cons_of_mem _ he')
      obtain ⟨n, hn, -⟩ := fromNotification_toNotification (h e List.mem_cons_self) .root
      refine ⟨n :: ns, ?_, fun readings scope i dataMap => ?_⟩
      · simp only [toNotifications, hn, hns, bind, Except.bind]
        rfl
      · obtain ⟨n', hn', hfrom⟩ := fromNotification_toNotification (h e List.mem_cons_self) scope
        obtain rfl := Except.ok.inj (hn.symm.trans hn')
        simp only [fromNotifications, hfrom, bind, Except.bind]
        exact hrest readings scope (i + 1) _

theorem fromScopeSets_toScopeSets {entries : List (Scope × List (Event δ))}
    (h : ∀ entry ∈ entries, ∀ e ∈ entry.2, c.Convertible e) :
    ∃ sets, c.toScopeSets entries = .ok sets ∧ ∀ readings i dataMap,
      c.fromScopeSets readings i sets dataMap = .ok (rebuilt readings i entries dataMap) := by
  induction entries with
  | nil => exact ⟨[], rfl, fun _ _ _ => rfl⟩
  | cons entry entries ih =>
      obtain ⟨scope, events⟩ := entry
      obtain ⟨sets, hsets, hrest⟩ := ih fun entry hentry => h entry (List.mem_cons_of_mem _ hentry)
      obtain ⟨ns, hns, hfrom⟩ := fromNotifications_toNotifications
        (h (scope, events) List.mem_cons_self)
      refine ⟨⟨scope.toString, ns⟩ :: sets, ?_, fun readings i dataMap => ?_⟩
      · simp only [toScopeSets, hns, hsets, bind, Except.bind]
        rfl
      · simp only [fromScopeSets, Scope.parse_toString, hfrom, bind, Except.bind]
        exact hrest readings (i + 1) _

end

/-! ### Which maps come back unchanged -/

/-- Every scope has events, and they are settled. -/
def Restorable (dataMap : EventsByScopeMap δ) : Prop :=
  ∀ scope events, dataMap.find? scope = some events → events ≠ [] ∧ ∀ e ∈ events, Settled e

theorem Restorable.pushBack {dataMap : EventsByScopeMap δ} (h : Restorable dataMap)
    (scope : Scope) {e : Event δ} (he : Settled e) : Restorable (pushBack dataMap scope e) := by
  intro s events hfind
  rw [EventsByScopeMapConverter.pushBack, SortedMap.find?_insert] at hfind
  split_ifs at hfind with hs
  · obtain rfl := Option.some.inj hfind
    refine ⟨by simp, fun e' he' => ?_⟩
    rcases List.mem_append.mp he' with hold | hnew
    · cases hscope : dataMap.find? scope with
      | none => simp [hscope] at hold
      | some events' => exact (h scope events' hscope).2 e' (by simpa [hscope] using hold)
    · obtain rfl := List.mem_singleton.mp hnew
      exact he
  · exact h s events hfind

theorem Restorable.pushAll {dataMap : EventsByScopeMap δ} (h : Restorable dataMap)
    (scope : Scope) {events : List (Event δ)} (hevents : ∀ e ∈ events, Settled e) :
    Restorable (pushAll dataMap scope events) := by
  induction events generalizing dataMap with
  | nil => exact h
  | cons e events ih =>
      exact ih (h.pushBack scope (hevents e List.mem_cons_self)) fun e' he' =>
        hevents e' (List.mem_cons_of_mem _ he')

theorem settled_restoredFrom {readings : ℕ → Readings} (hreadings : ∀ j, (readings j).Running)
    (i : ℕ) (events : List (Event δ)) : ∀ e ∈ restoredFrom readings i events, Settled e := by
  induction events generalizing i with
  | nil => simp [restoredFrom]
  | cons e events ih =>
      exact List.forall_mem_cons.mpr ⟨settled_restored (hreadings i) e, ih (i + 1)⟩

/-- What is read back can be restored, whatever was written. -/
theorem Restorable.rebuilt {readings : ℕ → ℕ → Readings}
    (hreadings : ∀ i j, (readings i j).Running) {dataMap : EventsByScopeMap δ}
    (h : Restorable dataMap) (i : ℕ) (entries : List (Scope × List (Event δ))) :
    Restorable (rebuilt readings i entries dataMap) := by
  induction entries generalizing i dataMap with
  | nil => exact h
  | cons entry entries ih =>
      exact ih (h.pushAll entry.1 (settled_restoredFrom (hreadings i) 0 entry.2)) (i + 1)

theorem restoredFrom_of_settled (readings : ℕ → Readings) (i : ℕ) {events : List (Event δ)}
    (h : ∀ e ∈ events, Settled e) : restoredFrom readings i events = events := by
  induction events generalizing i with
  | nil => rfl
  | cons e events ih =>
      rw [restoredFrom, restored_of_settled (readings i) (h e List.mem_cons_self),
        ih (i + 1) fun e' he' => h e' (List.mem_cons_of_mem _ he')]

theorem pushAll_eq (dataMap : EventsByScopeMap δ) (scope : Scope) {events : List (Event δ)}
    (h : events ≠ []) : pushAll dataMap scope events =
      dataMap.insert scope ((dataMap.find? scope).getD [] ++ events) := by
  induction events generalizing dataMap with
  | nil => exact absurd rfl h
  | cons e events ih =>
      by_cases hrest : events = []
      · subst hrest
        rfl
      · have hpush : pushAll dataMap scope (e :: events) =
            pushAll (EventsByScopeMapConverter.pushBack dataMap scope e) scope events := rfl
        rw [hpush, ih _ hrest, EventsByScopeMapConverter.pushBack, SortedMap.find?_insert_self,
          Option.getD_some, SortedMap.insert_insert, List.append_assoc, List.singleton_append]

/-- With lists that are not empty and scopes that are new, pushing is inserting. -/
theorem foldl_pushAll_eq {entries : List (Scope × List (Event δ))}
    (hsorted : entries.Pairwise fun a b => a.1 < b.1) (hne : ∀ entry ∈ entries, entry.2 ≠ [])
    {dataMap : EventsByScopeMap δ} (hnew : ∀ entry ∈ entries, dataMap.find? entry.1 = none) :
    entries.foldl (fun m e => pushAll m e.1 e.2) dataMap =
      entries.foldl (fun m e => m.insert e.1 e.2) dataMap := by
  induction entries generalizing dataMap with
  | nil => rfl
  | cons entry entries ih =>
      obtain ⟨hfirst, hrest⟩ := List.pairwise_cons.mp hsorted
      have hpush : pushAll dataMap entry.1 entry.2 = dataMap.insert entry.1 entry.2 := by
        rw [pushAll_eq dataMap entry.1 (hne entry List.mem_cons_self),
          hnew entry List.mem_cons_self, Option.getD_none, List.nil_append]
      rw [List.foldl_cons, List.foldl_cons, hpush]
      refine ih hrest (fun e he => hne e (List.mem_cons_of_mem _ he)) fun e he => ?_
      rw [SortedMap.find?_insert, if_neg (hfirst e he).ne']
      exact hnew e (List.mem_cons_of_mem _ he)

theorem rebuilt_of_settled (readings : ℕ → ℕ → Readings) (i : ℕ)
    {entries : List (Scope × List (Event δ))}
    (h : ∀ entry ∈ entries, ∀ e ∈ entry.2, Settled e) (dataMap : EventsByScopeMap δ) :
    EventsByScopeMapConverter.rebuilt readings i entries dataMap =
      entries.foldl (fun m e => pushAll m e.1 e.2) dataMap := by
  induction entries generalizing i dataMap with
  | nil => rfl
  | cons entry entries ih =>
      rw [EventsByScopeMapConverter.rebuilt,
        restoredFrom_of_settled _ _ (h entry List.mem_cons_self), List.foldl_cons]
      exact ih (i + 1) (fun e he => h e (List.mem_cons_of_mem _ he)) _

theorem rebuilt_of_restorable (readings : ℕ → ℕ → Readings) {dataMap : EventsByScopeMap δ}
    (h : Restorable dataMap) :
    EventsByScopeMapConverter.rebuilt readings 0 dataMap.entries .empty = dataMap := by
  have hentries : ∀ entry ∈ dataMap.entries, entry.2 ≠ [] ∧ ∀ e ∈ entry.2, Settled e :=
    fun entry hentry => h entry.1 entry.2 (SortedMap.find?_eq_some_iff.mpr hentry)
  rw [rebuilt_of_settled readings 0 (fun entry hentry => (hentries entry hentry).2),
    foldl_pushAll_eq dataMap.sorted (fun entry hentry => (hentries entry hentry).1) fun _ _ => rfl]
  exact SortedMap.ofList_entries dataMap

/-- A map whose events can be converted is written and read. -/
theorem deserialize_serialize (c : EventsByScopeMapConverter δ) (readings : ℕ → ℕ → Readings)
    (dataMap : EventsByScopeMap δ)
    (hprotobuf : ∀ sets, c.toScopeSets dataMap.entries = .ok sets → c.protobuf.RoundTrips sets)
    (hconvertible : ∀ scope events, dataMap.find? scope = some events →
      ∀ e ∈ events, c.Convertible e) :
    ∃ wire, c.serialize (c.dataType, some dataMap) = .ok (wireSchema, wire) ∧
      c.deserialize readings wireSchema wire = .ok (c.dataType,
        EventsByScopeMapConverter.rebuilt readings 0 dataMap.entries .empty) := by
  have hentries : ∀ entry ∈ dataMap.entries, ∀ e ∈ entry.2, c.Convertible e :=
    fun entry hentry => hconvertible entry.1 entry.2 (SortedMap.find?_eq_some_iff.mpr hentry)
  obtain ⟨sets, hsets, hfrom⟩ := fromScopeSets_toScopeSets hentries
  refine ⟨c.protobuf.serializeToString sets, ?_, ?_⟩
  · simp only [serialize, ne_eq, not_true, if_false, deref_some, hsets, bind, Except.bind]
    rfl
  · have hparse : c.protobuf.parseFromString (c.protobuf.serializeToString sets) = sets :=
      hprotobuf sets hsets
    simp only [deserialize, ne_eq, not_true, if_false, hparse, hfrom, bind, Except.bind]
    rfl

/-- A map whose events can be converted is written and read. It comes back
unchanged exactly if every scope has events, all their times are set, and their
senders are the participants of their ids. -/
theorem deserialize_serialize_iff (c : EventsByScopeMapConverter δ)
    (readings : ℕ → ℕ → Readings) (hreadings : ∀ i j, (readings i j).Running)
    (dataMap : EventsByScopeMap δ)
    (hprotobuf : ∀ sets, c.toScopeSets dataMap.entries = .ok sets → c.protobuf.RoundTrips sets)
    (hconvertible : ∀ scope events, dataMap.find? scope = some events →
      ∀ e ∈ events, c.Convertible e) :
    ∃ wire dataMap', c.serialize (c.dataType, some dataMap) = .ok (wireSchema, wire) ∧
      c.deserialize readings wireSchema wire = .ok (c.dataType, dataMap') ∧
      (dataMap' = dataMap ↔ Restorable dataMap) := by
  obtain ⟨wire, hwrite, hread⟩ := deserialize_serialize c readings dataMap hprotobuf hconvertible
  refine ⟨wire, _, hwrite, hread, ?_, ?_⟩
  · intro heq
    have hempty : Restorable (.empty : EventsByScopeMap δ) := fun scope events h => by simp at h
    exact heq ▸ hempty.rebuilt hreadings 0 dataMap.entries
  · exact rebuilt_of_restorable readings

/-- A string event below `/b/`, created at time 1. -/
def sampleEvent (send receive deliver : UInt64) : Event Bytes :=
  let event : Event Bytes := ((Event.new 1).setScope (.ofComponents [bytes "b"] (by decide))).setId
    ⟨List.replicate 16 18, rfl⟩ 7
  let event := event.modifyMetaData fun m =>
    { m with sendTime := send, receiveTime := receive, deliverTime := deliver }
  (event.setType stringType).setData (some (bytes "hi"))

def sampleNotification (send receive deliver : Int64) : Notification where
  eventId := ⟨List.replicate 16 18, 7⟩
  scope := some (bytes "/b/")
  method := none
  wireSchema := some utf8String
  data := some (bytes "hi")
  causes := []
  metaData := some ⟨⟨1, send, [], []⟩, receive, deliver⟩

/-- The set of `/b/` with that event, as it is on the wire. -/
def sampleWire (send receive deliver : UInt8) : Bytes :=
  [10, 63, 10, 3, 47, 98, 47, 18, 56, 50, 3, 47, 98, 47, 58, 12, 117, 116, 102, 45, 56, 45, 115,
    116, 114, 105, 110, 103, 74, 2, 104, 105, 122, 8, 16, 1, 24, send, 32, receive, 40, deliver,
    226, 6, 20, 10, 16, 18, 18, 18, 18, 18, 18, 18, 18, 18, 18, 18, 18, 18, 18, 18, 18, 16, 7]

/-- A converter for string events. Its generated functions are those on `sets`,
which are `wire` on the wire. -/
def sampleConverter (sets : List ScopeSet) (wire : Bytes) : EventsByScopeMapConverter Bytes where
  dataType := bytes "std::map<rsb::Scope, std::vector<boost::shared_ptr<rsb::Event> > >"
  serializationConverters := .unambiguousMap (SortedMap.empty.insert stringType stringConverter) []
  deserializationConverters :=
    .unambiguousMap (SortedMap.empty.insert utf8String stringConverter) []
  protobuf := {
    serializeToString _ := wire
    parseFromString b := if b = wire then sets else [] }

def sampleReadings (_ _ : ℕ) : Readings := ⟨fun _ => 9, 9⟩

theorem running_sampleReadings (i j : ℕ) : (sampleReadings i j).Running := by
  have hnine : (9 : UInt64) ≠ 0 := by decide
  exact ⟨fun _ => hnine, hnine⟩

theorem convertible_sampleEvent (sets : List ScopeSet) (wire : Bytes)
    (send receive deliver : UInt64) :
    (sampleConverter sets wire).Convertible (sampleEvent send receive deliver) :=
  ⟨Option.some_ne_none _, stringConverter, utf8String, bytes "hi", stringConverter, rfl, rfl, rfl,
    rfl⟩

theorem deserialize_serialize_sample :
    ∃ wire dataMap',
      (sampleConverter [⟨bytes "/b/", [sampleNotification 2 3 4]⟩] (sampleWire 2 3 4)).serialize
        ((sampleConverter [] []).dataType,
          some (SortedMap.empty.insert (sampleEvent 2 3 4).scope [sampleEvent 2 3 4])) =
        .ok (wireSchema, wire) ∧
      (sampleConverter [⟨bytes "/b/", [sampleNotification 2 3 4]⟩] (sampleWire 2 3 4)).deserialize
        sampleReadings wireSchema wire = .ok ((sampleConverter [] []).dataType, dataMap') ∧
      dataMap' = SortedMap.empty.insert (sampleEvent 2 3 4).scope [sampleEvent 2 3 4] := by
  have hfind : ∀ scope events, (SortedMap.empty.insert (sampleEvent 2 3 4).scope
      [sampleEvent 2 3 4]).find? scope = some events → events = [sampleEvent 2 3 4] := by
    intro scope events h
    rw [SortedMap.find?_insert] at h
    split_ifs at h
    · exact (Option.some.inj h).symm
    · simp at h
  obtain ⟨wire, dataMap', hto, hfrom, hiff⟩ :=
    deserialize_serialize_iff
      (sampleConverter [⟨bytes "/b/", [sampleNotification 2 3 4]⟩] (sampleWire 2 3 4))
      sampleReadings running_sampleReadings
      (SortedMap.empty.insert (sampleEvent 2 3 4).scope [sampleEvent 2 3 4])
      (fun sets hsets => by
        obtain rfl := Except.ok.inj hsets
        rfl)
      (fun scope events h e he => by
        obtain rfl := List.mem_singleton.mp (hfind scope events h ▸ he)
        exact convertible_sampleEvent _ _ 2 3 4)
  refine ⟨wire, dataMap', hto, hfrom, hiff.mpr fun scope events h => ?_⟩
  obtain rfl := hfind scope events h
  refine ⟨List.cons_ne_nil _ _, fun e he => ?_⟩
  obtain rfl := List.mem_singleton.mp he
  exact ⟨rfl, by decide, by decide, by decide, by decide, fun key time h => nomatch h⟩

/-- A scope without events is written but not read back, and the times of an
event that has not been sent are those of the reading. -/
theorem not_restored_unsent :
    ∃ wire dataMap' e,
      (sampleConverter [⟨bytes "/a/", []⟩, ⟨bytes "/b/", [sampleNotification 0 0 0]⟩]
          (10 :: 5 :: 10 :: 3 :: 47 :: 97 :: 47 :: sampleWire 0 0 0)).serialize
        ((sampleConverter [] []).dataType,
          some ((SortedMap.empty.insert (.ofComponents [bytes "a"] (by decide)) []).insert
            (.ofComponents [bytes "b"] (by decide)) [sampleEvent 0 0 0])) =
        .ok (wireSchema, wire) ∧
      (sampleConverter [⟨bytes "/a/", []⟩, ⟨bytes "/b/", [sampleNotification 0 0 0]⟩]
          (10 :: 5 :: 10 :: 3 :: 47 :: 97 :: 47 :: sampleWire 0 0 0)).deserialize
        sampleReadings wireSchema wire = .ok ((sampleConverter [] []).dataType, dataMap') ∧
      dataMap'.find? (.ofComponents [bytes "a"] (by decide)) = none ∧
      dataMap'.find? (.ofComponents [bytes "b"] (by decide)) = some [e] ∧
      (sampleEvent 0 0 0).metaData.sendTime = 0 ∧ e.metaData.sendTime = 9 :=
  ⟨_, _, restored (sampleReadings 1 0) (sampleEvent 0 0 0), rfl, rfl, rfl, rfl, rfl, rfl⟩

end EventsByScopeMapConverter

end Rsb.EventCollections
