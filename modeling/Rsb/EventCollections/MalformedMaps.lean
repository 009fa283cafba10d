import Rsb.Converter.Payloads
import Rsb.EventCollections.CodecAgreement
import Rsb.Library.Traversal
import Rsb.Scope.Grammar

/-!
Reading whatever is on the wire as a map of events (`EventsByScopeMapConverter.cpp`).

Every notification is read in a few steps that may fail: its payload converter is looked
up and called, the ids of its event and of the causes are copied, and its scope is
parsed. What the first notification that cannot be read fails with is what `deserialize`
ends with.
-/

namespace Rsb.EventCollections.EventsByScopeMapConverter

open Library Transport.Socket Payloads

variable {δ : Type}

/-- The converter with what the clock answers in a call of `deserialize`. -/
def toConverter (c : EventsByScopeMapConverter δ) (readings : ℕ → ℕ → Readings) :
    Converter (EventsByScopeMap δ) where
  serialize := c.serialize
  deserialize wireSchema wire := (c.deserialize readings wireSchema wire).map fun
    (dataType, dataMap) => (dataType, some dataMap)

/-! ### Notifications -/

/-- What the converter for its wire schema makes of the data of a notification. -/
def payload (c : EventsByScopeMapConverter δ) (notification : Notification) :
    Except Fault (AnnotatedData δ) := do
  let wireSchema := notification.wireSchema.getD []
  let converter ← c.deserializationConverters.getConverter wireSchema
  (← deref converter).deserialize wireSchema (notification.data.getD [])

/-- The notification becomes an event. -/
def Reads (c : EventsByScopeMapConverter δ) (n : Notification) : Prop :=
  (∃ data, c.payload n = .ok data) ∧ n.toSocket.WellFormed

/-- An exception is thrown, by the selection of converters, by the converter of the
payload or by the scope. -/
def Refuses (c : EventsByScopeMapConverter δ) (n : Notification) : Prop :=
  (∃ e, c.payload n = .error (.thrown e)) ∨
    (∃ data, c.payload n = .ok data) ∧ 16 ≤ n.eventId.senderId.length ∧
      ¬∃ scope, Scope.parse (n.scope.getD []) = .ok scope

theorem fromNotification_eq (c : EventsByScopeMapConverter δ) (r : Readings) (scope : Scope)
    (n : Notification) : c.fromNotification r scope n = (do
      let data ← c.payload n
      let event : Event δ := (Event.new (r.clock .create)).setScope scope
      fillEvent r ((event.setType data.1).setData data.2) n data.2 data.1) := by
  simp only [fromNotification, payload, bind_assoc]

section

variable {r : Readings} {event : Event δ} {n : Notification} {data : Option δ} {dataType : Bytes}

theorem fillEvent_ok_iff :
    (∃ e, fillEvent r event n data dataType = .ok e) ↔ n.toSocket.WellFormed := by
  constructor
  · rintro ⟨e, h⟩
    simp only [fillEvent, bind_eq_ok_iff] at h
    obtain ⟨id, hid, scope, hscope, ids, hids, -⟩ := h
    exact ⟨toEventId_ok_iff.mp ⟨id, hid⟩, toEventIds_ok_iff.mp ⟨ids, hids⟩, scope, hscope⟩
  · rintro ⟨hsender, hcauses, scope, hscope⟩
    obtain ⟨id, hid⟩ := toEventId_ok_iff.mpr hsender
    obtain ⟨ids, hids⟩ := toEventIds_ok_iff.mpr hcauses
    simp only [fillEvent, bind_eq_ok_iff]
    exact ⟨_, id, hid, scope, hscope, ids, hids, rfl⟩

theorem fillEvent_thrown_iff :
    (∃ f, fillEvent r event n data dataType = .error f ∧ ∃ e, f = .thrown e) ↔
      16 ≤ n.eventId.senderId.length ∧ ¬∃ scope, Scope.parse (n.scope.getD []) = .ok scope := by
  constructor
  · rintro ⟨f, h, e, rfl⟩
    simp only [fillEvent, bind_eq_error_iff] at h
    rcases h with hid | ⟨id, hid, hscope | ⟨scope, -, hids | ⟨ids, -, hreturn⟩⟩⟩
    · cases toEventId_eq_error hid
    · exact ⟨toEventId_ok_iff.mp ⟨id, hid⟩, by rw [hscope]; simp⟩
    · cases toEventIds_eq_error hids
    · cases hreturn
  · rintro ⟨hsender, hscope⟩
    obtain ⟨id, hid⟩ := toEventId_ok_iff.mpr hsender
    cases hparse : Scope.parse (n.scope.getD []) with
    | ok scope => exact absurd ⟨scope, hparse⟩ hscope
    | error f =>
        obtain ⟨what, rfl⟩ := Scope.verifyAndSplit_error (Scope.parse_eq_error_iff.mp hparse)
        refine ⟨invalidArgument what, ?_, _, rfl⟩
        simp only [fillEvent, bind_eq_error_iff]
        exact .inr ⟨id, hid, .inl hparse⟩

/-- The event of a fresh one has all its times and the sender of its id. -/
theorem fillEvent_settled (hr : r.Running) (hempty : event.metaData.userTimes = .empty)
    {e : Event δ} (h : fillEvent r event n data dataType = .ok e) :
    Settled e ∧ e.id ≠ none ∧ (e.type, e.content) = (dataType, data) := by
  simp only [fillEvent, bind_eq_ok_iff] at h
  obtain ⟨id, -, scope, -, ids, -, heq⟩ := h
  obtain rfl := Except.ok.inj heq
  rw [foldl_addCause]
  have hsettled : ∀ m : MetaData, m.createTime ≠ 0 → m.sendTime ≠ 0 → m.receiveTime ≠ 0 →
      m.deliverTime ≠ 0 → m.userTimes = .empty → m.senderId = some id.participantId →
      ∀ e : Event δ, e.id = some id → ∀ infos times,
        e.metaData = setUserTimes r.clock 0 times (setUserInfos infos m) → Settled e := by
    intro m hcreate hsend hreceive hdeliver huser hsender e hid infos times hmeta
    rw [setUserInfos_eq] at hmeta
    refine settled_setUserTimes hr ?_ ?_ ?_ ?_ ?_ hmeta ?_
    · exact huser
    · exact hcreate
    · exact hsend
    · exact hreceive
    · exact hdeliver
    · rw [hid]
      exact hsender
  cases n.method
  all_goals
    refine ⟨hsettled _ ?_ ?_ ?_ ?_ ?_ rfl _ rfl _ _ rfl, Option.some_ne_none _, rfl⟩
    · exact MetaData.checkedTimeStampSet_ne_zero (hr.clock _) _
    · exact MetaData.checkedTimeStampSet_ne_zero (hr.clock _) _
    · exact MetaData.checkedTimeStampSet_ne_zero (hr.clock _) _
    · exact MetaData.checkedTimeStampSet_ne_zero hr.deliver _
    · exact hempty

end

section

variable {c : EventsByScopeMapConverter δ}

theorem fromNotification_ok_iff (r : Readings) (scope : Scope) {n : Notification} :
    (∃ e, c.fromNotification r scope n = .ok e) ↔ c.Reads n := by
  rw [fromNotification_eq, Reads]
  cases c.payload n with
  | error f => simp [bind, Except.bind]
  | ok data => simpa [bind, Except.bind] using fillEvent_ok_iff

theorem fromNotification_thrown_iff (r : Readings) (scope : Scope) {n : Notification} :
    (∃ f, c.fromNotification r scope n = .error f ∧ ∃ e, f = .thrown e) ↔ c.Refuses n := by
  rw [fromNotification_eq, Refuses]
  cases c.payload n with
  | error f => simp [bind, Except.bind]
  | ok data => simpa [bind, Except.bind] using fillEvent_thrown_iff

/-! ### Sets of notifications -/

/-- The body of the loop over the notifications. -/
def pushNotification (c : EventsByScopeMapConverter δ) (readings : ℕ → Readings) (scope : Scope)
    (i : ℕ) (n : Notification) (dataMap : EventsByScopeMap δ) :
    Except Fault (EventsByScopeMap δ) := do
  let event ← c.fromNotification (readings i) scope n
  return pushBack dataMap scope event

theorem fromNotifications_eq_forEachFrom (readings : ℕ → Readings) (scope : Scope) (i : ℕ)
    (ns : List Notification) (dataMap : EventsByScopeMap δ) :
    c.fromNotifications readings scope i ns dataMap =
      forEachFrom (c.pushNotification readings scope) i ns dataMap := by
  induction ns generalizing i dataMap with
  | nil => rfl
  | cons n ns ih =>
      rw [fromNotifications, forEachFrom, pushNotification]
      cases c.fromNotification (readings i) scope n with
      | error f => rfl
      | ok event => exact ih (i + 1) _

theorem pushNotification_ok_iff (readings : ℕ → Readings) (scope : Scope) (i : ℕ)
    (n : Notification) (dataMap : EventsByScopeMap δ) :
    (∃ dataMap', c.pushNotification readings scope i n dataMap = .ok dataMap') ↔ c.Reads n := by
  rw [← fromNotification_ok_iff (readings i) scope, pushNotification]
  cases c.fromNotification (readings i) scope n <;> simp [bind, Except.bind, pure, Except.pure]

theorem pushNotification_thrown_iff (readings : ℕ → Readings) (scope : Scope) (i : ℕ)
    (n : Notification) (dataMap : EventsByScopeMap δ) :
    (∃ f, c.pushNotification readings scope i n dataMap = .error f ∧ ∃ e, f = .thrown e) ↔
      c.Refuses n := by
  rw [← fromNotification_thrown_iff (readings i) scope, pushNotification]
  cases c.fromNotification (readings i) scope n <;> simp [bind, Except.bind, pure, Except.pure]

/-- The scope of a set is one, and all its notifications become events. -/
def ReadsSet (c : EventsByScopeMapConverter δ) (set : ScopeSet) : Prop :=
  (∃ scope, Scope.parse set.scope = .ok scope) ∧ ∀ n ∈ set.notifications, c.Reads n

/-- The scope of a set is none, or of its notifications that cannot be read the first one
makes somebody throw. -/
def RefusesSet (c : EventsByScopeMapConverter δ) (set : ScopeSet) : Prop :=
  (¬∃ scope, Scope.parse set.scope = .ok scope) ∨
    (∃ scope, Scope.parse set.scope = .ok scope) ∧ FirstBad c.Reads c.Refuses set.notifications

/-- The body of the loop over the sets. -/
def fromScopeSet (c : EventsByScopeMapConverter δ) (readings : ℕ → ℕ → Readings) (i : ℕ)
    (set : ScopeSet) (dataMap : EventsByScopeMap δ) : Except Fault (EventsByScopeMap δ) := do
  let scope ← Scope.parse set.scope
  c.fromNotifications (readings i) scope 0 set.notifications dataMap

theorem fromScopeSets_eq_forEachFrom (readings : ℕ → ℕ → Readings) (i : ℕ) (sets : List ScopeSet)
    (dataMap : EventsByScopeMap δ) :
    c.fromScopeSets readings i sets dataMap =
      forEachFrom (c.fromScopeSet readings) i sets dataMap := by
  induction sets generalizing i dataMap with
  | nil => rfl
  | cons set sets ih =>
      rw [fromScopeSets, forEachFrom, fromScopeSet]
      cases Scope.parse set.scope with
      | error f => rfl
      | ok scope =>
          cases hset : c.fromNotifications (readings i) scope 0 set.notifications dataMap with
          | error f => simp [hset, bind, Except.bind]
          | ok dataMap' => simpa [hset, bind, Except.bind] using ih (i + 1) dataMap'

theorem fromScopeSet_ok_iff (readings : ℕ → ℕ → Readings) (i : ℕ) (set : ScopeSet)
    (dataMap : EventsByScopeMap δ) :
    (∃ dataMap', c.fromScopeSet readings i set dataMap = .ok dataMap') ↔ c.ReadsSet set := by
  rw [fromScopeSet, ReadsSet]
  cases Scope.parse set.scope with
  | error f => simp [bind, Except.bind]
  | ok scope =>
      rw [← forEachFrom_ok_iff (c.pushNotification_ok_iff (readings i) scope)
        (i := 0) (s := dataMap)]
      simp [bind, Except.bind, fromNotifications_eq_forEachFrom]

theorem fromScopeSet_thrown_iff (readings : ℕ → ℕ → Readings) (i : ℕ) (set : ScopeSet)
    (dataMap : EventsByScopeMap δ) :
    (∃ f, c.fromScopeSet readings i set dataMap = .error f ∧ ∃ e, f = .thrown e) ↔
      c.RefusesSet set := by
  rw [fromScopeSet, RefusesSet]
  cases hscope : Scope.parse set.scope with
  | error f =>
      obtain ⟨what, rfl⟩ := Scope.verifyAndSplit_error (Scope.parse_eq_error_iff.mp hscope)
      simp [bind, Except.bind, invalidArgument]
  | ok scope =>
      rw [← forEachFrom_error_iff (c.pushNotification_ok_iff (readings i) scope)
        (c.pushNotification_thrown_iff (readings i) scope) (i := 0) (s := dataMap)]
      simp [bind, Except.bind, fromNotifications_eq_forEachFrom]

/-! ### What a map that has been read consists of -/

/-- A notification and the event it has become. -/
structure Became (c : EventsByScopeMapConverter δ) (n : Notification) (e : Event δ) : Prop where
  payload : c.payload n = .ok (e.type, e.content)
  settled : Settled e
  id : e.id ≠ none

theorem became_of_fromNotification {r : Readings} (hr : r.Running) {scope : Scope}
    {n : Notification} {e : Event δ} (h : c.fromNotification r scope n = .ok e) :
    c.Became n e := by
  rw [fromNotification_eq] at h
  obtain ⟨data, hdata, hfill⟩ := bind_eq_ok_iff.mp h
  obtain ⟨hsettled, hid, htype⟩ := fillEvent_settled hr (by rfl) hfill
  exact ⟨by rw [hdata, htype], hsettled, hid⟩

/-- A set and the entry it has become. -/
def SetBecame (c : EventsByScopeMapConverter δ) (set : ScopeSet)
    (entry : Scope × List (Event δ)) : Prop :=
  Scope.parse set.scope = .ok entry.1 ∧ List.Forall₂ c.Became set.notifications entry.2

theorem fromScopeSets_trace {readings : ℕ → ℕ → Readings}
    (hreadings : ∀ i j, (readings i j).Running) {i : ℕ} {sets : List ScopeSet}
    {start dataMap : EventsByScopeMap δ}
    (h : c.fromScopeSets readings i sets start = .ok dataMap) :
    ∃ entries, List.Forall₂ c.SetBecame sets entries ∧
      dataMap = entries.foldl (fun m e => pushAll m e.1 e.2) start := by
  rw [fromScopeSets_eq_forEachFrom] at h
  refine forEachFrom_trace c.SetBecame (fun m e => pushAll m e.1 e.2) ?_ h
  intro i set m m' hset
  obtain ⟨scope, hscope, hloop⟩ := bind_eq_ok_iff.mp hset
  rw [fromNotifications_eq_forEachFrom] at hloop
  obtain ⟨events, hevents, rfl⟩ := forEachFrom_trace c.Became
    (fun m e => pushBack m scope e) (fun j n m m' hpush => by
      obtain ⟨e, he, heq⟩ := bind_eq_ok_iff.mp hpush
      exact ⟨e, became_of_fromNotification (hreadings i j) he, (Except.ok.inj heq).symm⟩) hloop
  exact ⟨(scope, events), ⟨hscope, hevents⟩, rfl⟩

/-- The event is in a list of the map. -/
def Holds (dataMap : EventsByScopeMap δ) (e : Event δ) : Prop :=
  ∃ scope events, dataMap.find? scope = some events ∧ e ∈ events

theorem holds_pushBack {dataMap : EventsByScopeMap δ} {scope : Scope} {e e' : Event δ} :
    Holds (pushBack dataMap scope e') e ↔ Holds dataMap e ∨ e = e' := by
  constructor
  · rintro ⟨s, events, hfind, he⟩
    rw [pushBack, SortedMap.find?_insert] at hfind
    split_ifs at hfind
    · obtain rfl := Option.some.inj hfind
      rcases List.mem_append.mp he with hold | hnew
      · cases hscope : dataMap.find? scope with
        | none => simp [hscope] at hold
        | some events => exact .inl ⟨scope, events, hscope, by simpa [hscope] using hold⟩
      · exact .inr (List.mem_singleton.mp hnew)
    · exact .inl ⟨s, events, hfind, he⟩
  · rintro (⟨s, events, hfind, he⟩ | rfl)
    · by_cases hs : s = scope
      · subst hs
        exact ⟨s, _, SortedMap.find?_insert_self _ _ _, by simp [hfind, he]⟩
      · refine ⟨s, events, ?_, he⟩
        rw [pushBack, SortedMap.find?_insert, if_neg hs, hfind]
    · exact ⟨scope, _, SortedMap.find?_insert_self _ _ _, by simp⟩

theorem holds_pushAll {dataMap : EventsByScopeMap δ} {scope : Scope} {events : List (Event δ)}
    {e : Event δ} : Holds (pushAll dataMap scope events) e ↔ Holds dataMap e ∨ e ∈ events := by
  induction events generalizing dataMap with
  | nil => simp [pushAll]
  | cons e' events ih =>
      have hpush : pushAll dataMap scope (e' :: events) =
          pushAll (pushBack dataMap scope e') scope events := rfl
      rw [hpush, ih, holds_pushBack, List.mem_cons, or_assoc]

theorem holds_foldl_pushAll {dataMap : EventsByScopeMap δ}
    {entries : List (Scope × List (Event δ))} {e : Event δ} :
    Holds (entries.foldl (fun m e => pushAll m e.1 e.2) dataMap) e ↔
      Holds dataMap e ∨ ∃ entry ∈ entries, e ∈ entry.2 := by
  induction entries generalizing dataMap with
  | nil => simp
  | cons entry entries ih =>
      rw [List.foldl_cons, ih, holds_pushAll, or_assoc, List.exists_mem_cons_iff]

theorem restorable_foldl_pushAll {dataMap : EventsByScopeMap δ} (h : Restorable dataMap)
    {entries : List (Scope × List (Event δ))}
    (hentries : ∀ entry ∈ entries, ∀ e ∈ entry.2, Settled e) :
    Restorable (entries.foldl (fun m e => pushAll m e.1 e.2) dataMap) := by
  induction entries generalizing dataMap with
  | nil => exact h
  | cons entry entries ih =>
      obtain ⟨hfirst, hrest⟩ := List.forall_mem_cons.mp hentries
      exact ih (h.pushAll entry.1 hfirst) hrest

/-! ### Writing it again -/

/-- Data that comes back from the payload converters for its type. -/
def Restores (c : EventsByScopeMapConverter δ) (data : AnnotatedData δ) : Prop :=
  ∃ converter wireSchema wire converter',
    c.serializationConverters.getConverter data.1 = .ok (some converter) ∧
    converter.serialize data = .ok (wireSchema, wire) ∧
    c.deserializationConverters.getConverter wireSchema = .ok (some converter') ∧
    converter'.deserialize wireSchema wire = .ok data

theorem convertible_of_payload {e : Event δ} {n : Notification} (hto : c.toNotification e = .ok n)
    (hpayload : c.payload n = .ok (e.type, e.content)) : c.Convertible e := by
  simp only [toNotification, bind_eq_ok_iff, deref_eq_ok_iff] at hto
  obtain ⟨_, hconverter, converter, rfl, ⟨wireSchema, wire⟩, hserialize, n', hid, hreturn⟩ := hto
  obtain rfl := Except.ok.inj hreturn
  simp only [payload, bind_eq_ok_iff, deref_eq_ok_iff] at hpayload
  obtain ⟨_, hconverter', converter', rfl, hdeserialize⟩ := hpayload
  obtain ⟨id, hgetId, -⟩ := bind_eq_ok_iff.mp hid
  refine ⟨?_, converter, wireSchema, wire, converter', hconverter, hserialize, hconverter',
    hdeserialize⟩
  intro hnone
  rw [Event.getId, hnone] at hgetId
  cases hgetId

theorem toNotifications_trace {events : List (Event δ)} {ns : List Notification}
    (h : c.toNotifications events = .ok ns) :
    List.Forall₂ (fun e n => c.toNotification e = .ok n) events ns := by
  induction events generalizing ns with
  | nil =>
      obtain rfl := Except.ok.inj h
      exact .nil
  | cons e events ih =>
      simp only [toNotifications, bind_eq_ok_iff] at h
      obtain ⟨n, hn, ns', hns, hreturn⟩ := h
      obtain rfl := Except.ok.inj hreturn
      exact .cons hn (ih hns)

theorem toScopeSets_trace {entries : List (Scope × List (Event δ))} {sets : List ScopeSet}
    (h : c.toScopeSets entries = .ok sets) :
    List.Forall₂ (fun entry set => set.scope = entry.1.toString ∧
      List.Forall₂ (fun e n => c.toNotification e = .ok n) entry.2 set.notifications)
        entries sets := by
  induction entries generalizing sets with
  | nil =>
      obtain rfl := Except.ok.inj h
      exact .nil
  | cons entry entries ih =>
      obtain ⟨scope, events⟩ := entry
      simp only [toScopeSets, bind_eq_ok_iff] at h
      obtain ⟨ns, hns, sets', hsets, hreturn⟩ := h
      obtain rfl := Except.ok.inj hreturn
      exact .cons ⟨rfl, toNotifications_trace hns⟩ (ih hsets)

/-- A map that comes back has events that come back: what is read for its entries are
these entries, since their scopes are in order and none of them is without events. -/
theorem convertible_of_deserialize {again : ℕ → ℕ → Readings}
    (hagain : ∀ i j, (again i j).Running) {dataMap : EventsByScopeMap δ}
    (hrestorable : Restorable dataMap) {sets : List ScopeSet}
    (hto : c.toScopeSets dataMap.entries = .ok sets)
    (hfrom : c.fromScopeSets again 0 sets .empty = .ok dataMap) {e : Event δ}
    (he : Holds dataMap e) : c.Convertible e := by
  obtain ⟨entries, hentries, hmap⟩ := fromScopeSets_trace hagain hfrom
  have hpairs : List.Forall₂ (fun entry entry' => entry.1 = entry'.1 ∧ List.Forall₂
      (fun e e' => ∃ n, c.toNotification e = .ok n ∧ c.Became n e') entry.2 entry'.2)
      dataMap.entries entries := by
    refine (forall₂_comp (toScopeSets_trace hto) hentries).imp ?_
    rintro entry entry' ⟨set, ⟨hscope, hto⟩, hparse, hfrom⟩
    rw [hscope, Scope.parse_toString] at hparse
    exact ⟨Except.ok.inj hparse, forall₂_comp hto hfrom⟩
  have hsame : entries = dataMap.entries := by
    have hkeys : dataMap.entries.map Prod.fst = entries.map Prod.fst := by
      rw [← List.forall₂_eq_eq_eq, List.forall₂_map_left_iff, List.forall₂_map_right_iff]
      exact hpairs.imp fun _ _ h => h.1
    have hsorted : entries.Pairwise fun a b => a.1 < b.1 := by
      rw [← List.pairwise_map (f := Prod.fst) (R := (· < ·)), ← hkeys, List.pairwise_map]
      exact dataMap.sorted
    have hne : ∀ entry ∈ entries, entry.2 ≠ [] := by
      intro entry' hentry' hnil
      obtain ⟨entry, hentry, -, hevents⟩ := (forall₂_exists hpairs).2 entry' hentry'
      rw [hnil, List.forall₂_nil_right_iff] at hevents
      exact (hrestorable entry.1 entry.2 (SortedMap.find?_eq_some_iff.mpr hentry)).1 hevents
    rw [foldl_pushAll_eq hsorted hne fun _ _ => rfl] at hmap
    have hsame : dataMap = ⟨entries, hsorted⟩ :=
      hmap.trans (SortedMap.ofList_entries ⟨entries, hsorted⟩)
    exact (congrArg SortedMap.entries hsame).symm
  obtain ⟨scope, events, hfind, hmem⟩ := he
  have hentry : (scope, events) ∈ dataMap.entries := SortedMap.find?_eq_some_iff.mp hfind
  rw [hsame, List.forall₂_same] at hpairs
  obtain ⟨n, hn, hbecame⟩ := List.forall₂_same.mp (hpairs _ hentry).2 e hmem
  exact convertible_of_payload hn hbecame.payload

/-- A map that has been read is written so that the same is read again if and only if
its events come back. -/
theorem comes_back_iff {again : ℕ → ℕ → Readings} (hagain : ∀ i j, (again i j).Running)
    {dataMap : EventsByScopeMap δ} (hrestorable : Restorable dataMap)
    (hprotobuf : ∀ sets, c.toScopeSets dataMap.entries = .ok sets → c.protobuf.RoundTrips sets) :
    (∃ wireSchema' wire', c.serialize (c.dataType, some dataMap) = .ok (wireSchema', wire') ∧
      c.deserialize again wireSchema' wire' = .ok (c.dataType, dataMap)) ↔
      ∀ e, Holds dataMap e → c.Convertible e := by
  constructor
  · rintro ⟨wireSchema', wire', hwrite, hread⟩ e he
    simp only [serialize, ne_eq, not_true, if_false, deref_some, bind_eq_ok_iff] at hwrite
    obtain ⟨_, hmap, sets, hsets, hreturn⟩ := hwrite
    obtain rfl := Except.ok.inj hmap
    obtain ⟨rfl, rfl⟩ := Prod.mk.inj (Except.ok.inj hreturn)
    have hparse : c.protobuf.parseFromString (c.protobuf.serializeToString sets) = sets :=
      hprotobuf sets hsets
    simp only [deserialize, ne_eq, not_true, if_false, hparse, bind_eq_ok_iff] at hread
    obtain ⟨dataMap', hfrom, hreturn⟩ := hread
    obtain rfl : dataMap' = dataMap := (Prod.mk.inj (Except.ok.inj hreturn)).2
    exact convertible_of_deserialize hagain hrestorable hsets hfrom he
  · intro hall
    obtain ⟨wire, hwrite, hread⟩ := deserialize_serialize c again dataMap hprotobuf
      fun scope events hfind e he => hall e ⟨scope, events, hfind, he⟩
    exact ⟨_, wire, hwrite, by rw [hread, rebuilt_of_restorable again hrestorable]⟩

/-- The events of a map have the payloads of the notifications it was read from. -/
theorem holds_convertible_iff {sets : List ScopeSet} {entries : List (Scope × List (Event δ))}
    (hentries : List.Forall₂ c.SetBecame sets entries) {dataMap : EventsByScopeMap δ}
    (hmap : dataMap = entries.foldl (fun m e => pushAll m e.1 e.2) .empty) :
    (∀ e, Holds dataMap e → c.Convertible e) ↔
      ∀ set ∈ sets, ∀ n ∈ set.notifications, ∀ data, c.payload n = .ok data → c.Restores data := by
  subst hmap
  constructor
  · intro hall set hset n hn data hdata
    obtain ⟨entry, hentry, -, hevents⟩ := (forall₂_exists hentries).1 set hset
    obtain ⟨e, he, hbecame⟩ := (forall₂_exists hevents).1 n hn
    obtain rfl := Except.ok.inj (hbecame.payload.symm.trans hdata)
    exact (hall e (holds_foldl_pushAll.mpr (.inr ⟨entry, hentry, he⟩))).2
  · intro hall e he
    rcases holds_foldl_pushAll.mp he with ⟨scope, events, hfind, -⟩ | ⟨entry, hentry, he⟩
    · simp at hfind
    · obtain ⟨set, hset, -, hevents⟩ := (forall₂_exists hentries).2 entry hentry
      obtain ⟨n, hn, hbecame⟩ := (forall₂_exists hevents).2 e he
      exact ⟨hbecame.id, hall set hset n hn _ hbecame.payload⟩

/-- What `deserialize` does is done by the loop over what protobuf has read. -/
theorem deserialize_eq (readings : ℕ → ℕ → Readings) (wire : Bytes) :
    (c.toConverter readings).deserialize wireSchema wire =
      (c.fromScopeSets readings 0 (c.protobuf.parseFromString wire) .empty).map
        fun dataMap => (c.dataType, some dataMap) := by
  simp only [toConverter, deserialize, ne_eq, not_true, if_false, bind, Except.bind]
  cases c.fromScopeSets readings 0 (c.protobuf.parseFromString wire) .empty <;> rfl

/-- What protobuf has read makes somebody throw before anything else goes wrong; or
protobuf accepts it, it becomes a map, and the payload of each event comes back. -/
def WellFormed (c : EventsByScopeMapConverter δ) (accepted : Bool) (sets : List ScopeSet) : Prop :=
  FirstBad c.ReadsSet c.RefusesSet sets ∨
    accepted = true ∧ (∀ set ∈ sets, c.ReadsSet set) ∧
      ∀ set ∈ sets, ∀ n ∈ set.notifications, ∀ data, c.payload n = .ok data → c.Restores data

theorem map_sound_iff {readings again : ℕ → ℕ → Readings}
    (hreadings : ∀ i j, (readings i j).Running) (hagain : ∀ i j, (again i j).Running)
    (wire : Bytes) (accepted : Bool)
    (hprotobuf : ∀ dataMap sets,
      c.fromScopeSets readings 0 (c.protobuf.parseFromString wire) .empty = .ok dataMap →
      c.toScopeSets dataMap.entries = .ok sets → c.protobuf.RoundTrips sets) :
    Sound (c.toConverter readings) (c.toConverter again) wireSchema wire (accepted = false) ↔
      c.WellFormed accepted (c.protobuf.parseFromString wire) := by
  have hthrown := forEachFrom_error_iff (P := fun f => ∃ e, f = Fault.thrown e)
    (c.fromScopeSet_ok_iff readings) (c.fromScopeSet_thrown_iff readings) (i := 0)
    (l := c.protobuf.parseFromString wire) (s := .empty)
  have hok := forEachFrom_ok_iff (c.fromScopeSet_ok_iff readings) (i := 0)
    (l := c.protobuf.parseFromString wire) (s := .empty)
  rw [← fromScopeSets_eq_forEachFrom] at hthrown hok
  rw [Sound, deserialize_eq, WellFormed, ← hthrown, ← hok]
  cases hfrom : c.fromScopeSets readings 0 (c.protobuf.parseFromString wire) .empty with
  | error f => simp [Except.map]
  | ok dataMap =>
      obtain ⟨entries, hentries, hmap⟩ := fromScopeSets_trace hreadings hfrom
      have hpayloads := holds_convertible_iff hentries hmap
      have hrestorable : Restorable dataMap := by
        rw [hmap]
        refine restorable_foldl_pushAll (fun scope events h => by simp at h) ?_
        intro entry hentry e he
        obtain ⟨set, -, -, hevents⟩ := (forall₂_exists hentries).2 entry hentry
        obtain ⟨n, -, hbecame⟩ := (forall₂_exists hevents).2 e he
        exact hbecame.settled
      rw [← hpayloads, ← comes_back_iff hagain hrestorable fun sets => hprotobuf dataMap sets hfrom]
      have hread : ∀ wireSchema' wire',
          (c.toConverter again).deserialize wireSchema' wire' = .ok (c.dataType, some dataMap) ↔
            c.deserialize again wireSchema' wire' = .ok (c.dataType, dataMap) := by
        intro wireSchema' wire'
        simp only [toConverter]
        cases c.deserialize again wireSchema' wire' <;> simp [Except.map, Prod.ext_iff]
      show (¬accepted = false ∧ ∃ wireSchema' wire',
        c.serialize (c.dataType, some dataMap) = .ok (wireSchema', wire') ∧
          (c.toConverter again).deserialize wireSchema' wire' = .ok (c.dataType, some dataMap)) ↔ _
      simp [hread]

end

end Rsb.EventCollections.EventsByScopeMapConverter
