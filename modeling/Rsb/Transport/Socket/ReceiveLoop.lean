import Rsb.Library.Runs
import Rsb.Transport.Socket.BusConnection

/-!
What becomes of a connection when a read completes.

A handler either starts exactly one further read, or it leaves a connection
that is closed and removed from its bus, or it does not return. The last case
happens for frames that `notificationToEvent` cannot cope with and for events
that some sink rejects; `Acceptable` says when it does not happen.
-/

namespace Rsb.Transport.Socket

open Library Protocol

variable {δ : Type}

/-! ### Notifications that can be turned into events -/

/-- Ids are long enough to hold a UUID, and the scope is one. -/
structure Protocol.Notification.WellFormed (n : Notification) : Prop where
  senderId : 16 ≤ n.eventId.senderId.length
  causes : ∀ c ∈ n.causes, 16 ≤ c.senderId.length
  scope : ∃ s, Scope.parse (n.scope.getD []) = .ok s

theorem toEventId_ok_iff {e : Protocol.EventId} :
    (∃ id, toEventId e = .ok id) ↔ 16 ≤ e.senderId.length := by
  by_cases h : 16 ≤ e.senderId.length
  · simp [toEventId, UUID.ofBuffer, h, bind, Except.bind, pure, Except.pure]
  · simp [toEventId, UUID.ofBuffer, h, bind, Except.bind]

theorem toEventIds_ok_iff {es : List Protocol.EventId} :
    (∃ ids, toEventIds es = .ok ids) ↔ ∀ e ∈ es, 16 ≤ e.senderId.length := by
  induction es with
  | nil => simp [toEventIds]
  | cons e es ih =>
      rw [List.forall_mem_cons, ← toEventId_ok_iff, ← ih]
      constructor
      · rintro ⟨ids, h⟩
        obtain ⟨id, hid, ids', hids', -⟩ := by
          simpa only [toEventIds, bind_eq_ok_iff] using h
        exact ⟨⟨id, hid⟩, ids', hids'⟩
      · rintro ⟨⟨id, hid⟩, ids, hids⟩
        exact ⟨id :: ids, by rw [toEventIds, hid, hids]; rfl⟩

/-- What the event of a notification has to do with it. -/
theorem notificationToEvent_eq_ok {clock : Clock} {n : Notification} {event : Event Bytes}
    (h : notificationToEvent clock n true = .ok event) :
    n.WellFormed ∧ Scope.parse (n.scope.getD []) = .ok event.scope ∧
      event.content = some (n.data.getD []) ∧
      event.metaData.getUserInfo wireSchemaKey = .ok (n.wireSchema.getD []) := by
  simp only [notificationToEvent, bind_eq_ok_iff] at h
  obtain ⟨id, hid, scope, hscope, ids, hids, heq⟩ := h
  obtain rfl := Except.ok.inj heq
  refine ⟨⟨toEventId_ok_iff.mp ⟨id, hid⟩, toEventIds_ok_iff.mp ⟨ids, hids⟩, scope, hscope⟩,
    ?_, rfl, MetaData.getUserInfo_setUserInfo _ _ _⟩
  rw [hscope, foldl_addCause]
  cases n.method <;> rfl

theorem notificationToEvent_ok_iff (clock : Clock) (n : Notification) :
    (∃ event, notificationToEvent clock n true = .ok event) ↔ n.WellFormed := by
  constructor
  · rintro ⟨event, h⟩
    exact (notificationToEvent_eq_ok h).1
  · rintro ⟨hsender, hcauses, s, hscope⟩
    obtain ⟨id, hid⟩ := toEventId_ok_iff.mpr hsender
    obtain ⟨ids, hids⟩ := toEventIds_ok_iff.mpr hcauses
    exact ⟨_, by simp only [notificationToEvent, hid, hscope, hids, bind, Except.bind]; rfl⟩

/-! ### Sinks that accept an event -/

/-- What a connector consults to handle an event. Handling leaves it alone. -/
def InConnector.setup : InConnector δ → ConnectorBase δ × List (Handler δ)
  | .push c => (c.toConnectorBase, c.handlers)
  | .pull c => (c.toConnectorBase, [])

/-- The connector is active, has a converter for the wire schema that can read
the payload, and none of its handlers throws. -/
def InConnector.Accepts (c : InConnector δ) (now : UInt64) (event : Event Bytes)
    (wireSchema wireData : Bytes) : Prop :=
  c.setup.1.active = true ∧ ∃ converter d,
    c.setup.1.converters.getConverter wireSchema = .ok (some converter) ∧
    converter.deserialize wireSchema wireData = .ok d ∧
    ∀ h ∈ c.setup.2,
      h (((event.modifyMetaData (·.setReceiveTime now 0)).setData d.2).setType d.1) = .ok ()

theorem InConnector.accepts_congr {c c' : InConnector δ} (h : c.setup = c'.setup) (now : UInt64)
    (event : Event Bytes) (wireSchema wireData : Bytes) :
    c.Accepts now event wireSchema wireData ↔ c'.Accepts now event wireSchema wireData := by
  rw [InConnector.Accepts, InConnector.Accepts, h]

section

variable {event : Event Bytes} {wireSchema wireData : Bytes}

theorem InConnector.handle_ok_iff (c : InConnector δ) (now : UInt64)
    (hschema : event.metaData.getUserInfo wireSchemaKey = .ok wireSchema)
    (hcontent : event.content = some wireData) :
    (∃ c', c.handle now event = .ok c') ↔ c.Accepts now event wireSchema wireData := by
  cases c with
  | push c =>
      constructor
      · rintro ⟨c', h⟩
        obtain ⟨_, hpush, -⟩ := bind_eq_ok_iff.mp h
        obtain ⟨event', hevent', hhandlers⟩ := bind_eq_ok_iff.mp hpush
        obtain ⟨hactive, converter, d, hconverter, hd, rfl⟩ :=
          (ConnectorBase.deserialize_ok_iff c.toConnectorBase now hschema hcontent).mp hevent'
        exact ⟨hactive, converter, d, hconverter, hd, callHandlers_ok_iff.mp hhandlers⟩
      · rintro ⟨hactive, converter, d, hconverter, hd, hhandlers⟩
        have hevent' := (ConnectorBase.deserialize_ok_iff c.toConnectorBase now hschema
          hcontent).mpr ⟨hactive, converter, d, hconverter, hd, rfl⟩
        refine ⟨.push c, bind_eq_ok_iff.mpr ⟨(), bind_eq_ok_iff.mpr ⟨_, hevent', ?_⟩, rfl⟩⟩
        exact callHandlers_ok_iff.mpr hhandlers
  | pull c =>
      constructor
      · rintro ⟨c', h⟩
        obtain ⟨_, hpull, -⟩ := bind_eq_ok_iff.mp h
        obtain ⟨event', hevent', -⟩ := bind_eq_ok_iff.mp hpull
        obtain ⟨hactive, converter, d, hconverter, hd, rfl⟩ :=
          (ConnectorBase.deserialize_ok_iff c.toConnectorBase now hschema hcontent).mp hevent'
        exact ⟨hactive, converter, d, hconverter, hd, fun h hh => absurd hh (by simp [setup])⟩
      · rintro ⟨hactive, converter, d, hconverter, hd, -⟩
        have hevent' := (ConnectorBase.deserialize_ok_iff c.toConnectorBase now hschema
          hcontent).mpr ⟨hactive, converter, d, hconverter, hd, rfl⟩
        exact ⟨_, bind_eq_ok_iff.mpr ⟨_, bind_eq_ok_iff.mpr ⟨_, hevent', rfl⟩, rfl⟩⟩

theorem InConnector.setup_handle {c c' : InConnector δ} {now : UInt64}
    (h : c.handle now event = .ok c') : c'.setup = c.setup := by
  cases c with
  | push c =>
      obtain ⟨-, -, heq⟩ := bind_eq_ok_iff.mp h
      obtain rfl := Except.ok.inj heq
      rfl
  | pull c =>
      obtain ⟨p, hpull, heq⟩ := bind_eq_ok_iff.mp h
      obtain ⟨event', -, heq'⟩ := bind_eq_ok_iff.mp hpull
      obtain rfl := Except.ok.inj heq'
      obtain rfl := Except.ok.inj heq
      rfl

/-- The same sinks are registered, and they would handle an event alike. -/
structure Sinks.SameSetup (s s' : Sinks δ) : Prop where
  sinkDispatcher : s.sinkDispatcher = s'.sinkDispatcher
  alive : s.alive = s'.alive
  setup : ∀ k, (s.connector k).setup = (s'.connector k).setup

theorem Sinks.SameSetup.refl (s : Sinks δ) : s.SameSetup s := ⟨rfl, rfl, fun _ => rfl⟩

theorem Sinks.SameSetup.trans {s s' s'' : Sinks δ} (h : s.SameSetup s') (h' : s'.SameSetup s'') :
    s.SameSetup s'' :=
  ⟨h.1.trans h'.1, h.2.trans h'.2, fun k => (h.3 k).trans (h'.3 k)⟩

theorem Sinks.sameSetup_update {s : Sinks δ} {k : ℕ} {c : InConnector δ}
    (h : c.setup = (s.connector k).setup) :
    s.SameSetup { s with connector := Function.update s.connector k c } := by
  refine ⟨rfl, rfl, fun k' => ?_⟩
  by_cases hk : k' = k
  · subst hk
    simp [h]
  · simp [Function.update_of_ne hk]

theorem Sinks.sameSetup_call (now : ℕ → UInt64) (ks : List ℕ) (s : Sinks δ) :
    s.SameSetup (s.call now event ks).2 := by
  induction ks generalizing s with
  | nil => exact .refl s
  | cons k ks ih =>
      rw [Sinks.call]
      split
      · exact .refl s
      · next c hc => exact (Sinks.sameSetup_update (InConnector.setup_handle hc)).trans (ih _)

/-- Every sink is served unless one of them does not accept the event. -/
theorem Sinks.call_ok_iff (now : ℕ → UInt64)
    (hschema : event.metaData.getUserInfo wireSchemaKey = .ok wireSchema)
    (hcontent : event.content = some wireData) (ks : List ℕ) (s : Sinks δ) :
    (s.call now event ks).1 = .ok () ↔
      ∀ k ∈ ks, (s.connector k).Accepts (now k) event wireSchema wireData := by
  induction ks generalizing s with
  | nil => simp [Sinks.call]
  | cons k ks ih =>
      rw [List.forall_mem_cons, ← InConnector.handle_ok_iff _ _ hschema hcontent, Sinks.call]
      split
      · next f hf => simp [hf]
      · next c hc =>
          have hsame := Sinks.sameSetup_update (InConnector.setup_handle hc)
          simp only [ih, hc, Except.ok.injEq, exists_eq', true_and]
          exact forall₂_congr fun k' _ => (InConnector.accepts_congr (hsame.setup k') _ _ _ _).symm

end

/-- The read that follows on one that completes: a body follows on its header,
and a header on a body. -/
def Read.next (read : Read) (r : Completion) : Read :=
  match read with
  | .length => .body (decodeLength r.buffer).toNat
  | .body _ => .length

/-! ### Sending to other connections -/

/-- Whatever goes wrong can be caught. -/
def OnlyThrows (send : BusConnection → Except Fault BusConnection) : Prop :=
  ∀ conn f, send conn = .error f → ∃ e, f = .thrown e

theorem onlyThrows_sendEvent (protobuf : Protobuf) {event : Event Bytes} {data : Bytes}
    (hcontent : event.content = some data) (wireSchema : Bytes) :
    OnlyThrows fun conn => conn.sendEvent protobuf event wireSchema := by
  intro conn f h
  simp only [BusConnection.sendEvent, hcontent] at h
  rcases bind_eq_error_iff.mp h with hderef | ⟨_, -, h⟩
  · simp [deref] at hderef
  rcases bind_eq_error_iff.mp h with hnotification | ⟨n, -, hmessage⟩
  · rcases bind_eq_error_iff.mp hnotification with hid | ⟨_, -, hpure⟩
    · cases he : event.id with
      | none =>
          rw [Event.getId, he] at hid
          exact ⟨_, (Except.error.inj hid).symm⟩
      | some id => simp [Event.getId, he] at hid
    · cases hpure
  · rw [BusConnection.sendMessage] at hmessage
    split_ifs at hmessage
    exact ⟨_, (Except.error.inj hmessage).symm⟩

/-- Between the two states nothing happened to connection `c`. -/
structure Bus.Undisturbed (b b' : Bus δ) (c : ℕ) : Prop where
  alive : b'.alive = b.alive
  connection : b'.connection c = b.connection c
  member : c ∈ b.connections → c ∈ b'.connections
  sinks : b.sinks.SameSetup b'.sinks

namespace Bus

theorem Undisturbed.refl (b : Bus δ) (c : ℕ) : b.Undisturbed b c :=
  ⟨rfl, rfl, id, .refl _⟩

theorem Undisturbed.trans {b b' b'' : Bus δ} {c : ℕ} (h : b.Undisturbed b' c)
    (h' : b'.Undisturbed b'' c) : b.Undisturbed b'' c :=
  ⟨h'.alive.trans h.alive, h'.connection.trans h.connection, h'.member ∘ h.member,
    h.sinks.trans h'.sinks⟩

theorem undisturbed_modifyConnection (b : Bus δ) {c c' : ℕ} (h : c ≠ c')
    (f : BusConnection → BusConnection) : b.Undisturbed (b.modifyConnection c' f) c :=
  ⟨rfl, by simp [modifyConnection, Function.update_of_ne h], id, .refl _⟩

theorem undisturbed_foldl_removeConnection (b : Bus δ) {c : ℕ} {failing : List ℕ}
    (h : c ∉ failing) : b.Undisturbed (failing.foldl removeConnection b) c := by
  induction failing generalizing b with
  | nil => exact .refl b c
  | cons c' failing ih =>
      have hne : c ≠ c' := fun heq => h (heq ▸ List.mem_cons_self)
      have hremove : b.Undisturbed (b.removeConnection c') c :=
        ⟨rfl, rfl, fun hc => List.mem_filter.mpr ⟨hc, by simpa using hne⟩, .refl _⟩
      exact hremove.trans (ih _ fun hmem => h (List.mem_cons_of_mem _ hmem))

theorem sendAll_spec {send : BusConnection → Except Fault BusConnection} (hsend : OnlyThrows send)
    (cs : List ℕ) (b : Bus δ) :
    ∃ failing, (sendAll send cs b).1 = .ok failing ∧ failing ⊆ cs ∧
      ∀ c ∉ cs, b.Undisturbed (sendAll send cs b).2 c := by
  induction cs generalizing b with
  | nil => exact ⟨[], rfl, List.Subset.refl _, fun c _ => .refl b c⟩
  | cons c' cs ih =>
      rw [sendAll]
      split
      · next conn hconn =>
          obtain ⟨failing, hok, hsub, hrest⟩ := ih (b.modifyConnection c' fun _ => conn)
          refine ⟨failing, hok, List.subset_cons_of_subset _ hsub, fun c hc => ?_⟩
          obtain ⟨hne, hc⟩ := not_or.mp (mt List.mem_cons.mpr hc)
          exact (b.undisturbed_modifyConnection hne _).trans (hrest c hc)
      · next e he =>
          obtain ⟨failing, hok, hsub, hrest⟩ := ih b
          refine ⟨c' :: failing, by simp [hok, Except.map], List.cons_subset_cons _ hsub,
            fun c hc => ?_⟩
          exact hrest c (not_or.mp (mt List.mem_cons.mpr hc)).2
      · next f hf he =>
          obtain ⟨e, rfl⟩ := hsend _ _ he
          exact absurd rfl (hf e)

theorem dispatchToConnections_spec {send : BusConnection → Except Fault BusConnection}
    (hsend : OnlyThrows send) {cs : List ℕ} {c : ℕ} (hc : c ∉ cs) (b : Bus δ) :
    (b.dispatchToConnections send cs).1 = .ok () ∧
      b.Undisturbed (b.dispatchToConnections send cs).2 c := by
  obtain ⟨failing, hok, hsub, hrest⟩ := b.sendAll_spec hsend cs
  rcases hall : sendAll send cs b with ⟨result, b'⟩
  rw [hall] at hok hrest
  obtain rfl : result = .ok failing := hok
  simp only [dispatchToConnections, hall, true_and]
  exact (hrest c hc).trans (b'.undisturbed_foldl_removeConnection fun hmem => hc (hsub hmem))

/-- The connection an event came from is not touched while it is dispatched. -/
theorem dispatchIncoming_spec (env : Environment) {event : Event Bytes}
    {wireSchema wireData : Bytes}
    (hschema : event.metaData.getUserInfo wireSchemaKey = .ok wireSchema)
    (hcontent : event.content = some wireData) (c : ℕ) (b : Bus δ) :
    ((b.dispatchIncoming env event c).1 = .ok () ↔ event.scope.SuperScopesFit ∧
        ∀ k ∈ b.sinks.targets event,
          (b.sinks.connector k).Accepts (env.now k) event wireSchema wireData) ∧
      b.Undisturbed (b.dispatchIncoming env event c).2 c := by
  have hincoming : b.Undisturbed (b.handleIncoming env event).2 c := by
    rw [handleIncoming, dispatchToSinks_eq]
    split
    · exact ⟨rfl, rfl, id, Sinks.sameSetup_call _ _ _⟩
    · exact .refl b c
  have hsinks := Sinks.call_ok_iff env.now hschema hcontent (b.sinks.targets event) b.sinks
  have hok : (b.handleIncoming env event).1 = .ok () ↔ event.scope.SuperScopesFit ∧
      ∀ k ∈ b.sinks.targets event,
        (b.sinks.connector k).Accepts (env.now k) event wireSchema wireData := by
    rw [handleIncoming, dispatchToSinks_eq, ← hsinks]
    split
    · next hfit => rw [and_iff_right hfit]
    · next hfit => simp [hfit]
  cases hserver : b.isServer with
  | false =>
      simp only [dispatchIncoming, hserver, Bool.false_eq_true, if_false]
      exact ⟨hok, hincoming⟩
  | true =>
      simp only [dispatchIncoming, hserver, if_true, serverHandleIncoming]
      split
      · next f b' hb' =>
          rw [hb'] at hincoming hok
          exact ⟨hok, hincoming⟩
      · next b' hb' =>
          rw [hb'] at hincoming hok
          have hsend : OnlyThrows (fun conn => do
              let wireSchema ← event.metaData.getUserInfo wireSchemaKey
              conn.sendEvent env.protobuf event wireSchema) := by
            simp only [hschema]
            exact onlyThrows_sendEvent env.protobuf hcontent wireSchema
          have hc : c ∉ b'.connections.filter (· ≠ c) := by simp
          obtain ⟨hsent, hrest⟩ := b'.dispatchToConnections_spec hsend hc
          exact ⟨iff_of_true hsent (hok.mp rfl), hincoming.trans hrest⟩

/-! ### One invocation of a handler -/

/-- The socket is open, and nobody is about to close it. -/
def Usable (b : Bus δ) (c : ℕ) : Prop :=
  (b.connection c).socketOpen = true ∧ (b.connection c).disconnecting = false

/-- The connection goes on receiving: it is as before, with the read `next`. -/
structure Rearmed (b b' : Bus δ) (c : ℕ) (next : Read) : Prop where
  connection : b'.connection c = { b.connection c with pending := [next] }
  alive : b'.alive = b.alive
  member : c ∈ b.connections → c ∈ b'.connections
  sinks : b.sinks.SameSetup b'.sinks

theorem Rearmed.pending {b b' : Bus δ} {c : ℕ} {next : Read} (h : b.Rearmed b' c next) :
    (b'.connection c).pending = [next] := by
  rw [h.connection]

theorem Rearmed.usable {b b' : Bus δ} {c : ℕ} {next : Read} (h : b.Rearmed b' c next)
    (husable : b.Usable c) : b'.Usable c := by
  rw [Usable, h.connection]
  exact husable

/-- The connection is gone. -/
structure Closed (b : Bus δ) (c : ℕ) : Prop where
  pending : (b.connection c).pending = []
  socket : (b.connection c).socketOpen = false
  removed : b.alive = true → c ∉ b.connections

theorem Closed.not_rearmed {b b' : Bus δ} {c : ℕ} {next : Read} (h : b'.Closed c) :
    ¬b.Rearmed b' c next := by
  intro hr
  exact absurd (h.pending.symm.trans hr.pending) (by simp)

/-- The handler of this read goes on to the next one: the read is complete, and
a body is a notification for a bus that still exists. -/
def Proceeds (env : Environment) (b : Bus δ) : Read → Completion → Prop
  | .length, r => r.error = .success ∧ r.bytesTransferred = 4
  | .body expected, r => r.error = .success ∧ r.bytesTransferred = expected ∧
      (∃ n, env.protobuf.parseFromString r.buffer = some n) ∧ b.alive = true

/-- The handler of this read returns: a buffer for the body can be allocated,
and a complete body is a notification that makes an event which every sink that
is to receive it accepts, on a scope of which the ones above can be made. Bodies the
parser rejects are fine. -/
def Acceptable (env : Environment) (b : Bus δ) : Read → Completion → Prop
  | .length, r => r.error = .success → r.bytesTransferred = 4 →
      env.allocates (decodeLength r.buffer).toNat = true
  | .body expected, r => r.error = .success → r.bytesTransferred = expected →
      ∀ n, env.protobuf.parseFromString r.buffer = some n → n.WellFormed ∧
        (b.alive = true → ∀ event, notificationToEvent env.clock n true = .ok event →
          event.scope.SuperScopesFit ∧ ∀ k ∈ b.sinks.targets event,
            (b.sinks.connector k).Accepts (env.now k) event (n.wireSchema.getD [])
              (n.data.getD []))

section

variable (env : Environment) {b : Bus δ} {c : ℕ} (r : Completion)

theorem closed_performSafeCleanup (hpending : (b.connection c).pending = [])
    (husable : b.Usable c) : (b.performSafeCleanup c).Closed c := by
  have hremoved : ∀ b' : Bus δ, c ∉ (b'.removeConnection c).connections := fun b' => by
    simp [removeConnection]
  cases halive : b.alive with
  | false =>
      simp only [performSafeCleanup, halive, husable.2, Bool.false_eq_true, if_false, Bool.not_false,
        if_true]
      exact ⟨by simpa [BusConnection.disconnect] using hpending, by simp [BusConnection.disconnect],
        fun h => absurd (halive.symm.trans h) (by simp)⟩
  | true =>
      have hdisconnecting : ((b.removeConnection c).connection c).disconnecting = false := husable.2
      simp only [performSafeCleanup, halive, hdisconnecting, Bool.not_false, if_true]
      refine ⟨?_, by simp [BusConnection.disconnect], fun _ => hremoved b⟩
      simpa [BusConnection.disconnect, removeConnection] using hpending

theorem handleReadLength_spec (hpending : (b.connection c).pending = []) (husable : b.Usable c) :
    ((b.handleReadLength env c r).1 = .ok () ↔ b.Acceptable env .length r) ∧
      ((b.handleReadLength env c r).1 = .ok () →
        (b.Proceeds env .length r →
          b.Rearmed (b.handleReadLength env c r).2 c (Read.length.next r)) ∧
        (¬b.Proceeds env .length r → (b.handleReadLength env c r).2.Closed c)) := by
  by_cases heof : r.error = .eof
  · simp only [handleReadLength, heof, if_true, Acceptable, Proceeds, true_iff]
    refine ⟨fun h => absurd h (by simp), fun _ => ⟨fun h => absurd h.1 (by simp), fun _ => ?_⟩⟩
    split
    · exact closed_performSafeCleanup (by simpa [BusConnection.shutdown] using hpending)
        (by simpa [Usable, BusConnection.shutdown] using husable)
    · exact closed_performSafeCleanup hpending husable
  by_cases hfail : r.error ≠ .success ∨ r.bytesTransferred ≠ 4
  · rw [handleReadLength, if_neg heof, if_pos hfail]
    have hstops : ¬(r.error = .success ∧ r.bytesTransferred = 4) := by
      simpa only [not_and_or] using hfail
    simp only [Acceptable, Proceeds, true_iff]
    exact ⟨fun herror hbytes => absurd ⟨herror, hbytes⟩ hstops,
      fun _ => ⟨fun h => absurd h hstops, fun _ => closed_performSafeCleanup hpending husable⟩⟩
  · obtain ⟨herror, hbytes⟩ : r.error = .success ∧ r.bytesTransferred = 4 := by
      simpa only [not_or, not_not] using hfail
    rw [handleReadLength, if_neg heof, if_neg hfail]
    simp only [Acceptable, Proceeds, herror, hbytes, forall_const]
    by_cases halloc : env.allocates (decodeLength r.buffer).toNat = true
    · simp only [halloc, if_true, true_and]
      refine fun _ => ⟨fun _ => ⟨?_, rfl, id, .refl _⟩, fun h => absurd trivial h⟩
      simp only [connection_modifyConnection_self, hpending, List.nil_append, Read.next]
    · simp [halloc]

theorem handleReadBody_spec {expected : ℕ} (hpending : (b.connection c).pending = [])
    (husable : b.Usable c) :
    ((b.handleReadBody env c r expected).1 = .ok () ↔ b.Acceptable env (.body expected) r) ∧
      ((b.handleReadBody env c r expected).1 = .ok () →
        (b.Proceeds env (.body expected) r →
          b.Rearmed (b.handleReadBody env c r expected).2 c .length) ∧
        (¬b.Proceeds env (.body expected) r → (b.handleReadBody env c r expected).2.Closed c)) := by
  have hclosed := closed_performSafeCleanup hpending husable
  by_cases hfail : r.error ≠ .success ∨ r.bytesTransferred ≠ expected
  · rw [handleReadBody, if_pos hfail]
    have hstops : ¬(r.error = .success ∧ r.bytesTransferred = expected) := by
      simpa only [not_and_or] using hfail
    simp only [Acceptable, Proceeds, true_iff]
    exact ⟨fun herror hbytes => absurd ⟨herror, hbytes⟩ hstops,
      fun _ => ⟨fun h => absurd ⟨h.1, h.2.1⟩ hstops, fun _ => hclosed⟩⟩
  obtain ⟨herror, hbytes⟩ : r.error = .success ∧ r.bytesTransferred = expected := by
    simpa only [not_or, not_not] using hfail
  rw [handleReadBody, if_neg hfail]
  simp only [Acceptable, Proceeds, herror, hbytes, forall_const]
  cases hparse : env.protobuf.parseFromString r.buffer with
  | none => exact ⟨by simp, fun _ => ⟨by simp, fun _ => hclosed⟩⟩
  | some n =>
      simp only [Option.some.injEq, forall_eq', exists_eq', true_and]
      cases hevent : notificationToEvent env.clock n true with
      | error f =>
          have hmalformed : ¬n.WellFormed := by
            rw [← notificationToEvent_ok_iff env.clock n, hevent]
            simp
          simp [hmalformed]
      | ok event =>
          obtain ⟨hwell, -, hcontent, hschema⟩ := notificationToEvent_eq_ok hevent
          simp only [hwell, true_and, Except.ok.injEq, forall_eq']
          cases halive : b.alive with
          | false => exact ⟨by simp, fun _ => ⟨by simp, fun _ => hclosed⟩⟩
          | true =>
              obtain ⟨hok, hrest⟩ := b.dispatchIncoming_spec env hschema hcontent c
              rw [← hok]
              rcases hdispatch : b.dispatchIncoming env event c with ⟨result, b'⟩
              rw [hdispatch] at hrest
              replace hrest : b.Undisturbed b' c := hrest
              cases result with
              | error f => simp
              | ok _ =>
                  refine ⟨by simp, fun _ => ⟨fun _ => ?_, fun h => absurd rfl h⟩⟩
                  refine ⟨?_, hrest.alive, hrest.member, hrest.sinks⟩
                  simp [BusConnection.receiveEvent, hrest.connection, hpending]

/-- An invocation ends as it should: it returns, and the connection either goes
on receiving or is gone. -/
def Survives (b : Bus δ) (result : Except Fault Unit) (b' : Bus δ) (c : ℕ) (next : Read) : Prop :=
  result = .ok () ∧
    (b.Rearmed b' c next ∧ ¬b'.Closed c ∨ b'.Closed c ∧ ¬b.Rearmed b' c next)

theorem complete_spec {read : Read} (hpending : (b.connection c).pending = [read])
    (husable : b.Usable c) :
    ∃ result b', b.complete env c r = some (result, b') ∧
      (result = .ok () ↔ b.Acceptable env read r) ∧
      (result = .ok () → (b.Proceeds env read r → b.Rearmed b' c (read.next r)) ∧
        (¬b.Proceeds env read r → b'.Closed c)) := by
  let b₀ := b.modifyConnection c fun conn => { conn with pending := [] }
  have hpending₀ : (b₀.connection c).pending = [] := by simp [b₀]
  have husable₀ : b₀.Usable c := by simpa [Usable, b₀] using husable
  have hrearmed : ∀ {b' : Bus δ} {next : Read}, b₀.Rearmed b' c next → b.Rearmed b' c next :=
    fun hr => ⟨by simpa [b₀] using hr.connection, hr.alive, hr.member, hr.sinks⟩
  rw [complete, hpending]
  cases read with
  | length =>
      obtain ⟨hok, hends⟩ := handleReadLength_spec env r hpending₀ husable₀
      exact ⟨_, _, rfl, hok, fun h => ⟨fun hp => hrearmed ((hends h).1 hp), (hends h).2⟩⟩
  | body expected =>
      obtain ⟨hok, hends⟩ := handleReadBody_spec env r hpending₀ husable₀
      exact ⟨_, _, rfl, hok, fun h => ⟨fun hp => hrearmed ((hends h).1 hp), (hends h).2⟩⟩

theorem complete_survives_iff {read : Read} (hpending : (b.connection c).pending = [read])
    (husable : b.Usable c) :
    ∃ result b', b.complete env c r = some (result, b') ∧
      (b.Survives result b' c (read.next r) ↔ b.Acceptable env read r) := by
  obtain ⟨result, b', hcomplete, hok, hends⟩ := complete_spec env r hpending husable
  refine ⟨result, b', hcomplete, Iff.trans ⟨And.left, fun h => ⟨h, ?_⟩⟩ hok⟩
  by_cases hproceeds : b.Proceeds env read r
  · have hr := (hends h).1 hproceeds
    exact .inl ⟨hr, fun hc => hc.not_rearmed hr⟩
  · have hc := (hends h).2 hproceeds
    exact .inr ⟨hc, hc.not_rearmed⟩

end

end Bus

/-! ### The loop -/

namespace ReceiveLoop

/-- The bus, and the fault that left a handler of the connection. -/
structure State (δ : Type) where
  bus : Bus δ
  escaped : Option Fault

inductive Label (δ : Type)
  /-- The pending read completes. -/
  | complete (env : Environment) (r : Completion)
  /-- Sinks come and go, or change their state. -/
  | changeSinks (sinks : Sinks δ)
  /-- The last reference to the bus goes away. -/
  | expire

/-- The life of connection `c`. After a fault its handlers are not run again. -/
def step (c : ℕ) (s : State δ) : Label δ → Option (State δ)
  | .complete env r =>
      match s.escaped with
      | some _ => none
      | none =>
          match s.bus.complete env c r with
          | none => none
          | some (.ok (), b) => some ⟨b, none⟩
          | some (.error f, b) => some ⟨b, some f⟩
  | .changeSinks sinks => some { s with bus := { s.bus with sinks := sinks } }
  | .expire => some { s with bus := { s.bus with alive := false } }

/-- The completion is one the handler can deal with. -/
def Accepted (c : ℕ) (s : State δ) : Label δ → Prop
  | .complete env r => ∀ read, (s.bus.connection c).pending = [read] → s.bus.Acceptable env read r
  | _ => True

/-- The connection receives, or it is gone. -/
structure Sound (c : ℕ) (s : State δ) : Prop where
  escaped : s.escaped = none
  ends : ((∃ read, (s.bus.connection c).pending = [read]) ∧ s.bus.Usable c) ∨ s.bus.Closed c

theorem Sound.step {c : ℕ} {s s' : State δ} {l : Label δ} (h : Sound c s) (hl : Accepted c s l)
    (hstep : ReceiveLoop.step c s l = some s') : Sound c s' := by
  cases l with
  | complete env r =>
      simp only [ReceiveLoop.step, h.escaped] at hstep
      rcases h.ends with ⟨⟨read, hread⟩, husable⟩ | hclosed
      · obtain ⟨result, b', hcomplete, hiff⟩ := Bus.complete_survives_iff env r hread
          husable
        obtain ⟨rfl, hends⟩ := hiff.mpr (hl read hread)
        rw [hcomplete] at hstep
        obtain rfl := Option.some.inj hstep
        refine ⟨rfl, hends.imp (fun hr => ⟨⟨_, hr.1.pending⟩, hr.1.usable husable⟩) And.left⟩
      · simp [Bus.complete, hclosed.pending] at hstep
  | changeSinks sinks =>
      obtain rfl := Option.some.inj hstep
      exact ⟨h.escaped, h.ends.imp id fun hc => ⟨hc.pending, hc.socket, hc.removed⟩⟩
  | expire =>
      obtain rfl := Option.some.inj hstep
      refine ⟨h.escaped, h.ends.imp id fun hc => ⟨hc.pending, hc.socket, fun halive => ?_⟩⟩
      exact absurd halive (by simp)

/-- A handler deals with what it is given exactly if that is acceptable; and as
long as only acceptable input arrives, the connection goes on receiving until
it is closed. -/
theorem receive_survives_iff :
    (∀ (env : Environment) (b : Bus δ) (c : ℕ) (read : Read) (r : Completion),
      (b.connection c).pending = [read] → b.Usable c →
        ∃ result b', b.complete env c r = some (result, b') ∧
          (b.Survives result b' c (read.next r) ↔ b.Acceptable env read r)) ∧
    ∀ (c : ℕ) (s s' : State δ) (labels : List (Label δ)), Sound c s →
      Along (step c) (Accepted c) s labels → exec (step c) s labels = some s' → Sound c s' :=
  ⟨fun _ _ _ _ _ hpending husable => Bus.complete_survives_iff _ _ hpending husable,
    fun _ _ _ _ hs halong hrun =>
      exec_invariant_along (fun _ _ _ h hl hstep => h.step hl hstep) hs halong hrun⟩

/-- A client bus without sinks that is reading the body of a notification. -/
def sampleBus : Bus Bytes where
  alive := true
  isServer := false
  sinks := ⟨.empty, fun _ => .push ⟨⟨.predicateList [], false⟩, []⟩, fun _ => false⟩
  connections := [0]
  connection _ := ⟨true, false, false, false, [.body 23], []⟩

/-- The encoding of a notification with an event id only. -/
def scopelessBody : Bytes :=
  [226, 6, 20, 10, 16, 0, 0, 0, 0, 0, 0, 0, 0, 0, 0, 0, 0, 0, 0, 0, 0, 16, 1]

def sampleEnvironment : Environment where
  protobuf := {
    serializeToString := fun _ => scopelessBody
    parseFromString := fun b =>
      if b = scopelessBody then
        some ⟨⟨List.replicate 16 0, 1⟩, none, none, none, none, [], none⟩
      else none }
  clock _ := 1
  now _ := 1
  allocates _ := true

/-- A notification without a scope, which its definition makes optional, throws
an exception out of the handler. -/
theorem not_survives_scopelessBody :
    (sampleBus.connection 0).pending = [.body 23] ∧ sampleBus.Usable 0 ∧
      ∃ b', sampleBus.complete sampleEnvironment 0 ⟨.success, 23, scopelessBody⟩ =
          some (.error (invalidArgument (bytes "Empty scope string given.")), b') ∧
        ¬sampleBus.Survives (.error (invalidArgument (bytes "Empty scope string given."))) b' 0
          .length := by
  refine ⟨rfl, ⟨rfl, rfl⟩, _, rfl, fun h => ?_⟩
  exact absurd h.1 (by simp)

theorem receive_survives_iff_header :
    ∃ result b', (sampleBus.modifyConnection 0 fun c => { c with pending := [.length] }).complete
        sampleEnvironment 0 ⟨.success, 4, [23, 0, 0, 0]⟩ = some (result, b') ∧
      (sampleBus.modifyConnection 0 fun c => { c with pending := [.length] }).Survives result b' 0
        (.body 23) := by
  obtain ⟨result, b', hcomplete, hiff⟩ := (receive_survives_iff (δ := Bytes)).1 sampleEnvironment
    (sampleBus.modifyConnection 0 fun c => { c with pending := [.length] }) 0 .length
    ⟨.success, 4, [23, 0, 0, 0]⟩ rfl ⟨rfl, rfl⟩
  exact ⟨result, b', hcomplete, hiff.mpr fun _ _ => rfl⟩

end ReceiveLoop

end Rsb.Transport.Socket
