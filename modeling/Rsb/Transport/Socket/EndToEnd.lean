import Rsb.Transport.Socket.Framing
import Rsb.Transport.Socket.Relay

/-!
Events on their way from a connector of one client through the server to a connector of
another client (`OutConnector.cpp`, `BusImpl.cpp`, `BusConnection.cpp`, `BusServerImpl.cpp`,
`InPullConnector.cpp`).

The publishing client turns an event into a frame; the server makes an event of the frame and
a frame of the event again; the receiving client makes an event of that one. For each of the
three processes there is a lemma about one message, which the lemma about a stream of
messages, `run_messages`, iterates.
-/

namespace Rsb.Transport.Socket

open Library Protocol

variable {δ : Type}

/-! ### Reading a stream of messages -/

namespace Reader

/-- The bus while the handler of a read runs: no read is pending. -/
def awake (b : Bus δ) (c : ℕ) : Bus δ :=
  b.modifyConnection c fun conn => { conn with pending := [] }

theorem modifyConnection_modifyConnection (b : Bus δ) (c : ℕ)
    (f g : BusConnection → BusConnection) :
    (b.modifyConnection c f).modifyConnection c g = b.modifyConnection c (g ∘ f) := by
  simp [Bus.modifyConnection]

/-- Two reads, for the header and for the body. -/
theorem run_message {env : Environment} {c : ℕ} {b b' : Bus δ} {message : Bytes}
    (hpending : (b.connection c).pending = [.length]) (hlength : message.length < 2 ^ 32)
    (halloc : env.allocates message.length = true)
    (hbody : (awake b c).handleReadBody env c ⟨.success, message.length, message⟩ message.length =
      (.ok (), b')) (rest : Bytes) (seen : List Bytes) (n : ℕ) :
    run env c (n + 2) ⟨b, frame message ++ rest, seen⟩ =
      run env c n ⟨b', rest, seen ++ [message]⟩ := by
  let header := encodeLength (UInt32.ofNat message.length)
  let b₁ := (awake b c).modifyConnection c fun conn =>
    { conn with pending := conn.pending ++ [.body message.length] }
  have hstream : frame message ++ rest = header ++ (message ++ rest) := by simp [frame, header]
  have hcomplete : b.complete env c ⟨.success, 4, header⟩ = some (.ok (), b₁) := by
    simp only [Bus.complete, hpending, Bus.handleReadLength, header, decodeLength_frame hlength,
      halloc]
    rfl
  have htake : (header ++ (message ++ rest)).take 4 = header := List.take_left' rfl
  have hdrop : (header ++ (message ++ rest)).drop 4 = message ++ rest := List.drop_left' rfl
  have hsize : 4 ≤ (header ++ (message ++ rest)).length := by simp [header]
  have hheader : step env c ⟨b, frame message ++ rest, seen⟩ =
      some ⟨b₁, message ++ rest, seen⟩ := by
    simp only [step, hpending, Read.size, hstream, hsize, if_true, htake, hcomplete, hdrop,
      Read.received, List.append_nil]
  have hpending₁ : (b₁.connection c).pending = [.body message.length] := by
    simp [b₁, awake]
  have hawake : b₁.modifyConnection c (fun conn => { conn with pending := [] }) = awake b c := by
    simp only [b₁, awake, modifyConnection_modifyConnection]
    rfl
  have hcomplete₁ : b₁.complete env c ⟨.success, message.length, message⟩ = some (.ok (), b') := by
    simp only [Bus.complete, hpending₁, hawake, hbody]
  have hsize₁ : message.length ≤ (message ++ rest).length := by simp
  have hmessage : step env c ⟨b₁, message ++ rest, seen⟩ = some ⟨b', rest, seen ++ [message]⟩ := by
    simp only [step, hpending₁, Read.size, hsize₁, if_true, List.take_left, hcomplete₁,
      List.drop_left, Read.received]
  rw [run, hheader]
  simp only [run, hmessage]

/-- What one message leads to, a stream of messages leads to; `I` speaks of the items whose
messages have been dealt with. -/
theorem run_messages {α : Type} (message : α → Bytes) (env : Environment) (c : ℕ)
    (I : List α → Bus δ → Prop) (items : List α)
    (hpending : ∀ seen b, I seen b → (b.connection c).pending = [.length])
    (hitems : ∀ a ∈ items,
      (message a).length < 2 ^ 32 ∧ env.allocates (message a).length = true)
    (hbody : ∀ seen a b, a ∈ items → I seen b → ∃ b', (awake b c).handleReadBody env c
      ⟨.success, (message a).length, message a⟩ (message a).length = (.ok (), b') ∧
        I (seen ++ [a]) b')
    {b : Bus δ} (seen : List α) (hb : I seen b) :
    ∃ b', I (seen ++ items) b' ∧ ∀ n, 2 * items.length ≤ n →
      run env c n ⟨b, (items.map message).flatMap frame, seen.map message⟩ =
        ⟨b', [], (seen ++ items).map message⟩ := by
  induction items generalizing b seen with
  | nil =>
      refine ⟨b, by simpa using hb, fun n _ => ?_⟩
      cases n with
      | zero => simp [run]
      | succ n => simp [run, step, hpending seen b hb, Read.size]
  | cons a items ih =>
      obtain ⟨hlength, halloc⟩ := hitems a List.mem_cons_self
      obtain ⟨b₁, hb₁, hI₁⟩ := hbody seen a b List.mem_cons_self hb
      obtain ⟨b', hI', hrun⟩ := ih (fun a' ha' => hitems a' (List.mem_cons_of_mem _ ha'))
        (fun seen' a' b ha' => hbody seen' a' b (List.mem_cons_of_mem _ ha')) (seen ++ [a]) hI₁
      refine ⟨b', by simpa using hI', fun n hn => ?_⟩
      obtain ⟨n, rfl⟩ : ∃ k, n = k + 2 := ⟨n - 2, by simp at hn; omega⟩
      have hrest := hrun n (by simp at hn; omega)
      rw [List.map_append, List.map_singleton] at hrest
      rw [List.map_cons, List.flatMap_cons, run_message (hpending seen b hb) hlength halloc hb₁,
        hrest]
      simp

end Reader

/-! ### Sending to a connection in good order -/

namespace Bus

/-- Sending to a connection in good order is not disturbed by what happens with the others. -/
theorem sendAll_healthy {send : BusConnection → Except Fault BusConnection} (hsend : OnlyThrows send)
    {cs : List ℕ} (hnodup : cs.Nodup) {c : ℕ} (hc : c ∈ cs) {b : Bus δ} {conn : BusConnection}
    (hok : send (b.connection c) = .ok conn) :
    ∃ failing, (sendAll send cs b).1 = .ok failing ∧ c ∉ failing ∧
      (sendAll send cs b).2.connection c = conn := by
  induction cs generalizing b with
  | nil => simp at hc
  | cons c' cs ih =>
      obtain ⟨hnot, hnodup'⟩ := List.nodup_cons.mp hnodup
      by_cases hcc : c = c'
      · subst hcc
        obtain ⟨failing, hfailing, hsub, hrest⟩ :=
          sendAll_spec hsend cs (b.modifyConnection c fun _ => conn)
        rw [sendAll, hok]
        refine ⟨failing, hfailing, fun hmem => hnot (hsub hmem), ?_⟩
        rw [(hrest c hnot).connection, connection_modifyConnection_self]
      · have hmem : c ∈ cs := (List.mem_cons.mp hc).resolve_left hcc
        rw [sendAll]
        split
        · next conn' _ =>
            refine ih hnodup' hmem ?_
            rw [connection_modifyConnection, if_neg hcc]
            exact hok
        · obtain ⟨failing, hfailing, hnotin, hconn⟩ := ih hnodup' hmem hok
          refine ⟨c' :: failing, by simp [hfailing, Except.map], ?_, hconn⟩
          exact fun h => (List.mem_cons.mp h).elim hcc hnotin
        · next f hf he =>
            obtain ⟨e, rfl⟩ := hsend _ _ he
            exact absurd rfl (hf e)

theorem sendAll_frame (send : BusConnection → Except Fault BusConnection) (cs : List ℕ)
    (b : Bus δ) :
    (sendAll send cs b).2 = { b with connection := (sendAll send cs b).2.connection } := by
  induction cs generalizing b with
  | nil => rfl
  | cons c cs ih =>
      rw [sendAll]
      split
      · rw [ih]
        rfl
      · exact ih b
      · rfl

theorem foldl_removeConnection (failing : List ℕ) (b : Bus δ) :
    failing.foldl removeConnection b =
      { b with connections := b.connections.filter fun c => c ∉ failing } := by
  induction failing generalizing b with
  | nil => simp
  | cons c failing ih =>
      rw [List.foldl_cons, ih]
      simp [removeConnection, List.filter_filter, Bool.and_comm]

/-- What dispatching comes to for a connection in good order; others may fail. -/
theorem dispatchToConnections_healthy (message : Bytes) {cs : List ℕ} (hnodup : cs.Nodup) {c : ℕ}
    (hc : c ∈ cs) (b : Bus δ) (hhealthy : (b.connection c).Healthy) :
    ∃ connections connection,
      b.dispatchToConnections (·.sendMessage message) cs =
        (.ok (), { b with connections, connection }) ∧
      (c ∈ b.connections → c ∈ connections) ∧ (b.connections.Nodup → connections.Nodup) ∧
      connection c = { b.connection c with written := (b.connection c).written ++ frame message } ∧
      ∀ c' ∉ cs, connection c' = b.connection c' := by
  have hsend : OnlyThrows fun conn : BusConnection => conn.sendMessage message := by
    intro conn f h
    simp only [BusConnection.sendMessage] at h
    split_ifs at h
    exact ⟨_, (Except.error.inj h).symm⟩
  obtain ⟨failing, hfailing, hnot, hconn⟩ :=
    sendAll_healthy hsend hnodup hc (hhealthy.sendMessage message)
  obtain ⟨-, -, -, hothers⟩ := sendAll_spec hsend cs b
  refine ⟨b.connections.filter fun c => c ∉ failing, _, ?_, fun hmem => ?_, fun h => h.filter _,
    hconn, fun c' hc' => (hothers c' hc').connection⟩
  · rw [dispatchToConnections]
    split
    · next f b' hall =>
        rw [hall] at hfailing
        cases hfailing
    · next failing' b' hall =>
        rw [hall] at hfailing
        obtain rfl := Except.ok.inj hfailing
        have hframe := sendAll_frame (fun conn : BusConnection => conn.sendMessage message) cs b
        rw [hall] at hframe ⊢
        rw [foldl_removeConnection]
        simp only at hframe ⊢
        rw [hframe]
  · exact List.mem_filter.mpr ⟨hmem, by simpa using hnot⟩

/-! ### The server -/

/-- The server reads from connection `i` and passes on to connection `j`. -/
structure Relays (b : Bus δ) (i j : ℕ) : Prop where
  alive : b.alive = true
  isServer : b.isServer = true
  ne : j ≠ i
  member : j ∈ b.connections
  nodup : b.connections.Nodup
  healthy : (b.connection j).Healthy
  pending : (b.connection i).pending = [.length]

/-- The server passes a notification on as `message'`. -/
structure PassesOn (env : Environment) (message message' : Bytes) : Prop where
  passes : ∃ n e, env.protobuf.parseFromString message = some n ∧
    notificationToEvent env.clock n true = .ok e ∧
    ∀ conn : BusConnection, (do
      let wireSchema ← e.metaData.getUserInfo wireSchemaKey
      conn.sendEvent env.protobuf e wireSchema) = conn.sendMessage message'

theorem Relays.reads {env : Environment} {b : Bus δ} {i j : ℕ} (h : b.Relays i j)
    {message message' : Bytes} (haccepts : b.AcceptsMessage env message)
    (hpasses : PassesOn env message message') :
    ∃ b', (Reader.awake b i).handleReadBody env i ⟨.success, message.length, message⟩
        message.length = (.ok (), b') ∧
      b'.Relays i j ∧ b.sinks.SameSetup b'.sinks ∧
      (b'.connection j).written = (b.connection j).written ++ frame message' := by
  obtain ⟨n, e, hparse, hevent, hsend⟩ := hpasses
  obtain ⟨hfit, hsinks⟩ := (haccepts.acceptable rfl rfl n hparse).2 h.alive e hevent
  obtain ⟨-, -, hcontent, hschema⟩ := notificationToEvent_eq_ok hevent
  let b₀ := Reader.awake b i
  let sinks := (b₀.sinks.call env.now e (b₀.sinks.targets e)).2
  have hok : (b₀.sinks.call env.now e (b₀.sinks.targets e)).1 = .ok () :=
    (Sinks.call_ok_iff env.now hschema hcontent _ _).mpr hsinks
  have hincoming : b₀.handleIncoming env e = (.ok (), { b₀ with sinks }) := by
    rw [handleIncoming, dispatchToSinks_eq, if_pos hfit, hok]
  have hj : b₀.connection j = b.connection j := by
    simp only [b₀, Reader.awake, connection_modifyConnection, if_neg h.ne]
  have htargets : j ∈ b₀.connections.filter (· ≠ i) :=
    List.mem_filter.mpr ⟨h.member, by simpa using h.ne⟩
  obtain ⟨connections, connection, hdispatch, hmember, hnodup, hwritten, hothers⟩ :=
    dispatchToConnections_healthy message' (h.nodup.filter _) htargets { b₀ with sinks }
      (hj ▸ h.healthy)
  let b₂ : Bus δ := { b₀ with sinks, connections, connection }
  have hdispatched : b₀.dispatchIncoming env e i = (.ok (), b₂) := by
    have hserver : b₀.isServer = true := h.isServer
    rw [dispatchIncoming, if_pos hserver, serverHandleIncoming, hincoming]
    simp only [hsend]
    exact hdispatch
  refine ⟨b₂.modifyConnection i (·.receiveEvent), ?_, ?_, ?_, ?_⟩
  · have halive : b₀.alive = true := h.alive
    simp only [handleReadBody, ne_eq, not_true, or_self, if_false, hparse, hevent]
    rw [if_pos halive, hdispatched]
  · refine ⟨h.alive, h.isServer, h.ne, hmember h.member, hnodup h.nodup, ?_, ?_⟩
    · rw [connection_modifyConnection, if_neg h.ne]
      show (connection j).Healthy
      rw [hwritten]
      exact ⟨hj ▸ h.healthy.1, hj ▸ h.healthy.2, hj ▸ h.healthy.3⟩
    · rw [connection_modifyConnection_self]
      show (connection i).pending ++ [.length] = _
      rw [hothers i (by simp)]
      simp [b₀, Reader.awake]
  · exact Sinks.sameSetup_call _ _ _
  · rw [connection_modifyConnection, if_neg h.ne]
    show (connection j).written = _
    rw [hwritten, ← hj]

end Bus

/-! ### The receiving client -/

/-- A sink that is called once handles the event once, and the others are not touched. -/
theorem Sinks.connector_call {now : ℕ → UInt64} {event : Event Bytes} {ks : List ℕ} {s : Sinks δ}
    (hok : (s.call now event ks).1 = .ok ()) (hnodup : ks.Nodup) (k : ℕ) :
    (k ∉ ks → (s.call now event ks).2.connector k = s.connector k) ∧
      (k ∈ ks →
        (s.connector k).handle (now k) event = .ok ((s.call now event ks).2.connector k)) := by
  induction ks generalizing s with
  | nil => exact ⟨fun _ => rfl, fun hk => absurd hk List.not_mem_nil⟩
  | cons k' ks ih =>
      obtain ⟨hnot, hnodup'⟩ := List.nodup_cons.mp hnodup
      rw [Sinks.call] at hok ⊢
      cases hhandle : (s.connector k').handle (now k') event with
      | error f => simp [hhandle] at hok
      | ok c =>
          simp only [hhandle] at hok ⊢
          obtain ⟨hout, hin⟩ := ih hok hnodup'
          refine ⟨fun hk => ?_, fun hk => ?_⟩
          · obtain ⟨hne, hk⟩ := not_or.mp (mt List.mem_cons.mpr hk)
            rw [hout hk]
            exact Function.update_of_ne hne ..
          · by_cases hkk : k = k'
            · subst hkk
              rw [hout hnot, hhandle]
              simp
            · have hmem : k ∈ ks := (List.mem_cons.mp hk).resolve_left hkk
              rw [← hin hmem]
              simp [Function.update_of_ne hkk]

namespace Bus

/-- A client reads from connection `r`; its sinks have been registered one after the other. -/
structure Receives (b : Bus δ) (r : ℕ) (registrations : List (Scope × ℕ)) : Prop where
  alive : b.alive = true
  isClient : b.isServer = false
  pending : (b.connection r).pending = [.length]
  sinkDispatcher : b.sinks.sinkDispatcher = .ofRegistrations registrations
  nodup : (registrations.map (·.2)).Nodup

theorem Receives.reads {env : Environment} {b : Bus δ} {r : ℕ} {registrations : List (Scope × ℕ)}
    (h : b.Receives r registrations) {message : Bytes} (haccepts : b.AcceptsMessage env message)
    {n : Notification} {e : Event Bytes} (hparse : env.protobuf.parseFromString message = some n)
    (hevent : notificationToEvent env.clock n true = .ok e) :
    ∃ b', (Reader.awake b r).handleReadBody env r ⟨.success, message.length, message⟩
        message.length = (.ok (), b') ∧
      b'.Receives r registrations ∧ b.sinks.SameSetup b'.sinks ∧
      ∀ k, (k ∉ b.sinks.targets e → b'.sinks.connector k = b.sinks.connector k) ∧
        (k ∈ b.sinks.targets e →
          (b.sinks.connector k).handle (env.now k) e = .ok (b'.sinks.connector k)) := by
  obtain ⟨hfit, hsinks⟩ := (haccepts.acceptable rfl rfl n hparse).2 h.alive e hevent
  obtain ⟨-, -, hcontent, hschema⟩ := notificationToEvent_eq_ok hevent
  let b₀ := Reader.awake b r
  let sinks := (b₀.sinks.call env.now e (b₀.sinks.targets e)).2
  have hok : (b₀.sinks.call env.now e (b₀.sinks.targets e)).1 = .ok () :=
    (Sinks.call_ok_iff env.now hschema hcontent _ _).mpr hsinks
  have hdispatched : b₀.dispatchIncoming env e r = (.ok (), { b₀ with sinks }) := by
    have hclient : b₀.isServer = false := h.isClient
    rw [dispatchIncoming, if_neg (by simp [hclient]), handleIncoming, dispatchToSinks_eq,
      if_pos hfit, hok]
  have hsame : b.sinks.SameSetup sinks := Sinks.sameSetup_call _ _ _
  refine ⟨({ b₀ with sinks } : Bus δ).modifyConnection r (·.receiveEvent), ?_, ?_, hsame,
    fun k => ?_⟩
  · have halive : b₀.alive = true := h.alive
    simp only [handleReadBody, ne_eq, not_true, or_self, if_false, hparse, hevent]
    rw [if_pos halive, hdispatched]
  · refine ⟨h.alive, h.isClient, ?_, hsame.sinkDispatcher ▸ h.sinkDispatcher, h.nodup⟩
    simp [b₀, Reader.awake, BusConnection.receiveEvent]
  · have hnodup :=
      WeakScopeDispatcher.nodup_sinksAbove_ofRegistrations h.nodup b.sinks.alive e.scope
    rw [← h.sinkDispatcher] at hnodup
    exact Sinks.connector_call hok hnodup k

/-! ### The publishing client -/

/-- What is published on the bus goes out on connection `p`. -/
structure Publishes (b : Bus δ) (p : ℕ) : Prop where
  member : p ∈ b.connections
  nodup : b.connections.Nodup
  healthy : (b.connection p).Healthy

theorem Publishes.handles {env : Environment} {b : Bus δ} {p : ℕ} (h : b.Publishes p)
    {event : Event Bytes} {wireSchema wireData : Bytes} {n : Notification}
    (hschema : event.metaData.getUserInfo wireSchemaKey = .ok wireSchema)
    (hcontent : event.content = some wireData)
    (hto : eventToNotification event wireSchema wireData = .ok n)
    (hfit : event.scope.SuperScopesFit)
    (hsinks : ∀ k ∈ b.sinks.targets event,
      (b.sinks.connector k).Accepts (env.now k) event wireSchema wireData) :
    ∃ b', b.handle env event = (.ok (), b') ∧ b'.Publishes p ∧ b.sinks.SameSetup b'.sinks ∧
      (b'.connection p).written =
        (b.connection p).written ++ frame (env.protobuf.serializeToString n) := by
  let sinks := (b.sinks.call env.now event (b.sinks.targets event)).2
  have hok : (b.sinks.call env.now event (b.sinks.targets event)).1 = .ok () :=
    (Sinks.call_ok_iff env.now hschema hcontent _ _).mpr hsinks
  have hsend : (fun c : BusConnection => c.sendEvent env.protobuf event wireSchema) =
      (·.sendMessage (env.protobuf.serializeToString n)) := by
    funext c
    rw [BusConnection.sendEvent, hcontent]
    simp only [deref_some, hto, bind, Except.bind]
  obtain ⟨connections, connection, hdispatch, hmember, hnodup, hwritten, -⟩ :=
    dispatchToConnections_healthy (env.protobuf.serializeToString n) h.nodup h.member
      { b with sinks } h.healthy
  refine ⟨{ b with sinks, connections, connection }, ?_, ⟨hmember h.member, hnodup h.nodup, ?_⟩,
    Sinks.sameSetup_call _ _ _, ?_⟩
  · rw [handle, dispatchToSinks_eq, if_pos hfit, hok]
    simp only [hschema, hsend]
    exact hdispatch
  · show (connection p).Healthy
    rw [hwritten]
    exact ⟨h.healthy.1, h.healthy.2, h.healthy.3⟩
  · show (connection p).written = _
    rw [hwritten]

end Bus

/-! ### One event -/

/-- `OutConnector::handle`, up to the end. -/
def OutConnector.publish (env : Environment) (out : ConnectorBase δ) (now : UInt64)
    (event : Event δ) (b : Bus δ) : Except Fault Unit × Bus δ :=
  match OutConnector.handle out now event with
  | .error f => (.error f, b)
  | .ok (_, busEvent) => b.handle env busEvent

/-- Events that are published one after the other, with the times at which they are sent. -/
def OutConnector.publishAll (env : Environment) (out : ConnectorBase δ) :
    List (UInt64 × Event δ) → Bus δ → Except Fault Unit × Bus δ
  | [], b => (.ok (), b)
  | (now, event) :: events, b =>
      match OutConnector.publish env out now event b with
      | (.error f, b) => (.error f, b)
      | (.ok (), b) => publishAll env out events b

/-- The event that an out connector passes to the bus. -/
def OutConnector.busEvent (now : UInt64) (event : Event δ) (wireSchema wireData : Bytes) :
    Event Bytes :=
  ((event.modifyMetaData (·.setSendTime now 0)).setData (some wireData)).modifyMetaData
    (·.setUserInfo wireSchemaKey wireSchema)

/-- An event that the connector `out` can send and the connector `inn` can read. -/
structure Outgoing (protobuf : Protobuf) (out inn : ConnectorBase δ) where
  event : Event δ
  id : EventId
  event_id : event.id = some id
  stamped : event.metaData.Stamped
  now : UInt64
  now_ne : now ≠ 0
  writer : Converter δ
  getWriter : out.converters.getConverter event.type = .ok (some writer)
  wireSchema : Bytes
  wireData : Bytes
  written : writer.serialize (event.type, event.content) = .ok (wireSchema, wireData)
  reader : Converter δ
  getReader : inn.converters.getConverter wireSchema = .ok (some reader)
  read : reader.deserialize wireSchema wireData = .ok (event.type, event.content)
  notification : Notification
  toNotification : eventToNotification (OutConnector.busEvent now event wireSchema wireData)
    wireSchema wireData = .ok notification
  roundTrips : protobuf.RoundTrips notification
  short : (protobuf.serializeToString notification).length < 2 ^ 32

namespace Outgoing

variable {protobuf : Protobuf} {out inn : ConnectorBase δ} (o : Outgoing protobuf out inn)

def busEvent : Event Bytes := OutConnector.busEvent o.now o.event o.wireSchema o.wireData

/-- What is sent over the connections. -/
def message : Bytes := protobuf.serializeToString o.notification

/-- What has become of the event at the other end. -/
structure Arrives (delivered : Event δ) : Prop where
  id : delivered.id = o.event.id
  scope : delivered.scope = o.event.scope
  type : delivered.type = o.event.type
  content : delivered.content = o.event.content
  method : delivered.method = o.event.method
  causes : delivered.causes = o.event.causes
  createTime : delivered.metaData.createTime = o.event.metaData.createTime
  sendTime : delivered.metaData.sendTime = o.now
  userTimes : delivered.metaData.userTimes = o.event.metaData.userTimes
  userInfos : delivered.metaData.userInfos =
    o.event.metaData.userInfos.insert wireSchemaKey o.wireSchema

theorem getUserInfo_busEvent : o.busEvent.metaData.getUserInfo wireSchemaKey = .ok o.wireSchema :=
  MetaData.getUserInfo_setUserInfo _ _ _

theorem sendTime_busEvent : o.busEvent.metaData.sendTime = o.now := by
  simp [busEvent, OutConnector.busEvent, Event.modifyMetaData, Event.setData,
    MetaData.setSendTime, MetaData.setUserInfo_eq]

theorem userInfos_busEvent : o.busEvent.metaData.userInfos =
    o.event.metaData.userInfos.insert wireSchemaKey o.wireSchema := by
  simp [busEvent, OutConnector.busEvent, Event.modifyMetaData, Event.setData,
    MetaData.setSendTime, MetaData.setUserInfo_eq]

/-- Whoever reads the notification makes this event of it. -/
theorem notificationToEvent_eq (clock : Clock) : notificationToEvent clock o.notification true =
    .ok (receivedEvent clock o.busEvent o.id o.wireSchema o.wireData) := by
  have hsend : o.busEvent.metaData.sendTime ≠ 0 := o.sendTime_busEvent ▸ o.now_ne
  obtain ⟨n, hto, hfrom⟩ := notificationToEvent_eventToNotification clock o.busEvent o.event_id
    ⟨o.stamped.create, o.stamped.user⟩ hsend o.wireSchema o.wireData
  obtain rfl : o.notification = n := Except.ok.inj (o.toNotification.symm.trans hto)
  exact hfrom

/-- The notification that is made of the received event is the one it was received as. -/
theorem eventToNotification_receivedEvent (clock : Clock) :
    eventToNotification (receivedEvent clock o.busEvent o.id o.wireSchema o.wireData) o.wireSchema
      o.wireData = .ok o.notification := by
  have hinfos : o.busEvent.metaData.userInfos.insert wireSchemaKey o.wireSchema =
      o.busEvent.metaData.userInfos := by
    rw [o.userInfos_busEvent]
    exact SortedMap.insert_eq_self_iff.mpr (by simp)
  have hto : eventToNotification o.busEvent o.wireSchema o.wireData = .ok o.notification :=
    o.toNotification
  have hid : o.busEvent.id = some o.id := o.event_id
  have hget : o.busEvent.getId = .ok o.id := by rw [Event.getId, hid]
  have hgetReceived : (receivedEvent clock o.busEvent o.id o.wireSchema o.wireData).getId =
      .ok o.id := rfl
  rw [← hto, eventToNotification, eventToNotification, hget, hgetReceived]
  simp only [receivedEvent, hinfos]

/-- The server passes on the bytes it has received. -/
theorem passesOn {env : Environment} (hprotobuf : env.protobuf = protobuf) :
    Bus.PassesOn env o.message o.message := by
  subst hprotobuf
  refine ⟨o.notification, _, o.roundTrips, o.notificationToEvent_eq env.clock, fun conn => ?_⟩
  have hschema : (receivedEvent env.clock o.busEvent o.id o.wireSchema
      o.wireData).metaData.getUserInfo wireSchemaKey = .ok o.wireSchema := by
    simp [receivedEvent, MetaData.getUserInfo]
  have hcontent : (receivedEvent env.clock o.busEvent o.id o.wireSchema o.wireData).content =
      some o.wireData := rfl
  simp only [hschema, BusConnection.sendEvent, hcontent, deref_some,
    o.eventToNotification_receivedEvent, bind, Except.bind, message]

/-- What the connector at the other end makes of it. -/
theorem deserialize_receivedEvent (hactive : inn.active = true) (clock : Clock) (now : UInt64) :
    ∃ delivered, inn.deserialize now
        (receivedEvent clock o.busEvent o.id o.wireSchema o.wireData) = .ok delivered ∧
      o.Arrives delivered := by
  let received := receivedEvent clock o.busEvent o.id o.wireSchema o.wireData
  have hschema : received.metaData.getUserInfo wireSchemaKey = .ok o.wireSchema := by
    simp [received, receivedEvent, MetaData.getUserInfo]
  refine ⟨((received.modifyMetaData (·.setReceiveTime now 0)).setData o.event.content).setType
    o.event.type, (ConnectorBase.deserialize_ok_iff _ _ hschema rfl).mpr
      ⟨hactive, o.reader, _, o.getReader, o.read, rfl⟩, ?_⟩
  have hinfos : received.metaData.userInfos =
      o.event.metaData.userInfos.insert wireSchemaKey o.wireSchema := by
    simp [received, receivedEvent, o.userInfos_busEvent]
  exact ⟨o.event_id.symm, rfl, rfl, rfl, rfl, rfl, rfl, o.sendTime_busEvent, rfl, hinfos⟩

end Outgoing

/-! ### A list of events -/

variable {protobuf : Protobuf} {out inn : ConnectorBase δ}

theorem InConnector.handle_pull {now : UInt64} {event : Event Bytes} (queue : List (Event δ))
    {delivered : Event δ} (h : inn.deserialize now event = .ok delivered) :
    (InConnector.pull ⟨inn, queue⟩).handle now event =
      .ok (.pull ⟨inn, queue ++ [delivered]⟩) := by
  simp only [InConnector.handle, InPullConnector.handle, h, bind, Except.bind, pure, Except.pure]

/-- Sinks that have only queued events would still handle an event alike. -/
theorem Bus.AcceptsMessage.congr {env : Environment} {b b' : Bus δ} {message : Bytes}
    (h : b.AcceptsMessage env message) (halive : b'.alive = b.alive)
    (hsame : b.sinks.SameSetup b'.sinks) : b'.AcceptsMessage env message := by
  refine ⟨h.allocates, h.parses, fun herror hbytes n hn => ?_⟩
  obtain ⟨hwell, haccepts⟩ := h.acceptable herror hbytes n hn
  refine ⟨hwell, fun ha event hevent => ?_⟩
  obtain ⟨hfit, haccepts⟩ := haccepts (halive ▸ ha) event hevent
  refine ⟨hfit, fun k hk => ?_⟩
  rw [Sinks.targets, ← hsame.sinkDispatcher, ← hsame.alive] at hk
  exact (InConnector.accepts_congr (hsame.setup k) _ _ _ _).mp (haccepts k hk)

theorem publishAll_spec {env : Environment} (hprotobuf : env.protobuf = protobuf) {p : ℕ}
    (events : List (Outgoing protobuf out inn)) {b : Bus δ} (h : b.Publishes p)
    (hfits : ∀ o ∈ events, o.event.scope.SuperScopesFit)
    (hsinks : ∀ o ∈ events, ∀ k ∈ b.sinks.sinkDispatcher.sinksAbove b.sinks.alive o.event.scope,
      (b.sinks.connector k).Accepts (env.now k) o.busEvent o.wireSchema o.wireData) :
    ∃ b', OutConnector.publishAll env out (events.map fun o => (o.now, o.event)) b =
        (.ok (), b') ∧
      (b'.connection p).written =
        (b.connection p).written ++ (events.map Outgoing.message).flatMap frame := by
  induction events generalizing b with
  | nil => exact ⟨b, rfl, by simp⟩
  | cons o events ih =>
      obtain ⟨b₁, hhandle, h₁, hsame, hwritten₁⟩ := h.handles o.getUserInfo_busEvent rfl
        o.toNotification (hfits o List.mem_cons_self) (hsinks o List.mem_cons_self)
      have hpublish : OutConnector.publish env out o.now o.event b = (.ok (), b₁) := by
        rw [OutConnector.publish, OutConnector.handle_eq o.getWriter o.written]
        exact hhandle
      have hfits' : ∀ o' ∈ events, o'.event.scope.SuperScopesFit :=
        fun o' ho' => hfits o' (List.mem_cons_of_mem _ ho')
      obtain ⟨b', hall, hwritten⟩ := ih h₁ hfits' fun o' ho' k hk => by
        rw [← hsame.sinkDispatcher, ← hsame.alive] at hk
        exact (InConnector.accepts_congr (hsame.setup k) _ _ _ _).mp
          (hsinks o' (List.mem_cons_of_mem _ ho') k hk)
      refine ⟨b', ?_, ?_⟩
      · simp only [List.map_cons, OutConnector.publishAll, hpublish, hall]
      · rw [hwritten, hwritten₁, hprotobuf]
        simp [Outgoing.message]

theorem relay_spec {env : Environment} (hprotobuf : env.protobuf = protobuf) {i j : ℕ}
    (events : List (Outgoing protobuf out inn)) {b : Bus δ} (h : b.Relays i j)
    (haccepts : ∀ o ∈ events, b.AcceptsMessage env o.message) :
    ∃ b', (b'.connection j).written =
        (b.connection j).written ++ (events.map Outgoing.message).flatMap frame ∧
      ∀ n, 2 * events.length ≤ n →
        Reader.run env i n ⟨b, (events.map Outgoing.message).flatMap frame, []⟩ =
          ⟨b', [], events.map Outgoing.message⟩ := by
  let I (seen : List (Outgoing protobuf out inn)) (b' : Bus δ) : Prop :=
    b'.Relays i j ∧ b.sinks.SameSetup b'.sinks ∧ (b'.connection j).written =
      (b.connection j).written ++ (seen.map Outgoing.message).flatMap frame
  obtain ⟨b', ⟨-, -, hwritten⟩, hrun⟩ := Reader.run_messages Outgoing.message env i I events
    (fun _ _ h => h.1.pending)
    (fun o ho => ⟨o.short, (haccepts o ho).allocates⟩)
    (fun seen o b₁ ho ⟨h₁, hsame, hwritten⟩ => by
      obtain ⟨b₂, hread, h₂, hsame₂, hwritten₂⟩ := h₁.reads
        ((haccepts o ho).congr (h₁.alive.trans h.alive.symm) hsame) (o.passesOn hprotobuf)
      refine ⟨b₂, hread, h₂, hsame.trans hsame₂, ?_⟩
      rw [hwritten₂, hwritten]
      simp) [] ⟨h, .refl _, by simp⟩
  exact ⟨b', hwritten, hrun⟩

theorem receive_spec {env : Environment} (hprotobuf : env.protobuf = protobuf) {r k : ℕ}
    {registrations : List (Scope × ℕ)} {subscribed : Scope} {queue : List (Event δ)}
    (events : List (Outgoing protobuf out inn)) {b : Bus δ} (h : b.Receives r registrations)
    (hregistered : (subscribed, k) ∈ registrations) (halive : b.sinks.alive k = true)
    (hconnector : b.sinks.connector k = .pull ⟨inn, queue⟩) (hactive : inn.active = true)
    (haccepts : ∀ o ∈ events, b.AcceptsMessage env o.message) :
    ∃ b' delivered, b'.sinks.connector k = .pull ⟨inn, queue ++ delivered⟩ ∧
      List.Forall₂ Outgoing.Arrives
        (events.filter fun o => subscribed.covers o.event.scope) delivered ∧
      ∀ n, 2 * events.length ≤ n →
        Reader.run env r n ⟨b, (events.map Outgoing.message).flatMap frame, []⟩ =
          ⟨b', [], events.map Outgoing.message⟩ := by
  let I (seen : List (Outgoing protobuf out inn)) (b' : Bus δ) : Prop :=
    b'.Receives r registrations ∧ b.sinks.SameSetup b'.sinks ∧
      ∃ delivered, b'.sinks.connector k = .pull ⟨inn, queue ++ delivered⟩ ∧
        List.Forall₂ Outgoing.Arrives
          (seen.filter fun o => subscribed.covers o.event.scope) delivered
  obtain ⟨b', ⟨-, -, delivered, hqueue, harrive⟩, hrun⟩ := Reader.run_messages Outgoing.message env
    r I events (fun _ _ h => h.1.pending)
    (fun o ho => ⟨o.short, (haccepts o ho).allocates⟩)
    (fun seen o b₁ ho ⟨h₁, hsame, delivered, hqueue, harrive⟩ => by
      obtain ⟨b₂, hread, h₂, hsame₂, hcalled⟩ := h₁.reads
        ((haccepts o ho).congr (h₁.alive.trans h.alive.symm) hsame)
        (hprotobuf ▸ o.roundTrips) (o.notificationToEvent_eq env.clock)
      obtain ⟨hnot, hcall⟩ := hcalled k
      have hmem : k ∈ b₁.sinks.sinkDispatcher.sinksAbove b₁.sinks.alive o.event.scope ↔
          subscribed.covers o.event.scope = true := by
        rw [h₁.sinkDispatcher, WeakScopeDispatcher.mem_sinksAbove_ofRegistrations, ← hsame.alive]
        refine ⟨fun ⟨_, s, hs, hcovers⟩ => ?_, fun hcovers => ⟨halive, _, hregistered, hcovers⟩⟩
        obtain ⟨rfl, -⟩ := Prod.mk.inj (List.inj_on_of_nodup_map h.nodup hs hregistered rfl)
        exact hcovers
      refine ⟨b₂, hread, h₂, hsame.trans hsame₂, ?_⟩
      rw [List.filter_append, List.filter_singleton]
      by_cases hcovers : subscribed.covers o.event.scope = true
      · obtain ⟨d, hd, harrives⟩ :=
          o.deserialize_receivedEvent hactive env.clock (env.now k)
        have hhandle := hcall (hmem.mpr hcovers)
        rw [hqueue, InConnector.handle_pull _ hd] at hhandle
        refine ⟨delivered ++ [d], ?_, ?_⟩
        · rw [← Except.ok.inj hhandle, List.append_assoc]
        · simp only [hcovers]
          exact List.rel_append harrive (.cons harrives .nil)
      · rw [hnot (mt hmem.mp hcovers)]
        exact ⟨delivered, hqueue, by simpa [hcovers] using harrive⟩)
    [] ⟨h, .refl _, [], by simpa using hconnector, by simp⟩
  exact ⟨b', delivered, hqueue, harrive, hrun⟩

/-- Events that a client publishes one after the other come out of a pull connector of another
client, behind the server: those on a scope below the one of the connector, each once, in order,
and equal but for the receive times. Nothing is assumed about other connections and other sinks,
except that the sinks do not throw. -/
theorem published_events_arrive (events : List (Outgoing protobuf out inn))
    {client server receiver : Environment} (hclient : client.protobuf = protobuf)
    (hserver : server.protobuf = protobuf) (hreceiver : receiver.protobuf = protobuf)
    {P S R : Bus δ} {p i j r k : ℕ} (hP : P.Publishes p) (hS : S.Relays i j)
    (hp : (P.connection p).written = []) (hj : (S.connection j).written = [])
    {registrations : List (Scope × ℕ)} (hR : R.Receives r registrations) {subscribed : Scope}
    (hregistered : (subscribed, k) ∈ registrations) (halive : R.sinks.alive k = true)
    {queue : List (Event δ)} (hconnector : R.sinks.connector k = .pull ⟨inn, queue⟩)
    (hactive : inn.active = true)
    (hlocal : ∀ o ∈ events, ∀ k ∈ P.sinks.sinkDispatcher.sinksAbove P.sinks.alive o.event.scope,
      (P.sinks.connector k).Accepts (client.now k) o.busEvent o.wireSchema o.wireData)
    (hpassed : ∀ o ∈ events, S.AcceptsMessage server o.message)
    (hread : ∀ o ∈ events, R.AcceptsMessage receiver o.message) :
    ∃ P' S' R' delivered,
      OutConnector.publishAll client out (events.map fun o => (o.now, o.event)) P =
        (.ok (), P') ∧
      (∀ n, 2 * events.length ≤ n →
        (Reader.run server i n ⟨S, (P'.connection p).written, []⟩).bus = S' ∧
        (Reader.run receiver r n ⟨R, (S'.connection j).written, []⟩).bus = R') ∧
      R'.sinks.connector k = .pull ⟨inn, queue ++ delivered⟩ ∧
      List.Forall₂ Outgoing.Arrives
        (events.filter fun o => subscribed.covers o.event.scope) delivered := by
  -- a scope of which the server can make the ones above is one the client can publish on
  have hfits : ∀ o ∈ events, o.event.scope.SuperScopesFit := fun o ho =>
    (((hpassed o ho).acceptable rfl rfl o.notification (hserver ▸ o.roundTrips)).2 hS.alive _
      (o.notificationToEvent_eq server.clock)).1
  obtain ⟨P', hpublished, hP'⟩ := publishAll_spec hclient events hP hfits hlocal
  obtain ⟨S', hS', hrelayed⟩ := relay_spec hserver events hS hpassed
  obtain ⟨R', delivered, hqueue, harrive, hreceived⟩ :=
    receive_spec hreceiver events hR hregistered halive hconnector hactive hread
  refine ⟨P', S', R', delivered, hpublished, fun n hn => ⟨?_, ?_⟩, hqueue, harrive⟩
  · rw [hP', hp, List.nil_append, hrelayed n hn]
  · rw [hS', hj, List.nil_append, hreceived n hn]

def stringOut : ConnectorBase Bytes :=
  ⟨.unambiguousMap (SortedMap.empty.insert stringType stringConverter) [], true⟩

def stringIn : ConnectorBase Bytes := ⟨.predicateList [(fun _ => true, stringConverter)], true⟩

/-- `sampleEvent`, published at time 5. -/
def sampleOutgoing : Outgoing sampleProtobuf stringOut stringIn where
  event := sampleEvent
  id := sampleEvent.id.get rfl
  event_id := rfl
  stamped :=
    let h := (MetaData.stamped_new (by decide)).setUserTime (by decide) (bytes "t") 9
    ⟨h.create, h.user⟩
  now := 5
  now_ne := by decide
  writer := stringConverter
  getWriter := rfl
  wireSchema := utf8String
  wireData := bytes "hi"
  written := rfl
  reader := stringConverter
  getReader := rfl
  read := rfl
  notification := sampleNotification
  toNotification := rfl
  roundTrips := rfl
  short := by decide

def sampleEnvironment : Environment := ⟨sampleProtobuf, fun _ => 7, fun _ => 8, fun _ => true⟩

/-- A process with two connections and one pull connector. -/
def sampleBus (isServer : Bool) (registrations : List (Scope × ℕ)) : Bus Bytes where
  alive := true
  isServer := isServer
  sinks := ⟨.ofRegistrations registrations, fun _ => .pull ⟨stringIn, []⟩, fun _ => true⟩
  connections := [0, 1]
  connection _ := ⟨true, false, false, false, [.length], []⟩

theorem sampleBus_accepts (isServer : Bool) (registrations : List (Scope × ℕ)) :
    (sampleBus isServer registrations).AcceptsMessage sampleEnvironment sampleOutgoing.message := by
  refine ⟨rfl, ⟨_, sampleOutgoing.roundTrips⟩, fun _ _ n hn => ?_⟩
  obtain rfl : sampleNotification = n :=
    Option.some.inj (sampleOutgoing.roundTrips.symm.trans hn)
  refine ⟨(notificationToEvent_ok_iff _ _).mp
    ⟨_, sampleOutgoing.notificationToEvent_eq fun _ => 7⟩, fun _ event hevent => ⟨?_, fun _ _ =>
      ⟨rfl, stringConverter, _, rfl, rfl, by simp [InConnector.setup, sampleBus]⟩⟩⟩
  obtain rfl := Except.ok.inj ((sampleOutgoing.notificationToEvent_eq _).symm.trans hevent)
  decide

theorem published_events_arrive_sample :
    ∃ P' S' R' delivered,
      OutConnector.publishAll sampleEnvironment stringOut [(5, sampleEvent), (5, sampleEvent)]
        (sampleBus false []) = (.ok (), P') ∧
      (Reader.run sampleEnvironment 0 4 ⟨sampleBus true [], (P'.connection 0).written, []⟩).bus =
        S' ∧
      (Reader.run sampleEnvironment 0 4
        ⟨sampleBus false [(.root, 3)], (S'.connection 1).written, []⟩).bus = R' ∧
      R'.sinks.connector 3 = .pull ⟨stringIn, delivered⟩ ∧ delivered.length = 2 := by
  have hhealthy : ∀ isServer registrations c,
      ((sampleBus isServer registrations).connection c).Healthy := fun _ _ _ => ⟨rfl, rfl, rfl⟩
  have hprotobuf : sampleEnvironment.protobuf = sampleProtobuf := rfl
  have hclient : (sampleBus false []).Publishes 0 := ⟨by decide, by decide, hhealthy _ _ _⟩
  have hserver : (sampleBus true []).Relays 0 1 :=
    ⟨rfl, rfl, by decide, by decide, by decide, hhealthy _ _ _, rfl⟩
  have hreceiver : (sampleBus false [(.root, 3)]).Receives 0 [(.root, 3)] :=
    ⟨rfl, rfl, rfl, rfl, by decide⟩
  have hconnector : (sampleBus false [(.root, 3)]).sinks.connector 3 = .pull ⟨stringIn, []⟩ := rfl
  obtain ⟨P', S', R', delivered, hP, hread, hR, harrive⟩ :=
    published_events_arrive [sampleOutgoing, sampleOutgoing] hprotobuf hprotobuf hprotobuf hclient
      hserver rfl rfl hreceiver List.mem_cons_self rfl hconnector rfl
      (fun _ _ k hk => absurd hk (by
        simp [sampleBus, WeakScopeDispatcher.mem_sinksAbove_ofRegistrations]))
      (fun o ho => by
        obtain rfl : o = sampleOutgoing := by simpa using ho
        exact sampleBus_accepts _ _)
      (fun o ho => by
        obtain rfl : o = sampleOutgoing := by simpa using ho
        exact sampleBus_accepts _ _)
  refine ⟨P', S', R', delivered, hP, (hread 4 (by decide)).1, (hread 4 (by decide)).2, hR, ?_⟩
  have hcovers : Scope.root.covers sampleOutgoing.event.scope = true := by decide
  simpa [hcovers] using harrive.length_eq.symm

end Rsb.Transport.Socket
