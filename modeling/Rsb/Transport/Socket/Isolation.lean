import Rsb.Transport.Socket.ReceiveLoop

/-!
Failures during dispatch (`BusImpl::handle`, `BusImpl::handleIncoming`,
`BusServerImpl::handleIncoming`).

All three first let the dispatcher call the sinks. A connection on which sending
throws is recorded and the loop goes on; a sink that throws is not caught, so the
exception ends the loops of `mapSinks` and the function that called it, before
anything is sent.
-/

namespace Rsb.Transport.Socket.Isolation

open Library Protocol

variable {δ : Type}

/-- `Sinks.call`, together with the sinks whose `handle` is invoked. -/
def callTraced (now : ℕ → UInt64) (event : Event Bytes) :
    List ℕ → Sinks δ → List ℕ × Except Fault Unit × Sinks δ
  | [], s => ([], .ok (), s)
  | k :: ks, s =>
      match (s.connector k).handle (now k) event with
      | .error f => ([k], .error f, s)
      | .ok c =>
          let (called, result) :=
            callTraced now event ks { s with connector := Function.update s.connector k c }
          (k :: called, result)

theorem callTraced_snd (now : ℕ → UInt64) (event : Event Bytes) (ks : List ℕ) (s : Sinks δ) :
    (callTraced now event ks s).2 = s.call now event ks := by
  induction ks generalizing s with
  | nil => rfl
  | cons k ks ih =>
      rw [callTraced, Sinks.call]
      cases (s.connector k).handle (now k) event with
      | error f => rfl
      | ok c => exact ih _

/-- The sinks to which an event is handed, by each of the three functions: what
`dispatchToSinks` does, with the sinks it calls. -/
def called (env : Environment) (event : Event Bytes) (b : Bus δ) : Except Fault (List ℕ) := do
  let _ ← event.scope.object.superScopes true
  let ks ← b.sinks.sinkDispatcher.mapSinks b.sinks.alive event.scope
  return (callTraced env.now event ks b.sinks).1

theorem called_eq (env : Environment) (event : Event Bytes) (b : Bus δ) :
    called env event b =
      if event.scope.SuperScopesFit then
        .ok (callTraced env.now event (b.sinks.targets event) b.sinks).1
      else .error .writePastEnd := by
  rw [called, Scope.superScopes_object_eq, WeakScopeDispatcher.mapSinks_eq]
  by_cases hfit : event.scope.SuperScopesFit
  · simp only [if_pos hfit]
    rfl
  · simp only [if_neg hfit]
    rfl

/-- Does `handle` of sink `k` return? -/
def returns (now : ℕ → UInt64) (event : Event Bytes) (s : Sinks δ) (k : ℕ) : Bool :=
  ((s.connector k).handle (now k) event).isOk

/-! ### The functions after the call of `mapSinks` -/

/-- The part of `BusImpl::handle` that sends the event. -/
def sendOutgoing (env : Environment) (event : Event Bytes) (b : Bus δ) :
    Except Fault Unit × Bus δ :=
  match event.metaData.getUserInfo wireSchemaKey with
  | .error f => (.error f, b)
  | .ok wireSchema =>
      b.dispatchToConnections (fun c => c.sendEvent env.protobuf event wireSchema) b.connections

/-- The part of `BusServerImpl::handleIncoming` that sends the event. -/
def sendIncoming (env : Environment) (event : Event Bytes) (connection : ℕ) (b : Bus δ) :
    Except Fault Unit × Bus δ :=
  b.dispatchToConnections
    (fun c => do
      let wireSchema ← event.metaData.getUserInfo wireSchemaKey
      c.sendEvent env.protobuf event wireSchema)
    (b.connections.filter (· ≠ connection))

theorem handle_eq (env : Environment) {event : Event Bytes} (hfit : event.scope.SuperScopesFit)
    (b : Bus δ) :
    b.handle env event =
      match b.sinks.call env.now event (b.sinks.targets event) with
      | (.error f, sinks) => (.error f, { b with sinks := sinks })
      | (.ok (), sinks) => sendOutgoing env event { b with sinks := sinks } := by
  rw [Bus.handle, Bus.dispatchToSinks_eq, if_pos hfit]
  rcases b.sinks.call env.now event (b.sinks.targets event) with ⟨_ | _, sinks⟩ <;> rfl

theorem connection_handleIncoming (env : Environment) (event : Event Bytes) (b : Bus δ) :
    (b.handleIncoming env event).2.connection = b.connection := by
  rw [Bus.handleIncoming, Bus.dispatchToSinks_eq]
  split <;> rfl

theorem serverHandleIncoming_eq (env : Environment) {event : Event Bytes}
    (hfit : event.scope.SuperScopesFit) (connection : ℕ) (b : Bus δ) :
    b.serverHandleIncoming env event connection =
      match b.sinks.call env.now event (b.sinks.targets event) with
      | (.error f, sinks) => (.error f, { b with sinks := sinks })
      | (.ok (), sinks) => sendIncoming env event connection { b with sinks := sinks } := by
  rw [Bus.serverHandleIncoming, Bus.handleIncoming, Bus.dispatchToSinks_eq, if_pos hfit]
  rcases b.sinks.call env.now event (b.sinks.targets event) with ⟨_ | _, sinks⟩ <;> rfl

/-! ### Which sinks are called -/

/-- Whether a connector throws depends on what handling an event leaves alone. -/
theorem handle_isOk_congr {c c' : InConnector δ} (h : c.setup = c'.setup) (now : UInt64)
    (event : Event Bytes) : (c.handle now event).isOk = (c'.handle now event).isOk := by
  have hsetup : ∀ c : InConnector δ, (c.handle now event).isOk =
      ((do
        let e ← c.setup.1.deserialize now event
        callHandlers e c.setup.2 : Except Fault Unit)).isOk := by
    intro c
    cases c with
    | push c =>
        simp only [InConnector.handle, InPushConnector.handle, InConnector.setup]
        cases hd : c.toConnectorBase.deserialize now event with
        | error f => rfl
        | ok e =>
            simp only [bind, Except.bind]
            cases callHandlers e c.handlers <;> rfl
    | pull c =>
        simp only [InConnector.handle, InPullConnector.handle, InConnector.setup]
        cases c.toConnectorBase.deserialize now event <;> rfl
  rw [hsetup, hsetup, h]

theorem returns_congr {s s' : Sinks δ} (h : s.SameSetup s') (now : ℕ → UInt64)
    (event : Event Bytes) : returns now event s = returns now event s' :=
  funext fun k => handle_isOk_congr (h.setup k) (now k) event

theorem returns_eq_true {now : ℕ → UInt64} {event : Event Bytes} {s : Sinks δ} {k : ℕ}
    {c : InConnector δ} (h : (s.connector k).handle (now k) event = .ok c) :
    returns now event s k = true := by
  rw [returns, h]
  rfl

theorem returns_eq_false {now : ℕ → UInt64} {event : Event Bytes} {s : Sinks δ} {k : ℕ}
    {f : Fault} (h : (s.connector k).handle (now k) event = .error f) :
    returns now event s k = false := by
  rw [returns, h]
  rfl

/-- The sinks up to the first one that throws are called. -/
theorem callTraced_fst (now : ℕ → UInt64) (event : Event Bytes) (ks : List ℕ) (s : Sinks δ) :
    (callTraced now event ks s).1 =
      ks.takeWhile (returns now event s) ++ (ks.dropWhile (returns now event s)).take 1 := by
  induction ks generalizing s with
  | nil => rfl
  | cons k ks ih =>
      rw [callTraced]
      cases hk : (s.connector k).handle (now k) event with
      | error f => simp [returns_eq_false hk]
      | ok c =>
          have hsame := Sinks.sameSetup_update (InConnector.setup_handle hk)
          have hrest := ih { s with connector := Function.update s.connector k c }
          rw [← returns_congr hsame now event] at hrest
          simp [returns_eq_true hk, hrest]

theorem call_fst_ok_iff (now : ℕ → UInt64) (event : Event Bytes) (ks : List ℕ) (s : Sinks δ) :
    (s.call now event ks).1 = .ok () ↔ ∀ k ∈ ks, returns now event s k = true := by
  induction ks generalizing s with
  | nil => simp [Sinks.call]
  | cons k ks ih =>
      rw [Sinks.call, List.forall_mem_cons]
      cases hk : (s.connector k).handle (now k) event with
      | error f => simp [returns_eq_false hk]
      | ok c =>
          have hsame := Sinks.sameSetup_update (InConnector.setup_handle hk)
          have hrest := ih { s with connector := Function.update s.connector k c }
          rw [← returns_congr hsame now event] at hrest
          simpa [returns_eq_true hk] using hrest

/-- In this order, a sink that does not return comes after all others that do. -/
def Hindmost (returns : ℕ → Bool) (ks : List ℕ) : Prop :=
  ∀ before k after, ks = before ++ k :: after → returns k = false →
    ∀ k' ∈ after, returns k' = false ∨ k' ∈ before

theorem returns_of_mem_take_dropWhile {returns : ℕ → Bool} {ks : List ℕ} {k : ℕ}
    (h : k ∈ (ks.dropWhile returns).take 1) : returns k = false := by
  have hhead := List.head?_dropWhile_not returns ks
  cases hrest : ks.dropWhile returns with
  | nil => simp [hrest] at h
  | cons first rest =>
      obtain rfl : k = first := by simpa [hrest] using h
      simpa [hrest] using hhead

theorem hindmost_iff (returns : ℕ → Bool) (ks : List ℕ) :
    Hindmost returns ks ↔
      ∀ k ∈ ks, returns k = true → k ∈ ks.takeWhile returns ++ (ks.dropWhile returns).take 1 := by
  constructor
  · intro h k hk hreturns
    rw [← List.takeWhile_append_dropWhile (p := returns) (l := ks), List.mem_append] at hk
    refine List.mem_append_left _ (hk.elim id fun hdrop => ?_)
    cases hrest : ks.dropWhile returns with
    | nil => simp [hrest] at hdrop
    | cons first rest =>
        have hmemFirst : first ∈ (ks.dropWhile returns).take 1 := by simp [hrest]
        have hfirst : returns first = false := returns_of_mem_take_dropWhile hmemFirst
        have hsplit : ks = ks.takeWhile returns ++ first :: rest := by
          rw [← hrest, List.takeWhile_append_dropWhile]
        have hmem : k ∈ rest := by
          rw [hrest] at hdrop
          apply (List.mem_cons.mp hdrop).resolve_left
          intro heq
          simp [heq, hfirst] at hreturns
        exact (h _ first rest hsplit hfirst k hmem).resolve_left (by simp [hreturns])
  · rintro h before k after rfl hk k' hk'
    cases hreturns : returns k' with
    | false => exact .inl rfl
    | true =>
        have hmem := h k' (List.mem_append_right _ (List.mem_cons_of_mem _ hk')) hreturns
        rcases List.mem_append.mp hmem with hmem | hmem
        · rw [List.takeWhile_append] at hmem
          split_ifs at hmem
          · exact .inr (by simpa [hk] using hmem)
          · exact .inr ((List.takeWhile_prefix returns).subset hmem)
        · simp [returns_of_mem_take_dropWhile hmem] at hreturns

/-! ### Which connections are written -/

/-- The event can be turned into a notification. -/
structure Sendable (event : Event Bytes) : Prop where
  content : event.content ≠ none
  id : event.id ≠ none
  wireSchema : event.metaData.hasUserInfo wireSchemaKey = true

/-- The socket is open, its peer there, and the connection is not being shut down. -/
structure Writable (connection : BusConnection) : Prop where
  socketOpen : connection.socketOpen = true
  peerGone : connection.peerGone = false
  activeShutdown : connection.activeShutdown = false

/-- `sendEvent`, with the wire schema the event carries. -/
def send (protobuf : Protobuf) (event : Event Bytes) (connection : BusConnection) :
    Except Fault BusConnection := do
  let wireSchema ← event.metaData.getUserInfo wireSchemaKey
  connection.sendEvent protobuf event wireSchema

theorem send_of_sendable (protobuf : Protobuf) {event : Event Bytes} (h : Sendable event) :
    ∃ message, ∀ connection, send protobuf event connection = connection.sendMessage message := by
  obtain ⟨data, hcontent⟩ := Option.ne_none_iff_exists'.mp h.content
  obtain ⟨id, hid⟩ := Option.ne_none_iff_exists'.mp h.id
  obtain ⟨wireSchema, hschema⟩ := Option.isSome_iff_exists.mp h.wireSchema
  obtain ⟨n, hn⟩ : ∃ n, eventToNotification event wireSchema data = .ok n :=
    ⟨_, by simp only [eventToNotification, Event.getId, hid, bind, Except.bind]; rfl⟩
  refine ⟨protobuf.serializeToString n, fun connection => ?_⟩
  simp [send, MetaData.getUserInfo, hschema, BusConnection.sendEvent, hcontent, hn, bind,
    Except.bind]

theorem send_of_not_sendable (protobuf : Protobuf) {event : Event Bytes} (h : ¬Sendable event)
    (connection : BusConnection) : ∃ f, send protobuf event connection = .error f := by
  cases hsend : send protobuf event connection with
  | error f => exact ⟨f, rfl⟩
  | ok connection' =>
      refine absurd ⟨fun hcontent => ?_, fun hid => ?_, ?_⟩ h
      all_goals
        obtain ⟨wireSchema, hschema, hsent⟩ := bind_eq_ok_iff.mp hsend
      · simp [BusConnection.sendEvent, hcontent, deref, bind, Except.bind] at hsent
      · obtain ⟨data, -, hsent⟩ := bind_eq_ok_iff.mp hsent
        simp [eventToNotification, Event.getId, hid, bind, Except.bind] at hsent
      · rw [MetaData.getUserInfo] at hschema
        rw [MetaData.hasUserInfo]
        cases hfind : event.metaData.userInfos.find? wireSchemaKey with
        | none => simp [hfind] at hschema
        | some _ => rfl

/-- A connection that can be written to is written to. -/
theorem sendMessage_of_writable {connection : BusConnection} (h : Writable connection)
    (message : Bytes) :
    ∃ connection', connection.sendMessage message = .ok connection' ∧
      connection.written.length < connection'.written.length := by
  let written := connection.written ++ encodeLength (UInt32.ofNat message.length) ++ message
  refine ⟨{ connection with written }, ?_, ?_⟩
  · simp [BusConnection.sendMessage, h.socketOpen, h.peerGone, h.activeShutdown, written]
  · simp [encodeLength, written]

theorem sendMessage_of_not_writable {connection connection' : BusConnection}
    (h : ¬Writable connection) {message : Bytes}
    (hsend : connection.sendMessage message = .ok connection') : connection' = connection := by
  rw [BusConnection.sendMessage] at hsend
  split_ifs at hsend with hshutdown hbroken
  · exact (Except.ok.inj hsend).symm
  · obtain ⟨hgone, hopen⟩ : connection.peerGone = false ∧ connection.socketOpen = true := by
      simpa using hbroken
    exact absurd ⟨hopen, hgone, by simpa using hshutdown⟩ h

/-- Whatever `send` leaves in a connection, it has not taken back. -/
theorem length_written_le {protobuf : Protobuf} {event : Event Bytes}
    {connection connection' : BusConnection}
    (h : send protobuf event connection = .ok connection') :
    connection.written.length ≤ connection'.written.length := by
  by_cases hsendable : Sendable event
  · obtain ⟨message, hmessage⟩ := send_of_sendable protobuf hsendable
    rw [hmessage] at h
    by_cases hwritable : Writable connection
    · obtain ⟨_, hok, hlt⟩ := sendMessage_of_writable hwritable message
      obtain rfl := Except.ok.inj (hok.symm.trans h)
      exact hlt.le
    · rw [sendMessage_of_not_writable hwritable h]
  · obtain ⟨f, hf⟩ := send_of_not_sendable protobuf hsendable connection
    rw [hf] at h
    cases h

section

variable {protobuf : Protobuf} {event : Event Bytes}

theorem length_written_le_sendAll (cs : List ℕ) (b : Bus δ) (c : ℕ) :
    (b.connection c).written.length ≤
      ((Bus.sendAll (send protobuf event) cs b).2.connection c).written.length := by
  induction cs generalizing b with
  | nil => exact le_rfl
  | cons c' cs ih =>
      rw [Bus.sendAll]
      split
      · next connection hconnection =>
          refine le_trans ?_ (ih _)
          by_cases heq : c = c'
          · subst heq
            simpa [Bus.modifyConnection] using length_written_le hconnection
          · simp [Bus.modifyConnection, Function.update_of_ne heq]
      · exact ih b
      · exact le_rfl

/-- A connection that can be written to gets an event that can be sent. -/
theorem length_written_lt_sendAll (hsendable : Sendable event) {cs : List ℕ} {b : Bus δ} {c : ℕ}
    (hc : c ∈ cs) (hwritable : Writable (b.connection c)) :
    (b.connection c).written.length <
      ((Bus.sendAll (send protobuf event) cs b).2.connection c).written.length := by
  obtain ⟨message, hmessage⟩ := send_of_sendable protobuf hsendable
  induction cs generalizing b with
  | nil => simp at hc
  | cons c' cs ih =>
      by_cases heq : c = c'
      · subst heq
        obtain ⟨connection, hok, hlt⟩ := sendMessage_of_writable hwritable message
        simp only [Bus.sendAll, hmessage, hok]
        refine lt_of_lt_of_le ?_ (length_written_le_sendAll cs _ c)
        simpa [Bus.modifyConnection] using hlt
      · have hc : c ∈ cs := (List.mem_cons.mp hc).resolve_left heq
        rw [Bus.sendAll]
        split
        · next connection hconnection =>
            have hsame : (b.modifyConnection c' fun _ => connection).connection c =
                b.connection c := by
              simp [Bus.modifyConnection, Function.update_of_ne heq]
            rw [← hsame]
            exact ih hc (by rwa [hsame])
        · exact ih hc hwritable
        · next f hf he =>
            -- all that sending throws can be caught
            rw [hmessage, BusConnection.sendMessage] at he
            split_ifs at he
            exact absurd (Except.error.inj he).symm (hf _)

theorem connection_sendAll {cs : List ℕ} {b : Bus δ}
    (h : Sendable event → ∀ c ∈ cs, ¬Writable (b.connection c)) :
    (Bus.sendAll (send protobuf event) cs b).2.connection = b.connection := by
  induction cs generalizing b with
  | nil => rfl
  | cons c cs ih =>
      have hrest : Sendable event → ∀ c ∈ cs, ¬Writable (b.connection c) :=
        fun hs c hc => h hs c (List.mem_cons_of_mem _ hc)
      rw [Bus.sendAll]
      split
      · next connection hconnection =>
          have hsendable : Sendable event := by
            by_contra hnot
            obtain ⟨f, hf⟩ := send_of_not_sendable protobuf hnot (b.connection c)
            rw [hf] at hconnection
            cases hconnection
          obtain ⟨message, hmessage⟩ := send_of_sendable protobuf hsendable
          rw [hmessage] at hconnection
          have heq := sendMessage_of_not_writable (h hsendable c List.mem_cons_self) hconnection
          have hbus : (b.modifyConnection c fun _ => connection) = b := by
            simp [Bus.modifyConnection, heq]
          rw [hbus]
          exact ih hrest
      · exact ih hrest
      · rfl

end

theorem connection_foldl_removeConnection (failing : List ℕ) (b : Bus δ) :
    (failing.foldl Bus.removeConnection b).connection = b.connection := by
  induction failing generalizing b with
  | nil => rfl
  | cons c failing ih => exact ih (b.removeConnection c)

theorem connection_dispatchToConnections
    (send : BusConnection → Except Fault BusConnection) (cs : List ℕ) (b : Bus δ) :
    (b.dispatchToConnections send cs).2.connection = (Bus.sendAll send cs b).2.connection := by
  rw [Bus.dispatchToConnections]
  split
  · next f b' hall => rw [hall]
  · next failing b' hall => rw [hall, connection_foldl_removeConnection]

/-- The sinks have no part in sending. -/
theorem connection_sendAll_congr {send : BusConnection → Except Fault BusConnection}
    {cs : List ℕ} {b b' : Bus δ} (h : b.connection = b'.connection) :
    (Bus.sendAll send cs b).2.connection = (Bus.sendAll send cs b').2.connection := by
  induction cs generalizing b b' with
  | nil => exact h
  | cons c cs ih =>
      simp only [Bus.sendAll, h]
      cases send (b'.connection c) with
      | ok connection => exact ih (by simp [Bus.modifyConnection, h])
      | error f =>
          cases f with
          | thrown e => exact ih h
          | assertion | readPastEnd | writePastEnd | nullPointer => exact h

theorem connection_sendOutgoing (env : Environment) (event : Event Bytes) (b : Bus δ) :
    (sendOutgoing env event b).2.connection =
      (Bus.sendAll (send env.protobuf event) b.connections b).2.connection := by
  rw [sendOutgoing]
  cases hschema : event.metaData.getUserInfo wireSchemaKey with
  | error f =>
      refine (connection_sendAll fun hsendable => ?_).symm
      obtain ⟨wireSchema, hfind⟩ := Option.isSome_iff_exists.mp hsendable.wireSchema
      simp [MetaData.getUserInfo, hfind] at hschema
  | ok wireSchema =>
      have hsend : send env.protobuf event =
          fun connection => connection.sendEvent env.protobuf event wireSchema := by
        funext connection
        rw [send, hschema]
        rfl
      rw [hsend]
      exact connection_dispatchToConnections _ _ _

/-! ### Isolation -/

/-- Every live sink with a matching scope whose `handle` returns has been handed
the event. -/
def SinksServed (env : Environment) (event : Event Bytes) (b : Bus δ) : Prop :=
  ∃ ks, called env event b = .ok ks ∧
    ∀ s k, k ∈ b.sinks.sinkDispatcher.entries s → s.covers event.scope = true →
      b.sinks.alive k = true → returns env.now event b.sinks k = true → k ∈ ks

/-- The same has been written to all connections. -/
def ConnectionsServed (result reference : Bus δ) : Prop :=
  ∀ c, (result.connection c).written = (reference.connection c).written

theorem sinksServed_iff (env : Environment) (event : Event Bytes) (b : Bus δ) :
    SinksServed env event b ↔ event.scope.SuperScopesFit ∧
      Hindmost (returns env.now event b.sinks) (b.sinks.targets event) := by
  rw [hindmost_iff, ← callTraced_fst, SinksServed, called_eq]
  by_cases hfit : event.scope.SuperScopesFit
  · rw [if_pos hfit]
    simp only [Except.ok.injEq, exists_eq_left', hfit, true_and]
    constructor
    · intro h k hk hreturns
      obtain ⟨halive, s, hcovers, hmem⟩ := WeakScopeDispatcher.mem_sinksAbove.mp hk
      exact h s k hmem hcovers halive hreturns
    · intro h s k hmem hcovers halive hreturns
      exact h k (WeakScopeDispatcher.mem_sinksAbove.mpr ⟨halive, s, hcovers, hmem⟩) hreturns
  · simp [hfit]

theorem connectionsServed_iff {env : Environment} {event : Event Bytes} {cs : List ℕ}
    {b result reference : Bus δ} {outcome : Except Fault Unit} {sinks : Sinks δ}
    (hsinks : b.sinks.call env.now event (b.sinks.targets event) = (outcome, sinks))
    (hreturned : outcome = .ok () → result.connection =
      (Bus.sendAll (send env.protobuf event) cs b).2.connection)
    (hthrown : ∀ f, outcome = .error f → result.connection = b.connection)
    (hreference : reference.connection =
      (Bus.sendAll (send env.protobuf event) cs b).2.connection) :
    ConnectionsServed result reference ↔
      (∀ k ∈ b.sinks.targets event, returns env.now event b.sinks k = true) ∨
        ¬(Sendable event ∧ ∃ c ∈ cs, Writable (b.connection c)) := by
  rw [← call_fst_ok_iff, hsinks, ConnectionsServed, hreference]
  cases outcome with
  | ok _ => simp [hreturned rfl]
  | error f =>
      rw [hthrown f rfl, or_iff_right (by simp)]
      constructor
      · rintro h ⟨hsendable, c, hc, hwritable⟩
        have hlt : (b.connection c).written.length <
            ((Bus.sendAll (send env.protobuf event) cs b).2.connection c).written.length :=
          length_written_lt_sendAll hsendable hc hwritable
        rw [← h c] at hlt
        exact lt_irrefl _ hlt
      · intro h c
        rw [connection_sendAll fun hsendable c hc hwritable => h ⟨hsendable, c, hc, hwritable⟩]

/-- The sinks get their event although others throw exactly if the scopes above the one of
the event can be made and none of the sinks that throw comes before one that returns. The
connections get what they would get if no sink threw exactly if none throws, or there is
nothing to be written. -/
theorem dispatch_isolated_iff (env : Environment) (event : Event Bytes) (b : Bus δ) :
    (SinksServed env event b ∧
        ConnectionsServed (b.handle env event).2 (sendOutgoing env event b).2 ↔
      event.scope.SuperScopesFit ∧
        Hindmost (returns env.now event b.sinks) (b.sinks.targets event) ∧
        ((∀ k ∈ b.sinks.targets event, returns env.now event b.sinks k = true) ∨
          ¬(Sendable event ∧ ∃ c ∈ b.connections, Writable (b.connection c)))) ∧
    (SinksServed env event b ∧ ConnectionsServed (b.handleIncoming env event).2 b ↔
      event.scope.SuperScopesFit ∧
        Hindmost (returns env.now event b.sinks) (b.sinks.targets event)) ∧
    ∀ connection, (SinksServed env event b ∧
        ConnectionsServed (b.serverHandleIncoming env event connection).2
          (sendIncoming env event connection b).2 ↔
      event.scope.SuperScopesFit ∧
        Hindmost (returns env.now event b.sinks) (b.sinks.targets event) ∧
        ((∀ k ∈ b.sinks.targets event, returns env.now event b.sinks k = true) ∨
          ¬(Sendable event ∧
            ∃ c ∈ b.connections, c ≠ connection ∧ Writable (b.connection c)))) := by
  rcases hsinks : b.sinks.call env.now event (b.sinks.targets event) with ⟨outcome, sinks⟩
  refine ⟨?_, ?_, fun connection => ?_⟩
  · rw [sinksServed_iff, and_assoc]
    refine and_congr_right fun hfit => and_congr_right fun _ => ?_
    refine connectionsServed_iff hsinks (fun hok => ?_) (fun f hf => ?_)
      (connection_sendOutgoing env event b)
    · subst hok
      rw [handle_eq env hfit, hsinks]
      exact (connection_sendOutgoing env event _).trans (connection_sendAll_congr rfl)
    · subst hf
      rw [handle_eq env hfit, hsinks]
  · rw [sinksServed_iff]
    refine and_iff_left fun c => ?_
    rw [connection_handleIncoming]
  · rw [sinksServed_iff, and_assoc]
    refine and_congr_right fun hfit => and_congr_right fun _ => ?_
    have hcs : (∃ c ∈ b.connections.filter (· ≠ connection), Writable (b.connection c)) ↔
        ∃ c ∈ b.connections, c ≠ connection ∧ Writable (b.connection c) := by
      simp [List.mem_filter, and_assoc]
    rw [← hcs]
    refine connectionsServed_iff hsinks (fun hok => ?_) (fun f hf => ?_)
      (connection_dispatchToConnections _ _ b)
    · subst hok
      rw [serverHandleIncoming_eq env hfit, hsinks]
      exact (connection_dispatchToConnections _ _ _).trans (connection_sendAll_congr rfl)
    · subst hf
      rw [serverHandleIncoming_eq env hfit, hsinks]

/-! ### A sink without a converter -/

/-- Sink 0 has no converter for the wire schema, sink 1 reads strings; one
connection is open. -/
def converterlessBus : Bus Bytes where
  alive := true
  isServer := true
  sinks := {
    sinkDispatcher := .ofRegistrations [(.root, 0), (.root, 1)]
    connector := fun k =>
      if k = 0 then .pull ⟨⟨.unambiguousMap .empty (bytes "{}"), true⟩, []⟩
      else .pull ⟨⟨.predicateList [(fun _ => true, stringConverter)], true⟩, []⟩
    alive := fun _ => true }
  connections := [0, 1]
  connection _ := ⟨true, false, false, false, [.length], []⟩

def textEvent : Event Bytes where
  id := some ⟨⟨List.replicate 16 16, rfl⟩, 1⟩
  scope := .root
  content := some (bytes "text")
  type := []
  method := []
  causes := .empty
  metaData := (MetaData.new 1).setUserInfo wireSchemaKey utf8String

/-- Sink 1 does not get the event, and nothing is written. -/
theorem not_isolated_converterlessBus :
    ¬SinksServed ReceiveLoop.sampleEnvironment textEvent converterlessBus ∧
    ¬ConnectionsServed (converterlessBus.handle ReceiveLoop.sampleEnvironment textEvent).2
      (sendOutgoing ReceiveLoop.sampleEnvironment textEvent converterlessBus).2 ∧
    ¬ConnectionsServed
      (converterlessBus.serverHandleIncoming ReceiveLoop.sampleEnvironment textEvent 0).2
      (sendIncoming ReceiveLoop.sampleEnvironment textEvent 0 converterlessBus).2 := by
  refine ⟨fun h => ?_, fun h => ?_, fun h => ?_⟩
  · obtain ⟨ks, hcalled, hserved⟩ := h
    have honly : called ReceiveLoop.sampleEnvironment textEvent converterlessBus = .ok [0] := by
      decide
    obtain rfl := Except.ok.inj (hcalled.symm.trans honly)
    exact absurd (hserved .root 1 (by decide) rfl rfl (by decide)) (by decide)
  · exact absurd (h 1) (by decide)
  · exact absurd (h 1) (by decide)

end Rsb.Transport.Socket.Isolation
