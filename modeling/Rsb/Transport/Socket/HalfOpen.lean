import Rsb.Transport.Socket.BusConnection
import Rsb.Library.Runs

/-!
Connections that are dropped (`BusImpl::handle`, `BusServerImpl::handleIncoming`,
`BusConnection::performSafeCleanup`).

A connection is in the list of its bus, so that it gets events, and has a read
pending, so that events from it are dispatched. The two end in different places:
a receive loop that ends removes the connection and closes the socket, while a
failure to send removes the connection only, and the pending read keeps it alive.

The threads of the clients and of the service interleave. The list is changed
with `connectionLock` held; a dispatch holds it from the first `sendEvent` to the
last removal, so there is at most one.
-/

namespace Rsb.Transport.Socket.HalfOpen

open Library

variable {δ : Type}

/-- Where the receive loop of a connection stands while no read is pending. -/
inductive Phase
  /-- Not started, or ended. -/
  | idle
  /-- In the list; `startReceiving` comes next. -/
  | constructed
  /-- A read has completed; its handler will start the next one. -/
  | handling
  /-- A read has failed; `performSafeCleanup` comes next. -/
  | ending
  /-- In `performSafeCleanup`, before `disconnect`. -/
  | cleaning
  deriving DecidableEq

/-- The loops of a dispatch: the connections to which the event has yet to be
sent, and those on which sending has failed. -/
structure Dispatch where
  connections : List ℕ
  failing : List ℕ

structure State (δ : Type) where
  bus : Bus δ
  made : ℕ
  phase : ℕ → Phase
  dispatching : Option Dispatch

/-- A bus without connections. -/
def State.init (isServer : Bool) (sinks : Sinks δ) : State δ :=
  ⟨⟨true, isServer, sinks, [], fun _ => ⟨false, false, false, false, [], []⟩⟩, 0,
    fun _ => .idle, none⟩

inductive Label
  | addConnection (connection : BusConnection)
  | startReceiving (c : ℕ)
  | complete (c : ℕ) (success : Bool)
  /-- The handler starts the next read. -/
  | receive (c : ℕ) (read : Read)
  /-- What was received cannot be parsed. -/
  | reject (c : ℕ)
  /-- An exception leaves the handler. -/
  | abandon (c : ℕ)
  /-- The two steps of `performSafeCleanup`. -/
  | removeConnection (c : ℕ)
  | disconnect (c : ℕ)
  | shutdown (c : ℕ)
  | peerGone (c : ℕ)
  /-- An event is dispatched to all connections but the one it came from. -/
  | dispatch (origin : Option ℕ)
  /-- The event is serialized, or cannot be. -/
  | send (message : Except Exception Bytes)
  | removeFailing
  | finish

/-- `sendEvent` for an event that has been serialized. -/
def sendSerialized (message : Except Exception Bytes) (connection : BusConnection) :
    Except Fault BusConnection :=
  match message with
  | .ok message => connection.sendMessage message
  | .error e => .error (.thrown e)

def setPhase (s : State δ) (c : ℕ) (phase : Phase) : ℕ → Phase :=
  Function.update s.phase c phase

def step (s : State δ) : Label → Option (State δ)
  | .addConnection connection =>
      if s.dispatching.isNone ∧ connection.pending = [] then
        some { s with
          bus := (s.bus.modifyConnection s.made fun _ => connection).addConnection s.made
          made := s.made + 1
          phase := setPhase s s.made .constructed }
      else none
  | .startReceiving c =>
      if s.phase c = .constructed then
        some { s with
          bus := s.bus.modifyConnection c (·.receiveEvent)
          phase := setPhase s c .idle }
      else none
  | .complete c success =>
      match (s.bus.connection c).pending with
      | [] => none
      | _ :: pending =>
          some { s with
            bus := s.bus.modifyConnection c fun connection => { connection with pending }
            phase := setPhase s c (if success then .handling else .ending) }
  | .receive c read =>
      if s.phase c = .handling then
        some { s with
          bus := s.bus.modifyConnection c fun connection =>
            { connection with pending := connection.pending ++ [read] }
          phase := setPhase s c .idle }
      else none
  | .reject c =>
      if s.phase c = .handling then some { s with phase := setPhase s c .ending } else none
  | .abandon c =>
      if s.phase c = .handling then some { s with phase := setPhase s c .idle } else none
  | .removeConnection c =>
      if s.phase c = .ending ∧ s.dispatching.isNone then
        some { s with bus := s.bus.removeConnection c, phase := setPhase s c .cleaning }
      else none
  | .disconnect c =>
      if s.phase c = .cleaning then
        some { s with
          bus := s.bus.modifyConnection c (·.disconnect)
          phase := setPhase s c .idle }
      else none
  | .shutdown c => some { s with bus := s.bus.modifyConnection c (·.shutdown) }
  | .peerGone c =>
      some { s with
        bus := s.bus.modifyConnection c fun connection => { connection with peerGone := true } }
  | .dispatch origin =>
      if s.dispatching.isNone then
        some { s with dispatching := some ⟨s.bus.connections.filter (some · ≠ origin), []⟩ }
      else none
  | .send message =>
      match s.dispatching with
      | some ⟨c :: cs, failing⟩ =>
          match sendSerialized message (s.bus.connection c) with
          | .ok connection =>
              some { s with
                bus := s.bus.modifyConnection c fun _ => connection
                dispatching := some ⟨cs, failing⟩ }
          | .error _ => some { s with dispatching := some ⟨cs, failing ++ [c]⟩ }
      | _ => none
  | .removeFailing =>
      match s.dispatching with
      | some ⟨[], c :: failing⟩ =>
          some { s with bus := s.bus.removeConnection c, dispatching := some ⟨[], failing⟩ }
      | _ => none
  | .finish =>
      match s.dispatching with
      | some ⟨[], []⟩ => some { s with dispatching := none }
      | _ => none

/-- A connection with a pending read is in the list. -/
def NoHalfOpen (s : State δ) : Prop :=
  ∀ c, (s.bus.connection c).pending ≠ [] → c ∈ s.bus.connections

/-- A read is pending, or will be. -/
def Receiving (s : State δ) (c : ℕ) : Prop :=
  (s.bus.connection c).pending ≠ [] ∨ s.phase c = .constructed ∨ s.phase c = .handling

instance (s : State δ) (c : ℕ) : Decidable (Receiving s c) := by
  unfold Receiving
  infer_instance

/-- The connection that is dropped next. -/
def State.dropped (s : State δ) : Option ℕ :=
  match s.dispatching with
  | some ⟨[], c :: _⟩ => some c
  | _ => none

/-- A connection that is dropped because sending has failed receives no more. -/
def Ended (s : State δ) : Label → Prop
  | .removeFailing => ∀ c ∈ s.dropped, ¬Receiving s c
  | _ => True

instance (s : State δ) : ∀ l, Decidable (Ended s l) := by
  intro l
  cases l <;> simp only [Ended] <;> infer_instance

/-- What receives is in the list, and has at most one read pending. -/
structure Listed (s : State δ) : Prop where
  receiving : ∀ c, Receiving s c → c ∈ s.bus.connections
  single : ∀ c, (s.bus.connection c).pending.length ≤ if s.phase c = .idle then 1 else 0

/-- A step that concerns connection `c`. -/
theorem Listed.update {s s' : State δ} (h : Listed s) (c : ℕ)
    (hpending : ∀ c', c' ≠ c → (s'.bus.connection c').pending = (s.bus.connection c').pending)
    (hphase : ∀ c', c' ≠ c → s'.phase c' = s.phase c')
    (hmem : ∀ c', c' ≠ c → c' ∈ s.bus.connections → c' ∈ s'.bus.connections)
    (hreceiving : Receiving s' c → c ∈ s'.bus.connections)
    (hsingle : (s'.bus.connection c).pending.length ≤ if s'.phase c = .idle then 1 else 0) :
    Listed s' := by
  refine ⟨fun c' hc' => ?_, fun c' => ?_⟩
  · by_cases heq : c' = c
    · subst heq
      exact hreceiving hc'
    · rw [Receiving, hpending c' heq, hphase c' heq] at hc'
      exact hmem c' heq (h.receiving c' hc')
  · by_cases heq : c' = c
    · subst heq
      exact hsingle
    · rw [hpending c' heq, hphase c' heq]
      exact h.single c'

theorem setPhase_apply (s : State δ) (c c' : ℕ) (phase : Phase) :
    setPhase s c phase c' = if c' = c then phase else s.phase c' := by
  simp [setPhase, Function.update_apply]

theorem pending_sendSerialized {message : Except Exception Bytes}
    {connection connection' : BusConnection}
    (h : sendSerialized message connection = .ok connection') :
    connection'.pending = connection.pending := by
  cases message with
  | error e => simp [sendSerialized] at h
  | ok message =>
      simp only [sendSerialized, BusConnection.sendMessage] at h
      split_ifs at h
      all_goals
        obtain rfl := Except.ok.inj h
        rfl

theorem Listed.pending_eq_nil {s : State δ} (h : Listed s) {c : ℕ} (hc : s.phase c ≠ .idle) :
    (s.bus.connection c).pending = [] := by
  have hlength := h.single c
  rw [if_neg hc] at hlength
  exact List.length_eq_zero_iff.mp (Nat.le_zero.mp hlength)

/-- A step that leaves the list, the pending reads and the phases alone. -/
theorem Listed.congr {s s' : State δ} (h : Listed s)
    (hlist : s'.bus.connections = s.bus.connections) (hphase : s'.phase = s.phase)
    (hpending : ∀ c, (s'.bus.connection c).pending = (s.bus.connection c).pending) :
    Listed s' := by
  refine ⟨fun c hc => ?_, fun c => ?_⟩
  · rw [Receiving, hpending, hphase] at hc
    exact hlist ▸ h.receiving c hc
  · rw [hpending, hphase]
    exact h.single c

/-- A step that changes connection `c` and moves its receive loop. -/
theorem Listed.move {s : State δ} (h : Listed s) {c : ℕ} {f : BusConnection → BusConnection}
    {phase : Phase}
    (hmem : (f (s.bus.connection c)).pending ≠ [] ∨ phase = .constructed ∨ phase = .handling →
      c ∈ s.bus.connections)
    (hsingle : (f (s.bus.connection c)).pending.length ≤ if phase = .idle then 1 else 0) :
    Listed { s with bus := s.bus.modifyConnection c f, phase := setPhase s c phase } := by
  refine h.update c (fun c' hne => ?_) (fun c' hne => ?_) (fun c' _ hc' => hc') (fun hc => ?_) ?_
  · simp [Bus.connection_modifyConnection, hne]
  · simp [setPhase_apply, hne]
  · apply hmem
    simpa [Receiving, setPhase_apply] using hc
  · simpa [setPhase_apply] using hsingle

theorem Listed.step {s s' : State δ} {l : Label} (h : Listed s) (hl : Ended s l)
    (hstep : HalfOpen.step s l = some s') : Listed s' := by
  cases l with
  | addConnection connection =>
      simp only [HalfOpen.step] at hstep
      split_ifs at hstep with hguard
      obtain rfl := Option.some.inj hstep
      refine h.update s.made (fun c' hne => ?_) (fun c' hne => ?_) (fun c' _ hmem => ?_)
        (fun _ => ?_) ?_
      · simp [Bus.addConnection, Bus.connection_modifyConnection, hne]
      · simp [setPhase_apply, hne]
      · exact List.mem_append_left _ hmem
      · exact List.mem_append_right _ (List.mem_singleton_self _)
      · simp [Bus.addConnection, hguard.2]
  | startReceiving c =>
      simp only [HalfOpen.step] at hstep
      split_ifs at hstep with hphase
      obtain rfl := Option.some.inj hstep
      have hnil := h.pending_eq_nil (c := c) (by simp [hphase])
      apply h.move
      · intro _
        exact h.receiving c (.inr (.inl hphase))
      · simp [BusConnection.receiveEvent, hnil]
  | complete c success =>
      simp only [HalfOpen.step] at hstep
      cases hpending : (s.bus.connection c).pending with
      | nil => simp [hpending] at hstep
      | cons read pending =>
          simp only [hpending, Option.some.injEq] at hstep
          subst hstep
          have hsingle := h.single c
          apply h.move
          · intro _
            exact h.receiving c (.inl (by simp [hpending]))
          · -- there was no other read pending
            have hlength : pending.length = 0 := by
              rw [hpending, List.length_cons] at hsingle
              split_ifs at hsingle <;> omega
            simp [hlength]
  | receive c read =>
      simp only [HalfOpen.step] at hstep
      split_ifs at hstep with hphase
      obtain rfl := Option.some.inj hstep
      have hnil := h.pending_eq_nil (c := c) (by simp [hphase])
      apply h.move
      · intro _
        exact h.receiving c (.inr (.inr hphase))
      · simp [hnil]
  | reject c | abandon c =>
      simp only [HalfOpen.step] at hstep
      split_ifs at hstep with hphase
      obtain rfl := Option.some.inj hstep
      have hnil := h.pending_eq_nil (c := c) (by simp [hphase])
      refine h.update c (fun _ _ => rfl) (fun c' hne => ?_) (fun c' _ hmem => hmem)
        (fun _ => h.receiving c (.inr (.inr hphase))) ?_
      · simp [setPhase_apply, hne]
      · simp [hnil]
  | removeConnection c =>
      simp only [HalfOpen.step] at hstep
      split_ifs at hstep with hguard
      obtain rfl := Option.some.inj hstep
      have hnil := h.pending_eq_nil (c := c) (by simp [hguard.1])
      refine h.update c (fun _ _ => rfl) (fun c' hne => ?_) (fun c' hne hmem => ?_)
        (fun hc => ?_) ?_
      · simp [setPhase_apply, hne]
      · exact List.mem_filter.mpr ⟨hmem, by simpa using hne⟩
      · simp [Receiving, Bus.removeConnection, setPhase_apply, hnil] at hc
      · simp [Bus.removeConnection, hnil]
  | disconnect c =>
      simp only [HalfOpen.step] at hstep
      split_ifs at hstep with hphase
      obtain rfl := Option.some.inj hstep
      have hnil := h.pending_eq_nil (c := c) (by simp [hphase])
      apply h.move
      · simp [BusConnection.disconnect, hnil]
      · simp [BusConnection.disconnect, hnil]
  | shutdown c | peerGone c =>
      obtain rfl := Option.some.inj hstep
      refine h.congr rfl rfl fun c' => ?_
      rw [Bus.connection_modifyConnection]
      split_ifs with heq
      · subst heq
        rfl
      · rfl
  | dispatch origin =>
      simp only [HalfOpen.step] at hstep
      split_ifs at hstep
      obtain rfl := Option.some.inj hstep
      exact h.congr rfl rfl fun _ => rfl
  | send message =>
      simp only [HalfOpen.step] at hstep
      split at hstep
      · next c cs failing hdispatching =>
          cases hsend : sendSerialized message (s.bus.connection c) with
          | error f =>
              simp only [hsend, Option.some.injEq] at hstep
              subst hstep
              exact h.congr rfl rfl fun _ => rfl
          | ok connection =>
              simp only [hsend, Option.some.injEq] at hstep
              subst hstep
              refine h.congr rfl rfl fun c' => ?_
              rw [Bus.connection_modifyConnection]
              split_ifs with heq
              · subst heq
                exact pending_sendSerialized hsend
              · rfl
      · cases hstep
  | removeFailing =>
      simp only [HalfOpen.step] at hstep
      split at hstep
      · next c failing hdispatching =>
          obtain rfl := Option.some.inj hstep
          have hended : ¬Receiving s c := hl c (by simp [State.dropped, hdispatching])
          exact h.update c (fun _ _ => rfl) (fun _ _ => rfl)
            (fun c' hne hmem => List.mem_filter.mpr ⟨hmem, by simpa using hne⟩)
            (fun hc => absurd hc hended) (h.single c)
      · cases hstep
  | finish =>
      simp only [HalfOpen.step] at hstep
      split at hstep
      · obtain rfl := Option.some.inj hstep
        exact h.congr rfl rfl fun _ => rfl
      · cases hstep

/-! ### A dispatch without interruption -/

theorem exec_sends (message : Except Exception Bytes) (cs : List ℕ) (s : State δ)
    (failing : List ℕ) :
    ∃ failed, (Bus.sendAll (sendSerialized message) cs s.bus).1 = .ok failed ∧
      exec step { s with dispatching := some ⟨cs, failing⟩ } (.replicate cs.length (.send message)) =
        some { s with
          bus := (Bus.sendAll (sendSerialized message) cs s.bus).2
          dispatching := some ⟨[], failing ++ failed⟩ } := by
  induction cs generalizing s failing with
  | nil => exact ⟨[], rfl, by simp [Bus.sendAll]⟩
  | cons c cs ih =>
      cases hsend : sendSerialized message (s.bus.connection c) with
      | ok connection =>
          obtain ⟨failed, hok, hexec⟩ :=
            ih { s with bus := s.bus.modifyConnection c fun _ => connection } failing
          refine ⟨failed, by simpa [Bus.sendAll, hsend] using hok, ?_⟩
          rw [List.length_cons, List.replicate_succ, exec_cons_eq_some]
          exact ⟨_, by simp only [step, hsend]; rfl, by simpa [Bus.sendAll, hsend] using hexec⟩
      | error f =>
          obtain ⟨e, rfl⟩ : ∃ e, f = .thrown e := by
            cases message with
            | error e => exact ⟨e, (Except.error.inj hsend).symm⟩
            | ok message =>
                simp only [sendSerialized, BusConnection.sendMessage] at hsend
                split_ifs at hsend
                exact ⟨_, (Except.error.inj hsend).symm⟩
          obtain ⟨failed, hok, hexec⟩ := ih s (failing ++ [c])
          refine ⟨c :: failed, by simp [Bus.sendAll, hsend, hok, Except.map], ?_⟩
          rw [List.length_cons, List.replicate_succ, exec_cons_eq_some]
          exact ⟨_, by simp only [step, hsend]; rfl, by simpa [Bus.sendAll, hsend] using hexec⟩

theorem exec_removeFailing (failing : List ℕ) (s : State δ) :
    exec step { s with dispatching := some ⟨[], failing⟩ }
        (.replicate failing.length .removeFailing) =
      some { s with
        bus := failing.foldl Bus.removeConnection s.bus
        dispatching := some ⟨[], []⟩ } := by
  induction failing generalizing s with
  | nil => rfl
  | cons c failing ih =>
      rw [List.length_cons, List.replicate_succ, exec_cons_eq_some]
      exact ⟨_, rfl, ih { s with bus := s.bus.removeConnection c }⟩

/-- The steps of one dispatch do what `Bus.dispatchToConnections` does. -/
theorem exec_dispatch {s : State δ} (hs : s.dispatching = none)
    (message : Except Exception Bytes) (origin : Option ℕ) :
    ∃ labels, exec step s labels = some { s with
      bus := (s.bus.dispatchToConnections (sendSerialized message)
        (s.bus.connections.filter (some · ≠ origin))).2 } := by
  obtain ⟨failed, hok, hsends⟩ :=
    exec_sends message (s.bus.connections.filter (some · ≠ origin)) s []
  have hstart : exec step s [.dispatch origin] =
      some { s with dispatching := some ⟨s.bus.connections.filter (some · ≠ origin), []⟩ } := by
    simp [exec, step, hs]
  let sent : Bus δ := (Bus.sendAll (sendSerialized message)
    (s.bus.connections.filter (some · ≠ origin)) s.bus).2
  have hremoved := exec_removeFailing failed { s with bus := sent }
  have hfinished : exec step
      { s with bus := failed.foldl Bus.removeConnection sent, dispatching := some ⟨[], []⟩ }
        [.finish] =
      some { s with
        bus := failed.foldl Bus.removeConnection sent
        dispatching := none } := rfl
  refine ⟨_, (exec_append (exec_append (exec_append hstart hsends) hremoved) hfinished).trans ?_⟩
  have hdispatch : (s.bus.dispatchToConnections (sendSerialized message)
      (s.bus.connections.filter (some · ≠ origin))).2 =
        failed.foldl Bus.removeConnection sent := by
    simp only [Bus.dispatchToConnections]
    split
    · next f b hall =>
        rw [hall] at hok
        cases hok
    · next failing b hall =>
        simp only [sent, hall] at hok ⊢
        rw [Except.ok.inj hok]
  rw [hdispatch, ← hs]

/-! ### Every run -/

theorem noHalfOpen_removeFailing_iff {s s' : State δ} (h : NoHalfOpen s) {c : ℕ}
    (hc : s.dropped = some c) (hstep : step s .removeFailing = some s') :
    NoHalfOpen s' ↔ (s.bus.connection c).pending = [] := by
  simp only [step] at hstep
  split at hstep
  · next c' failing hdispatching =>
      obtain rfl : c' = c := by simpa [State.dropped, hdispatching] using hc
      obtain rfl := Option.some.inj hstep
      constructor
      · intro hs'
        by_contra hpending
        have hmem := hs' c' hpending
        simp [Bus.removeConnection] at hmem
      · intro hnil c hpending
        have hne : c ≠ c' := by
          rintro rfl
          exact hpending hnil
        exact List.mem_filter.mpr ⟨h c hpending, by simpa using hne⟩
  · cases hstep

/-- To drop a connection leaves a half-open one exactly if its read is pending. If
no connection is dropped that receives, or will, no connection is ever half-open. -/
theorem no_half_open_iff :
    (∀ (s s' : State δ) (c : ℕ), NoHalfOpen s → s.dropped = some c →
      step s .removeFailing = some s' →
        (NoHalfOpen s' ↔ (s.bus.connection c).pending = [])) ∧
    ∀ (isServer : Bool) (sinks : Sinks δ) (s : State δ) (labels : List Label),
      Along step Ended (State.init isServer sinks) labels →
        exec step (State.init isServer sinks) labels = some s → NoHalfOpen s := by
  refine ⟨fun s s' c h hc => noHalfOpen_removeFailing_iff h hc,
    fun isServer sinks s labels halong hrun => ?_⟩
  have hinit : Listed (State.init isServer sinks) :=
    ⟨fun c hc => by simp [Receiving, State.init] at hc, fun c => by simp [State.init]⟩
  have hs : Listed s := exec_invariant_along (fun _ _ _ h hl hstep => h.step hl hstep)
    hinit halong hrun
  exact fun c hpending => hs.receiving c (.inl hpending)

/-- No connector is registered. -/
def noSinks : Sinks Bytes :=
  ⟨.empty, fun _ => .push ⟨⟨.predicateList [], false⟩, []⟩, fun _ => false⟩

/-- A connection over which the handshake has gone. -/
def established : BusConnection := ⟨true, false, false, false, [], []⟩

/-- The peer cannot be written to any more, and has not closed its side. -/
def sendFailureRun : List Label :=
  [.addConnection established, .startReceiving 0, .peerGone 0, .dispatch none, .send (.ok []),
    .removeFailing, .finish]

/-- The connection is in no list, and goes on to receive. -/
theorem half_open_sendFailureRun :
    ∃ s, exec step (State.init true noSinks) sendFailureRun = some s ∧ ¬NoHalfOpen s ∧
      ∃ s', exec step s [.complete 0 true, .receive 0 (.body 1)] = some s' ∧ ¬NoHalfOpen s' := by
  refine ⟨_, rfl, fun h => ?_, _, rfl, fun h => ?_⟩
  · exact absurd (h 0 (by decide)) (by decide)
  · exact absurd (h 0 (by decide)) (by decide)

/-- The end of file has been read when sending fails. -/
def endOfFileRun : List Label :=
  [.addConnection established, .startReceiving 0, .peerGone 0, .complete 0 false, .dispatch none,
    .send (.ok []), .removeFailing, .finish, .removeConnection 0, .disconnect 0]

theorem no_half_open_endOfFileRun :
    ∃ s, exec step (State.init true noSinks) endOfFileRun = some s ∧ NoHalfOpen s :=
  ⟨_, rfl, no_half_open_iff.2 true noSinks _ endOfFileRun (by decide) rfl⟩

end Rsb.Transport.Socket.HalfOpen
