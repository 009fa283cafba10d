import Rsb.Transport.Socket.BusConnection
import Rsb.Transport.Socket.Handshake
import Mathlib.Logic.Unique

/-!
The accept loop of a bus server (`BusServerImpl::acceptOne`,
`BusServerImpl::handleAccept`).

Between the completion of one accept and the start of the next one the handler
works on a socket whose peer may already be gone: it prints the address of the
peer, when messages of that level are logged, and it constructs a connection,
which sets an option and writes the handshake. All of these may throw, and
nothing catches what they throw.
-/

namespace Rsb.Transport.Socket

open Library

variable {δ : Type}

/-- How the operations on an accepted socket end. -/
structure AcceptedSocket where
  remoteEndpoint : Except Fault Unit
  setNoDelay : Except Fault Unit
  writeHandshake : Except Fault Unit

/-- `logsInfo` says whether the argument of `RSCINFO` is evaluated. -/
structure ServerOptions where
  logsInfo : Bool
  tcpnodelay : Bool

/-- A connection on the server that has just been constructed. -/
def BusConnection.accepted : BusConnection := ⟨true, false, false, false, [], Handshake.handshake⟩

/-- The constructor of `BusConnection` in the role of the server. -/
def BusConnection.construct (tcpNoDelay : Bool) (socket : AcceptedSocket) :
    Except Fault BusConnection := do
  if tcpNoDelay then
    socket.setNoDelay
  socket.writeHandshake
  return .accepted

/-- A server, with the number of connections constructed so far, by which they
are known, and the number of accept operations that are pending. -/
structure Server (δ : Type) where
  bus : Bus δ
  made : ℕ
  accepts : ℕ
  shutdown : Bool

namespace Server

def acceptOne (s : Server δ) : Server δ := { s with accepts := s.accepts + 1 }

/-- `addConnection` and `startReceiving` for a new connection. -/
def enlist (s : Server δ) (connection : BusConnection) : Server δ :=
  let bus := (s.bus.modifyConnection s.made fun _ => connection).addConnection s.made
  { s with
    bus := bus.modifyConnection s.made (·.receiveEvent)
    made := s.made + 1 }

/-- The end of `handleAccept`. -/
def continueAccepting (s : Server δ) : Server δ :=
  if !s.shutdown then s.acceptOne else { s with shutdown := false }

/-- What `handleAccept` does with a socket before it has a connection. -/
def construct (options : ServerOptions) (socket : AcceptedSocket) :
    Except Fault BusConnection := do
  if options.logsInfo then
    socket.remoteEndpoint
  BusConnection.construct options.tcpnodelay socket

def handleAccept (options : ServerOptions) (s : Server δ)
    (accepted : Except ErrorCode AcceptedSocket) : Except Fault Unit × Server δ :=
  match accepted with
  | .error _ => (.ok (), s.continueAccepting)
  | .ok socket =>
      match construct options socket with
      -- the accept loop ends here
      | .error f => (.error f, s)
      | .ok connection => (.ok (), (s.enlist connection).continueAccepting)

end Server

namespace AcceptLoop

/-- The server, and the fault that left a handler. -/
structure State (δ : Type) where
  server : Server δ
  escaped : Option Fault

/-- A pending accept completes and its handler is invoked. -/
def step (options : ServerOptions) (s : State δ) (accepted : Except ErrorCode AcceptedSocket) :
    Option (State δ) :=
  match s.escaped, s.server.accepts with
  | none, accepts + 1 =>
      match Server.handleAccept options { s.server with accepts := accepts } accepted with
      | (.ok (), server) => some ⟨server, none⟩
      | (.error f, server) => some ⟨server, some f⟩
  | _, _ => none

/-- Every connection that was constructed is in the list once and waits for a
header. -/
structure Listed (s : Server δ) : Prop where
  once : ∀ c < s.made, s.bus.connections.count c = 1
  pending : ∀ c < s.made, (s.bus.connection c).pending = [.length]
  made : ∀ c ∈ s.bus.connections, c < s.made

/-- The server is not shutting down, and accepts. -/
structure Listening (s : State δ) : Prop where
  escaped : s.escaped = none
  accepts : s.server.accepts = 1
  shutdown : s.server.shutdown = false
  listed : Listed s.server

/-- Nothing the handler does with what was accepted throws. -/
def Serves (options : ServerOptions) : Except ErrorCode AcceptedSocket → Prop
  | .error _ => True
  | .ok socket =>
      (options.logsInfo = true → socket.remoteEndpoint = .ok ()) ∧
        (options.tcpnodelay = true → socket.setNoDelay = .ok ()) ∧ socket.writeHandshake = .ok ()

theorem construct_ok_iff (options : ServerOptions) (socket : AcceptedSocket)
    (connection : BusConnection) :
    Server.construct options socket = .ok connection ↔
      Serves options (.ok socket) ∧ .accepted = connection := by
  obtain ⟨logsInfo, tcpnodelay⟩ := options
  obtain ⟨remoteEndpoint, setNoDelay, writeHandshake⟩ := socket
  cases logsInfo <;> cases tcpnodelay <;>
    simp [Serves, Server.construct, BusConnection.construct, bind_eq_ok_iff, pure, Except.pure,
      Unique.exists_iff, and_assoc]

/-- Only the list and the connections matter. -/
theorem Listed.congr {s s' : Server δ} (h : Listed s) (hbus : s'.bus = s.bus)
    (hmade : s'.made = s.made) : Listed s' := by
  obtain ⟨bus, made, accepts, shutdown⟩ := s
  obtain ⟨bus', made', accepts', shutdown'⟩ := s'
  obtain rfl : bus' = bus := hbus
  obtain rfl : made' = made := hmade
  exact ⟨h.1, h.2, h.3⟩

theorem Listed.enlist {s : Server δ} (h : Listed s) {connection : BusConnection}
    (hpending : connection.pending = []) : Listed (s.enlist connection) := by
  have hnew : s.made ∉ s.bus.connections := fun hmem => lt_irrefl _ (h.made _ hmem)
  refine ⟨fun c hc => ?_, fun c hc => ?_, fun c hc => ?_⟩
  · have hcount : (s.bus.connections ++ [s.made]).count c = 1 := by
      rw [List.count_append, List.count_singleton]
      by_cases heq : c = s.made
      · subst heq
        simp [List.count_eq_zero_of_not_mem hnew]
      · have hlt : c < s.made := lt_of_le_of_ne (Nat.lt_succ_iff.mp hc) heq
        simp [h.once c hlt, Ne.symm heq]
    exact hcount
  · by_cases heq : c = s.made
    · subst heq
      simp [Server.enlist, Bus.modifyConnection, Bus.addConnection, BusConnection.receiveEvent,
        hpending]
    · have hlt : c < s.made := lt_of_le_of_ne (Nat.lt_succ_iff.mp hc) heq
      simpa [Server.enlist, Bus.modifyConnection, Bus.addConnection, Function.update_of_ne heq]
        using h.pending c hlt
  · rcases List.mem_append.mp hc with hc | hc
    · exact (h.made c hc).trans (Nat.lt_succ_self _)
    · obtain rfl := List.mem_singleton.mp hc
      exact Nat.lt_succ_self _

/-- What the handler leaves behind, whatever was accepted. -/
theorem Listening.step (options : ServerOptions) {s : State δ} (h : Listening s)
    (accepted : Except ErrorCode AcceptedSocket) :
    ∃ s', AcceptLoop.step options s accepted = some s' ∧ Listed s'.server ∧
      (Listening s' ↔ Serves options accepted) := by
  obtain ⟨⟨bus, made, accepts, shutdown⟩, escaped⟩ := s
  obtain ⟨hescaped, haccepts, hshutdown, hlisted⟩ := h
  obtain rfl : escaped = none := hescaped
  obtain rfl : accepts = 1 := haccepts
  obtain rfl : shutdown = false := hshutdown
  have hlisted₀ : Listed (⟨bus, made, 0, false⟩ : Server δ) := hlisted.congr rfl rfl
  cases accepted with
  | error code =>
      have hlisted₁ : Listed (⟨bus, made, 1, false⟩ : Server δ) := hlisted
      exact ⟨_, rfl, hlisted₁, iff_of_true ⟨rfl, rfl, rfl, hlisted₁⟩ trivial⟩
  | ok socket =>
      cases hconstruct : Server.construct options socket with
      | error f =>
          refine ⟨⟨⟨bus, made, 0, false⟩, some f⟩, ?_, hlisted₀, ?_⟩
          · simp only [AcceptLoop.step, Server.handleAccept, hconstruct]
          · refine iff_of_false (fun hl => absurd hl.escaped (by simp)) fun hserves => ?_
            rw [(construct_ok_iff options socket _).mpr ⟨hserves, rfl⟩] at hconstruct
            cases hconstruct
      | ok connection =>
          obtain ⟨hserves, rfl⟩ := (construct_ok_iff options socket _).mp hconstruct
          let server : Server δ := (Server.enlist ⟨bus, made, 0, false⟩ .accepted).continueAccepting
          have henlist : Listed (Server.enlist ⟨bus, made, 0, false⟩ .accepted) :=
            hlisted₀.enlist rfl
          have hlisted₁ : Listed server := henlist.congr rfl rfl
          refine ⟨⟨server, none⟩, ?_, hlisted₁, iff_of_true ⟨rfl, rfl, rfl, hlisted₁⟩ hserves⟩
          simp only [AcceptLoop.step, Server.handleAccept, hconstruct, server]

/-- A server that accepts goes on to do so after a completion exactly if nothing
throws that the handler does with what was accepted; in any case the connections
that were constructed are in the list and receive. -/
theorem accept_loop_survives_iff (options : ServerOptions) (s : State δ) (h : Listening s) :
    (∀ accepted, ∃ s', step options s accepted = some s' ∧ Listed s'.server ∧
      (Listening s' ↔ Serves options accepted)) ∧
    ∀ completions : List (Except ErrorCode AcceptedSocket),
      (∀ accepted ∈ completions, Serves options accepted) →
        ∃ s', exec (step options) s completions = some s' ∧ Listening s' := by
  refine ⟨h.step options, fun completions => ?_⟩
  induction completions generalizing s with
  | nil => exact fun _ => ⟨s, rfl, h⟩
  | cons accepted completions ih =>
      intro hserves
      obtain ⟨s₁, hstep, -, hlistening⟩ := h.step options accepted
      obtain ⟨s', hrun, hs'⟩ := ih s₁ (hlistening.mpr (hserves accepted List.mem_cons_self))
        fun a ha => hserves a (List.mem_cons_of_mem _ ha)
      exact ⟨s', exec_cons_eq_some.mpr ⟨s₁, hstep, hrun⟩, hs'⟩

/-- A server after `activate`, without sinks. -/
def activated : State Bytes :=
  ⟨⟨⟨true, true, ⟨.empty, fun _ => .push ⟨⟨.predicateList [], false⟩, []⟩, fun _ => false⟩, [],
    fun _ => .accepted⟩, 0, 1, false⟩, none⟩

theorem listening_activated : Listening activated where
  escaped := rfl
  accepts := rfl
  shutdown := rfl
  listed := ⟨fun c hc => absurd hc (by simp [activated]),
    fun c hc => absurd hc (by simp [activated]), fun c hc => absurd hc (by simp [activated])⟩

def brokenPipe : Fault := .thrown ⟨.other, bytes "write: Broken pipe"⟩

/-- A peer that disconnects before the handshake is written ends the accept loop. -/
theorem not_listening_brokenPipe :
    ∃ s', step ⟨false, false⟩ activated (.ok ⟨.ok (), .ok (), .error brokenPipe⟩) = some s' ∧
      s'.escaped = some brokenPipe ∧ s'.server.accepts = 0 ∧
      ∀ accepted, step ⟨false, false⟩ s' accepted = none :=
  ⟨_, rfl, rfl, rfl, fun _ => rfl⟩

/-- An error, then a good connection. -/
theorem accept_loop_survives_iff_activated :
    ∃ s', exec (step ⟨true, true⟩) activated
        [.error .other, .ok ⟨.ok (), .ok (), .ok ()⟩] = some s' ∧
      s'.server.accepts = 1 ∧ s'.server.bus.connections = [0] := by
  obtain ⟨s', hrun, hs'⟩ := (accept_loop_survives_iff ⟨true, true⟩ activated
    listening_activated).2 [.error .other, .ok ⟨.ok (), .ok (), .ok ()⟩]
      (by simp [Serves])
  refine ⟨s', hrun, hs'.accepts, ?_⟩
  obtain rfl := Option.some.inj hrun
  rfl

end AcceptLoop

end Rsb.Transport.Socket
