import Rsb.EventProcessing.ScopeDispatcher
import Rsb.Library.Runs
import Mathlib.Logic.Function.Basic

/-!
The socket bus as a system of nodes (`BusImpl.cpp`, `BusServerImpl.cpp`).

One server node and any number of client nodes run `handle` for the events
published on them and `handleIncoming` for the notifications they receive. Both
functions do the same kind of thing: they call sinks of their node one after
the other, then send on connections one after the other. The functions are
therefore translated to the list of their outputs, and a run interleaves the
outputs of all calls that are under way. Before the first output they compute the scopes
above the one of the event. Where that writes past the end of a string, the run is over.

The locks of the source are left out. They only remove interleavings, and
without them a run may also contain calls made from within a sink: such a call
is one more thread that happens to run while the calling one is suspended. One
connection has one asynchronous read pending at a time, so one receive handler
per connection and direction is under way at most.
-/

namespace Rsb.Transport.Socket

open Library

inductive Node (Client : Type)
  | server
  | client (c : Client)
  deriving DecidableEq

/-- One direction of the connection between a client and the server. -/
inductive Link (Client : Type)
  | toServer (c : Client)
  | toClient (c : Client)
  deriving DecidableEq

/-- Where an output goes: to a sink of the node, or onto a link. -/
inductive Destination (Client Sink : Type)
  | sink (node : Node Client) (sink : Sink)
  | link (link : Link Client)
  deriving DecidableEq

/-- Who executes a call: a thread that publishes, or the handler that receives
from a link. -/
inductive Agent (Thread Client : Type)
  | publisher (thread : Thread)
  | receiver (link : Link Client)
  deriving DecidableEq

/-- A call of `handle` by a client of the bus: the event, of which routing reads
the scope, with the thread and the node it was published on. The serial number
tells publications of equal events apart. -/
structure Publication (Thread Client : Type) where
  serial : ℕ
  thread : Thread
  node : Node Client
  scope : Scope
  deriving DecidableEq

variable {Thread Client Sink : Type}

def Link.writer : Link Client → Node Client
  | .toServer c => .client c
  | .toClient _ => .server

def Link.reader : Link Client → Node Client
  | .toServer _ => .server
  | .toClient c => .client c

/-- The node whose calls produce outputs to this destination. -/
def Destination.node : Destination Client Sink → Node Client
  | .sink n _ => n
  | .link l => l.writer

/-- What stays fixed during a run: the connections of the server, one for each
client, and the sinks registered on each node, each registered once. A sink
whose last reference is gone may still be registered; it is not `alive`. -/
structure Topology (Client Sink : Type) where
  connections : List Client
  connections_nodup : connections.Nodup
  connections_complete : ∀ c, c ∈ connections
  registrations : Node Client → List (Scope × Sink)
  registrations_nodup : ∀ n, ((registrations n).map (·.2)).Nodup
  alive : Node Client → Sink → Bool

namespace Topology

variable (topo : Topology Client Sink)

/-- The sinks of node `n` that are to receive events on `scope`. -/
def Receives (n : Node Client) (k : Sink) (scope : Scope) : Prop :=
  topo.alive n k = true ∧ ∃ s, (s, k) ∈ topo.registrations n ∧ s.covers scope = true

/-- `sinkDispatcher.mapSinks(event->getScope(), ...)`. -/
def dispatch (n : Node Client) (scope : Scope) :
    Except Fault (List (Destination Client Sink)) := do
  let sinks ← (WeakScopeDispatcher.ofRegistrations (topo.registrations n)).mapSinks
    (topo.alive n) scope
  return sinks.map (.sink n)

/-- The connection list of a node: the server has one for each client, a client
the one to the server. -/
def getConnections : Node Client → List (Link Client)
  | .server => topo.connections.map .toClient
  | .client c => [.toServer c]

/-- `BusImpl::handle`: own sinks, then every connection. -/
def handle (n : Node Client) (p : Publication Thread Client) :
    Except Fault (List (Destination Client Sink)) := do
  let _ ← p.scope.object.superScopes true
  let sinks ← topo.dispatch n p.scope
  return sinks ++ (topo.getConnections n).map .link

/-- `BusImpl::handleIncoming`: own sinks only. -/
def handleIncoming (n : Node Client) (p : Publication Thread Client) :
    Except Fault (List (Destination Client Sink)) := do
  let _ ← p.scope.object.superScopes true
  topo.dispatch n p.scope

variable [DecidableEq Client]

/-- `BusServerImpl::handleIncoming`: own sinks, then every connection but the one
the event came from. -/
def serverHandleIncoming (p : Publication Thread Client) (connection : Client) :
    Except Fault (List (Destination Client Sink)) := do
  let sinks ← topo.handleIncoming .server p
  return sinks ++ ((topo.getConnections .server).filter (· ≠ .toClient connection)).map .link

/-- The outputs of the call an agent makes for `p`. -/
def plan (a : Agent Thread Client) (p : Publication Thread Client) :
    Except Fault (List (Destination Client Sink)) :=
  match a with
  | .publisher _ => topo.handle p.node p
  | .receiver (.toServer c) => topo.serverHandleIncoming p c
  | .receiver (.toClient c) => topo.handleIncoming (.client c) p

end Topology

/-- A call under way, with the outputs it has yet to make. -/
structure Activation (Thread Client Sink : Type) where
  event : Publication Thread Client
  todo : List (Destination Client Sink)

namespace Routing

/-- `published` and `received` are histories. `wire` holds the notifications in
flight on a link, `delivered` the calls of `handle` on a sink. Once a call has `overrun` a
string, nothing is known of the process any more. -/
structure State (Thread Client Sink : Type) where
  published : List (Publication Thread Client)
  running : Agent Thread Client → Option (Activation Thread Client Sink)
  wire : Link Client → List (Publication Thread Client)
  received : Link Client → List (Publication Thread Client)
  delivered : Node Client × Sink → List (Publication Thread Client)
  overrun : Bool

def State.init : State Thread Client Sink :=
  ⟨[], fun _ => none, fun _ => [], fun _ => [], fun _ => [], false⟩

inductive Label (Thread Client : Type)
  /-- `thread` calls `handle` on node `n` with an event on `scope`. -/
  | publish (thread : Thread) (n : Node Client) (scope : Scope)
  /-- The handler of a link takes the next notification. -/
  | receive (link : Link Client)
  /-- An agent makes the next output of its call. -/
  | output (a : Agent Thread Client)
  /-- The call of an agent returns. -/
  | finish (a : Agent Thread Client)

variable [DecidableEq Thread] [DecidableEq Client] [DecidableEq Sink]

/-- Call `handle` on the sink, or append the notification to the link. -/
def State.emit (s : State Thread Client Sink) (d : Destination Client Sink)
    (p : Publication Thread Client) : State Thread Client Sink :=
  match d with
  | .sink n k => { s with delivered := Function.update s.delivered (n, k) (s.delivered (n, k) ++ [p]) }
  | .link l => { s with wire := Function.update s.wire l (s.wire l ++ [p]) }

def State.setRunning (s : State Thread Client Sink) (a : Agent Thread Client)
    (act : Option (Activation Thread Client Sink)) : State Thread Client Sink :=
  { s with running := Function.update s.running a act }

/-- `p` is published. -/
def State.record (s : State Thread Client Sink) (p : Publication Thread Client) :
    State Thread Client Sink :=
  { s with published := s.published ++ [p] }

/-- `p` is taken from the link and leaves `rest` there. -/
def State.take (s : State Thread Client Sink) (l : Link Client) (p : Publication Thread Client)
    (rest : List (Publication Thread Client)) : State Thread Client Sink :=
  { s with wire := Function.update s.wire l rest
           received := Function.update s.received l (s.received l ++ [p]) }

/-- Agent `a` begins its call for `p`. -/
def State.start (topo : Topology Client Sink) (s : State Thread Client Sink)
    (a : Agent Thread Client) (p : Publication Thread Client) : State Thread Client Sink :=
  match topo.plan a p with
  | .ok todo => s.setRunning a (some ⟨p, todo⟩)
  | .error _ => { s with overrun := true }

def step (topo : Topology Client Sink) (s : State Thread Client Sink) :
    Label Thread Client → Option (State Thread Client Sink)
  | .publish t n scope =>
      match s.overrun, s.running (.publisher t) with
      | false, none =>
          let p : Publication Thread Client := ⟨s.published.length, t, n, scope⟩
          some ((s.record p).start topo (.publisher t) p)
      | _, _ => none
  | .receive l =>
      match s.overrun, s.running (.receiver l), s.wire l with
      | false, none, p :: rest => some ((s.take l p rest).start topo (.receiver l) p)
      | _, _, _ => none
  | .output a =>
      match s.overrun, s.running a with
      | false, some ⟨p, d :: todo⟩ => some ((s.emit d p).setRunning a (some ⟨p, todo⟩))
      | _, _ => none
  | .finish a =>
      match s.overrun, s.running a with
      | false, some ⟨_, []⟩ => some (s.setRunning a none)
      | _, _ => none

/-- All calls have returned and all notifications have been consumed. -/
def Quiescent (s : State Thread Client Sink) : Prop :=
  (∀ a, s.running a = none) ∧ ∀ l, s.wire l = []

end Routing

end Rsb.Transport.Socket
