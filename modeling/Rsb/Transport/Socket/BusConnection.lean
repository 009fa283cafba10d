import Rsb.EventProcessing.ScopeDispatcher
import Rsb.Transport.Socket.Connectors
import Mathlib.Logic.Function.Basic

/-!
A bus and its connections (`BusConnection.cpp`, `BusImpl.cpp`,
`BusServerImpl.cpp`), as one thread executes them.

Connections and sinks are known by numbers. A function that may fail half-way
returns its result together with the state it leaves. What the functions get
from outside stands in an `Environment`: the generated protobuf functions, the
clock, and whether a buffer of a given size can be allocated.
-/

namespace Rsb.Transport.Socket

open Library Protocol

variable {δ : Type}

/-- An asynchronous read: of a header, or of a body of a known size. -/
inductive Read
  | length
  | body (expected : ℕ)
  deriving DecidableEq

/-- `boost::system::error_code`. -/
inductive ErrorCode
  | success | eof | other
  deriving DecidableEq

/-- What a completion handler finds: its arguments and the receive buffer. -/
structure Completion where
  error : ErrorCode
  bytesTransferred : ℕ
  buffer : Bytes
  deriving DecidableEq

/-! ### Headers -/

/-- `lengthSendBuffer` as `sendEvent` fills it. -/
def encodeLength (length : UInt32) : Bytes :=
  [((length &&& 0x000000ff) >>> 0).toUInt8, ((length &&& 0x0000ff00) >>> 8).toUInt8,
    ((length &&& 0x00ff0000) >>> 16).toUInt8, ((length &&& 0xff000000) >>> 24).toUInt8]

/-- The size `handleReadLength` computes from `lengthReceiveBuffer`, which has
four elements whatever part of them was received. -/
def decodeLength (lengthReceiveBuffer : Bytes) : UInt32 :=
  ((lengthReceiveBuffer.getD 0 0).toUInt32 <<< 0) |||
    ((lengthReceiveBuffer.getD 1 0).toUInt32 <<< 8) |||
    ((lengthReceiveBuffer.getD 2 0).toUInt32 <<< 16) |||
    ((lengthReceiveBuffer.getD 3 0).toUInt32 <<< 24)

/-! ### One connection -/

/-- `written` is what has been sent over the socket. Once the peer is gone, a
write to the socket throws. -/
structure BusConnection where
  socketOpen : Bool
  peerGone : Bool
  disconnecting : Bool
  activeShutdown : Bool
  pending : List Read
  written : Bytes
  deriving DecidableEq

namespace BusConnection

def shutdown (c : BusConnection) : BusConnection := { c with activeShutdown := true }

def disconnect (c : BusConnection) : BusConnection :=
  { c with disconnecting := true, socketOpen := false }

/-- `receiveEvent`: start reading a header. -/
def receiveEvent (c : BusConnection) : BusConnection :=
  { c with pending := c.pending ++ [.length] }

/-- The second half of `sendEvent`, from the serialized notification on. -/
def sendMessage (c : BusConnection) (message : Bytes) : Except Fault BusConnection :=
  let length := UInt32.ofNat message.length
  if c.activeShutdown then .ok c
  else if c.peerGone || !c.socketOpen then
    .error (.thrown ⟨.other, bytes "write: Broken pipe"⟩)
  else .ok { c with written := c.written ++ encodeLength length ++ message }

def sendEvent (protobuf : Protobuf) (c : BusConnection) (event : Event Bytes)
    (wireSchema : Bytes) : Except Fault BusConnection := do
  let data ← deref event.content
  let notification ← eventToNotification event wireSchema data
  c.sendMessage (protobuf.serializeToString notification)

end BusConnection

/-! ### The bus -/

structure Environment where
  protobuf : Protobuf
  /-- The clock while a notification is turned into an event. -/
  clock : Clock
  /-- The clock when a sink takes up an event. -/
  now : ℕ → UInt64
  /-- Whether `messageReceiveBuffer` can be resized to this size. -/
  allocates : ℕ → Bool

/-- The registered sinks and the connectors behind them. -/
structure Sinks (δ : Type) where
  sinkDispatcher : WeakScopeDispatcher ℕ
  connector : ℕ → InConnector δ
  alive : ℕ → Bool

/-- The loop of `mapSinks`: `handle` on one sink after the other, until one of
them throws. -/
def Sinks.call (now : ℕ → UInt64) (event : Event Bytes) :
    List ℕ → Sinks δ → Except Fault Unit × Sinks δ
  | [], s => (.ok (), s)
  | k :: ks, s =>
      match (s.connector k).handle (now k) event with
      | .error f => (.error f, s)
      | .ok c => Sinks.call now event ks { s with connector := Function.update s.connector k c }

def Sinks.mapSinks (now : ℕ → UInt64) (event : Event Bytes) (s : Sinks δ) :
    Except Fault Unit × Sinks δ :=
  match s.sinkDispatcher.mapSinks s.alive event.scope with
  | .error f => (.error f, s)
  | .ok ks => s.call now event ks

/-- The sinks that are to be handed an event. -/
def Sinks.targets (event : Event Bytes) (s : Sinks δ) : List ℕ :=
  s.sinkDispatcher.sinksAbove s.alive event.scope

theorem Sinks.mapSinks_eq (now : ℕ → UInt64) (event : Event Bytes) (s : Sinks δ) :
    s.mapSinks now event =
      if event.scope.SuperScopesFit then s.call now event (s.targets event)
      else (.error .writePastEnd, s) := by
  rw [mapSinks, WeakScopeDispatcher.mapSinks_eq]
  by_cases hfit : event.scope.SuperScopesFit
  · simp only [if_pos hfit]
    rfl
  · simp only [if_neg hfit]

/-- A bus with the connections that refer to it. These may outlive it: then the
bus is not `alive`. -/
structure Bus (δ : Type) where
  alive : Bool
  isServer : Bool
  sinks : Sinks δ
  connections : List ℕ
  connection : ℕ → BusConnection

namespace Bus

def modifyConnection (b : Bus δ) (c : ℕ) (f : BusConnection → BusConnection) : Bus δ :=
  { b with connection := Function.update b.connection c (f (b.connection c)) }

theorem connection_modifyConnection (b : Bus δ) (c c' : ℕ) (f : BusConnection → BusConnection) :
    (b.modifyConnection c f).connection c' =
      if c' = c then f (b.connection c) else b.connection c' := by
  simp [modifyConnection, Function.update_apply]

@[simp] theorem connection_modifyConnection_self (b : Bus δ) (c : ℕ)
    (f : BusConnection → BusConnection) :
    (b.modifyConnection c f).connection c = f (b.connection c) := by
  rw [connection_modifyConnection, if_pos rfl]

def addConnection (b : Bus δ) (c : ℕ) : Bus δ := { b with connections := b.connections ++ [c] }

def removeConnection (b : Bus δ) (c : ℕ) : Bus δ :=
  { b with connections := b.connections.filter (· ≠ c) }

/-- The loop over connections in `handle` and `handleIncoming`. A connection on
which sending throws is recorded, and the loop goes on. -/
def sendAll (send : BusConnection → Except Fault BusConnection) :
    List ℕ → Bus δ → Except Fault (List ℕ) × Bus δ
  | [], b => (.ok [], b)
  | c :: cs, b =>
      match send (b.connection c) with
      | .ok conn => sendAll send cs (b.modifyConnection c fun _ => conn)
      -- only exceptions are caught
      | .error (.thrown _) =>
          let (result, b) := sendAll send cs b
          (result.map (c :: ·), b)
      | .error f => (.error f, b)

/-- Send, then remove the connections that failed. -/
def dispatchToConnections (send : BusConnection → Except Fault BusConnection) (cs : List ℕ)
    (b : Bus δ) : Except Fault Unit × Bus δ :=
  match sendAll send cs b with
  | (.error f, b) => (.error f, b)
  | (.ok failing, b) => (.ok (), failing.foldl removeConnection b)

/-- The first half of `BusImpl::handle` and `BusImpl::handleIncoming`. -/
def dispatchToSinks (env : Environment) (event : Event Bytes) (b : Bus δ) :
    Except Fault Unit × Bus δ :=
  -- both functions compute the scopes for a message before `mapSinks` does
  match event.scope.object.superScopes true with
  | .error f => (.error f, b)
  | .ok _ =>
      let (result, sinks) := b.sinks.mapSinks env.now event
      (result, { b with sinks := sinks })

theorem dispatchToSinks_eq (env : Environment) (event : Event Bytes) (b : Bus δ) :
    b.dispatchToSinks env event =
      if event.scope.SuperScopesFit then
        ((b.sinks.call env.now event (b.sinks.targets event)).1,
          { b with sinks := (b.sinks.call env.now event (b.sinks.targets event)).2 })
      else (.error .writePastEnd, b) := by
  rw [dispatchToSinks, Scope.superScopes_object_eq, Sinks.mapSinks_eq]
  by_cases hfit : event.scope.SuperScopesFit
  · simp only [if_pos hfit]
  · simp only [if_neg hfit]

/-- `BusImpl::handle`. -/
def handle (env : Environment) (event : Event Bytes) (b : Bus δ) : Except Fault Unit × Bus δ :=
  match b.dispatchToSinks env event with
  | (.error f, b) => (.error f, b)
  | (.ok (), b) =>
      match event.metaData.getUserInfo wireSchemaKey with
      | .error f => (.error f, b)
      | .ok wireSchema =>
          b.dispatchToConnections (fun c => c.sendEvent env.protobuf event wireSchema)
            b.connections

/-- `BusImpl::handleIncoming`. -/
def handleIncoming (env : Environment) (event : Event Bytes) (b : Bus δ) :
    Except Fault Unit × Bus δ :=
  b.dispatchToSinks env event

/-- `BusServerImpl::handleIncoming`. -/
def serverHandleIncoming (env : Environment) (event : Event Bytes) (connection : ℕ) (b : Bus δ) :
    Except Fault Unit × Bus δ :=
  match b.handleIncoming env event with
  | (.error f, b) => (.error f, b)
  | (.ok (), b) =>
      b.dispatchToConnections
        (fun c => do
          let wireSchema ← event.metaData.getUserInfo wireSchemaKey
          c.sendEvent env.protobuf event wireSchema)
        (b.connections.filter (· ≠ connection))

/-- The virtual function `handleIncoming`. -/
def dispatchIncoming (env : Environment) (event : Event Bytes) (connection : ℕ) (b : Bus δ) :
    Except Fault Unit × Bus δ :=
  if b.isServer then b.serverHandleIncoming env event connection else b.handleIncoming env event

/-! ### Receiving -/

def performSafeCleanup (b : Bus δ) (c : ℕ) : Bus δ :=
  let b := if b.alive then b.removeConnection c else b
  if !(b.connection c).disconnecting then b.modifyConnection c (·.disconnect) else b

def handleReadLength (env : Environment) (b : Bus δ) (c : ℕ) (r : Completion) :
    Except Fault Unit × Bus δ :=
  if r.error = .eof then
    -- a peer that shuts down in good order waits for the same
    let b := if !(b.connection c).activeShutdown then b.modifyConnection c (·.shutdown) else b
    (.ok (), b.performSafeCleanup c)
  else if r.error ≠ .success ∨ r.bytesTransferred ≠ 4 then (.ok (), b.performSafeCleanup c)
  else
    let size := (decodeLength r.buffer).toNat
    if env.allocates size then
      (.ok (), b.modifyConnection c fun conn => { conn with pending := conn.pending ++ [.body size] })
    else (.error (.thrown ⟨.badAlloc, bytes "std::bad_alloc"⟩), b)

def handleReadBody (env : Environment) (b : Bus δ) (c : ℕ) (r : Completion) (expected : ℕ) :
    Except Fault Unit × Bus δ :=
  if r.error ≠ .success ∨ r.bytesTransferred ≠ expected then (.ok (), b.performSafeCleanup c)
  else
    match env.protobuf.parseFromString r.buffer with
    | none => (.ok (), b.performSafeCleanup c)
    | some notification =>
        match notificationToEvent env.clock notification true with
        -- no handler: the exception leaves `handleReadBody`
        | .error f => (.error f, b)
        | .ok event =>
            if b.alive then
              match b.dispatchIncoming env event c with
              | (.error f, b) => (.error f, b)
              | (.ok (), b) => (.ok (), b.modifyConnection c (·.receiveEvent))
            else (.ok (), b.performSafeCleanup c)

/-- The pending read of connection `c` completes and its handler is invoked. -/
def complete (env : Environment) (b : Bus δ) (c : ℕ) (r : Completion) :
    Option (Except Fault Unit × Bus δ) :=
  match (b.connection c).pending with
  | [] => none
  | read :: rest =>
      let b := b.modifyConnection c fun conn => { conn with pending := rest }
      match read with
      | .length => some (b.handleReadLength env c r)
      | .body expected => some (b.handleReadBody env c r expected)

end Bus

end Rsb.Transport.Socket
