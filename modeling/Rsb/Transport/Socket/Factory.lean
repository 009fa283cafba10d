import Rsb.Event
import Rsb.Library.InPlace
import Rsb.Library.Runs

/-!
Finding and making buses (`transport/socket/Factory.cpp`).

The factory keeps weak pointers to the buses it has made, by endpoint, in one registry
for clients and one for servers. A request takes a live bus from the registry of its
mode, or makes a new one. Resolving names, connecting, the handshake and binding a port
are answered by the environment.

Buses and connections are known by numbers. A bus is released when the last connector
lets go of it; its connection may be lost before that, and the bus then has none.
-/

namespace Rsb.Transport.Socket

open Library Library.InPlace

/-- `std::pair<std::string, boost::uint16_t>`. -/
abbrev Endpoint := Bytes ×ₗ UInt16

def Endpoint.of (host : Bytes) (port : UInt16) : Endpoint := toLex (host, port)

/-- `connections` is the list of a bus for as long as it lives. -/
structure BusImpl where
  alive : Bool
  isServer : Bool
  tcpnodelay : Bool
  connections : List ℕ

/-- `BusImpl::getTransportURL`, given the URLs of the connections. -/
def BusImpl.getTransportURL (url : ℕ → Bytes) (b : BusImpl) : Except Fault Bytes :=
  match b.connections with
  | [c] => .ok (url c)
  | _ => .error .assertion

abbrev Registry := SortedMap Endpoint ℕ

/-- `made` and `connected` number the buses and connections. -/
structure Factory where
  busClients : Registry
  busServers : Registry
  buses : ℕ → BusImpl
  made : ℕ
  connected : ℕ

inductive ServerMode
  | no | yes | auto
  deriving DecidableEq

structure Request where
  serverMode : ServerMode
  host : Bytes
  port : UInt16
  tcpnodelay : Bool

/-- What the environment answers during one request. An error is the text of the
exception. The name is resolved twice, for the lookup and for the connection; in the
second list stands whether the endpoint can be connected to. -/
structure Answers where
  resolve : Except Bytes (List Bytes)
  connect : Except Bytes (List (Bytes × Bool))
  handshake : Except Bytes Unit
  bind : Except Bytes Unit

/-- `boost::system::system_error`. -/
def systemError {α : Type} : Except Bytes α → Except Fault α :=
  Except.mapError fun what => .thrown ⟨.other, what⟩

namespace Factory

def optionsConflict (requested existing : Bool) : Fault :=
  let print (b : Bool) : Bytes := if b then bytes "1" else bytes "0"
  invalidArgument (bytes "Requested tcpnodelay option " ++ print requested ++
    bytes " does not match existing option " ++ print existing)

def checkOptions (bus : BusImpl) (tcpnodelay : Bool) : Except Fault Unit :=
  if bus.tcpnodelay ≠ tcpnodelay then .error (optionsConflict tcpnodelay bus.tcpnodelay)
  else .ok ()

def searchInMap (buses : ℕ → BusImpl) (endpoint : Endpoint) (tcpnodelay : Bool) :
    InPlace Fault Registry (Option ℕ) := do
  let map ← get
  match map.find? endpoint with
  | some b =>
      if (buses b).alive then
        ofExcept (checkOptions (buses b) tcpnodelay)
        return some b
      else
        set (map.erase endpoint)
        return none
  | none => return none

def searchClients (endpoint : Endpoint) (tcpnodelay : Bool) : InPlace Fault Factory (Option ℕ) := do
  let s ← get
  onPart busClients (fun s busClients => { s with busClients })
    (searchInMap s.buses endpoint tcpnodelay)

def searchServers (endpoint : Endpoint) (tcpnodelay : Bool) : InPlace Fault Factory (Option ℕ) := do
  let s ← get
  onPart busServers (fun s busServers => { s with busServers })
    (searchInMap s.buses endpoint tcpnodelay)

/-- The loop over the resolved endpoints. -/
def searchResolved (port : UInt16) (tcpnodelay : Bool) :
    List Bytes → InPlace Fault Factory (Option ℕ)
  | [] => return none
  | host :: hosts => do
      match ← searchClients (Endpoint.of host port) tcpnodelay with
      | some b => return some b
      | none => searchResolved port tcpnodelay hosts

/-- A new bus without connections. -/
def makeBus (isServer tcpnodelay : Bool) (s : Factory) : Factory :=
  { s with
    buses := Function.update s.buses s.made ⟨true, isServer, tcpnodelay, []⟩
    made := s.made + 1 }

def modifyBus (b : ℕ) (f : BusImpl → BusImpl) (s : Factory) : Factory :=
  { s with buses := Function.update s.buses b (f (s.buses b)) }

/-- The last pointer to the bus is gone. -/
def releaseBus (b : ℕ) (s : Factory) : Factory :=
  s.modifyBus b fun bus => { bus with alive := false, connections := [] }

/-- A new connection in the list of the bus. -/
def addConnection (b : ℕ) (s : Factory) : Factory :=
  { s.modifyBus b fun bus => { bus with connections := bus.connections ++ [s.connected] } with
    connected := s.connected + 1 }

def removeConnection (b c : ℕ) (s : Factory) : Factory :=
  s.modifyBus b fun bus => { bus with connections := bus.connections.filter (· ≠ c) }

/-- From the endpoint that could be connected to on. -/
def makeClient (answers : Answers) (endpoint : Endpoint) (tcpnodelay : Bool) :
    InPlace Fault Factory ℕ := do
  let b := (← get).made
  modify (makeBus false tcpnodelay)
  modify fun s => { s with busClients := s.busClients.insert endpoint b }
  match systemError answers.handshake with
  | .error f =>
      -- the exception takes the only pointer to the bus with it
      modify (releaseBus b)
      throw f
  | .ok () =>
      modify (addConnection b)
      return b

def getBusClientFor (answers : Answers) (host : Bytes) (port : UInt16) (tcpnodelay : Bool) :
    InPlace Fault Factory ℕ := do
  match ← searchClients (Endpoint.of host port) tcpnodelay with
  | some b => return b
  | none =>
      let hosts ← ofExcept (systemError answers.resolve)
      match ← searchResolved port tcpnodelay hosts with
      | some b => return b
      | none =>
          let hosts ← ofExcept (systemError answers.connect)
          match hosts.find? (·.2) with
          | none =>
              throw (.thrown ⟨.runtimeError, bytes "Could not connect to any of the endpoints to which " ++
                host ++ bytes ":" ++ decimal port.toNat ++ bytes " resolved."⟩)
          | some (host, _) => makeClient answers (Endpoint.of host port) tcpnodelay

def getBusServerFor (answers : Answers) (host : Bytes) (port : UInt16) (tcpnodelay : Bool) :
    InPlace Fault Factory ℕ := do
  let endpoint := Endpoint.of host port
  match ← searchServers endpoint tcpnodelay with
  | some b => return b
  | none =>
      ofExcept (systemError answers.bind)
      let b := (← get).made
      modify (makeBus true tcpnodelay)
      modify fun s => { s with busServers := s.busServers.insert endpoint b }
      return b

def getBus (answers : Answers) (r : Request) : InPlace Fault Factory ℕ :=
  match r.serverMode with
  | .no => getBusClientFor answers r.host r.port r.tcpnodelay
  | .yes => getBusServerFor answers r.host r.port r.tcpnodelay
  | .auto => fun s =>
      match getBusServerFor answers r.host r.port r.tcpnodelay s with
      -- whatever exception it was
      | .error (.thrown _) s => getBusClientFor answers r.host r.port r.tcpnodelay s
      | result => result

/-! ### Lookups -/

/-- The live bus that a registry holds for an endpoint. -/
def liveIn (buses : ℕ → BusImpl) (registry : Registry) (e : Endpoint) : Option ℕ :=
  (registry.find? e).filter fun b => (buses b).alive

/-- The registries hold the same live buses. -/
def SameLive (buses : ℕ → BusImpl) (registry registry' : Registry) : Prop :=
  ∀ e, liveIn buses registry' e = liveIn buses registry e

/-- Dead buses have been forgotten. -/
structure Trimmed (buses : ℕ → BusImpl) (registry registry' : Registry) : Prop where
  live : SameLive buses registry registry'
  entries : ∀ e b, registry'.find? e = some b → registry.find? e = some b

theorem Trimmed.refl (buses : ℕ → BusImpl) (registry : Registry) :
    Trimmed buses registry registry := ⟨fun _ => rfl, fun _ _ h => h⟩

theorem Trimmed.trans {buses : ℕ → BusImpl} {registry registry' registry'' : Registry}
    (h : Trimmed buses registry registry') (h' : Trimmed buses registry' registry'') :
    Trimmed buses registry registry'' :=
  ⟨fun e => (h'.live e).trans (h.live e), fun e b hb => h.entries e b (h'.entries e b hb)⟩

/-- The bus that was found, if its options are the requested ones. -/
def lookup (buses : ℕ → BusImpl) (tcpnodelay : Bool) : Option ℕ → Except Fault (Option ℕ)
  | none => .ok none
  | some b => (checkOptions (buses b) tcpnodelay).map fun _ => some b

theorem lookup_some (buses : ℕ → BusImpl) (tcpnodelay : Bool) (b : ℕ) :
    lookup buses tcpnodelay (some b) =
      if (buses b).tcpnodelay = tcpnodelay then .ok (some b)
      else .error (optionsConflict tcpnodelay (buses b).tcpnodelay) := by
  by_cases h : (buses b).tcpnodelay = tcpnodelay <;> simp [lookup, checkOptions, h, Except.map]

theorem liveIn_eq_some_iff {buses : ℕ → BusImpl} {registry : Registry} {e : Endpoint} {b : ℕ} :
    liveIn buses registry e = some b ↔ registry.find? e = some b ∧ (buses b).alive = true := by
  simp [liveIn, Option.filter_eq_some_iff]

/-- A search returns the live bus, and forgets a dead one. -/
theorem run_searchInMap (buses : ℕ → BusImpl) (e : Endpoint) (tcpnodelay : Bool)
    (registry : Registry) :
    ∃ registry', Trimmed buses registry registry' ∧
      (searchInMap buses e tcpnodelay).run registry =
        result (lookup buses tcpnodelay (liveIn buses registry e)) registry' := by
  cases hfind : registry.find? e with
  | none =>
      have hlive : liveIn buses registry e = none := by simp [liveIn, hfind]
      refine ⟨registry, .refl _ _, ?_⟩
      simp [searchInMap, hfind, hlive, lookup, result]
  | some b =>
      by_cases halive : (buses b).alive = true
      · have hlive : liveIn buses registry e = some b := liveIn_eq_some_iff.mpr ⟨hfind, halive⟩
        refine ⟨registry, .refl _ _, ?_⟩
        simp only [searchInMap, EStateM.run_bind, EStateM.run_get, hfind, halive, if_true,
          run_ofExcept, hlive, lookup]
        cases checkOptions (buses b) tcpnodelay <;> rfl
      · have hlive : liveIn buses registry e = none := by simp [liveIn, hfind, halive]
        refine ⟨registry.erase e, ⟨fun e' => ?_, fun e' b' hb' => ?_⟩, ?_⟩
        · rw [liveIn, SortedMap.find?_erase]
          split_ifs with heq
          · rw [heq, hlive]
            rfl
          · rfl
        · rw [SortedMap.find?_erase] at hb'
          split_ifs at hb'
          exact hb'
        · simp only [searchInMap, EStateM.run_bind, EStateM.run_get, hfind, halive,
            Bool.false_eq_true, if_false, hlive]
          rfl

theorem run_searchClients (e : Endpoint) (tcpnodelay : Bool) (s : Factory) :
    ∃ busClients, Trimmed s.buses s.busClients busClients ∧
      (searchClients e tcpnodelay).run s =
        result (lookup s.buses tcpnodelay (liveIn s.buses s.busClients e)) { s with busClients } := by
  obtain ⟨busClients, htrimmed, hrun⟩ := run_searchInMap s.buses e tcpnodelay s.busClients
  refine ⟨busClients, htrimmed, ?_⟩
  rw [searchClients, EStateM.run_bind, EStateM.run_get]
  exact run_onPart hrun

theorem run_searchServers (e : Endpoint) (tcpnodelay : Bool) (s : Factory) :
    ∃ busServers, Trimmed s.buses s.busServers busServers ∧
      (searchServers e tcpnodelay).run s =
        result (lookup s.buses tcpnodelay (liveIn s.buses s.busServers e)) { s with busServers } := by
  obtain ⟨busServers, htrimmed, hrun⟩ := run_searchInMap s.buses e tcpnodelay s.busServers
  refine ⟨busServers, htrimmed, ?_⟩
  rw [searchServers, EStateM.run_bind, EStateM.run_get]
  exact run_onPart hrun

/-- The first live bus for one of the endpoints. -/
def firstLive (buses : ℕ → BusImpl) (registry : Registry) (endpoints : List Endpoint) : Option ℕ :=
  endpoints.findSome? (liveIn buses registry)

theorem SameLive.firstLive {buses : ℕ → BusImpl} {registry registry' : Registry}
    (h : SameLive buses registry registry') (endpoints : List Endpoint) :
    firstLive buses registry' endpoints = firstLive buses registry endpoints := by
  rw [Factory.firstLive, funext h]
  rfl

theorem firstLive_cons (buses : ℕ → BusImpl) (registry : Registry) (e : Endpoint)
    (endpoints : List Endpoint) :
    firstLive buses registry (e :: endpoints) =
      (liveIn buses registry e).or (firstLive buses registry endpoints) := by
  rw [firstLive, List.findSome?_cons]
  cases liveIn buses registry e <;> rfl

/-- The loop returns the first live bus. -/
theorem run_searchResolved (port : UInt16) (tcpnodelay : Bool) (hosts : List Bytes) (s : Factory) :
    ∃ busClients, Trimmed s.buses s.busClients busClients ∧
      (searchResolved port tcpnodelay hosts).run s =
        result (lookup s.buses tcpnodelay
          (firstLive s.buses s.busClients (hosts.map (Endpoint.of · port)))) { s with busClients } := by
  induction hosts generalizing s with
  | nil => exact ⟨s.busClients, .refl _ _, rfl⟩
  | cons host hosts ih =>
      obtain ⟨busClients, htrimmed, hrun⟩ := run_searchClients (Endpoint.of host port) tcpnodelay s
      rw [List.map_cons, firstLive_cons, searchResolved, run_bind hrun]
      cases hlive : liveIn s.buses s.busClients (Endpoint.of host port) with
      | some b =>
          refine ⟨busClients, htrimmed, ?_⟩
          rw [Option.some_or, lookup_some]
          split_ifs <;> rfl
      | none =>
          obtain ⟨busClients', htrimmed', hrun'⟩ := ih { s with busClients }
          refine ⟨busClients', htrimmed.trans htrimmed', ?_⟩
          rw [htrimmed.live.firstLive] at hrun'
          exact hrun'

/-! ### What a request can return -/

/-- The endpoints that are looked up for a client, in this order. -/
def endpoints (answers : Answers) (host : Bytes) (port : UInt16) : List Endpoint :=
  Endpoint.of host port ::
    match answers.resolve with
    | .ok hosts => hosts.map (Endpoint.of · port)
    | .error _ => []

/-- A request for a client takes the first live bus there is, or makes a new one, or
throws because something outside has failed. -/
theorem run_getBusClientFor (answers : Answers) (host : Bytes) (port : UInt16) (tcpnodelay : Bool)
    (s : Factory) :
    ∃ busClients, Trimmed s.buses s.busClients busClients ∧
      match firstLive s.buses s.busClients (endpoints answers host port) with
      | some b => (getBusClientFor answers host port tcpnodelay).run s =
          result ((checkOptions (s.buses b) tcpnodelay).map fun _ => b) { s with busClients }
      | none =>
          (∃ e, e.type ≠ .invalidArgument ∧ (getBusClientFor answers host port tcpnodelay).run s =
            .error (.thrown e) { s with busClients }) ∨
          ∃ endpoint, (getBusClientFor answers host port tcpnodelay).run s =
            (makeClient answers endpoint tcpnodelay).run { s with busClients } := by
  obtain ⟨busClients, htrimmed, hrun⟩ := run_searchClients (Endpoint.of host port) tcpnodelay s
  rw [endpoints, firstLive_cons, getBusClientFor, run_bind hrun]
  cases hlive : liveIn s.buses s.busClients (Endpoint.of host port) with
  | some b =>
      refine ⟨busClients, htrimmed, ?_⟩
      simp only [Option.some_or, lookup]
      cases checkOptions (s.buses b) tcpnodelay <;> rfl
  | none =>
      simp only [lookup, Option.none_or, run_bind (run_ofExcept _ _)]
      cases hresolve : answers.resolve with
      | error what => exact ⟨busClients, htrimmed, .inl ⟨⟨.other, what⟩, by simp, rfl⟩⟩
      | ok hosts =>
          obtain ⟨busClients', htrimmed', hrun'⟩ :=
            run_searchResolved port tcpnodelay hosts { s with busClients }
          rw [htrimmed.live.firstLive] at hrun'
          refine ⟨busClients', htrimmed.trans htrimmed', ?_⟩
          simp only [systemError, Except.mapError, run_bind hrun']
          cases firstLive s.buses s.busClients (hosts.map (Endpoint.of · port)) with
          | some b =>
              simp only [lookup]
              cases checkOptions (s.buses b) tcpnodelay <;> rfl
          | none =>
              simp only [lookup, run_bind (run_ofExcept _ _)]
              cases answers.connect with
              | error what => exact .inl ⟨⟨.other, what⟩, by simp, rfl⟩
              | ok hosts =>
                  dsimp only
                  cases hosts.find? (·.2) with
                  | none =>
                      refine .inl ⟨_, ?_, rfl⟩
                      simp
                  | some entry => exact .inr ⟨_, rfl⟩

/-- A bus that is made for the endpoint, before it has a connection. -/
def addClient (e : Endpoint) (tcpnodelay : Bool) (s : Factory) : Factory :=
  { makeBus false tcpnodelay s with busClients := s.busClients.insert e s.made }

def addServer (e : Endpoint) (tcpnodelay : Bool) (s : Factory) : Factory :=
  { makeBus true tcpnodelay s with busServers := s.busServers.insert e s.made }

theorem run_makeClient (answers : Answers) (e : Endpoint) (tcpnodelay : Bool) (s : Factory) :
    (∃ what, (makeClient answers e tcpnodelay).run s =
      .error (.thrown ⟨.other, what⟩) (releaseBus s.made (addClient e tcpnodelay s))) ∨
    (makeClient answers e tcpnodelay).run s =
      .ok s.made (addConnection s.made (addClient e tcpnodelay s)) := by
  rw [makeClient]
  cases answers.handshake with
  | error what => exact .inl ⟨what, rfl⟩
  | ok _ => exact .inr rfl

/-- A request for a server takes the live bus there is, or makes a new one, or throws
because the port cannot be bound. -/
theorem run_getBusServerFor (answers : Answers) (host : Bytes) (port : UInt16) (tcpnodelay : Bool)
    (s : Factory) :
    ∃ busServers, Trimmed s.buses s.busServers busServers ∧
      match liveIn s.buses s.busServers (Endpoint.of host port) with
      | some b => (getBusServerFor answers host port tcpnodelay).run s =
          result ((checkOptions (s.buses b) tcpnodelay).map fun _ => b) { s with busServers }
      | none => (getBusServerFor answers host port tcpnodelay).run s =
          match answers.bind with
          | .error what => .error (.thrown ⟨.other, what⟩) { s with busServers }
          | .ok () => .ok s.made
              (addServer (Endpoint.of host port) tcpnodelay { s with busServers }) := by
  obtain ⟨busServers, htrimmed, hrun⟩ := run_searchServers (Endpoint.of host port) tcpnodelay s
  refine ⟨busServers, htrimmed, ?_⟩
  rw [getBusServerFor, run_bind hrun]
  cases hlive : liveIn s.buses s.busServers (Endpoint.of host port) with
  | some b =>
      simp only [lookup]
      cases checkOptions (s.buses b) tcpnodelay <;> rfl
  | none =>
      simp only [lookup]
      cases answers.bind <;> rfl

/-- The request ends up with `getBusClientFor`: as a client, or because there is no
server to be had for it. -/
def fallsBack (answers : Answers) (r : Request) (s : Factory) : Bool :=
  match r.serverMode with
  | .no => true
  | .yes => false
  | .auto =>
      match liveIn s.buses s.busServers (Endpoint.of r.host r.port) with
      | some b => (s.buses b).tcpnodelay != r.tcpnodelay
      | none =>
          match answers.bind with
          | .ok () => false
          | .error _ => true

/-- In `auto` mode every exception leads to the client. -/
theorem run_getBus (answers : Answers) (r : Request) (s : Factory) :
    ∃ busServers, Trimmed s.buses s.busServers busServers ∧
      (getBus answers r).run s =
        if fallsBack answers r s then
          (getBusClientFor answers r.host r.port r.tcpnodelay).run { s with busServers }
        else (getBusServerFor answers r.host r.port r.tcpnodelay).run s := by
  cases hmode : r.serverMode with
  | no =>
      refine ⟨s.busServers, .refl _ _, ?_⟩
      simp [getBus, fallsBack, hmode]
  | yes =>
      refine ⟨s.busServers, .refl _ _, ?_⟩
      simp [getBus, fallsBack, hmode]
  | auto =>
      obtain ⟨busServers, htrimmed, hserver⟩ :=
        run_getBusServerFor answers r.host r.port r.tcpnodelay s
      refine ⟨busServers, htrimmed, ?_⟩
      simp only [EStateM.run] at hserver ⊢
      simp only [getBus, hmode, fallsBack]
      cases hlive : liveIn s.buses s.busServers (Endpoint.of r.host r.port) with
      | some b =>
          simp only [hlive] at hserver
          by_cases hoptions : (s.buses b).tcpnodelay = r.tcpnodelay
          · simp [hserver, checkOptions, hoptions, Except.map, result]
          · simp [hserver, checkOptions, hoptions, Except.map, result, optionsConflict,
              invalidArgument]
      | none =>
          simp only [hlive] at hserver
          cases hbind : answers.bind with
          | ok _ => simp [hserver, hbind]
          | error what => simp [hserver, hbind]

/-- The live bus that the request comes upon in the registries. -/
def held (answers : Answers) (r : Request) (s : Factory) : Option ℕ :=
  if fallsBack answers r s then
    firstLive s.buses s.busClients (endpoints answers r.host r.port)
  else liveIn s.buses s.busServers (Endpoint.of r.host r.port)

/-- What a request can do. -/
inductive Outcome (answers : Answers) (r : Request) (s : Factory) :
    EStateM.Result Fault Factory ℕ → Prop
  | found {b : ℕ} {busClients busServers : Registry}
      (hheld : held answers r s = some b) (hoptions : (s.buses b).tcpnodelay = r.tcpnodelay)
      (hclients : Trimmed s.buses s.busClients busClients)
      (hservers : Trimmed s.buses s.busServers busServers) :
      Outcome answers r s (.ok b { s with busClients, busServers })
  | conflict {b : ℕ} {busClients busServers : Registry}
      (hheld : held answers r s = some b) (hoptions : (s.buses b).tcpnodelay ≠ r.tcpnodelay)
      (hclients : Trimmed s.buses s.busClients busClients)
      (hservers : Trimmed s.buses s.busServers busServers) :
      Outcome answers r s (.error (optionsConflict r.tcpnodelay (s.buses b).tcpnodelay)
        { s with busClients, busServers })
  | failed {e : Exception} {busClients busServers : Registry}
      (hheld : held answers r s = none) (htype : e.type ≠ .invalidArgument)
      (hclients : Trimmed s.buses s.busClients busClients)
      (hservers : Trimmed s.buses s.busServers busServers) :
      Outcome answers r s (.error (.thrown e) { s with busClients, busServers })
  | madeClient {e : Endpoint} {busClients busServers : Registry}
      (hheld : held answers r s = none)
      (hclients : Trimmed s.buses s.busClients busClients)
      (hservers : Trimmed s.buses s.busServers busServers) :
      Outcome answers r s (.ok s.made
        (addConnection s.made (addClient e r.tcpnodelay { s with busClients, busServers })))
  | lostClient {e : Endpoint} {what : Bytes} {busClients busServers : Registry}
      (hheld : held answers r s = none)
      (hclients : Trimmed s.buses s.busClients busClients)
      (hservers : Trimmed s.buses s.busServers busServers) :
      Outcome answers r s (.error (.thrown ⟨.other, what⟩)
        (releaseBus s.made (addClient e r.tcpnodelay { s with busClients, busServers })))
  | madeServer {e : Endpoint} {busServers : Registry}
      (hheld : held answers r s = none)
      (hservers : Trimmed s.buses s.busServers busServers) :
      Outcome answers r s (.ok s.made (addServer e r.tcpnodelay { s with busServers }))

theorem outcome_getBus (answers : Answers) (r : Request) (s : Factory) :
    Outcome answers r s ((getBus answers r).run s) := by
  obtain ⟨busServers, hservers, hrun⟩ := run_getBus answers r s
  rw [hrun]
  split_ifs with hfalls
  · obtain ⟨busClients, hclients, hclient⟩ :=
      run_getBusClientFor answers r.host r.port r.tcpnodelay { s with busServers }
    have hheld : held answers r s =
        firstLive s.buses s.busClients (endpoints answers r.host r.port) := by
      rw [held, if_pos hfalls]
    cases hfirst : firstLive s.buses s.busClients (endpoints answers r.host r.port) with
    | some b =>
        simp only [hfirst] at hclient
        rw [hclient]
        by_cases hoptions : (s.buses b).tcpnodelay = r.tcpnodelay
        · rw [checkOptions, if_neg (not_not.mpr hoptions)]
          exact .found (hheld.trans hfirst) hoptions hclients hservers
        · rw [checkOptions, if_pos hoptions]
          exact .conflict (hheld.trans hfirst) hoptions hclients hservers
    | none =>
        simp only [hfirst] at hclient
        rcases hclient with ⟨e, htype, hclient⟩ | ⟨e, hclient⟩
        · rw [hclient]
          exact .failed (hheld.trans hfirst) htype hclients hservers
        · rw [hclient]
          rcases run_makeClient answers e r.tcpnodelay { s with busClients, busServers } with
            ⟨what, hmake⟩ | hmake
          · rw [hmake]
            exact .lostClient (hheld.trans hfirst) hclients hservers
          · rw [hmake]
            exact .madeClient (hheld.trans hfirst) hclients hservers
  · obtain ⟨busServers, hservers, hserver⟩ :=
      run_getBusServerFor answers r.host r.port r.tcpnodelay s
    have hheld : held answers r s =
        liveIn s.buses s.busServers (Endpoint.of r.host r.port) := by
      rw [held, if_neg hfalls]
    cases hlive : liveIn s.buses s.busServers (Endpoint.of r.host r.port) with
    | some b =>
        simp only [hlive] at hserver
        rw [hserver]
        by_cases hoptions : (s.buses b).tcpnodelay = r.tcpnodelay
        · rw [checkOptions, if_neg (not_not.mpr hoptions)]
          exact .found (hheld.trans hlive) hoptions (.refl _ _) hservers
        · rw [checkOptions, if_pos hoptions]
          exact .conflict (hheld.trans hlive) hoptions (.refl _ _) hservers
    | none =>
        simp only [hlive] at hserver
        rw [hserver]
        cases answers.bind with
        | ok _ => exact .madeServer (hheld.trans hlive) hservers
        | error what => exact .failed (hheld.trans hlive) (by simp) (.refl _ _) hservers

end Factory

end Rsb.Transport.Socket
